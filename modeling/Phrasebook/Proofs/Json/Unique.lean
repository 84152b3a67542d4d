import Phrasebook.Json.Reader

/-! Objects that are read from a text have no field twice: `nodup_of_parse?`. A field that is met again is written in
its place. -/
namespace Phrasebook

namespace Keyed

variable {ν : Type} {key : String} {value : ν} {fields : List (String × ν)}

theorem keys_set : (set key value fields).map (·.1) =
    if key ∈ fields.map (·.1) then fields.map (·.1) else fields.map (·.1) ++ [key] := by
  induction fields with
  | nil => simp [set]
  | cons field rest ih =>
    obtain ⟨k,v⟩ := field
    by_cases here : k = key
    · simp [set,here]
    · rw [set,if_neg here,List.map_cons,ih]
      simp only [List.map_cons,List.mem_cons,Ne.symm here,false_or]
      split <;> rfl

theorem nodup_set (distinct : (fields.map (·.1)).Nodup) :
    ((set key value fields).map (·.1)).Nodup := by
  rw [keys_set]
  split
  · exact distinct
  next new =>
    rw [List.nodup_append]
    refine ⟨distinct,by simp,?_⟩
    rintro k member other last rfl
    rw [List.mem_singleton.mp last] at member
    exact new member

end Keyed

namespace Json

/-- No field of an object is there twice. -/
def Unique : Json → Prop
  | .object fields => (fields.map (·.1)).Nodup
  | _ => True

/-- What is read in front of a rest has no field twice. -/
def UniqueFront (read : Option (Json × List Char)) : Prop := ∀ found ∈ read, Unique found.1

theorem UniqueFront.none : UniqueFront none := nofun

theorem UniqueFront.some {json : Json} {rest : List Char} (unique : Unique json) : UniqueFront (some (json,rest)) := by
  rintro _ ⟨⟩
  exact unique

theorem UniqueFront.float? {negative : Bool} {n : Nat} {e : Int} {rest : List Char} :
    UniqueFront ((Json.float? negative n e).map (·,rest)) := by
  intro found read
  obtain ⟨json,value,rfl⟩ := Option.map_eq_some_iff.mp read
  obtain ⟨x,-,rfl⟩ := Option.map_eq_some_iff.mp value
  trivial

theorem UniqueFront.withExponent {negative : Bool} {n : Nat} {e : Int} {text : List Char} :
    UniqueFront (Json.withExponent negative n e text) := by
  have large {p q : Prop} [Decidable p] [Decidable q] {x : Float} {rest : List Char} {m : Int} :
      UniqueFront (if p then if q then Option.none else Option.some (Json.float x,rest)
        else (Json.float? negative n m).map (·,rest)) := by
    split
    · split
      · exact .none
      · exact .some trivial
    · exact .float?
  rw [Json.withExponent.eq_def]
  split
  next e rest =>
    split
    · simp only
      split
      all_goals
        split
        · exact .none
        · exact large
    · exact .float?
  next => exact .float?

theorem UniqueFront.withFraction {negative : Bool} {n : Nat} {e : Int} {text : List Char} :
    UniqueFront (Json.withFraction negative n e text) := by
  rw [Json.withFraction]
  dsimp only
  split
  · exact .none
  · exact .withExponent

theorem UniqueFront.whole {negative fits : Bool} {n surplus : Nat} {rest : List Char} :
    UniqueFront (number?.whole negative n fits surplus rest) := by
  rw [number?.whole]
  split
  · exact .float?
  · split
    · exact .some trivial
    · split
      · exact .some trivial
      · exact .some trivial

theorem UniqueFront.number? {negative : Bool} {text : List Char} : UniqueFront (Json.number? negative text) := by
  rw [Json.number?.eq_def]
  split
  · exact .none
  · split
    · exact .none
    · dsimp only
      split
      · exact .withFraction
      · split
        · exact .withExponent
        · exact .whole
      · exact .whole

theorem UniqueFront.items {fuel : Nat} {read : List Json} {text : List Char} : UniqueFront (Json.items fuel read text) := by
  induction fuel generalizing read text with
  | zero => exact .none
  | succ fuel ih =>
    rw [Json.items]
    intro found run
    obtain ⟨⟨item,rest⟩,-,run⟩ := Option.bind_eq_some_iff.mp run
    dsimp only at run
    split at run
    · exact ih _ run
    · cases run
      trivial
    · cases run

theorem UniqueFront.fields {fuel : Nat} {read : List (String × Json)} {text : List Char}
    (distinct : (read.map (·.1)).Nodup) : UniqueFront (Json.fields fuel read text) := by
  induction fuel generalizing read text with
  | zero => exact .none
  | succ fuel ih =>
    rw [Json.fields]
    intro found run
    split at run
    · obtain ⟨⟨key,rest⟩,-,run⟩ := Option.bind_eq_some_iff.mp run
      dsimp only at run
      split at run
      · obtain ⟨⟨item,rest⟩,-,run⟩ := Option.bind_eq_some_iff.mp run
        dsimp only at run
        split at run
        · exact ih (Keyed.nodup_set distinct) _ run
        · cases run
          exact Keyed.nodup_set distinct
        · cases run
      · cases run
    · cases run

theorem UniqueFront.value {fuel : Nat} {text : List Char} : UniqueFront (Json.value fuel text) := by
  cases fuel with
  | zero => exact .none
  | succ fuel =>
    rw [Json.value]
    split
    · exact .some trivial
    · exact .some trivial
    · exact .some trivial
    · intro found run
      obtain ⟨body,-,rfl⟩ := Option.map_eq_some_iff.mp run
      trivial
    · split
      · exact .some trivial
      · exact .items
    · split
      · exact .some .nil
      · exact .fields .nil
    · exact .number?
    · exact .number?

/-- An object that is read from a text has no field twice. -/
theorem nodup_of_parse? {text : String} {fields : List (String × Json)} (read : parse? text = some (.object fields)) :
    (fields.map (·.1)).Nodup := by
  rw [parse?] at read
  split at read
  next json rest run =>
    split at read
    · cases read
      exact UniqueFront.value _ run
    · cases read
  next => cases read

end Json

end Phrasebook
