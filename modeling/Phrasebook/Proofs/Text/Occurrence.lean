import Phrasebook.Proofs.Text.Placeholder

/-! The parameters of a message are its placeholders, all of them and each where it stands, however braces are nested
or left open: `mem_places_iff`. So the segments tell how the message reads once every placeholder is filled in:
`filled_segments`. -/
namespace Phrasebook

/-- What a segment becomes in a message that is filled in. -/
def Segment.filled (argument : String → String) : Segment → List Char
  | .literal text => text
  | .parameter name => (argument (String.ofList name)).toList

namespace Message

/-- A placeholder of this name opens at this place of the text. -/
def OccursAt (text : List Char) (place : Nat) (name : List Char) : Prop :=
  isIdentifier name = true ∧ ∃ before after, text = before ++ '\x7b' :: (name ++ '\x7d' :: after) ∧ before.length = place

/-- The parameters of some segments and the places of their opening braces; the first segment begins at `start`. -/
def places (start : Nat) : List Segment → List (Nat × List Char)
  | [] => []
  | .literal text :: rest => places (start + text.length) rest
  | .parameter name :: rest => (start,name) :: places (start + name.length + 2) rest

variable {text front rest after name : List Char} {c : Char} {place start : Nat} {segments : List Segment}

section Occurrences

theorem placeholder?_eq_some_iff :
    placeholder? after = some (name,rest) ↔ isIdentifier name = true ∧ after = name ++ '\x7d' :: rest := by
  rw [placeholder?,Option.filter_eq_some_iff,Text.cutAt_eq_some]
  constructor
  · rintro ⟨⟨cut,-⟩,identifier⟩
    exact ⟨identifier,cut⟩
  · rintro ⟨identifier,cut⟩
    exact ⟨⟨cut,not_mem_of_isIdentifier identifier (by decide)⟩,identifier⟩

/-- At the first character, or further on. -/
theorem occursAt_cons_iff : OccursAt (c :: rest) place name ↔
    (place = 0 ∧ c = '\x7b' ∧ ∃ after, placeholder? rest = some (name,after)) ∨
    ∃ further, place = further + 1 ∧ OccursAt rest further name := by
  constructor
  · rintro ⟨identifier,before,after,cut,rfl⟩
    cases before with
    | nil =>
      cases cut
      exact .inl ⟨rfl,rfl,after,placeholder?_eq_some_iff.mpr ⟨identifier,rfl⟩⟩
    | cons b before =>
      cases cut
      exact .inr ⟨before.length,rfl,identifier,before,after,rfl,rfl⟩
  · rintro (⟨rfl,rfl,after,found⟩ | ⟨_,rfl,identifier,before,after,rfl,rfl⟩)
    · obtain ⟨identifier,rfl⟩ := placeholder?_eq_some_iff.mp found
      exact ⟨identifier,[],after,rfl,rfl⟩
    · exact ⟨identifier,c :: before,after,rfl,rfl⟩

/-- No placeholder opens where there is no opening brace. -/
theorem occursAt_append_iff (free : '\x7b' ∉ front) :
    OccursAt (front ++ rest) place name ↔ ∃ further, place = front.length + further ∧ OccursAt rest further name := by
  induction front generalizing place with
  | nil => simp
  | cons c front ih =>
    have other : c ≠ '\x7b' := fun same => free (by simp [same])
    rw [List.cons_append,occursAt_cons_iff]
    simp only [other,false_and,and_false,false_or,ih fun later => free (by simp [later]),List.length_cons]
    constructor
    · rintro ⟨_,rfl,further,rfl,occurs⟩
      exact ⟨further,by omega,occurs⟩
    · rintro ⟨further,rfl,occurs⟩
      exact ⟨front.length + further,by omega,further,rfl,occurs⟩

theorem not_occursAt_of_free (free : '\x7b' ∉ text) : ¬OccursAt text place name := by
  rintro ⟨-,before,after,rfl,-⟩
  exact free (by simp)

end Occurrences

section Places

theorem places_literals : places start (literals text ++ segments) = places (start + text.length) segments := by
  rw [literals]
  split
  next blank => simp [List.isEmpty_iff.mp blank]
  · rfl

/-- The parameters found are the placeholders of the text: none is missed and none is made up. -/
theorem mem_places_iff (text : List Char) (start : Nat) :
    (place,name) ∈ places start (Message.segments text) ↔ ∃ offset, place = start + offset ∧ OccursAt text offset name := by
  induction text using segments.induct generalizing start with
  | case1 text opened =>
    have free := Text.cutAt_eq_none.mp opened
    rw [segments_of_none opened,← List.append_nil (literals text),places_literals]
    simp [places,not_occursAt_of_free free]
  | case2 text before after opened shorter closed ih =>
    obtain ⟨rfl,free⟩ := Text.cutAt_eq_some.mp opened
    rw [segments_of_open opened closed,places,ih]
    simp only [occursAt_append_iff free,occursAt_cons_iff,closed,List.length_append,List.length_singleton]
    constructor
    · rintro ⟨offset,rfl,occurs⟩
      exact ⟨before.length + (offset + 1),by omega,offset + 1,rfl,.inr ⟨offset,rfl,occurs⟩⟩
    · rintro ⟨_,rfl,_,rfl,⟨-,-,_,none⟩ | ⟨offset,rfl,occurs⟩⟩
      · cases none
      · exact ⟨offset,by omega,occurs⟩
  | case3 text before after opened shorter found rest closed shorter' ih =>
    obtain ⟨rfl,free⟩ := Text.cutAt_eq_some.mp opened
    obtain ⟨identifier,rfl⟩ := placeholder?_eq_some_iff.mp closed
    have inside : '\x7b' ∉ found := not_mem_of_isIdentifier identifier (by decide)
    have skipped (further : Nat) : OccursAt (found ++ '\x7d' :: rest) further name ↔
        ∃ offset, further = found.length + (offset + 1) ∧ OccursAt rest offset name := by
      simp only [occursAt_append_iff inside,occursAt_cons_iff]
      constructor
      · rintro ⟨_,rfl,⟨-,closing,-⟩ | ⟨offset,rfl,occurs⟩⟩
        · cases closing
        · exact ⟨offset,rfl,occurs⟩
      · rintro ⟨offset,rfl,occurs⟩
        exact ⟨offset + 1,rfl,.inr ⟨offset,rfl,occurs⟩⟩
    rw [segments_of_placeholder opened closed,places_literals,places,List.mem_cons,ih]
    simp only [occursAt_append_iff free,occursAt_cons_iff,closed,skipped]
    constructor
    · rintro (here | ⟨offset,rfl,occurs⟩)
      · cases here
        exact ⟨before.length,rfl,0,rfl,.inl ⟨rfl,trivial,rest,rfl⟩⟩
      · exact ⟨before.length + (found.length + (offset + 1) + 1),by omega,_,rfl,.inr ⟨_,rfl,offset,rfl,occurs⟩⟩
    · rintro ⟨_,rfl,_,rfl,⟨rfl,-,_,same⟩ | ⟨_,rfl,offset,rfl,occurs⟩⟩
      · cases same
        exact .inl rfl
      · exact .inr ⟨offset,by omega,occurs⟩

theorem le_of_mem_places (member : (place,name) ∈ places start segments) : start ≤ place := by
  induction segments generalizing start with
  | nil => cases member
  | cons segment rest ih =>
    cases segment with
    | literal text => exact Nat.le_trans (Nat.le_add_right _ _) (ih member)
    | parameter found =>
      rcases List.mem_cons.mp member with here | later
      · cases here
        exact Nat.le_refl _
      · have := ih later
        omega

theorem ascending_places (segments : List Segment) (start : Nat) :
    (places start segments).Pairwise fun first later => first.1 < later.1 := by
  induction segments generalizing start with
  | nil => exact .nil
  | cons segment rest ih =>
    cases segment with
    | literal text => exact ih _
    | parameter found =>
      refine .cons (fun later member => ?_) (ih _)
      have := le_of_mem_places member
      omega

theorem map_places (segments : List Segment) (start : Nat) :
    (places start segments).map (fun parameter => String.ofList parameter.2) = segments.filterMap Segment.parameter? := by
  induction segments generalizing start with
  | nil => rfl
  | cons segment rest ih =>
    cases segment with
    | literal text => exact ih _
    | parameter found => exact congrArg _ (ih _)

end Places

/-- No piece of literal text is empty. -/
theorem empty_literal_not_mem (text : List Char) : .literal [] ∉ Message.segments text := by
  have literal (text : List Char) : .literal [] ∉ literals text := by
    rw [literals]
    split
    · simp
    next some =>
      intro member
      cases List.mem_singleton.mp member
      exact some rfl
  induction text using segments.induct with
  | case1 text opened =>
    rw [segments_of_none opened]
    exact literal text
  | case2 text before after opened shorter closed ih =>
    rw [segments_of_open opened closed]
    simpa using ih
  | case3 text before after opened shorter found rest closed shorter' ih =>
    rw [segments_of_placeholder opened closed]
    simpa using ⟨literal before,ih⟩

/-- The text with each placeholder replaced by the argument of its name, and all else kept. -/
inductive Filled (argument : String → String) : List Char → List Char → Prop where
  | done : Filled argument [] []
  | placeholder {name after result : List Char} (identifier : isIdentifier name = true)
      (rest : Filled argument after result) :
      Filled argument ('\x7b' :: (name ++ '\x7d' :: after)) ((argument (String.ofList name)).toList ++ result)
  | other {c : Char} {rest result : List Char} (plain : ∀ name, ¬OccursAt (c :: rest) 0 name)
      (further : Filled argument rest result) : Filled argument (c :: rest) (c :: result)

section Filling

variable {argument : String → String} {result other : List Char}

theorem occursAt_start (identifier : isIdentifier name = true) :
    OccursAt ('\x7b' :: (name ++ '\x7d' :: after)) 0 name := ⟨identifier,[],after,rfl,rfl⟩

theorem Filled.unique (one : Filled argument text result) (two : Filled argument text other) : result = other := by
  induction one generalizing other with
  | done => cases two; rfl
  | @placeholder name after result identifier _ ih =>
    generalize whole : '\x7b' :: (name ++ '\x7d' :: after) = written at two
    cases two with
    | done => cases whole
    | @placeholder name' after' result' identifier' two =>
      have first := placeholder?_eq_some_iff.mpr ⟨identifier,(List.tail_eq_of_cons_eq whole).symm⟩
      rw [placeholder?_eq_some_iff.mpr ⟨identifier',rfl⟩] at first
      cases first
      rw [ih two]
    | other plain =>
      rw [← whole] at plain
      exact absurd (occursAt_start identifier) (plain name)
  | @other c rest result plain _ ih =>
    generalize whole : c :: rest = written at two
    cases two with
    | done => cases whole
    | placeholder identifier => exact absurd (occursAt_start identifier) (whole ▸ plain _)
    | other _ two =>
      cases whole
      rw [ih two]

theorem Filled.append (free : '\x7b' ∉ front) (filled : Filled argument rest result) :
    Filled argument (front ++ rest) (front ++ result) := by
  induction front with
  | nil => exact filled
  | cons c front ih =>
    have differ : c ≠ '\x7b' := fun same => free (by simp [same])
    refine .other (fun name occurs => ?_) (ih fun later => free (by simp [later]))
    obtain ⟨-,opens,-⟩ | ⟨_,none,-⟩ := occursAt_cons_iff.mp occurs
    · exact differ opens
    · cases none

end Filling

theorem filled_segments (argument : String → String) (text : List Char) :
    Filled argument text ((Message.segments text).flatMap (Segment.filled argument)) := by
  have literal (text : List Char) : (literals text).flatMap (Segment.filled argument) = text := by
    rw [literals]
    split
    next blank => rw [List.isEmpty_iff.mp blank]; rfl
    · simp [Segment.filled]
  induction text using segments.induct with
  | case1 text opened =>
    rw [segments_of_none opened,literal]
    simpa using (Filled.done : Filled argument [] []).append (Text.cutAt_eq_none.mp opened)
  | case2 text before after opened shorter closed ih =>
    obtain ⟨rfl,free⟩ := Text.cutAt_eq_some.mp opened
    rw [segments_of_open opened closed,List.flatMap_cons,Segment.filled,List.append_assoc]
    refine Filled.append free (Filled.other (fun name occurs => ?_) ih)
    obtain ⟨-,-,_,found⟩ | ⟨_,none,-⟩ := occursAt_cons_iff.mp occurs
    · rw [closed] at found
      cases found
    · cases none
  | case3 text before after opened shorter found rest closed shorter' ih =>
    obtain ⟨rfl,free⟩ := Text.cutAt_eq_some.mp opened
    obtain ⟨identifier,rfl⟩ := placeholder?_eq_some_iff.mp closed
    rw [segments_of_placeholder opened closed,List.flatMap_append,literal,List.flatMap_cons]
    exact Filled.append free (Filled.placeholder identifier ih)

end Message
end Phrasebook
