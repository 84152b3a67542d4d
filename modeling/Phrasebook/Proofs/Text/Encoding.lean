import Phrasebook.Text.Octets

/-! Octets below 128 are characters of their own, wherever they stand in a text. So lines can be cut at their line
feeds before they are decoded, and what stands before an ending in such octets is a text if the whole is:
`splitOn_lines`, `exists_octets_of_append`. -/
namespace Phrasebook.Text

variable {octet : UInt8} {c : Char}

theorem utf8EncodeChar_of_mem (small : octet.toNat < 128) (inside : octet ∈ String.utf8EncodeChar c) :
    String.utf8EncodeChar c = [octet] := by
  have large {n : Nat} (above : 128 ≤ n) (below : n < 256) : octet ≠ UInt8.ofNat n := by
    rintro rfl
    rw [UInt8.toNat_ofNat_of_lt' below] at small
    omega
  rw [String.utf8EncodeChar] at inside ⊢
  -- by the number of octets, all of which but a lone one are from 128 on
  split at inside
  next lone => rw [if_pos lone,List.mem_singleton.mp inside]
  · exfalso
    split at inside
    · simp only [List.mem_cons,List.not_mem_nil,or_false] at inside
      rcases inside with same | same <;> exact large (by omega) (by omega) same
    · split at inside
      · simp only [List.mem_cons,List.not_mem_nil,or_false] at inside
        rcases inside with same | same | same <;> exact large (by omega) (by omega) same
      · simp only [List.mem_cons,List.not_mem_nil,or_false] at inside
        rcases inside with same | same | same | same <;> exact large (by omega) (by omega) same

theorem not_mem_octets {text : String} (small : octet.toNat < 128) (written : String.utf8EncodeChar c = [octet])
    (free : c ∉ text.toList) : octet ∉ octets text := by
  rw [octets_eq,List.mem_flatMap]
  rintro ⟨d,member,inside⟩
  have same : String.singleton d = String.singleton c :=
    octets_injective (by simp [octets_eq,written,utf8EncodeChar_of_mem small inside])
  exact free (String.singleton_inj.mp same ▸ member)

/-- Lines that are written one after the other, each with a line feed, are cut apart again. -/
theorem splitOn_lines {lines : List String} (single : ∀ line ∈ lines, '\n' ∉ line.toList) :
    (octets (String.join (lines.map (· ++ "\n")))).splitOn 10 = lines.map octets ++ [[]] := by
  induction lines with
  | nil => rfl
  | cons line rest ih =>
    obtain ⟨first,others⟩ := List.forall_mem_cons.mp single
    have free : ∀ octet ∈ octets line, (octet == 10) = false := by
      intro octet member
      rw [beq_eq_false_iff_ne]
      rintro rfl
      exact not_mem_octets (by decide) rfl first member
    have written : octets (String.join ((line :: rest).map (· ++ "\n"))) =
        octets line ++ 10 :: octets (String.join (rest.map (· ++ "\n"))) := by
      rw [List.map_cons,String.join_cons,octets_append,octets_append,List.append_assoc]
      rfl
    rw [written,List.splitOn,List.splitOnP_append_cons_of_forall_mem free 10 rfl]
    exact congrArg (octets line :: ·) (ih others)

variable {text : String} {front back : Octets}

theorem exists_octets_of_concat (small : octet.toNat < 128) (whole : octets text = front ++ [octet]) :
    ∃ before, octets before = front := by
  rcases List.eq_nil_or_concat text.toList with none | ⟨before,c,split⟩
  · simp [octets_eq,none] at whole
  · rw [octets_eq,split,List.concat_eq_append,List.flatMap_append,List.flatMap_singleton] at whole
    have inside : octet ∈ String.utf8EncodeChar c := by
      have last := congrArg List.getLast? whole
      rw [List.getLast?_append,List.getLast?_eq_some_getLast String.utf8EncodeChar_ne_nil,Option.some_or,
        List.getLast?_concat] at last
      exact Option.some.inj last ▸ List.getLast_mem _
    rw [utf8EncodeChar_of_mem small inside] at whole
    refine ⟨String.ofList before,?_⟩
    rw [octets_eq,String.toList_ofList,List.append_cancel_right whole]

theorem exists_octets_of_append (small : ∀ octet ∈ back, octet.toNat < 128) (whole : octets text = front ++ back) :
    ∃ before, octets before = front := by
  induction back generalizing front with
  | nil => exact ⟨text,by rw [whole,List.append_nil]⟩
  | cons octet back ih =>
    obtain ⟨here,later⟩ := List.forall_mem_cons.mp small
    rw [← List.singleton_append,← List.append_assoc] at whole
    obtain ⟨before,same⟩ := ih later whole
    exact exists_octets_of_concat here same

end Phrasebook.Text
