import Phrasebook.Text.Pieces

/-! The line of a text on which a position is: what stands there without a line end is part of that line,
`line_of_cut`. -/
namespace Phrasebook.Text

/-- The line on which the end of a text begins, counted from one. -/
def lineAt (text onward : List Char) : Nat := (text.take (text.length - onward.length)).count '\n' + 1

theorem lineAt_append (before onward : List Char) : lineAt (before ++ onward) onward = before.count '\n' + 1 := by
  rw [lineAt,List.length_append,Nat.add_sub_cancel,List.take_left]

variable {sep : Char} {part after first : List Char} {more : List (List Char)}

/-- What has no separator is joined to the first piece behind it. -/
theorem pieces_append_of_free (free : sep ∉ part) (cut : pieces sep after = first :: more) :
    pieces sep (part ++ after) = (part ++ first) :: more := by
  induction part with
  | nil => exact cut
  | cons c part ih =>
    have other : c ≠ sep := fun same => free (by simp [same])
    rw [List.cons_append,pieces,if_neg other,ih fun later => free (by simp [later])]
    rfl

/-- What has no separator lies in one piece, behind as many separators as come before it. -/
theorem piece_of_cut (free : sep ∉ part) (before after : List Char) :
    ∃ piece, (pieces sep (before ++ (part ++ after)))[before.count sep]? = some piece ∧ part <:+: piece := by
  induction before with
  | nil =>
    obtain ⟨first,more,cut⟩ := List.exists_cons_of_ne_nil (pieces_ne_nil sep after)
    refine ⟨part ++ first,?_,(List.prefix_append part first).isInfix⟩
    rw [List.nil_append,pieces_append_of_free free cut]
    rfl
  | cons c before ih =>
    obtain ⟨piece,found,inside⟩ := ih
    obtain ⟨first,more,cut⟩ := List.exists_cons_of_ne_nil (pieces_ne_nil sep (before ++ (part ++ after)))
    by_cases marks : c = sep
    · subst marks
      exact ⟨piece,by simpa [pieces] using found,inside⟩
    · rw [cut] at found
      rw [List.cons_append,List.count_cons_of_ne marks,pieces,if_neg marks,cut]
      cases index : before.count sep with
      | zero =>
        rw [index] at found
        cases found
        exact ⟨c :: piece,rfl,inside.trans (List.suffix_cons c piece).isInfix⟩
      | succ n =>
        rw [index] at found
        exact ⟨piece,found,inside⟩

/-- A carriage return is not part of what ends otherwise. -/
theorem infix_dropReturn {line : List Char} (inside : part <:+: line) (inline : '\r' ∉ part) :
    part <:+: dropReturn line := by
  rw [dropReturn]
  split
  next returns =>
    obtain ⟨front,back,rfl⟩ := inside
    rcases List.eq_nil_or_concat back with rfl | ⟨back,last,rfl⟩
    · rcases List.eq_nil_or_concat part with rfl | ⟨part,last,rfl⟩
      · exact List.nil_infix
      · obtain rfl : last = '\r' := by simpa using returns
        exact absurd (by simp) inline
    · rw [List.concat_eq_append,← List.append_assoc,List.dropLast_concat]
      exact List.infix_append front part back
  · exact inside

/-- Each piece between line feeds is a line, but for an empty one at the end. -/
theorem lines_of_piece {text : String} {piece : List Char} {n : Nat}
    (found : (pieces '\n' text.toList)[n]? = some piece) (some : piece ≠ []) :
    (lines text)[n]? = Option.some (String.ofList piece) ∨ (lines text)[n]? = Option.some (String.ofList (dropReturn piece)) := by
  unfold lines
  cases backward : (pieces '\n' text.toList).reverse with
  | nil =>
    rw [List.reverse_eq_nil_iff.mp backward] at found
    cases found
  | cons last front =>
    rw [List.reverse_eq_iff.mp backward,List.reverse_cons] at found
    dsimp only
    have index : n < front.reverse.length ∨ n = front.reverse.length := by
      have inside := (List.getElem?_eq_some_iff.mp found).1
      rw [List.length_append,List.length_singleton] at inside
      omega
    rcases index with early | rfl
    · rw [List.getElem?_append_left early] at found
      rw [List.getElem?_append_left (by simpa using early),List.getElem?_map,found]
      exact .inr rfl
    · obtain rfl : last = piece := by simpa using found
      left
      rw [if_neg (by simpa using some)]
      simp

/-- What stands on one line is part of the line at its place. -/
theorem line_of_cut {text : String} {before : List Char} (cut : text.toList = before ++ (part ++ after))
    (some : part ≠ []) (feed : '\n' ∉ part) (inline : '\r' ∉ part) :
    ∃ line, (lines text)[before.count '\n']? = Option.some line ∧ part <:+: line.toList := by
  obtain ⟨piece,found,inside⟩ := piece_of_cut feed before after
  rw [← cut] at found
  have full : piece ≠ [] := by
    rintro rfl
    exact some (List.infix_nil.mp inside)
  rcases lines_of_piece found full with line | line
  · exact ⟨_,line,by rwa [String.toList_ofList]⟩
  · exact ⟨_,line,by rw [String.toList_ofList]; exact infix_dropReturn inside inline⟩

end Phrasebook.Text
