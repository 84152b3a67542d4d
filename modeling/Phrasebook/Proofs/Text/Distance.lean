import Mathlib.Order.Bounds.Basic
import Phrasebook.Project.Unknown

/-! The edit distance is the least number of insertions, deletions and substitutions that turn one word into the
other: `isLeast_distance`. The rows of the table are related to the recursion from the fronts of two words, `edits`;
as the table grows at the ends of the words, both are read backwards. -/
namespace Phrasebook.Text

variable {α : Type}

/-- One letter is put in, taken out or replaced. -/
inductive Edit : List α → List α → Prop where
  | insert (before after : List α) (letter : α) : Edit (before ++ after) (before ++ letter :: after)
  | delete (before after : List α) (letter : α) : Edit (before ++ letter :: after) (before ++ after)
  | substitute (before after : List α) (letter other : α) : Edit (before ++ letter :: after) (before ++ other :: after)

/-- One word becomes the other by so many edits. -/
inductive Turns : Nat → List α → List α → Prop where
  | refl (word : List α) : Turns 0 word word
  | step {n : Nat} {word middle target : List α} (first : Turns n word middle) (edit : Edit middle target) :
      Turns (n + 1) word target

section Turning

variable {n m : Nat} {word middle target : List α}

theorem Edit.cons (letter : α) (edit : Edit word target) : Edit (letter :: word) (letter :: target) := by
  cases edit with
  | insert before after => exact .insert (letter :: before) after _
  | delete before after => exact .delete (letter :: before) after _
  | substitute before after => exact .substitute (letter :: before) after _ _

theorem Edit.reverse (edit : Edit word target) : Edit word.reverse target.reverse := by
  cases edit with
  | insert before after letter => simpa using Edit.insert after.reverse before.reverse letter
  | delete before after letter => simpa using Edit.delete after.reverse before.reverse letter
  | substitute before after letter other => simpa using Edit.substitute after.reverse before.reverse letter other

theorem Turns.cons (letter : α) (turns : Turns n word target) : Turns n (letter :: word) (letter :: target) := by
  induction turns with
  | refl => exact .refl _
  | step _ edit ih => exact ih.step (edit.cons letter)

theorem Turns.reverse (turns : Turns n word target) : Turns n word.reverse target.reverse := by
  induction turns with
  | refl => exact .refl _
  | step _ edit ih => exact ih.step edit.reverse

theorem Turns.head (edit : Edit word middle) (turns : Turns n middle target) : Turns (n + 1) word target := by
  induction turns with
  | refl => exact (Turns.refl word).step edit
  | step _ last ih => exact (ih edit).step last

theorem turns_reverse_iff : Turns n word.reverse target.reverse ↔ Turns n word target := by
  refine ⟨fun turns => ?_,.reverse⟩
  simpa only [List.reverse_reverse] using turns.reverse

end Turning

variable [DecidableEq α]

/-- The distance by recursion from the fronts of the words. -/
def edits : List α → List α → Nat
  | [],target => target.length
  | letter :: word,[] => word.length + 1
  | letter :: word,other :: target =>
    min (min (edits word (other :: target) + 1) (edits (letter :: word) target + 1))
      (edits word target + if letter = other then 0 else 1)
termination_by word target => word.length + target.length

variable {word target before : List α} {letter other : α}

@[simp] theorem edits_nil_left : edits [] target = target.length := by rw [edits]

@[simp] theorem edits_nil_right : edits word [] = word.length := by
  cases word <;> simp [edits]

theorem edits_cons : edits (letter :: word) (other :: target) =
    min (min (edits word (other :: target) + 1) (edits (letter :: word) target + 1))
      (edits word target + if letter = other then 0 else 1) := by
  rw [edits]

/-- A last step that attains the distance. -/
theorem edits_cons_cases (letter other : α) (word target : List α) :
    edits (letter :: word) (other :: target) = edits word (other :: target) + 1 ∨
    edits (letter :: word) (other :: target) = edits (letter :: word) target + 1 ∨
    edits (letter :: word) (other :: target) = edits word target + if letter = other then 0 else 1 := by
  rw [edits_cons]
  omega

theorem edits_cons_le_delete (letter : α) (word target : List α) : edits (letter :: word) target ≤ edits word target + 1 := by
  cases target with
  | nil => simp
  | cons => rw [edits_cons]; omega

theorem edits_cons_le_insert (other : α) (word target : List α) : edits word (other :: target) ≤ edits word target + 1 := by
  cases word with
  | nil => simp
  | cons => rw [edits_cons]; omega

theorem edits_cons_le_substitute (letter other : α) (word target : List α) :
    edits (letter :: word) (other :: target) ≤ edits word target + if letter = other then 0 else 1 := by
  rw [edits_cons]
  omega

/-- The distance is attained. -/
theorem turns_edits (word target : List α) : Turns (edits word target) word target := by
  induction word,target using edits.induct with
  | case1 target =>
    rw [edits_nil_left]
    induction target with
    | nil => exact .refl []
    | cons other target ih => exact ih.step (.insert [] target other)
  | case2 letter word =>
    rw [edits_nil_right]
    induction word generalizing letter with
    | nil => exact (Turns.refl [letter]).step (.delete [] [] letter)
    | cons next word ih => exact (ih next).head (.delete [] (next :: word) letter)
  | case3 letter word other target delete insert substitute =>
    rcases edits_cons_cases letter other word target with
      attained | attained | attained
    · rw [attained]
      exact delete.head (.delete [] word letter)
    · rw [attained]
      exact insert.step (.insert [] target other)
    · rw [attained]
      split
      next same => exact same ▸ substitute.cons letter
      next => exact (substitute.cons letter).step (.substitute [] target letter other)

theorem edits_self (word : List α) : edits word word = 0 := by
  induction word with
  | nil => rw [edits_nil_left,List.length_nil]
  | cons letter word ih => rw [edits_cons,if_pos rfl,ih]; omega

theorem edits_le_of_delete : edits word target ≤ edits word (other :: target) + 1 := by
  induction word with
  | nil => simp only [edits_nil_left,List.length_cons]; omega
  | cons letter word ih =>
    have shorter := edits_cons_le_delete letter word target
    rcases edits_cons_cases letter other word target with
      attained | attained | attained <;> omega

theorem edits_le_of_substitute : edits word (other :: target) ≤ edits word (letter :: target) + 1 := by
  induction word with
  | nil => simp
  | cons first word ih =>
    have shorter := edits_cons_le_delete first word (other :: target)
    have inserted := edits_cons_le_insert other (first :: word) target
    have substituted := edits_cons_le_substitute first other word target
    rcases edits_cons_cases first letter word target with
      attained | attained | attained
    · omega
    · omega
    · rw [attained]
      split at substituted <;> split <;> omega

/-- Letters in front of two targets leave them as near to each other as they are. -/
theorem edits_append_le {near far : List α} (step : ∀ word, edits word near ≤ edits word far + 1) (before word : List α) :
    edits word (before ++ near) ≤ edits word (before ++ far) + 1 := by
  induction before generalizing word with
  | nil => exact step word
  | cons other before ih =>
    rw [List.cons_append,List.cons_append]
    induction word with
    | nil => simpa using ih []
    | cons letter word ihWord =>
      have shorter := ih word
      have here := ih (letter :: word)
      rw [edits_cons,edits_cons]
      omega

/-- One edit changes the distance by one at most. -/
theorem edits_le_of_edit {near far : List α} (edit : Edit far near) (word : List α) :
    edits word near ≤ edits word far + 1 := by
  cases edit with
  | insert before after letter => exact edits_append_le (fun word => edits_cons_le_insert letter word after) before word
  | delete before after letter => exact edits_append_le (fun _ => edits_le_of_delete) before word
  | substitute before after letter other => exact edits_append_le (fun _ => edits_le_of_substitute) before word

/-- No fewer edits do. -/
theorem edits_le_of_turns {n : Nat} (turns : Turns n word target) : edits word target ≤ n := by
  induction turns with
  | refl => exact (edits_self _).le
  | step _ edit ih => exact (edits_le_of_edit edit _).trans (Nat.succ_le_succ ih)

/-- The distances from a word to a front and to its continuations by the letters of the target; word and front stand
backwards. -/
def row (word front : List α) : List α → List Nat
  | [] => [edits word front]
  | other :: target => edits word front :: row word (other :: front) target

theorem row_eq_cons (word front target : List α) : ∃ rest, row word front target = edits word front :: rest := by
  cases target <;> exact ⟨_,rfl⟩

theorem headD_row (word front target : List α) : (row word front target).headD 0 = edits word front := by
  obtain ⟨rest,whole⟩ := row_eq_cons word front target
  rw [whole,List.headD_cons]

theorem getLastD_row (word front target : List α) :
    (row word front target).getLastD 0 = edits word (target.reverse ++ front) := by
  induction target generalizing front with
  | nil => rfl
  | cons other target ih =>
    obtain ⟨rest,whole⟩ := row_eq_cons word (other :: front) target
    have last := ih (other :: front)
    rw [whole] at last
    rw [row,whole,List.reverse_cons,List.append_assoc,List.singleton_append,← last]
    rfl

theorem row_nil (front target : List α) : row [] front target = List.range' front.length (target.length + 1) := by
  induction target generalizing front with
  | nil => simp [row]
  | cons other target ih => rw [row,ih,edits_nil_left,List.length_cons,List.length_cons,← List.range'_succ]

/-- The inner loop: along the target, each entry comes from three neighbours. -/
theorem nextDistances_row (word front target : List α) (letter : α) :
    edits (letter :: word) front :: nextDistances letter target (row word front target) (edits (letter :: word) front) =
      row (letter :: word) front target := by
  induction target generalizing front with
  | nil => rfl
  | cons other target ih =>
    obtain ⟨rest,whole⟩ := row_eq_cons word (other :: front) target
    rw [row,row,← ih,whole,nextDistances,← edits_cons]

/-- The outer loop: one row for each letter of the word. -/
theorem foldl_rows (target word read : List α) :
    word.foldl (fun entries letter =>
      let first := entries.headD 0 + 1
      first :: nextDistances letter target entries first) (row read [] target) =
      row (word.reverse ++ read) [] target := by
  induction word generalizing read with
  | nil => rfl
  | cons letter word ih =>
    have next := nextDistances_row read [] target letter
    have first : (row read [] target).headD 0 + 1 = edits (letter :: read) [] := by
      rw [headD_row,edits_nil_right,edits_nil_right,List.length_cons]
    rw [List.foldl_cons]
    simp only [first,next]
    rw [ih,List.reverse_cons,List.append_assoc,List.singleton_append]

theorem distances_eq_row (target word : List α) : distances target word = row word.reverse [] target := by
  have first : List.range (target.length + 1) = row [] [] target := by
    rw [row_nil,List.length_nil,List.range_eq_range']
  rw [distances,first,foldl_rows,List.append_nil]

theorem distance_eq_edits (word target : List α) : distance word target = edits word.reverse target.reverse := by
  rw [distance,distances_eq_row,getLastD_row,List.append_nil]

/-- The distance is the least number of edits that turn the word into the target. -/
theorem isLeast_distance (word target : List α) : IsLeast {n | Turns n word target} (distance word target) := by
  rw [distance_eq_edits]
  refine ⟨turns_reverse_iff.mp (turns_edits _ _),?_⟩
  intro n turns
  exact edits_le_of_turns (Turns.reverse turns)

end Phrasebook.Text
