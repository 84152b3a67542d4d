import Phrasebook.Toml.Document

/-! Whatever is read from a text, what remains is an end of it: `leaves_value?`, and the same for the other readers. -/
namespace Phrasebook.Toml

variable {α β : Type} {text more : List Char}

/-- If something is read, an end of the text remains. -/
def Leaves (text : List Char) (read : Option (α × List Char)) : Prop :=
  ∀ value rest, read = some (value,rest) → rest <:+ text

section Leaving

variable {read : Option (α × List Char)}

theorem leaves_none : Leaves text (none : Option (α × List Char)) := nofun

theorem leaves_some {value : α} {rest : List Char} (shorter : rest <:+ text) : Leaves text (some (value,rest)) := by
  intro _ _ same
  cases same
  exact shorter

theorem Leaves.within (leaves : Leaves more read) (shorter : more <:+ text) : Leaves text read :=
  fun value rest found => (leaves value rest found).trans shorter

theorem Leaves.bind {next : α × List Char → Option (β × List Char)} (leaves : Leaves text read)
    (follows : ∀ value rest, Leaves rest (next (value,rest))) : Leaves text (read >>= next) := by
  cases read with
  | none => exact leaves_none
  | some found =>
    obtain ⟨value,rest⟩ := found
    exact (follows value rest).within (leaves value rest rfl)

theorem leaves_bind {some : Option β} {next : β → Option (α × List Char)} (follows : ∀ value, Leaves text (next value)) :
    Leaves text (some >>= next) := by
  cases some with
  | none => exact leaves_none
  | some value => exact follows value

theorem Leaves.map (leaves : Leaves text read) (change : α → β) :
    Leaves text (read.map fun (value,rest) => (change value,rest)) := by
  cases read with
  | none => exact leaves_none
  | some found =>
    obtain ⟨value,rest⟩ := found
    exact leaves_some (leaves value rest rfl)

end Leaving

theorem suffix_afterBreak? {rest : List Char} (broken : afterBreak? text = some rest) : rest <:+ text := by
  unfold afterBreak? at broken
  split at broken
  · cases broken
    exact List.suffix_cons _ _
  · cases broken
    exact (List.suffix_cons _ _).trans (List.suffix_cons _ _)
  · cases broken

theorem leaves_hexScalar? (count : Nat) (text : List Char) : Leaves text (Text.hexScalar? count text) := by
  refine leaves_bind fun n => ?_
  split
  · exact leaves_some (List.drop_suffix _ _)
  · exact leaves_none

namespace Quoted

theorem leaves_escape? (text : List Char) : Leaves text (escape? text) := by
  unfold escape?
  split
  · exact (leaves_hexScalar? _ _).within (List.suffix_cons _ _)
  · exact (leaves_hexScalar? _ _).within (List.suffix_cons _ _)
  · rename_i c rest _ _
    cases namedEscape? c with
    | none => exact leaves_none
    | some character => exact leaves_some (List.suffix_cons _ _)
  · exact leaves_none

theorem leaves_line (quote : Char) (fuel : Nat) (text : List Char) : Leaves text (line quote fuel text) := by
  induction fuel generalizing text with
  | zero => exact leaves_none
  | succ fuel ih =>
    cases text with
    | nil => exact leaves_none
    | cons c more =>
      have shorter : more <:+ c :: more := List.suffix_cons _ _
      rw [line]
      split
      · exact leaves_some shorter
      · split
        · refine .within (.bind (leaves_escape? more) fun _ rest => ?_) shorter
          exact .bind (ih rest) fun _ rest => leaves_some (List.suffix_refl rest)
        · split
          · exact .within (.bind (ih more) fun _ rest => leaves_some (List.suffix_refl rest)) shorter
          · exact leaves_none

theorem suffix_skipGap (text : List Char) : skipGap text <:+ text := by
  induction text using skipGap.induct with
  | case1 rest ih => exact ih.trans ((List.suffix_cons _ _).trans (List.suffix_cons _ _))
  | case2 c rest other blank ih =>
    rw [skipGap.eq_2 c rest other,if_pos blank]
    exact ih.trans (List.suffix_cons _ _)
  | case3 c rest other visible =>
    exact ⟨[],by rw [List.nil_append,skipGap.eq_2 c rest other,if_neg visible]⟩
  | case4 => exact List.suffix_refl _

theorem suffix_afterHidden? {rest : List Char} (hidden : afterHidden? text = some rest) : rest <:+ text := by
  obtain ⟨broken,read,rfl⟩ := Option.map_eq_some_iff.mp hidden
  exact (suffix_skipGap broken).trans ((suffix_afterBreak? read).trans (List.dropWhile_suffix _))

theorem leaves_lines (quote : Char) (fuel : Nat) (text : List Char) : Leaves text (lines quote fuel text) := by
  induction fuel generalizing text with
  | zero => exact leaves_none
  | succ fuel ih =>
    cases text with
    | nil => exact leaves_none
    | cons c more =>
      have shorter : more <:+ c :: more := List.suffix_cons _ _
      rw [lines]
      split
      next rest broken => exact .within (.bind (ih rest) fun _ rest => leaves_some (List.suffix_refl rest)) (suffix_afterBreak? broken)
      · split
        · dsimp only
          split
          · exact .within (.bind (ih _) fun _ rest => leaves_some (List.suffix_refl rest)) (List.drop_suffix _ _)
          · exact leaves_some (List.drop_suffix _ _)
        · split
          · split
            next rest hidden => exact (ih rest).within ((suffix_afterHidden? hidden).trans shorter)
            · refine .within (.bind (leaves_escape? more) fun _ rest => ?_) shorter
              exact .bind (ih rest) fun _ rest => leaves_some (List.suffix_refl rest)
          · split
            · exact .within (.bind (ih more) fun _ rest => leaves_some (List.suffix_refl rest)) shorter
            · exact leaves_none

theorem leaves_readLine (quote : Char) (text : List Char) : Leaves text (readLine quote text) :=
  (leaves_line quote _ text).map _

theorem leaves_readLines (quote : Char) (text : List Char) : Leaves text (readLines quote text) := by
  have opened : (afterBreak? text).getD text <:+ text := by
    cases broken : afterBreak? text with
    | none => exact List.suffix_refl _
    | some rest => exact suffix_afterBreak? broken
  exact ((leaves_lines quote _ _).map _).within opened

end Quoted

theorem suffix_read (text : List Char) : (Word.read text).2 <:+ text := by
  have rest : text.drop (text.takeWhile Word.isPart).length <:+ text := List.drop_suffix _ _
  simp only [Word.read]
  split
  next more _ spaced =>
    rw [spaced] at rest ⊢
    split
    · exact (List.drop_suffix _ _).trans ((List.suffix_cons _ _).trans rest)
    · exact rest
  · exact rest

theorem suffix_skipComment (text : List Char) : skipComment text <:+ text := by
  unfold skipComment
  split
  · exact (List.dropWhile_suffix _).trans (List.suffix_cons _ _)
  · exact List.suffix_refl _

theorem suffix_finishLine? {rest : List Char} (finished : finishLine? text = some rest) : rest <:+ text := by
  have comment : skipComment (text.dropWhile isBlank) <:+ text :=
    (suffix_skipComment _).trans (List.dropWhile_suffix _)
  unfold finishLine? at finished
  split at finished
  · cases finished
    exact List.nil_suffix
  · exact (suffix_afterBreak? finished).trans comment

theorem suffix_fill (text : List Char) : fill text <:+ text := by
  unfold fill
  generalize text.length + 1 = fuel
  induction fuel generalizing text with
  | zero => exact List.suffix_refl _
  | succ fuel ih =>
    have skipped : skipComment (Quoted.skipGap text) <:+ text :=
      (suffix_skipComment _).trans (Quoted.suffix_skipGap text)
    rw [skipFill]
    split
    next rest broken => exact (ih rest).trans ((suffix_afterBreak? broken).trans skipped)
    · exact skipped

theorem leaves_key? (text : List Char) : Leaves text (key? text) := by
  unfold key?
  split
  · exact (Quoted.leaves_readLine _ _).within (List.suffix_cons _ _)
  · exact (Quoted.leaves_readLine _ _).within (List.suffix_cons _ _)
  · dsimp only
    split
    · exact leaves_none
    · exact leaves_some (List.drop_suffix _ _)

theorem suffix_path? {fuel : Nat} {above path : List String} {key : String} {rest : List Char}
    (read : path? fuel above text = some (path,key,rest)) : rest <:+ text := by
  induction fuel generalizing above text with
  | zero => cases read
  | succ fuel ih =>
    rw [path?] at read
    obtain ⟨⟨first,after⟩,found,read⟩ := Option.bind_eq_some_iff.mp read
    have shorter : after.dropWhile isBlank <:+ text :=
      (List.dropWhile_suffix _).trans ((leaves_key? _ _ _ found).trans (List.dropWhile_suffix _))
    dsimp only at read
    split at read
    next more dotted =>
      rw [dotted] at shorter
      exact (ih read).trans ((List.suffix_cons _ _).trans shorter)
    · cases read
      exact shorter

/-- What is read behind a dotted key leaves an end of the text too. -/
theorem leaves_path_bind {fuel : Nat} {above : List String}
    {next : List String × String × List Char → Option (α × List Char)}
    (follows : ∀ path key rest, Leaves rest (next (path,key,rest))) : Leaves text (path? fuel above text >>= next) := by
  cases found : path? fuel above text with
  | none => exact leaves_none
  | some named => exact (follows _ _ _).within (suffix_path? found)

mutual

theorem leaves_value? (fuel depth : Nat) (text : List Char) : Leaves text (value? fuel depth text) := by
  cases fuel with
  | zero => exact leaves_none
  | succ fuel =>
    unfold value?
    split
    next rest =>
      have opened : rest <:+ '"' :: '"' :: '"' :: rest := List.suffix_append ['"','"','"'] rest
      exact ((Quoted.leaves_readLines _ rest).map _).within opened
    next rest =>
      have opened : rest <:+ '\'' :: '\'' :: '\'' :: rest := List.suffix_append ['\'','\'','\''] rest
      exact ((Quoted.leaves_readLines _ rest).map _).within opened
    · exact ((Quoted.leaves_readLine _ _).map _).within (List.suffix_cons _ _)
    · exact ((Quoted.leaves_readLine _ _).map _).within (List.suffix_cons _ _)
    · exact (leaves_items? fuel _ _ _).within (List.suffix_cons _ _)
    next rest depth =>
      split
      next more closed =>
        have shorter : '\x7d' :: more <:+ rest := closed ▸ List.dropWhile_suffix isBlank
        exact leaves_some ((List.suffix_cons _ _).trans (shorter.trans (List.suffix_cons _ _)))
      · exact (leaves_members? fuel _ _ _).within ((List.dropWhile_suffix _).trans (List.suffix_cons _ _))
    · have word := suffix_read text
      dsimp only
      cases Word.value? (Word.read text).1 with
      | none => exact leaves_none
      | some value => exact leaves_some word

theorem leaves_items? (fuel depth : Nat) (read : List Value) (text : List Char) :
    Leaves text (items? fuel depth read text) := by
  cases fuel with
  | zero => exact leaves_none
  | succ fuel =>
    have filled := suffix_fill text
    unfold items?
    split
    next rest closed => exact leaves_some ((List.suffix_cons _ _).trans (closed ▸ filled))
    · refine .within (.bind (leaves_value? fuel depth _) fun item rest => ?_) filled
      have filled := suffix_fill rest
      dsimp only
      split
      next more comma => exact (leaves_items? fuel depth _ more).within ((List.suffix_cons _ _).trans (comma ▸ filled))
      next more closed => exact leaves_some ((List.suffix_cons _ _).trans (closed ▸ filled))
      · exact leaves_none

theorem leaves_members? (fuel depth : Nat) (fields : List (String × Value)) (text : List Char) :
    Leaves text (members? fuel depth fields text) := by
  cases fuel with
  | zero => exact leaves_none
  | succ fuel =>
    unfold members?
    refine leaves_path_bind fun path key rest => ?_
    dsimp only
    split
    next rest =>
      have valued : rest.dropWhile isBlank <:+ '=' :: rest := (List.dropWhile_suffix _).trans (List.suffix_cons _ _)
      refine .within (.bind (leaves_value? fuel depth _) fun item rest => ?_) valued
      refine leaves_bind fun fields => ?_
      have blank : rest.dropWhile isBlank <:+ rest := List.dropWhile_suffix _
      split
      next more comma => exact (leaves_members? fuel depth _ more).within ((List.suffix_cons _ _).trans (comma ▸ blank))
      next more closed => exact leaves_some ((List.suffix_cons _ _).trans (closed ▸ blank))
      · exact leaves_none
    · exact leaves_none

end

theorem leaves_header? (draft : Draft) (text : List Char) : Leaves text (header? draft text) := by
  unfold header?
  split
  next inner =>
    refine .within (leaves_path_bind fun path key rest => ?_) (List.suffix_cons _ _)
    dsimp only
    split
    next rest => exact leaves_bind fun fields => leaves_some (List.suffix_append [']',']'] rest)
    · exact leaves_none
  · refine leaves_path_bind fun path key rest => ?_
    dsimp only
    split
    · exact leaves_bind fun fields => leaves_some (List.suffix_cons _ _)
    · exact leaves_none

theorem leaves_assignment? (draft : Draft) (text : List Char) : Leaves text (assignment? draft text) := by
  unfold assignment?
  refine leaves_path_bind fun path key rest => ?_
  dsimp only
  split
  next rest =>
    have valued : rest.dropWhile isBlank <:+ '=' :: rest := (List.dropWhile_suffix _).trans (List.suffix_cons _ _)
    refine .within (.bind (leaves_value? _ _ _) fun value rest => ?_) valued
    exact leaves_bind fun fields => leaves_some (List.suffix_refl _)
  · exact leaves_none

end Phrasebook.Toml
