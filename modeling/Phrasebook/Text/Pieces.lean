/-! Texts in pieces. They are cut at their first mark, at every separator or at the ends of their lines;
`joined_pieces` and `pieces_joined` say that cutting and joining undo each other on pieces free of the separator. -/
namespace Phrasebook.Text

section Pieces

variable {α : Type} [DecidableEq α]

def pieces (sep : α) : List α → List (List α)
  | [] => [[]]
  | c :: rest =>
    if c = sep then [] :: pieces sep rest
    else match pieces sep rest with
      | [] => [[c]]
      | first :: more => (c :: first) :: more

def joined (sep : α) : List (List α) → List α
  | [] => []
  | [piece] => piece
  | piece :: more => piece ++ sep :: joined sep more

/-- What stands before and after the first mark. -/
def cutAt (mark : α) : List α → Option (List α × List α)
  | [] => none
  | c :: rest =>
    if c = mark then some ([],rest)
    else (cutAt mark rest).map fun (before,after) => (c :: before,after)

theorem cutAt_eq_some {mark : α} {text before after : List α} :
    cutAt mark text = some (before,after) ↔ text = before ++ mark :: after ∧ mark ∉ before := by
  induction text generalizing before with
  | nil => simp [cutAt]
  | cons c rest ih =>
    by_cases h : c = mark
    · subst h
      cases before <;> simp [cutAt,eq_comm]
      rintro rfl _ h
      exact absurd rfl h
    · cases before with
      | nil => simp [cutAt,h]
      | cons b before => simp [cutAt,h,ih]; grind

theorem cutAt_eq_none {mark : α} {text : List α} : cutAt mark text = none ↔ mark ∉ text := by
  induction text with
  | nil => simp [cutAt]
  | cons c rest ih => by_cases h : c = mark <;> simp [cutAt,h,ih,Ne.symm]

theorem length_of_cutAt {mark : α} {text before after : List α}
    (h : cutAt mark text = some (before,after)) : after.length < text.length := by
  rw [(cutAt_eq_some.mp h).1]; simp; omega

theorem pieces_ne_nil (sep : α) (text : List α) : pieces sep text ≠ [] := by
  cases text with
  | nil => simp [pieces]
  | cons c rest => simp only [pieces]; split <;> (try split) <;> simp

theorem joined_pieces (sep : α) (text : List α) : joined sep (pieces sep text) = text := by
  induction text with
  | nil => rfl
  | cons c rest ih =>
    cases h : pieces sep rest with
    | nil => exact absurd h (pieces_ne_nil sep rest)
    | cons first more =>
      rw [h] at ih
      by_cases hc : c = sep
      · simp [pieces,hc,h,joined,ih]
      · cases more <;> simp_all [pieces,joined]

theorem pieces_eq_self {sep : α} {text : List α} (free : sep ∉ text) : pieces sep text = [text] := by
  induction text with
  | nil => rfl
  | cons c rest ih =>
    have hc : c ≠ sep := fun e => free (by simp [e])
    simp [pieces,hc,ih (fun m => free (by simp [m]))]

theorem pieces_append {sep : α} {piece : List α} (rest : List α) (free : sep ∉ piece) :
    pieces sep (piece ++ sep :: rest) = piece :: pieces sep rest := by
  induction piece with
  | nil => simp [pieces]
  | cons c more ih =>
    have hc : c ≠ sep := fun e => free (by simp [e])
    simp [pieces,hc,ih (fun m => free (by simp [m]))]

theorem pieces_joined {sep : α} {parts : List (List α)} (nonempty : parts ≠ [])
    (free : ∀ piece ∈ parts, sep ∉ piece) : pieces sep (joined sep parts) = parts := by
  induction parts with
  | nil => exact absurd rfl nonempty
  | cons piece more ih =>
    cases more with
    | nil => simpa [joined] using pieces_eq_self (free piece (by simp))
    | cons next last =>
      simp only [joined]
      rw [pieces_append _ (free piece (by simp)),ih (by simp) (fun p m => free p (by simp [m]))]

theorem pieces_free (sep : α) (text : List α) : ∀ piece ∈ pieces sep text, sep ∉ piece := by
  induction text with
  | nil => simp [pieces]
  | cons c rest ih =>
    cases h : pieces sep rest with
    | nil => exact absurd h (pieces_ne_nil sep rest)
    | cons first more =>
      rw [h] at ih
      by_cases hc : c = sep
      · simpa [pieces,hc,h] using ih
      · simp_all [pieces,Ne.symm]

end Pieces

/-- The pieces of a string, as strings. -/
def split (sep : Char) (text : String) : List String := (pieces sep text.toList).map String.ofList

/-- Each line is ended by one line feed. -/
def unlines (lines : List String) : String := String.join (lines.map (· ++ "\n"))

/-- Two spaces a level. -/
def indent (depth : Nat) (line : String) : String := String.join (List.replicate depth "  ") ++ line

def dropReturn (line : List Char) : List Char :=
  if line.getLast? = some '\r' then line.dropLast else line

/-- The lines of a text, without their ends; a carriage return before a line feed belongs to
the end, and the last line need not have one. -/
def lines (text : String) : List String :=
  match (pieces '\n' text.toList).reverse with
  | [] => []
  | last :: before =>
    (before.reverse.map fun line => String.ofList (dropReturn line)) ++
      (if last.isEmpty then [] else [String.ofList last])

end Phrasebook.Text
