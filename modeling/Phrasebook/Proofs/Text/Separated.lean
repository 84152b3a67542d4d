/-! Items with a separator between them, read back one by one: `separated_intercalate`. -/
namespace Phrasebook.Text

/-- What follows a start, if the text has that start. -/
def after? (start text : List Char) : Option (List Char) :=
  if start.isPrefixOf text then some (text.drop start.length) else none

theorem after?_append (start rest : List Char) : after? start (start ++ rest) = some rest := by
  have begins : start.isPrefixOf (start ++ rest) = true :=
    List.isPrefixOf_iff_prefix.mpr (List.prefix_append start rest)
  rw [after?,if_pos begins,List.drop_left]

theorem after?_eq_none {start text : List Char} (other : ¬start <+: text) : after? start text = none := by
  rw [after?,if_neg]
  intro begins
  exact other (List.isPrefixOf_iff_prefix.mp begins)

/-- Already the first characters differ. -/
theorem after?_of_head {start text : List Char} {c d : Char} (first : start.head? = some c)
    (head : text.head? = some d) (differ : c ≠ d) : after? start text = none := by
  apply after?_eq_none
  rintro ⟨rest,rfl⟩
  rw [List.head?_append,first] at head
  exact differ (Option.some.inj head)

section Front

variable {p : Char → Bool} {front rest : List Char}

/-- A row of characters of one kind ends where something else begins. -/
theorem takeWhile_front (all : ∀ c ∈ front, p c = true) (stops : rest.head?.any p = false) :
    (front ++ rest).takeWhile p = front := by
  rw [List.takeWhile_append_of_pos all]
  cases rest with
  | nil => simp
  | cons c rest => simp [show p c = false from stops]

theorem dropWhile_front (all : ∀ c ∈ front, p c = true) (stops : rest.head?.any p = false) :
    (front ++ rest).dropWhile p = rest := by
  rw [List.dropWhile_append_of_pos all]
  cases rest with
  | nil => simp
  | cons c rest => simp [show p c = false from stops]

end Front

variable {α : Type}

/-- One item or more, and what follows the last. -/
def separated (sep : List Char) (item : List Char → Option (α × List Char)) (text : List Char) :
    Option (List α × List Char) :=
  match item text with
  | none => none
  | some (first,after) =>
    match after? sep after with
    | none => some ([first],after)
    | some rest =>
      if rest.length < text.length then
        (separated sep item rest).map fun (others,after) => (first :: others,after)
      else none
termination_by text.length

variable {sep : String} {item : List Char → Option (α × List Char)} {write : α → String}
  {stops : List Char → Prop} {items : List α}

/-- Items are read back if each is wherever it stands before something that ends it: the separator, or nothing. -/
theorem separated_intercalate (some : items ≠ []) (wide : sep.toList ≠ [])
    (between : ∀ text, stops (sep.toList ++ text))
    (reads : ∀ x ∈ items, ∀ text, stops text → item ((write x).toList ++ text) = Option.some (x,text))
    (last : stops []) :
    separated sep.toList item (String.intercalate sep (items.map write)).toList = Option.some (items,[]) := by
  induction items with
  | nil => exact absurd rfl some
  | cons x others ih =>
    obtain ⟨here,later⟩ := List.forall_mem_cons.mp reads
    cases others with
    | nil =>
      have ends : ¬sep.toList <+: [] := fun begins => wide (List.prefix_nil.mp begins)
      have read := here [] last
      rw [List.append_nil] at read
      rw [List.map_singleton,String.intercalate_singleton,separated,read]
      simp only [after?_eq_none ends]
    | cons y more =>
      have recovered := ih (List.cons_ne_nil y more) later
      have written : (String.intercalate sep ((x :: y :: more).map write)).toList =
          (write x).toList ++ (sep.toList ++ (String.intercalate sep ((y :: more).map write)).toList) := by
        simp only [List.map_cons,String.intercalate_cons_cons,String.toList_append,List.append_assoc]
      have shorter : (String.intercalate sep ((y :: more).map write)).toList.length <
          ((write x).toList ++ (sep.toList ++ (String.intercalate sep ((y :: more).map write)).toList)).length := by
        have := List.length_pos_iff.mpr wide
        simp only [List.length_append]
        omega
      rw [written,separated,here _ (between _)]
      simp only [after?_append,if_pos shorter,recovered,Option.map_some]

end Phrasebook.Text
