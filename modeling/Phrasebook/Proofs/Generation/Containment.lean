import Mathlib.Data.List.Forall2
import Phrasebook.Proofs.Generation.Agreement

/-! Whatever the messages and the keys of a locale are, each stays inside its literal and its line. `code?` is
what a line says outside of its literals: identifiers and punctuation, and of every literal one quote. -/
namespace Phrasebook.Generation.Reading

/-- The code of a line, with every literal cut down to one quote. A literal ends on its line, and no control
character stands in it as such. -/
def code? : Place → List Char → Option (List Char)
  | .code,[] => some []
  | .literal,[] => none
  | .escaped,[] => none
  | .code,c :: rest => (code? (if c = '"' then .literal else .code) rest).map (c :: ·)
  | .literal,c :: rest =>
    if c.toNat < 0x20 then none
    else code? (if c = '"' then .code else if c = '\\' then .escaped else .literal) rest
  | .escaped,c :: rest => if c.toNat < 0x20 then none else code? .literal rest

theorem code?_plain_of_literal {c : Char} (printable : ¬c.toNat < 0x20) (quote : c ≠ '"') (backslash : c ≠ '\\')
    (rest : List Char) : code? .literal (c :: rest) = code? .literal rest := by
  rw [code?,if_neg printable,if_neg quote,if_neg backslash]

theorem code?_hexDigit {n : Nat} (small : n < 16) (rest : List Char) :
    code? .literal (Text.Quoted.hexDigit n :: rest) = code? .literal rest := by
  have printable : ¬(Text.Quoted.hexDigit n).toNat < 0x20 := by
    have all : ∀ i : Fin 16, ¬(Text.Quoted.hexDigit i).toNat < 0x20 := by decide
    exact all ⟨n,small⟩
  exact code?_plain_of_literal printable (Text.Quoted.hexDigit_ne (by decide) small)
    (Text.Quoted.hexDigit_ne (by decide) small) rest

/-- The written form of a character stays inside the literal. -/
theorem code?_escape (c : Char) (rest : List Char) :
    code? .literal (Text.Quoted.escape c ++ rest) = code? .literal rest := by
  rcases Text.Quoted.escape_cases c with ⟨mark,printable,written⟩ | ⟨control,written⟩ |
    ⟨printable,quote,backslash,written⟩
  · have inside : ¬mark.toNat < 0x20 := Nat.not_lt.mpr printable
    rw [written]
    change code? .literal ('\\' :: mark :: rest) = _
    rw [code?,if_neg (by decide),if_neg (by decide),if_pos rfl,code?,if_neg inside]
  · have start (tail : List Char) : code? .literal ('\\' :: 'u' :: '0' :: '0' :: tail) = code? .literal tail := rfl
    rw [written]
    change code? .literal ('\\' :: 'u' :: '0' :: '0' :: _ :: _ :: rest) = _
    rw [start,code?_hexDigit (by omega),code?_hexDigit (by omega)]
  · rw [written]
    exact code?_plain_of_literal (Nat.not_lt.mpr printable) quote backslash rest

/-- A text that shows this code, and leaves what follows it outside of any literal. -/
def Shows (text code : List Char) : Prop := ∀ rest, code? .code (text ++ rest) = (code? .code rest).map (code ++ ·)

namespace Shows

theorem code?_eq {text code : List Char} (shown : Shows text code) : code? .code text = some code := by
  have alone := shown []
  rwa [List.append_nil,code?,Option.map_some,List.append_nil] at alone

theorem append {a b x y : List Char} (first : Shows a x) (next : Shows b y) : Shows (a ++ b) (x ++ y) := by
  intro rest
  rw [List.append_assoc,first,next,Option.map_map]
  congr 1
  funext tail
  exact (List.append_assoc x y tail).symm

/-- Code without literals is left as it is. -/
theorem plain {code : List Char} (plain : '"' ∉ code) : Shows code code := by
  intro rest
  induction code with
  | nil => simp
  | cons c more ih =>
    obtain ⟨other,others⟩ := not_or.mp (mt List.mem_cons.mpr plain)
    rw [List.cons_append,code?,if_neg (Ne.symm other),ih others,Option.map_map]
    rfl

theorem quote (text : String) : Shows (Text.quote text).toList ['"'] := by
  intro rest
  have inside (chars : List Char) :
      code? .literal (chars.flatMap Text.Quoted.escape ++ '"' :: rest) = code? .code rest := by
    induction chars with
    | nil => rfl
    | cons c more ih => rw [List.flatMap_cons,List.append_assoc,code?_escape,ih]
  rw [Text.toList_quote,List.cons_append,List.append_assoc,List.singleton_append,code?,if_pos rfl,inside]
  rfl

theorem segment {segment : Segment} (named : Named [segment]) :
    Shows (Modules.segment segment).toList (word segment) := by
  cases segment with
  | literal text => exact .quote _
  | parameter name =>
    have written : (Modules.segment (.parameter name)).toList = word (.parameter name) := by
      simp [Modules.segment,word]
    rw [written]
    exact .plain (not_mem_word (named name (List.mem_singleton_self _)) (by decide) (by decide))

end Shows

/-- A key that is no identifier is a literal. -/
def bareKey (key : String) : String := if Message.isIdentifier key.toList then key else "\""

def bareMessage (text : String) : String :=
  if (Message.segments text.toList).any Modules.isParameter then
    "(params) => " ++ String.intercalate " + " ((Message.segments text.toList).map (String.ofList ∘ word))
  else "\""

/-- The lines of a tree without what stands in their literals. -/
def bareTree (depth : Nat) : Locale.Tree → List String
  | .empty => []
  | .message key text rest =>
    Text.indent depth (bareKey key ++ ": " ++ bareMessage text ++ ",") :: bareTree depth rest
  | .group key inner rest =>
    Text.indent depth (bareKey key ++ ": \x7b") ::
      (bareTree (depth + 1) inner ++ Text.indent depth "\x7d," :: bareTree depth rest)

/-- Each line shows the code of its counterpart. -/
def ShowsLines (lines bare : List String) : Prop :=
  List.Forall₂ (fun line code => Shows line.toList code.toList) lines bare

theorem shows_append {a b x y : String} (first : Shows a.toList x.toList) (next : Shows b.toList y.toList) :
    Shows (a ++ b).toList (x ++ y).toList := by
  rw [String.toList_append,String.toList_append]
  exact first.append next

theorem shows_propertyKey (key : String) : Shows (propertyKey key).toList (bareKey key).toList := by
  rw [propertyKey,bareKey]
  split
  next identifier => exact .plain (Message.not_mem_of_isIdentifier identifier (by decide))
  · exact .quote key

theorem shows_indent {line code : String} (shown : Shows line.toList code.toList) (depth : Nat) :
    Shows (Text.indent depth line).toList (Text.indent depth code).toList := by
  rw [Text.toList_indent,Text.toList_indent]
  refine .append (.plain ?_) shown
  intro member
  exact absurd (List.eq_of_mem_replicate member) (by decide)

theorem shows_operands {segments : List Segment} (named : Named segments) :
    Shows (String.intercalate " + " (segments.map Modules.segment)).toList
      (String.intercalate " + " (segments.map (String.ofList ∘ word))).toList := by
  induction segments with
  | nil => exact .plain (by decide)
  | cons segment rest ih =>
    have here : Shows (Modules.segment segment).toList (String.ofList (word segment)).toList := by
      rw [String.toList_ofList]
      exact .segment fun name member => named name (by simp_all)
    have others : Named rest := fun name member => named name (List.mem_cons_of_mem _ member)
    cases rest with
    | nil => simpa using here
    | cons next more =>
      simp only [List.map_cons,String.intercalate_cons_cons]
      exact shows_append (shows_append here (.plain (by decide))) (ih others)

theorem shows_message (text : String) : Shows (Modules.message text).toList (bareMessage text).toList := by
  rw [Modules.message,bareMessage]
  split
  · refine shows_append (.plain (by decide)) (shows_operands ?_)
    intro name member
    exact Message.isIdentifier_of_parameter member
  · exact .quote text

theorem showsLines_tree (tree : Locale.Tree) (depth : Nat) :
    ShowsLines (Modules.tree depth tree) (bareTree depth tree) := by
  induction tree generalizing depth with
  | empty => exact .nil
  | message key text rest ih =>
    refine .cons (shows_indent ?_ depth) (ih depth)
    exact shows_append (shows_append (shows_append (shows_propertyKey key) (.plain (by decide)))
      (shows_message text)) (.plain (by decide))
  | group key inner rest ihInner ih =>
    have opening := shows_append (shows_propertyKey key) (b := ": \x7b") (y := ": \x7b") (.plain (by decide))
    have closing : Shows "\x7d,".toList "\x7d,".toList := .plain (by decide)
    exact .cons (shows_indent opening depth)
      (List.rel_append (ihInner (depth + 1)) (.cons (shows_indent closing depth) (ih depth)))

/-- The lines of a locale, between its own line and the closing one. -/
def bareEntry (opening closing : String) (entry : Locale.Entry) : List String :=
  ("  \"" ++ opening) :: (bareTree 2 entry.tree ++ [closing])

theorem showsLines_entry {opening closing : String} (before : '"' ∉ opening.toList) (after : '"' ∉ closing.toList)
    (entry : Locale.Entry) :
    ShowsLines (("  " ++ Text.quote entry.name ++ opening) :: (Modules.tree 2 entry.tree ++ [closing]))
      (bareEntry opening closing entry) := by
  have name : Shows ("  " ++ Text.quote entry.name ++ opening).toList ("  \"" ++ opening).toList := by
    have quoted : Shows ("  " ++ Text.quote entry.name).toList "  \"".toList := by
      rw [String.toList_append]
      exact .append (y := ['"']) (.plain (by decide)) (.quote entry.name)
    exact shows_append quoted (.plain before)
  exact .cons name (List.rel_append (showsLines_tree entry.tree 2) (.cons (.plain after) .nil))

theorem showsLines_entries {render bare : Locale.Entry → List String}
    (one : ∀ entry, ShowsLines (render entry) (bare entry)) (entries : List Locale.Entry) :
    ShowsLines (entries.flatMap render) (entries.flatMap bare) := by
  induction entries with
  | nil => exact .nil
  | cons entry rest ih =>
    rw [List.flatMap_cons,List.flatMap_cons]
    exact List.rel_append (one entry) ih

/-- Fixed lines without literals. -/
theorem showsLines_plain {lines : List String} (plain : ∀ line ∈ lines, '"' ∉ line.toList) :
    ShowsLines lines lines :=
  List.forall₂_same.mpr fun line member => .plain (plain line member)

/-- Line by line, a text says outside of its literals what its outline says. -/
theorem code?_unlines {lines bare : List String} (single : ∀ line ∈ lines, OneLine line)
    (shown : ShowsLines lines bare) : (Text.pieces '\n' (Text.unlines lines).toList).map (code? .code) =
      (bare ++ [""]).map fun line => some line.toList := by
  have each : lines.map (fun line => code? .code line.toList) = bare.map fun line => some line.toList := by
    clear single
    induction shown with
    | nil => rfl
    | cons first _ ih => rw [List.map_cons,List.map_cons,first.code?_eq,ih]
  rw [Text.pieces_unlines single,List.map_append,List.map_map,Function.comp_def,each,List.map_append]
  rfl

end Phrasebook.Generation.Reading
