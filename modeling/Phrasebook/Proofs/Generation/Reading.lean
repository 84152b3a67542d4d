import Phrasebook.Generation.Modules
import Phrasebook.Proofs.Generation.Merging
import Phrasebook.Proofs.Text.Quoted
import Phrasebook.Proofs.Text.Separated

/-! Generated text read back line by line. A line opens a group, closes one or holds a member; the
members that are no groups are listed with the keys that lead to them. `values_runtime`,
`values_loader` and `types_render` say what is found. -/
namespace Phrasebook

theorem Text.pieces_unlines {lines : List String} (single : ∀ line ∈ lines, '\n' ∉ line.toList) :
    pieces '\n' (unlines lines).toList = lines.map String.toList ++ [[]] := by
  induction lines with
  | nil => rfl
  | cons line rest ih =>
    obtain ⟨first,others⟩ := List.forall_mem_cons.mp single
    have split : (unlines (line :: rest)).toList = line.toList ++ '\n' :: (unlines rest).toList := by
      simp [unlines]
    rw [split,pieces_append _ first,ih others,List.map_cons,List.cons_append]

theorem Text.toList_indent (depth : Nat) (line : String) :
    (indent depth line).toList = List.replicate (2 * depth) ' ' ++ line.toList := by
  induction depth with
  | zero => simp [indent]
  | succ depth ih =>
    have more : (indent (depth + 1) line).toList = ' ' :: ' ' :: (indent depth line).toList := by
      simp [indent,List.replicate_succ]
    rw [more,ih,Nat.mul_succ,List.replicate_succ,List.replicate_succ,List.cons_append,List.cons_append]

theorem Text.indent_one (line : String) : indent 1 line = "  " ++ line := by simp [indent]

namespace Generation

namespace Reading

/-- A key, written as an identifier or as a quoted literal, and what follows it. -/
def key? : List Char → Option (String × List Char)
  | '"' :: rest => (Text.Quoted.read rest).map fun (key,after) => (String.ofList key,after)
  | text =>
    if text.takeWhile Message.isIdentifierPart = [] then none
    else some (String.ofList (text.takeWhile Message.isIdentifierPart),text.dropWhile Message.isIdentifierPart)

inductive Token where
  | member (key value : String)
  | opening (key : String)
  | closing
  | other
deriving DecidableEq

/-- What follows the colon, with or without a question mark in front. -/
def value? : List Char → Option (List Char)
  | '?' :: ':' :: ' ' :: value => some value
  | ':' :: ' ' :: value => some value
  | _ => none

def dropComma (value : List Char) : List Char :=
  if value.getLast? = some ',' then value.dropLast else value

/-- A value that ends in an opening brace begins a group. -/
def Token.of (key : String) (value : List Char) : Token :=
  if value.getLast? = some '\x7b' then .opening key else .member key (String.ofList (dropComma value))

def token (line : List Char) : Token :=
  match line.dropWhile (· = ' ') with
  | '\x7d' :: _ => .closing
  | text => ((key? text).bind fun (key,after) => (value? after).map (Token.of key)).getD .other

/-- The members with the keys that lead to them, `parents` being the groups that are open. -/
def walk : List Token → List String → List (List String × String)
  | [],_ => []
  | .member key value :: rest,parents => (parents ++ [key],value) :: walk rest parents
  | .opening key :: rest,parents => walk rest (parents ++ [key])
  | .closing :: rest,parents => walk rest parents.dropLast
  | .other :: rest,parents => walk rest parents

/-- The lines between the first one that opens a block and the brace that closes it. -/
def within (opens : List Char → Bool) (lines : List (List Char)) : List (List Char) :=
  ((lines.dropWhile (!opens ·)).drop 1).takeWhile (· ≠ ['\x7d'])

def block (openings : List String) (text : String) : List (List String × String) :=
  walk ((within (openings.map String.toList).contains (Text.pieces '\n' text.toList)).map token) []

/-- The values of a module, each with the name of its locale and the keys that lead to it. -/
def values (module : String) : List (List String × String) :=
  block ["const i18n = \x7b","const locales = \x7b"] module

/-- The types of the members of the interface. -/
def types (declarations : String) : List (List String × String) :=
  block ["export interface Locale \x7b"] declarations

theorem within_block {opens : List Char → Bool} {before body after : List (List Char)} {opening : List Char}
    (none : ∀ line ∈ before, opens line = false) (first : opens opening = true) (inside : ['\x7d'] ∉ body) :
    within opens (before ++ opening :: (body ++ ['\x7d'] :: after)) = body := by
  have skipped : (before ++ opening :: (body ++ ['\x7d'] :: after)).dropWhile (!opens ·) =
      opening :: (body ++ ['\x7d'] :: after) := by
    rw [List.dropWhile_append_of_pos (by simpa using none)]
    simp [first]
  rw [within,skipped,List.drop_succ_cons,List.drop_zero,List.takeWhile_append_of_pos]
  · simp
  · intro line member
    simpa using fun same : line = ['\x7d'] => inside (same ▸ member)

theorem key?_quote (key : String) (rest : List Char) :
    key? ((Text.quote key).toList ++ rest) = some (key,rest) := by
  have written : (Text.quote key).toList ++ rest =
      '"' :: (key.toList.flatMap Text.Quoted.escape ++ '"' :: rest) := by
    simp [Text.toList_quote]
  rw [written,key?,Text.Quoted.read_chars]
  simp

variable {name rest : List Char}

theorem key?_propertyKey (key : String) (stops : rest.head?.any Message.isIdentifierPart = false) :
    key? ((propertyKey key).toList ++ rest) = some (key,rest) := by
  rw [propertyKey]
  split
  next identifier =>
    have parts := Message.isIdentifierPart_of_isIdentifier identifier
    have taken := Text.takeWhile_front parts stops
    have left := Text.dropWhile_front parts stops
    cases written : key.toList with
    | nil => rw [written] at identifier; cases identifier
    | cons c more =>
      have plain : c ≠ '"' := by
        rintro rfl
        have part := parts '"' (by simp [written])
        exact absurd part (by decide)
      rw [written,List.cons_append] at taken left
      rw [List.cons_append,key?]
      · rw [taken,left,if_neg (by simp),← written,String.ofList_toList]
      · simpa using plain
  · exact key?_quote key rest

/-- Indentation is spaces. -/
theorem dropWhile_indent (depth : Nat) (line : String) :
    (Text.indent depth line).toList.dropWhile (· = ' ') = line.toList.dropWhile (· = ' ') := by
  rw [Text.toList_indent,List.dropWhile_append_of_pos]
  intro c member
  simpa using List.eq_of_mem_replicate member

theorem token_indent (depth : Nat) (line : String) :
    token (Text.indent depth line).toList = token line.toList := by
  rw [token,token,dropWhile_indent]

/-- A written key starts with neither a space nor a closing brace. -/
theorem head_propertyKey (key : String) :
    ∃ c more, (propertyKey key).toList = c :: more ∧ c ≠ ' ' ∧ c ≠ '\x7d' := by
  rw [propertyKey]
  split
  next identifier =>
    cases written : key.toList with
    | nil => rw [written] at identifier; cases identifier
    | cons c more =>
      have part := Message.isIdentifierPart_of_isIdentifier identifier c (by simp [written])
      refine ⟨c,more,rfl,?_,?_⟩
      · rintro rfl
        exact absurd part (by decide)
      · rintro rfl
        exact absurd part (by decide)
  · exact ⟨_,_,Text.toList_quote key,by decide,by decide⟩

theorem dropWhile_key {written : String} {c : Char} {more : List Char} (head : written.toList = c :: more)
    (space : c ≠ ' ') (after : List Char) :
    (written.toList ++ after).dropWhile (· = ' ') = written.toList ++ after := by
  rw [head,List.cons_append,List.dropWhile_cons_of_neg (by simpa using space)]

/-- A line that starts with a key. -/
theorem token_key {written : String} {key : String} {after : String} {c : Char} {more : List Char}
    (head : written.toList = c :: more) (space : c ≠ ' ') (brace : c ≠ '\x7d')
    (reads : key? (written.toList ++ after.toList) = some (key,after.toList)) (depth : Nat) :
    token (Text.indent depth (written ++ after)).toList =
      ((value? after.toList).map (Token.of key)).getD .other := by
  rw [token_indent,token,String.toList_append,dropWhile_key head space]
  split
  next rest closing =>
    rw [head] at closing
    exact absurd (List.cons.inj closing).1 brace
  · rw [reads]
    rfl

theorem token_quote (depth : Nat) (key after : String) :
    token (Text.indent depth (Text.quote key ++ after)).toList =
      ((value? after.toList).map (Token.of key)).getD .other :=
  token_key (Text.toList_quote key) (by decide) (by decide) (key?_quote key _) depth

theorem token_propertyKey (depth : Nat) (key : String) {after : String}
    (stops : after.toList.head?.any Message.isIdentifierPart = false) :
    token (Text.indent depth (propertyKey key ++ after)).toList =
      ((value? after.toList).map (Token.of key)).getD .other := by
  obtain ⟨c,more,written,space,brace⟩ := head_propertyKey key
  exact token_key written space brace (key?_propertyKey key stops) depth

theorem Token.of_comma (key value : String) : Token.of key (value.toList ++ [',']) = .member key value := by
  simp [Token.of,dropComma]

/-- A type ends in neither. -/
theorem Token.of_plain {key value : String} {c : Char} (last : value.toList.getLast? = some c)
    (brace : c ≠ '\x7b') (comma : c ≠ ',') : Token.of key value.toList = .member key value := by
  simp [Token.of,dropComma,last,brace,comma]

theorem value?_colon (value : String) : value? (": " ++ value).toList = some value.toList := by
  simp [value?]

theorem token_closing (depth : Nat) (after : String) :
    token (Text.indent depth ("\x7d" ++ after)).toList = .closing := by
  rw [token_indent,token]
  simp

/-- A line of a module that holds a message. -/
theorem token_message (depth : Nat) (key text : String) :
    token (Text.indent depth (propertyKey key ++ ": " ++ Modules.message text ++ ",")).toList =
      .member key (Modules.message text) := by
  rw [String.append_assoc,String.append_assoc,token_propertyKey depth key (by simp; decide),value?_colon]
  simp [Token.of_comma]

theorem token_group (depth : Nat) (key : String) :
    token (Text.indent depth (propertyKey key ++ ": \x7b")).toList = .opening key := by
  rw [token_propertyKey depth key (by simp; decide)]
  simp [value?,Token.of]

theorem walk_tree (tree : Locale.Tree) (depth : Nat) (rest : List Token) (parents : List String) :
    walk ((Modules.tree depth tree).map (fun line => token line.toList) ++ rest) parents =
      tree.messages.map (fun (path,text) => (parents ++ path,Modules.message text)) ++ walk rest parents := by
  induction tree generalizing depth rest parents with
  | empty => rfl
  | message key text more ih =>
    rw [Modules.tree,List.map_cons,token_message,List.cons_append,walk,ih]
    rfl
  | group key inner more ihInner ih =>
    have last : token (Text.indent depth "\x7d,").toList = .closing := token_closing depth ","
    rw [Modules.tree,List.map_cons,token_group,List.map_append,List.map_cons,last,List.cons_append,List.append_assoc,
      walk,ihInner,List.cons_append,walk,ih]
    simp [Locale.Tree.messages,Function.comp_def]

theorem value?_optional (count parents : Nat) (value : String) :
    value? ((if count < parents then "?" else "") ++ (": " ++ value)).toList = some value.toList := by
  split <;> simp [value?]

/-- A field of the interface, optional or not. -/
theorem token_member (depth : Nat) (key : String) (count parents : Nat) (value : String) :
    token (Text.indent depth (Declarations.member key count parents ++ ": " ++ value)).toList =
      Token.of key value.toList := by
  rw [Declarations.member,String.append_assoc,String.append_assoc,token_propertyKey,value?_optional]
  · rfl
  · split <;> simp <;> decide

/-- A field of the interface that is a group. -/
theorem token_member_group (depth : Nat) (key : String) (count parents : Nat) :
    token (Text.indent depth (Declarations.member key count parents ++ ": \x7b")).toList = .opening key := by
  have line : Declarations.member key count parents ++ ": \x7b" =
      Declarations.member key count parents ++ ": " ++ "\x7b" := by rw [String.append_assoc]; rfl
  rw [line,token_member]
  simp [Token.of]

theorem of_messageType (key : String) (params : List String) :
    Token.of key (Declarations.messageType params).toList = .member key (Declarations.messageType params) := by
  refine Token.of_plain (c := 'g') ?_ (by decide) (by decide)
  rw [Declarations.messageType]
  split
  · rfl
  · rw [String.toList_append,List.getLast?_append]
    rfl

theorem walk_members (shape : Shape) (depth parents : Nat) (rest : List Token) (keys : List String) :
    walk ((Declarations.members depth parents shape).map (fun line => token line.toList) ++ rest) keys =
      shape.messages.map (fun (path,params) => (keys ++ path,Declarations.messageType params)) ++
        walk rest keys := by
  induction shape generalizing depth parents rest keys with
  | empty => rfl
  | message key count params more ih =>
    rw [Declarations.members,List.map_cons,token_member,of_messageType,List.cons_append,walk,ih]
    rfl
  | group key count inner more ihInner ih =>
    have last : token (Text.indent depth "\x7d").toList = .closing := token_closing depth ""
    rw [Declarations.members,List.map_cons,token_member_group,List.map_append,List.map_cons,last,List.cons_append,
      List.append_assoc,walk,ihInner,List.cons_append,walk,ih]
    simp [Shape.messages,Function.comp_def]

theorem walk_entry {first last : String} {entry : Locale.Entry}
    (opening : token first.toList = .opening entry.name) (closing : token last.toList = .closing)
    (rest : List Token) :
    walk ((first :: (Modules.tree 2 entry.tree ++ [last])).map (fun line => token line.toList) ++ rest) [] =
      entry.tree.messages.map (fun (path,text) => (entry.name :: path,Modules.message text)) ++ walk rest [] := by
  rw [List.map_cons,opening,List.map_append,List.map_singleton,closing,List.cons_append,List.append_assoc,walk,
    walk_tree,List.singleton_append,walk]
  rfl

/-- What a module says of the locales, in the order of their entries. -/
def listed (entries : List Locale.Entry) : List (List String × String) :=
  entries.flatMap fun entry =>
    entry.tree.messages.map fun (path,text) => (entry.name :: path,Modules.message text)

theorem walk_entries {render : Locale.Entry → List String} (one : ∀ entry rest,
      walk ((render entry).map (fun line => token line.toList) ++ rest) [] =
        entry.tree.messages.map (fun (path,text) => (entry.name :: path,Modules.message text)) ++ walk rest [])
    (entries : List Locale.Entry) :
    walk ((entries.flatMap render).map fun line => token line.toList) [] = listed entries := by
  induction entries with
  | nil => rfl
  | cons entry rest ih =>
    rw [List.flatMap_cons,List.map_append,one,ih]
    rfl

/-- The line that opens a locale, in a module that carries all of them. -/
theorem token_runtimeName (name : String) : token ("  " ++ Text.quote name ++ ": \x7b").toList = .opening name := by
  rw [String.append_assoc,← Text.indent_one,token_quote]
  simp [value?,Token.of]

/-- The line that opens a locale in a loader. -/
theorem token_loaderName (name : String) :
    token ("  " ++ Text.quote name ++ ": () => (\x7b").toList = .opening name := by
  rw [String.append_assoc,← Text.indent_one,token_quote]
  simp [value?,Token.of]

theorem walk_runtimeEntry (entry : Locale.Entry) (rest : List Token) :
    walk ((Modules.runtimeEntry entry).map (fun line => token line.toList) ++ rest) [] =
      entry.tree.messages.map (fun (path,text) => (entry.name :: path,Modules.message text)) ++ walk rest [] :=
  walk_entry (token_runtimeName entry.name) rfl rest

theorem walk_loaderEntry (entry : Locale.Entry) (rest : List Token) :
    walk ((Modules.loaderEntry entry).map (fun line => token line.toList) ++ rest) [] =
      entry.tree.messages.map (fun (path,text) => (entry.name :: path,Modules.message text)) ++ walk rest [] :=
  walk_entry (token_loaderName entry.name) rfl rest

/-- A line of its own, as generated lines all are. -/
def OneLine (line : String) : Prop := '\n' ∉ line.toList

instance (line : String) : Decidable (OneLine line) := inferInstanceAs (Decidable ('\n' ∉ line.toList))

/-- A line between a brace and the one that closes it. -/
structure Inner (line : String) : Prop where
  oneLine : OneLine line
  indented : line.toList.head? = some ' '

@[simp] theorem oneLine_append {a b : String} : OneLine (a ++ b) ↔ OneLine a ∧ OneLine b := by
  simp [OneLine,not_or]

theorem oneLine_intercalate {sep : String} {parts : List String} (between : OneLine sep)
    (each : ∀ part ∈ parts, OneLine part) : OneLine (String.intercalate sep parts) := by
  induction parts with
  | nil => simp [OneLine]
  | cons part rest ih =>
    obtain ⟨first,others⟩ := List.forall_mem_cons.mp each
    cases rest with
    | nil => simpa [OneLine] using first
    | cons next more =>
      rw [String.intercalate_cons_cons,oneLine_append,oneLine_append]
      exact ⟨⟨first,between⟩,ih others⟩

@[simp] theorem oneLine_quote (text : String) : OneLine (Text.quote text) := Text.newline_not_mem_quote text

theorem oneLine_identifier {text : String} (identifier : Message.isIdentifier text.toList = true) :
    OneLine text :=
  Message.not_mem_of_isIdentifier identifier (by decide)

@[simp] theorem oneLine_propertyKey (key : String) : OneLine (propertyKey key) := by
  rw [propertyKey]
  split
  next identifier => exact oneLine_identifier identifier
  · exact oneLine_quote key

@[simp] theorem oneLine_message (text : String) : OneLine (Modules.message text) := by
  rw [Modules.message]
  split
  · have operands : ∀ part ∈ (Message.segments text.toList).map Modules.segment, OneLine part := by
      rw [List.forall_mem_map]
      intro segment member
      cases segment with
      | literal => exact oneLine_quote _
      | parameter name =>
        have identifier : Message.isIdentifier (String.ofList name).toList = true := by
          rw [String.toList_ofList]
          exact Message.isIdentifier_of_parameter member
        rw [Modules.segment,oneLine_append]
        exact ⟨by decide,oneLine_identifier identifier⟩
    rw [oneLine_append]
    exact ⟨by decide,oneLine_intercalate (by decide) operands⟩
  · exact oneLine_quote text

@[simp] theorem oneLine_member (key : String) (count parents : Nat) :
    OneLine (Declarations.member key count parents) := by
  rw [Declarations.member]
  split <;> simp +decide

/-- Placeholders are identifiers. -/
def Identifiers (params : List String) : Prop := ∀ param ∈ params, Message.isIdentifier param.toList = true

theorem oneLine_messageType {params : List String} (identifiers : Identifiers params) :
    OneLine (Declarations.messageType params) := by
  have fields : ∀ part ∈ params.map (· ++ ": string"), OneLine part := by
    rw [List.forall_mem_map]
    intro param member
    rw [oneLine_append]
    exact ⟨oneLine_identifier (identifiers param member),by decide⟩
  have list : OneLine (Declarations.parameterList params) := oneLine_intercalate (by decide) fields
  rw [Declarations.messageType]
  split
  · exact (by decide)
  · simp +decide [list]

theorem Inner.of_indent {depth : Nat} {line : String} (deep : 0 < depth) (oneLine : OneLine line) :
    Inner (Text.indent depth line) where
  oneLine := by
    rw [OneLine,Text.toList_indent,List.mem_append,not_or]
    refine ⟨?_,oneLine⟩
    intro newline
    exact absurd (List.eq_of_mem_replicate newline) (by decide)
  indented := by
    obtain ⟨depth,rfl⟩ := Nat.exists_eq_add_one.mpr deep
    rw [Text.toList_indent,Nat.mul_succ,List.replicate_succ]
    rfl

theorem inner_tree (tree : Locale.Tree) {depth : Nat} (deep : 0 < depth) :
    ∀ line ∈ Modules.tree depth tree, Inner line := by
  induction tree generalizing depth with
  | empty => exact List.forall_mem_nil _
  | message key text rest ih =>
    rw [Modules.tree,List.forall_mem_cons]
    exact ⟨.of_indent deep (by simp +decide),ih deep⟩
  | group key inner rest ihInner ih =>
    rw [Modules.tree,List.forall_mem_cons,List.forall_mem_append,List.forall_mem_cons]
    exact ⟨.of_indent deep (by simp +decide),ihInner depth.succ_pos,.of_indent deep (by decide),ih deep⟩

theorem inner_members {shape : Shape} (identifiers : ∀ field ∈ shape.messages, Identifiers field.2)
    {depth parents : Nat} (deep : 0 < depth) : ∀ line ∈ Declarations.members depth parents shape, Inner line := by
  induction shape generalizing depth parents with
  | empty => exact List.forall_mem_nil _
  | message key count params rest ih =>
    obtain ⟨here,others⟩ := List.forall_mem_cons.mp identifiers
    rw [Declarations.members,List.forall_mem_cons]
    exact ⟨.of_indent deep (by simp +decide [oneLine_messageType here]),ih others deep⟩
  | group key count inner rest ihInner ih =>
    rw [Shape.messages,List.forall_mem_append,List.forall_mem_map] at identifiers
    rw [Declarations.members,List.forall_mem_cons,List.forall_mem_append,List.forall_mem_cons]
    exact ⟨.of_indent deep (by simp +decide),ihInner identifiers.1 depth.succ_pos,.of_indent deep (by decide),
      ih identifiers.2 deep⟩

theorem inner_runtimeEntry (entry : Locale.Entry) : ∀ line ∈ Modules.runtimeEntry entry, Inner line := by
  have opening : Inner (Text.indent 1 (Text.quote entry.name ++ ": \x7b")) := .of_indent (by decide) (by simp +decide)
  rw [Text.indent_one,← String.append_assoc] at opening
  rw [Modules.runtimeEntry,List.forall_mem_cons,List.forall_mem_append,List.forall_mem_singleton]
  exact ⟨opening,inner_tree entry.tree (by decide),by decide,by decide⟩

theorem inner_loaderEntry (entry : Locale.Entry) : ∀ line ∈ Modules.loaderEntry entry, Inner line := by
  have opening : Inner (Text.indent 1 (Text.quote entry.name ++ ": () => (\x7b")) :=
    .of_indent (by decide) (by simp +decide)
  rw [Text.indent_one,← String.append_assoc] at opening
  rw [Modules.loaderEntry,List.forall_mem_cons,List.forall_mem_append,List.forall_mem_singleton]
  exact ⟨opening,inner_tree entry.tree (by decide),by decide,by decide⟩

theorem inner_entries {render : Locale.Entry → List String} (one : ∀ entry, ∀ line ∈ render entry, Inner line)
    (entries : List Locale.Entry) : ∀ line ∈ entries.flatMap render, Inner line := by
  intro line member
  obtain ⟨entry,-,written⟩ := List.mem_flatMap.mp member
  exact one entry line written

/-- A block is made of the lines between its braces. -/
theorem within_unlines {openings : List String} (before : List String) {opening : String} {body after : List String}
    (outside : ∀ line ∈ before ++ opening :: after, OneLine line) (first : opening ∈ openings)
    (none : ∀ line ∈ before, line ∉ openings) (inside : ∀ line ∈ body, Inner line) :
    within (openings.map String.toList).contains
        (Text.pieces '\n' (Text.unlines (before ++ opening :: (body ++ "\x7d" :: after))).toList) =
      body.map String.toList := by
  have opens (line : String) : (openings.map String.toList).contains line.toList = decide (line ∈ openings) := by
    simp [List.mem_map,String.toList_inj]
  have single : ∀ line ∈ before ++ opening :: (body ++ "\x7d" :: after), OneLine line := by
    simp only [List.forall_mem_append,List.forall_mem_cons] at outside ⊢
    obtain ⟨earlier,here,later⟩ := outside
    exact ⟨earlier,here,fun line member => (inside line member).oneLine,by decide,later⟩
  have lines : Text.pieces '\n' (Text.unlines (before ++ opening :: (body ++ "\x7d" :: after))).toList =
      before.map String.toList ++ opening.toList :: (body.map String.toList ++ ['\x7d'] ::
        (after.map String.toList ++ [[]])) := by
    rw [Text.pieces_unlines single]
    simp
  have earlier : ∀ line ∈ before.map String.toList, (openings.map String.toList).contains line = false := by
    rw [List.forall_mem_map]
    intro line member
    rw [opens]
    exact decide_eq_false (none line member)
  have here : (openings.map String.toList).contains opening.toList = true := by
    rw [opens]
    exact decide_eq_true first
  have unclosed : ['\x7d'] ∉ body.map String.toList := by
    rw [List.mem_map]
    rintro ⟨line,member,closing⟩
    have indented := (inside line member).indented
    rw [closing] at indented
    cases indented
  rw [lines,within_block earlier here unclosed]

/-- A block is made of the tokens of its lines. -/
theorem block_unlines {openings : List String} (before : List String) {opening : String} {body after : List String}
    (outside : ∀ line ∈ before ++ opening :: after, OneLine line) (first : opening ∈ openings)
    (none : ∀ line ∈ before, line ∉ openings) (inside : ∀ line ∈ body, Inner line) :
    block openings (Text.unlines (before ++ opening :: (body ++ "\x7d" :: after))) =
      walk (body.map fun line => token line.toList) [] := by
  rw [block,within_unlines before outside first none inside,List.map_map]
  rfl

theorem values_runtime (entries : List Locale.Entry) : values (Modules.runtime entries) = listed entries := by
  have inside := inner_entries inner_runtimeEntry entries
  have lines : [header,"","const i18n = \x7b"] ++ entries.flatMap Modules.runtimeEntry ++
      ["\x7d","","export default i18n"] = [header,""] ++ "const i18n = \x7b" ::
        (entries.flatMap Modules.runtimeEntry ++ "\x7d" :: ["","export default i18n"]) := by simp
  rw [values,Modules.runtime,lines,block_unlines [header,""] (by decide) (by decide) (by decide) inside]
  exact walk_entries walk_runtimeEntry entries

theorem values_loader (entries : List Locale.Entry) (locale : String) :
    values (Modules.loader entries locale) = listed entries := by
  have inside := inner_entries inner_loaderEntry entries
  rw [values,Modules.loader,List.append_assoc]
  apply (block_unlines [header,""] _ (by decide) (by decide) inside).trans
  · exact walk_entries walk_loaderEntry entries
  · simp +decide

@[simp] theorem oneLine_languages (names : List String) : OneLine (Declarations.languages names) := by
  rw [Declarations.languages]
  split
  · exact (by decide)
  · apply oneLine_intercalate (by decide)
    rw [List.forall_mem_map]
    intro name _
    exact oneLine_quote name

theorem ne_interface {start rest : String}
    (differs : ¬start.toList <+: "export interface Locale \x7b".toList) :
    start ++ rest ≠ "export interface Locale \x7b" := by
  intro same
  have letters := congrArg String.toList same
  rw [String.toList_append] at letters
  exact differs ⟨rest.toList,letters⟩

/-- What stands around the interface. -/
theorem lines_around (names : List String) (shape : Shape) (locale : Option String) :
    ∃ before after, Declarations.lines names shape locale =
        before ++ "export interface Locale \x7b" ::
          (Declarations.members 1 names.length shape ++ "\x7d" :: after) ∧
      (∀ line ∈ before ++ "export interface Locale \x7b" :: after, OneLine line) ∧
      ∀ line ∈ before, line ≠ "export interface Locale \x7b" := by
  have union : "export type Language = " ++ Declarations.languages names ≠ "export interface Locale \x7b" :=
    ne_interface (by decide)
  cases locale with
  | none =>
    refine ⟨[header,"","export type Language = " ++ Declarations.languages names,""],
      ["","declare const i18n: Record<Language, Locale>","export default i18n"],?_,?_,?_⟩
    · simp [Declarations.lines]
    · simp +decide
    · simp +decide [union]
  | some locale =>
    have default : "export declare const defaultLanguage: " ++ Text.quote locale ≠
        "export interface Locale \x7b" := ne_interface (by decide)
    refine ⟨[header,"","export type Language = " ++ Declarations.languages names,"",
        "export declare const defaultLanguage: " ++ Text.quote locale,""],
      ["","declare const i18n: \x7b","  readonly language: Language","  readonly messages: Locale",
        "  load(language: Language): Promise<Locale>","\x7d","export default i18n"],?_,?_,?_⟩
    · simp [Declarations.lines]
    · simp +decide
    · simp +decide [union,default]

/-- The interface lists every message of the shape with its type. -/
theorem types_render (names : List String) {shape : Shape} (locale : Option String)
    (identifiers : ∀ field ∈ shape.messages, Identifiers field.2) :
    types (Declarations.render names shape locale) =
      shape.messages.map fun (path,params) => (path,Declarations.messageType params) := by
  have inside : ∀ line ∈ Declarations.members 1 names.length shape, Inner line :=
    inner_members identifiers (by decide)
  obtain ⟨before,after,lines,outside,other⟩ := lines_around names shape locale
  have unopened : ∀ line ∈ before, line ∉ ["export interface Locale \x7b"] := by simpa using other
  have walked := walk_members shape 1 names.length [] []
  rw [List.append_nil] at walked
  rw [types,Declarations.render,lines,block_unlines before outside (by decide) unopened inside,walked]
  simp [walk]

end Reading
end Generation
end Phrasebook
