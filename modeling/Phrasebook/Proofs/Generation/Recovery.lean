import Phrasebook.Proofs.Generation.Containment
import Phrasebook.Proofs.Generation.Layout
import Phrasebook.Proofs.Text.Placeholder

/-! A module is read back whole: its locales in their order, each with its tree, and the default locale of a
loader. So different modules differ in their texts: `modules_recovered`. -/
namespace Phrasebook.Generation

/-- A module with messages: of all locales at once, or of each behind a function, with one to begin with. -/
inductive Carrier where
  | runtime (entries : List Locale.Entry)
  | loader (entries : List Locale.Entry) (defaultLocale : String)
deriving DecidableEq

namespace Carrier

def text : Carrier → String
  | runtime entries => Modules.runtime entries
  | loader entries locale => Modules.loader entries locale

def opening : Carrier → String
  | runtime _ => "const i18n = \x7b"
  | loader .. => "const locales = \x7b"

def body : Carrier → List String
  | runtime entries => entries.flatMap Modules.runtimeEntry
  | loader entries _ => entries.flatMap Modules.loaderEntry

/-- The code by which a loader changes from one locale to another. -/
def switching : List String :=
  ["",
   "let language = defaultLanguage",
   "let messages = locales[language]()","",
   "export default \x7b",
   "  get language() \x7b return language \x7d,",
   "  get messages() \x7b return messages \x7d,",
   "  load(next) \x7b",
   "    language = next",
   "    messages = locales[next]()",
   "    return Promise.resolve(messages)",
   "  \x7d,",
   "\x7d"]

theorem plain_switching : ∀ line ∈ switching, '\n' ∉ line.toList ∧ '"' ∉ line.toList := by decide

/-- What follows the locales, with the default one written as given. -/
def ending (write : String → String) : Carrier → List String
  | runtime _ => ["","export default i18n"]
  | loader _ locale => "" :: ("export const defaultLanguage = " ++ write locale) :: switching

def lines (carrier : Carrier) (write : String → String) (body : List String) : List String :=
  [header,""] ++ carrier.opening :: (body ++ "\x7d" :: carrier.ending write)

theorem text_eq (carrier : Carrier) : carrier.text = Text.unlines (carrier.lines Text.quote carrier.body) := by
  cases carrier with
  | runtime entries => simp [text,Modules.runtime,lines,opening,body,ending]
  | loader entries locale => simp [text,Modules.loader,lines,opening,body,ending,switching]

/-- What the lines say outside of their literals. -/
def bare (carrier : Carrier) : List String :=
  carrier.lines (fun _ => "\"") <|
    match carrier with
    | runtime entries => entries.flatMap (Reading.bareEntry ": \x7b" "  \x7d,")
    | loader entries _ => entries.flatMap (Reading.bareEntry ": () => (\x7b" "  \x7d),")

theorem inner_body (carrier : Carrier) : ∀ line ∈ carrier.body, Reading.Inner line := by
  cases carrier with
  | runtime entries => exact Reading.inner_entries Reading.inner_runtimeEntry entries
  | loader entries => exact Reading.inner_entries Reading.inner_loaderEntry entries

theorem oneLine_around (carrier : Carrier) :
    ∀ line ∈ [header,""] ++ carrier.opening :: carrier.ending Text.quote, Reading.OneLine line := by
  cases carrier with
  | runtime =>
    simp only [opening,ending]
    decide
  | loader entries locale =>
    have code : ∀ line ∈ switching, Reading.OneLine line := fun line member => (plain_switching line member).1
    have default : Reading.OneLine ("export const defaultLanguage = " ++ Text.quote locale) :=
      Reading.oneLine_append.mpr ⟨by decide,Reading.oneLine_quote locale⟩
    simp only [opening,ending,List.forall_mem_append,List.forall_mem_cons]
    exact ⟨⟨by decide,by decide,List.forall_mem_nil _⟩,by decide,by decide,default,code⟩

theorem oneLine_lines (carrier : Carrier) :
    ∀ line ∈ carrier.lines Text.quote carrier.body, Reading.OneLine line := by
  have around := carrier.oneLine_around
  simp only [lines,List.forall_mem_append,List.forall_mem_cons] at around ⊢
  obtain ⟨before,opening,after⟩ := around
  exact ⟨before,opening,fun line member => (carrier.inner_body line member).oneLine,by decide,after⟩

end Carrier

namespace Reading

/-- The first operand of an expression, as the segment of a message, and what follows it. -/
def operand? : List Char → Option (Segment × List Char)
  | '"' :: rest => (Text.Quoted.read rest).map fun (text,after) => (.literal text,after)
  | text => (Text.after? "params.".toList text).map fun name =>
    (.parameter (name.takeWhile Message.isIdentifierPart),name.dropWhile Message.isIdentifierPart)

/-- The message of an emitted value. -/
def text? (value : String) : Option String :=
  let body := (Text.after? "(params) => ".toList value.toList).getD value.toList
  (Text.separated " + ".toList operand? body).map fun (segments,_) =>
    String.ofList (segments.flatMap Segment.source)

theorem operand?_segment {segment : Segment} (named : Named [segment]) {rest : List Char}
    (stops : rest.head?.any Message.isIdentifierPart = false) :
    operand? ((Modules.segment segment).toList ++ rest) = some (segment,rest) := by
  cases segment with
  | literal text =>
    have written : (Modules.segment (.literal text)).toList ++ rest =
        '"' :: (text.flatMap Text.Quoted.escape ++ '"' :: rest) := by
      simp [Modules.segment,Text.toList_quote]
    rw [written,operand?,Text.Quoted.read_chars]
    rfl
  | parameter name =>
    have parts := Message.isIdentifierPart_of_isIdentifier (named name (List.mem_singleton_self _))
    have written : (Modules.segment (.parameter name)).toList ++ rest = "params.".toList ++ (name ++ rest) := by
      simp [Modules.segment]
    have unquoted : ∀ tail, "params.".toList ++ (name ++ rest) ≠ '"' :: tail := by
      intro tail same
      cases same
    rw [written,operand?]
    · rw [Text.after?_append,Option.map_some,Text.takeWhile_front parts stops,Text.dropWhile_front parts stops]
    · exact unquoted

/-- Operands are read back one by one. -/
theorem separated_operands {segments : List Segment} (some : segments ≠ []) (named : Named segments) :
    Text.separated " + ".toList operand? (String.intercalate " + " (segments.map Modules.segment)).toList =
      Option.some (segments,[]) := by
  have stops (text : List Char) : (" + ".toList ++ text).head?.any Message.isIdentifierPart = false := rfl
  have each : ∀ segment ∈ segments, Named [segment] :=
    fun segment member name here => named name (List.mem_singleton.mp here ▸ member)
  exact Text.separated_intercalate some (by decide) stops
    (fun segment member text stops => operand?_segment (each segment member) stops) rfl

/-- What an emitted value says as an expression: one literal, or the segments of its message. -/
def operands (text : String) : List Segment :=
  if Message.parameters text = [] then [.literal text.toList] else Message.segments text.toList

theorem separated_message (text : String) :
    Text.separated " + ".toList operand?
      ((Text.after? "(params) => ".toList (Modules.message text).toList).getD (Modules.message text).toList) =
      some (operands text,[]) := by
  by_cases none : Message.parameters text = []
  · have literal : Modules.message text =
        String.intercalate " + " ([Segment.literal text.toList].map Modules.segment) := by
      rw [message_literal none,List.map_singleton,String.intercalate_singleton,Modules.segment,String.ofList_toList]
    have plain : Text.after? "(params) => ".toList (Modules.message text).toList = Option.none := by
      rw [message_literal none,Text.toList_quote]
      exact Text.after?_of_head (c := '(') rfl rfl (by decide)
    have named : Named [Segment.literal text.toList] := by simp [Named]
    rw [plain,Option.getD_none,literal,separated_operands (by simp) named,operands,if_pos none]
  · have named : Named (Message.segments text.toList) := by
      intro name member
      exact Message.isIdentifier_of_parameter member
    have segments : Message.segments text.toList ≠ [] := by
      intro nothing
      exact none (by rw [Message.parameters,nothing]; rfl)
    rw [message_function none,String.toList_append,Text.after?_append,Option.getD_some,
      separated_operands segments named,operands,if_neg none]

theorem source_operands (text : String) : (operands text).flatMap Segment.source = text.toList := by
  rw [operands]
  split
  · simp [Segment.source]
  · exact Message.source_segments text.toList

theorem text?_message (text : String) : text? (Modules.message text) = some text := by
  simp only [text?,separated_message,Option.map_some,source_operands,String.ofList_toList]

namespace Layout

/-- A tree, its messages by their keys. -/
def ofTree : Locale.Tree → Layout String String
  | .empty => .empty
  | .message key text rest => .member key text (ofTree rest)
  | .group key inner rest => .group key (ofTree inner) (ofTree rest)

def toTree : Layout String String → Locale.Tree
  | .empty => .empty
  | .member key text rest => .message key text (toTree rest)
  | .group key inner rest => .group key (toTree inner) (toTree rest)

theorem toTree_ofTree (tree : Locale.Tree) : (ofTree tree).toTree = tree := by
  induction tree with
  | empty => rfl
  | message key text rest ih => rw [ofTree,toTree,ih]
  | group key inner rest ihInner ih => rw [ofTree,toTree,ihInner,ih]

/-- Locales, each a group under its name. -/
def ofEntries : List Locale.Entry → Layout String String
  | [] => .empty
  | entry :: rest => .group entry.name (ofTree entry.tree) (ofEntries rest)

def toEntries? : Layout String String → Option (List Locale.Entry)
  | .empty => some []
  | .member .. => none
  | .group name inner rest => (toEntries? rest).map (⟨name,inner.toTree⟩ :: ·)

theorem toEntries?_ofEntries (entries : List Locale.Entry) : (ofEntries entries).toEntries? = some entries := by
  induction entries with
  | nil => rfl
  | cons entry rest ih => rw [ofEntries,toEntries?,ih,toTree_ofTree,Option.map_some]

end Layout

/-- What a line of a module stands for. -/
def messageRow (line : List Char) : Row String String := (token line).row id text?

theorem map_messageRow_tree (tree : Locale.Tree) (depth : Nat) :
    (Modules.tree depth tree).map (fun line => messageRow line.toList) = (Layout.ofTree tree).rows := by
  induction tree generalizing depth with
  | empty => rfl
  | message key text rest ih =>
    have line : messageRow (Text.indent depth (propertyKey key ++ ": " ++ Modules.message text ++ ",")).toList =
        .member key text := by
      rw [messageRow,token_message,Token.row,text?_message]
      rfl
    rw [Modules.tree,List.map_cons,line,ih,Layout.ofTree,Layout.rows]
  | group key inner rest ihInner ih =>
    have first : messageRow (Text.indent depth (propertyKey key ++ ": \x7b")).toList = .opening key := by
      rw [messageRow,token_group]
      rfl
    have last : messageRow (Text.indent depth "\x7d,").toList = .closing := by
      rw [messageRow,show token (Text.indent depth "\x7d,").toList = .closing from token_closing depth ","]
      rfl
    rw [Modules.tree,List.map_cons,List.map_append,List.map_cons,first,last,ihInner,ih,Layout.ofTree,Layout.rows]

theorem map_messageRow_entry {first last : String} {entry : Locale.Entry}
    (opening : token first.toList = .opening entry.name) (closing : token last.toList = .closing) :
    (first :: (Modules.tree 2 entry.tree ++ [last])).map (fun line => messageRow line.toList) =
      .opening entry.name :: ((Layout.ofTree entry.tree).rows ++ [.closing]) := by
  rw [List.map_cons,List.map_append,List.map_singleton,map_messageRow_tree,messageRow,messageRow,opening,closing]
  rfl

theorem map_messageRow_entries {render : Locale.Entry → List String} (one : ∀ entry,
      (render entry).map (fun line => messageRow line.toList) =
        .opening entry.name :: ((Layout.ofTree entry.tree).rows ++ [.closing]))
    (entries : List Locale.Entry) :
    (entries.flatMap render).map (fun line => messageRow line.toList) = (Layout.ofEntries entries).rows := by
  induction entries with
  | nil => rfl
  | cons entry rest ih =>
    rw [List.flatMap_cons,List.map_append,one,ih,Layout.ofEntries,Layout.rows]
    simp

theorem map_messageRow_body (carrier : Carrier) : carrier.body.map (fun line => messageRow line.toList) =
    match carrier with
    | .runtime entries => (Layout.ofEntries entries).rows
    | .loader entries _ => (Layout.ofEntries entries).rows := by
  cases carrier with
  | runtime entries =>
    exact map_messageRow_entries (fun entry => map_messageRow_entry (token_runtimeName entry.name) rfl) entries
  | loader entries =>
    exact map_messageRow_entries (fun entry => map_messageRow_entry (token_loaderName entry.name) rfl) entries

/-- The module of a text. -/
def carrier? (module : String) : Option Carrier :=
  let lines := Text.pieces '\n' module.toList
  let block := within (["const i18n = \x7b","const locales = \x7b"].map String.toList).contains lines
  ((Layout.build (block.map messageRow)).bind Layout.toEntries?).map fun entries =>
    match (headed? "export const defaultLanguage = " lines).bind key? with
    | some (locale,_) => .loader entries locale
    | none => .runtime entries

/-- The default locale stands on a line of its own, and nothing before it looks like that. -/
theorem headed?_default (carrier : Carrier) :
    headed? "export const defaultLanguage = " (Text.pieces '\n' carrier.text.toList) =
      match carrier with
      | .runtime _ => none
      | .loader _ locale => some (Text.quote locale).toList := by
  have single := carrier.oneLine_lines
  have inside : ∀ line ∈ carrier.body,
      Text.after? "export const defaultLanguage = ".toList line.toList = none :=
    fun line member => (carrier.inner_body line member).unheaded (c := 'e') rfl (by decide)
  rw [carrier.text_eq]
  cases carrier with
  | runtime entries =>
    apply headed?_eq_none single (by decide)
    simp only [Carrier.lines,Carrier.opening,Carrier.ending,List.forall_mem_append,List.forall_mem_cons]
    exact ⟨by decide,by decide,inside,by decide,by decide⟩
  | loader entries locale =>
    have before : (Carrier.loader entries locale).lines Text.quote (Carrier.loader entries locale).body =
        ([header,"","const locales = \x7b"] ++ ((Carrier.loader entries locale).body ++ ["\x7d",""])) ++
          ("export const defaultLanguage = " ++ Text.quote locale) :: Carrier.switching := by
      simp [Carrier.lines,Carrier.opening,Carrier.ending]
    rw [before] at single ⊢
    apply headed?_unlines single
    simp only [List.forall_mem_append]
    exact ⟨by decide,inside,by decide⟩

theorem carrier?_text (carrier : Carrier) : carrier? carrier.text = some carrier := by
  have opens : carrier.opening ∈ ["const i18n = \x7b","const locales = \x7b"] := by
    cases carrier <;> simp [Carrier.opening]
  have block := within_unlines [header,""] carrier.oneLine_around opens (by decide) carrier.inner_body
  rw [carrier?,headed?_default,carrier.text_eq,Carrier.lines,block,List.map_map,Function.comp_def,
    map_messageRow_body]
  cases carrier with
  | runtime entries => simp [Layout.build_rows,Layout.toEntries?_ofEntries]
  | loader entries locale =>
    have read := key?_quote locale []
    rw [List.append_nil] at read
    simp [Layout.build_rows,Layout.toEntries?_ofEntries,read]

theorem text_injective : Function.Injective Carrier.text := by
  intro a b same
  have recovered := carrier?_text a
  rw [same,carrier?_text b] at recovered
  exact (Option.some.inj recovered).symm

/-- Outside of its literals a module says no more than its outline. -/
theorem showsLines_lines (carrier : Carrier) : ShowsLines (carrier.lines Text.quote carrier.body) carrier.bare := by
  have before : ShowsLines [header,""] [header,""] := showsLines_plain (by decide)
  cases carrier with
  | runtime entries =>
    have opening : Shows "const i18n = \x7b".toList "const i18n = \x7b".toList := .plain (by decide)
    have body : ShowsLines (entries.flatMap Modules.runtimeEntry) (entries.flatMap (bareEntry ": \x7b" "  \x7d,")) :=
      showsLines_entries (fun entry => showsLines_entry (by decide) (by decide) entry) entries
    have after : ShowsLines ["\x7d","","export default i18n"] ["\x7d","","export default i18n"] :=
      showsLines_plain (by decide)
    exact List.rel_append before (.cons opening (List.rel_append body after))
  | loader entries locale =>
    have opening : Shows "const locales = \x7b".toList "const locales = \x7b".toList := .plain (by decide)
    have body : ShowsLines (entries.flatMap Modules.loaderEntry)
        (entries.flatMap (bareEntry ": () => (\x7b" "  \x7d),")) :=
      showsLines_entries (fun entry => showsLines_entry (by decide) (by decide) entry) entries
    have default : Shows ("export const defaultLanguage = " ++ Text.quote locale).toList
        ("export const defaultLanguage = " ++ "\"").toList := by
      rw [String.toList_append,String.toList_append]
      exact .append (.plain (by decide)) (.quote locale)
    have code : ShowsLines Carrier.switching Carrier.switching :=
      showsLines_plain fun line member => (Carrier.plain_switching line member).2
    exact List.rel_append before (.cons opening (List.rel_append body
      (.cons (.plain (by decide)) (.cons (.plain (by decide)) (.cons default code)))))

end Reading

/-- A module is read back as it was written, by one function for both kinds. So no two modules have one text,
and each line shows, outside of literals that it closes, its outline alone. -/
theorem modules_recovered : (∀ carrier : Carrier, Reading.carrier? carrier.text = some carrier) ∧
    Function.Injective Carrier.text ∧
    ∀ carrier : Carrier, (Text.pieces '\n' carrier.text.toList).map (Reading.code? .code) =
      (carrier.bare ++ [""]).map fun line => some line.toList := by
  refine ⟨Reading.carrier?_text,Reading.text_injective,?_⟩
  intro carrier
  rw [carrier.text_eq]
  exact Reading.code?_unlines carrier.oneLine_lines (Reading.showsLines_lines carrier)

end Phrasebook.Generation
