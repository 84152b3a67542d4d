import Phrasebook.Proofs.Generation.Agreement
import Phrasebook.Proofs.Generation.Layout

/-! Declarations are read back whole: the names of the locales, the default one in lazy mode, and the members of
the interface with their marks and their types. So different declarations differ in their texts:
`declarations_recovered`. -/
namespace Phrasebook.Generation

/-- What a message is in the interface. -/
inductive MessageType where
  | string
  | function (params : List String)
deriving DecidableEq

def MessageType.of (params : List String) : MessageType := if params = [] then .string else .function params

/-- A member of the interface: its key, and whether a locale may lack it. -/
structure Label where
  key : String
  optional : Bool
deriving DecidableEq

abbrev Interface := Reading.Layout Label MessageType

/-- The interface of a merged shape, whose fields stand in a group that `parents` locales have. -/
def Interface.of (parents : Nat) : Shape → Interface
  | .empty => .empty
  | .message key count params rest => .member ⟨key,count < parents⟩ (.of params) (of parents rest)
  | .group key count inner rest => .group ⟨key,count < parents⟩ (of count inner) (of parents rest)

/-- All that declarations say. -/
structure Declared where
  names : List String
  defaultLocale : Option String
  interface : Interface
deriving DecidableEq

def Declared.of (entries : List Locale.Entry) (shape : Shape) (mode : Mode) : Declared where
  names := entries.map (·.name)
  defaultLocale := mode.defaultLocale?
  interface := .of entries.length shape

namespace Reading

def messageType? (type : String) : Option MessageType :=
  if type = "string" then some .string
  else if isFunctionType type then some (.function (declares type))
  else none

/-- A question mark follows the key. -/
def optional (line : List Char) : Bool :=
  (key? (line.dropWhile (· = ' '))).any fun (_,after) => after.head? = some '?'

/-- What a line of the interface stands for. -/
def memberRow (line : List Char) : Row Label MessageType :=
  (token line).row (fun key => ⟨key,optional line⟩) messageType?

/-- A quoted literal and what follows it. -/
def literal? (text : List Char) : Option (String × List Char) := if text.head? = some '"' then key? text else none

/-- The names of a union of literals, or none of them for `never`. -/
def names? (union : List Char) : Option (List String) :=
  match Text.separated " | ".toList literal? union with
  | some (names,_) => some names
  | none => if union = "never".toList then some [] else none

def defaultLocale? (lines : List (List Char)) : Option String :=
  ((headed? "export declare const defaultLanguage: " lines).bind literal?).map Prod.fst

/-- The declarations of a text. -/
def declarations? (declarations : String) : Option Declared :=
  let lines := Text.pieces '\n' declarations.toList
  let block := within (["export interface Locale \x7b"].map String.toList).contains lines
  ((headed? "export type Language = " lines).bind names?).bind fun names =>
    (Layout.build (block.map memberRow)).map fun interface => ⟨names,defaultLocale? lines,interface⟩

theorem messageType?_messageType {params : List String} (identifiers : Identifiers params) :
    messageType? (Declarations.messageType params) = some (.of params) := by
  rw [messageType?,MessageType.of]
  by_cases none : params = []
  · rw [if_pos ((messageType_eq_string params).mpr none),if_pos none]
  · have function : isFunctionType (Declarations.messageType params) = true :=
      (isFunctionType_messageType params).mpr none
    rw [if_neg (mt (messageType_eq_string params).mp none),if_pos function,if_neg none,
      declares_messageType identifiers]

/-- A member is marked where fewer locales have it than have its group. -/
theorem optional_member (depth : Nat) (key : String) (count parents : Nat) (value : String) :
    optional (Text.indent depth (Declarations.member key count parents ++ ": " ++ value)).toList =
      decide (count < parents) := by
  obtain ⟨c,more,head,space,-⟩ := head_propertyKey key
  rw [optional,dropWhile_indent,Declarations.member,String.append_assoc,String.append_assoc,String.toList_append,
    dropWhile_key head space,key?_propertyKey]
  · by_cases fewer : count < parents
    · simp [fewer]
    · simp [fewer]
  · by_cases fewer : count < parents
    · simp +decide [fewer]
    · simp +decide [fewer]

theorem map_memberRow_members {shape : Shape} (identifiers : ∀ field ∈ shape.messages, Identifiers field.2)
    (depth parents : Nat) : (Declarations.members depth parents shape).map (fun line => memberRow line.toList) =
      (Interface.of parents shape).rows := by
  induction shape generalizing depth parents with
  | empty => rfl
  | message key count params rest ih =>
    obtain ⟨here,others⟩ := List.forall_mem_cons.mp identifiers
    rw [Declarations.members,List.map_cons,memberRow,token_member,of_messageType,Token.row,
      messageType?_messageType here,optional_member,ih others,Interface.of,Layout.rows]
    rfl
  | group key count inner rest ihInner ih =>
    rw [Shape.messages,List.forall_mem_append,List.forall_mem_map] at identifiers
    have mark := optional_member depth key count parents "\x7b"
    have last : memberRow (Text.indent depth "\x7d").toList = .closing := by
      rw [memberRow,show token (Text.indent depth "\x7d").toList = .closing from token_closing depth ""]
      rfl
    rw [String.append_assoc] at mark
    rw [Declarations.members,List.map_cons,memberRow,token_member_group,Token.row,List.map_append,List.map_cons,last,
      ihInner identifiers.1,ih identifiers.2,Interface.of,Layout.rows]
    exact congrArg (fun optional => Row.opening (Label.mk key optional) ::
      ((Interface.of count inner).rows ++ Row.closing :: (Interface.of parents rest).rows)) mark

theorem literal?_quote (text : String) (rest : List Char) :
    literal? ((Text.quote text).toList ++ rest) = some (text,rest) := by
  have first : ((Text.quote text).toList ++ rest).head? = some '"' := by rw [Text.toList_quote]; rfl
  rw [literal?,if_pos first,key?_quote]

theorem names?_languages (names : List String) : names? (Declarations.languages names).toList = some names := by
  cases names with
  | nil =>
    have bare : Text.separated " | ".toList literal? "never".toList = none := by
      rw [Text.separated]
      rfl
    change names? "never".toList = some []
    rw [names?,bare]
    rfl
  | cons name rest =>
    have literals : Text.separated " | ".toList literal?
        (String.intercalate " | " ((name :: rest).map Text.quote)).toList = some (name :: rest,[]) :=
      Text.separated_intercalate (List.cons_ne_nil name rest) (by decide) (fun _ => trivial)
        (fun name _ text (_ : True) => literal?_quote name text) trivial
    rw [names?,Declarations.languages,List.isEmpty_cons,if_neg Bool.false_ne_true,literals]

variable {names : List String} {shape : Shape}

/-- Every generated line is one. -/
theorem oneLine_lines (identifiers : ∀ field ∈ shape.messages, Identifiers field.2) (locale : Option String) :
    ∀ line ∈ Declarations.lines names shape locale, OneLine line := by
  obtain ⟨before,after,lines,outside,-⟩ := lines_around names shape locale
  rw [lines]
  simp only [List.forall_mem_append,List.forall_mem_cons] at outside ⊢
  obtain ⟨earlier,opening,later⟩ := outside
  have inside : ∀ line ∈ Declarations.members 1 names.length shape, Inner line := inner_members identifiers (by decide)
  exact ⟨earlier,opening,fun line member => (inside line member).oneLine,by decide,later⟩

theorem headed?_languages (identifiers : ∀ field ∈ shape.messages, Identifiers field.2) (locale : Option String) :
    headed? "export type Language = "
        (Text.pieces '\n' (Declarations.render names shape locale).toList) =
      some (Declarations.languages names).toList := by
  have single : ∀ line ∈ Declarations.lines names shape locale, OneLine line := oneLine_lines identifiers locale
  have first : Declarations.lines names shape locale = [header,""] ++
      ("export type Language = " ++ Declarations.languages names) ::
        (Declarations.lines names shape locale).drop 3 := by
    simp [Declarations.lines]
  rw [Declarations.render]
  rw [first] at single ⊢
  exact headed?_unlines single (by decide)

/-- The default locale stands on a line of its own in lazy mode, and no line looks like that in the other. -/
theorem defaultLocale?_render (identifiers : ∀ field ∈ shape.messages, Identifiers field.2)
    (locale : Option String) :
    defaultLocale? (Text.pieces '\n' (Declarations.render names shape locale).toList) = locale := by
  have single : ∀ line ∈ Declarations.lines names shape locale, OneLine line := oneLine_lines identifiers locale
  have inside : ∀ line ∈ Declarations.members 1 names.length shape, Inner line := inner_members identifiers (by decide)
  have members : ∀ line ∈ Declarations.members 1 names.length shape,
      Text.after? "export declare const defaultLanguage: ".toList line.toList = none :=
    fun line member => (inside line member).unheaded (c := 'e') rfl (by decide)
  have union : Text.after? "export declare const defaultLanguage: ".toList
      ("export type Language = " ++ Declarations.languages names).toList = none := by
    rw [String.toList_append]
    rfl
  rw [defaultLocale?,Declarations.render]
  cases locale with
  | none =>
    have written : Declarations.lines names shape none =
        [header,"","export type Language = " ++ Declarations.languages names,"","export interface Locale \x7b"] ++
        (Declarations.members 1 names.length shape ++
          ["\x7d","","declare const i18n: Record<Language, Locale>","export default i18n"]) := by
      simp [Declarations.lines]
    rw [written] at single ⊢
    rw [headed?_eq_none single (by decide)]
    · rfl
    · simp only [List.forall_mem_append,List.forall_mem_cons]
      exact ⟨⟨by decide,by decide,union,by decide,by decide,List.forall_mem_nil _⟩,members,by decide,by decide,
        by decide,by decide,List.forall_mem_nil _⟩
  | some locale =>
    have first : Declarations.lines names shape (some locale) =
        [header,"","export type Language = " ++ Declarations.languages names,""] ++
        ("export declare const defaultLanguage: " ++ Text.quote locale) ::
          (Declarations.lines names shape (some locale)).drop 5 := by
      simp [Declarations.lines]
    have read := literal?_quote locale []
    rw [List.append_nil] at read
    rw [first] at single ⊢
    rw [headed?_unlines single,Option.bind_some,read]
    · rfl
    · simp only [List.forall_mem_cons]
      exact ⟨by decide,by decide,union,by decide,List.forall_mem_nil _⟩

theorem build_render (identifiers : ∀ field ∈ shape.messages, Identifiers field.2) (locale : Option String) :
    Layout.build ((within (["export interface Locale \x7b"].map String.toList).contains
        (Text.pieces '\n' (Declarations.render names shape locale).toList)).map memberRow) =
      some (Interface.of names.length shape) := by
  have inside : ∀ line ∈ Declarations.members 1 names.length shape, Inner line := inner_members identifiers (by decide)
  obtain ⟨before,after,lines,outside,other⟩ := lines_around names shape locale
  have unopened : ∀ line ∈ before, line ∉ ["export interface Locale \x7b"] := by simpa using other
  have rows := map_memberRow_members identifiers 1 names.length
  rw [Declarations.render,lines,within_unlines before outside (by simp) unopened inside,List.map_map]
  exact (congrArg Layout.build rows).trans (Layout.build_rows _)

theorem declarations?_render (identifiers : ∀ field ∈ shape.messages, Identifiers field.2)
    (locale : Option String) : declarations? (Declarations.render names shape locale) =
      some ⟨names,locale,.of names.length shape⟩ := by
  rw [declarations?,headed?_languages identifiers,Option.bind_some,names?_languages,Option.bind_some,
    build_render identifiers,defaultLocale?_render identifiers]
  rfl

theorem declarations?_of_ofEntries {entries : List Locale.Entry} (merged : Shape.ofEntries entries = .ok shape)
    (mode : Mode) : declarations? (Declarations.render (entries.map (·.name)) shape mode.defaultLocale?) =
      some (.of entries shape mode) := by
  rw [declarations?_render (identifiers_of_ofEntries merged),List.length_map]
  rfl

end Reading

/-- The declarations of locales that merge are read back as they were written, by one function for both modes. So
declarations with one text have the same names, the same default locale and the same interface. -/
theorem declarations_recovered {entries : List Locale.Entry} {shape : Shape}
    (merged : Shape.ofEntries entries = .ok shape) (mode : Mode) :
    Reading.declarations? (Declarations.render (entries.map (·.name)) shape mode.defaultLocale?) =
      some (.of entries shape mode) ∧
    ∀ {others : List Locale.Entry} {other : Shape}, Shape.ofEntries others = .ok other → ∀ {otherMode : Mode},
      Declarations.render (others.map (·.name)) other otherMode.defaultLocale? =
        Declarations.render (entries.map (·.name)) shape mode.defaultLocale? →
      Declared.of others other otherMode = Declared.of entries shape mode := by
  refine ⟨Reading.declarations?_of_ofEntries merged mode,?_⟩
  intro others other mergedOthers otherMode same
  have read := Reading.declarations?_of_ofEntries mergedOthers otherMode
  rw [same,Reading.declarations?_of_ofEntries merged mode] at read
  exact (Option.some.inj read).symm

open Greeting in
/-- A greeting with a parameter, read back from its declarations in lazy mode. -/
theorem greeting_recovered : Shape.ofEntries [english,french] = .ok shape ∧
    Reading.declarations? (Declarations.render ["en","fr"] shape (some "en")) =
      some ⟨["en","fr"],some "en",.member ⟨"welcome",false⟩ (.function ["name"]) .empty⟩ :=
  ⟨merged,(declarations_recovered merged (.lazy "en")).1⟩

end Phrasebook.Generation
