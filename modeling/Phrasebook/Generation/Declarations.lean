import Phrasebook.Generation.Basic
import Phrasebook.Text.Pieces
import Phrasebook.Text.Quoted

/-! TypeScript declarations: the union of the locale names, the default language in lazy
mode, and the merged interface. -/
namespace Phrasebook.Generation

def propertyKey (key : String) : String :=
  if Message.isIdentifier key.toList then key else Text.quote key

namespace Declarations

def languages (names : List String) : String :=
  if names.isEmpty then "never" else String.intercalate " | " (names.map Text.quote)

def parameterList (params : List String) : String :=
  String.intercalate "; " (params.map (· ++ ": string"))

/-- A message with placeholders is a function of them. -/
def messageType (params : List String) : String :=
  if params.isEmpty then "string" else "(params: \x7b " ++ parameterList params ++ " \x7d) => string"

/-- A field is optional where some locale with its group lacks it. -/
def member (key : String) (count parents : Nat) : String :=
  propertyKey key ++ if count < parents then "?" else ""

def members (depth parents : Nat) : Shape → List String
  | .empty => []
  | .message key count params rest =>
    Text.indent depth (member key count parents ++ ": " ++ messageType params) :: members depth parents rest
  | .group key count inner rest =>
    Text.indent depth (member key count parents ++ ": \x7b") ::
      (members (depth + 1) count inner ++ Text.indent depth "\x7d" :: members depth parents rest)

def lines (names : List String) (shape : Shape) (defaultLocale : Option String) : List String :=
  [header,"","export type Language = " ++ languages names,""] ++
  (match defaultLocale with
    | none => []
    | some locale => ["export declare const defaultLanguage: " ++ Text.quote locale,""]) ++
  ["export interface Locale \x7b"] ++ members 1 names.length shape ++ ["\x7d",""] ++
  (match defaultLocale with
    | none => ["declare const i18n: Record<Language, Locale>"]
    | some _ =>
      ["declare const i18n: \x7b",
       "  readonly language: Language",
       "  readonly messages: Locale",
       "  load(language: Language): Promise<Locale>",
       "\x7d"]) ++
  ["export default i18n"]

def render (names : List String) (shape : Shape) (defaultLocale : Option String) : String :=
  Text.unlines (lines names shape defaultLocale)

end Declarations
end Phrasebook.Generation
