import Phrasebook.Generation.Declarations

/-! Modules that carry the messages: all locales at once, or each behind a function that a
loader calls. A message with placeholders becomes a function of its parameters. -/
namespace Phrasebook.Generation.Modules

def segment : Segment → String
  | .literal text => Text.quote (String.ofList text)
  | .parameter name => "params." ++ String.ofList name

def isParameter : Segment → Bool
  | .parameter _ => true
  | .literal _ => false

def message (text : String) : String :=
  let segments := Message.segments text.toList
  if segments.any isParameter then
    "(params) => " ++ String.intercalate " + " (segments.map segment)
  else Text.quote text

def tree (depth : Nat) : Locale.Tree → List String
  | .empty => []
  | .message key text rest =>
    Text.indent depth (propertyKey key ++ ": " ++ message text ++ ",") :: tree depth rest
  | .group key inner rest =>
    Text.indent depth (propertyKey key ++ ": \x7b") ::
      (tree (depth + 1) inner ++ Text.indent depth "\x7d," :: tree depth rest)

def runtimeEntry (entry : Locale.Entry) : List String :=
  ("  " ++ Text.quote entry.name ++ ": \x7b") :: (tree 2 entry.tree ++ ["  \x7d,"])

def runtime (entries : List Locale.Entry) : String :=
  Text.unlines <|
    [header,"","const i18n = \x7b"] ++ entries.flatMap runtimeEntry ++
    ["\x7d","","export default i18n"]

def loaderEntry (entry : Locale.Entry) : List String :=
  ("  " ++ Text.quote entry.name ++ ": () => (\x7b") :: (tree 2 entry.tree ++ ["  \x7d),"])

def loader (entries : List Locale.Entry) (defaultLocale : String) : String :=
  Text.unlines <|
    [header,"","const locales = \x7b"] ++ entries.flatMap loaderEntry ++
    ["\x7d","",
     "export const defaultLanguage = " ++ Text.quote defaultLocale,"",
     "let language = defaultLanguage",
     "let messages = locales[language]()","",
     "export default \x7b",
     "  get language() \x7b return language \x7d,",
     "  get messages() \x7b return messages \x7d,",
     "  load(next) \x7b",
     "    language = next",
     "    messages = locales[next]()",
     "    return Promise.resolve(messages)",
     "  \x7d,",
     "\x7d"]

end Modules

/-- Lazy mode has one artifact whatever the target. -/
def generate (entries : List Locale.Entry) (target : Target) (mode : Mode) : Except Fault Artifact :=
  match Shape.ofEntries entries with
  | .error clash => .error (.clash clash)
  | .ok shape =>
    let names := entries.map (·.name)
    match mode with
    | .normal =>
      match target with
      | .types => .ok (.single (Declarations.render names shape none))
      | .runtime => .ok (.single (Modules.runtime entries))
    | .lazy locale =>
      if names.contains locale then
        .ok (.withLoader (Declarations.render names shape (some locale)) (Modules.loader entries locale))
      else .error (.noDefault locale)

end Phrasebook.Generation
