import Phrasebook.Yaml.Cursor

/-! The tokens of a YAML stream. -/
namespace Phrasebook.Yaml

inductive Token where
  | version (major minor : Nat)
  | tagDirective (handle tagPrefix : List Char)
  | documentStart
  | documentEnd
  | blockSequence
  | blockMapping
  | blockEnd
  | flowSequence
  | flowSequenceEnd
  | flowMapping
  | flowMappingEnd
  | blockEntry
  | flowEntry
  | key
  | value
  | alias (name : List Char)
  | anchor (name : List Char)
  | tag (handle suffix : List Char)
  | scalar (plain : Bool) (text : List Char)
deriving DecidableEq, Inhabited, Repr

end Phrasebook.Yaml
