import Phrasebook.Decimal
import Phrasebook.Text.Quoted

/-! JSON values whose objects keep the order of their fields, and their compact text. -/
namespace Phrasebook

inductive Json where
  | null
  | bool (value : Bool)
  | integer (value : Int)
  | float (value : Float)
  | string (text : String)
  | array (items : List Json)
  | object (fields : List (String × Json))
deriving Inhabited, Repr

namespace Json

mutual

def text : Json → String
  | null => "null"
  | bool value => toString value
  | integer value => toString value
  | float value => Decimal.text true value
  | string text => Text.quote text
  | array items => "[" ++ String.intercalate "," (itemTexts items) ++ "]"
  | object fields => "\x7b" ++ String.intercalate "," (fieldTexts fields) ++ "\x7d"

def itemTexts : List Json → List String
  | [] => []
  | item :: rest => text item :: itemTexts rest

def fieldTexts : List (String × Json) → List String
  | [] => []
  | (key,value) :: rest => (Text.quote key ++ ":" ++ text value) :: fieldTexts rest

end

end Json
end Phrasebook
