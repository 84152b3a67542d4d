import Phrasebook.Decimal

/-! YAML values: what a document means once tags, anchors and spellings are resolved. -/
namespace Phrasebook.Yaml

inductive Number where
  | integer (value : Int)
  | float (value : Float)
deriving Repr

namespace Number

def text : Number → String
  | integer n => toString n
  | float x =>
    if x.isNaN then ".nan"
    else if x.isInf then (if x < 0 then "-.inf" else ".inf")
    else Decimal.text false x

/-- Equality of numbers as keys: all NaNs are one, and both zeros. -/
def same : Number → Number → Bool
  | integer a,integer b => a = b
  | float a,float b => a == b || (a.isNaN && b.isNaN)
  | _,_ => false

end Number

inductive Value where
  | null
  | bool (value : Bool)
  | number (value : Number)
  | string (text : String)
  | sequence (items : List Value)
  | mapping (entries : List (Value × Value))
  | tagged (tag : String) (value : Value)
deriving Inhabited, Repr

namespace Value

/-- Tags with and without their leading `!` are one. -/
def sameTag (a b : String) : Bool :=
  let bare := fun (tag : String) => match tag.toList with
    | '!' :: rest => rest
    | chars => chars
  bare a = bare b

mutual

/-- Equality as keys; the order of a mapping's entries does not count. -/
def same : Value → Value → Bool
  | null,null => true
  | bool a,bool b => a = b
  | number a,number b => a.same b
  | string a,string b => a = b
  | sequence a,sequence b => sameItems a b
  | mapping a,mapping b => a.length = b.length && sameEntries a b
  | tagged s a,tagged t b => sameTag s t && same a b
  | _,_ => false

def sameItems : List Value → List Value → Bool
  | [],[] => true
  | a :: as,b :: bs => same a b && sameItems as bs
  | _,_ => false

def sameEntries : List (Value × Value) → List (Value × Value) → Bool
  | [],_ => true
  | (key,value) :: rest,others =>
    (others.any fun other => same key other.1 && same value other.2) && sameEntries rest others

end

end Value
end Phrasebook.Yaml
