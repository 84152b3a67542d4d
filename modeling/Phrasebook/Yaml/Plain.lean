import Phrasebook.Text.Quoted
import Phrasebook.Yaml.Value

/-! What the text of a scalar means: null, a boolean, an integer, a float or a string. -/
namespace Phrasebook.Yaml.Plain

open Text (natural?)

def isNull (text : List Char) : Bool :=
  ["null","Null","NULL","~"].any (·.toList = text)

def bool? (text : List Char) : Option Bool :=
  if ["true","True","TRUE"].any (·.toList = text) then some true
  else if ["false","False","FALSE"].any (·.toList = text) then some false
  else none

def dropSign : List Char → List Char
  | '+' :: rest => rest
  | '-' :: rest => rest
  | text => text

/-- Two or more digits that start with a zero are no number. -/
def isZeroPadded (text : List Char) : Bool :=
  match dropSign text with
  | '0' :: rest => !rest.isEmpty && rest.all Char.isDigit
  | _ => false

/-- Digits after `0x`, `0o` or `0b`, or decimal digits. -/
def magnitude? : List Char → Option Nat
  | '0' :: 'x' :: digits => natural? 16 digits
  | '0' :: 'o' :: digits => natural? 8 digits
  | '0' :: 'b' :: digits => natural? 2 digits
  | digits => if isZeroPadded digits then none else natural? 10 digits

def integer? : List Char → Option Int
  | '-' :: text => (magnitude? text).map fun n => -(n : Int)
  | '+' :: text => (magnitude? text).map Int.ofNat
  | text => (magnitude? text).map Int.ofNat

/-- How an integer fits the machine: 64 bits hold it, 128 bits do, or neither. -/
inductive Width where
  | word
  | double
  | wide

def width (n : Int) : Width :=
  if -(Nat.pow 2 63 : Nat) ≤ n && n < Nat.pow 2 64 then .word
  else if -(Nat.pow 2 127 : Nat) ≤ n && n < Nat.pow 2 128 then .double
  else .wide

/-- The exponent after a mantissa, if any. -/
def exponent? : List Char → Option Int
  | [] => some 0
  | e :: rest =>
    if e = 'e' || e = 'E' then
      match rest with
      | '-' :: digits => (natural? 10 digits).map fun n => -(n : Int)
      | '+' :: digits => (natural? 10 digits).map Int.ofNat
      | digits => (natural? 10 digits).map Int.ofNat
    else none

/-- Digits with at most one point and at least one digit, then perhaps an exponent. -/
def decimal? (text : List Char) : Option Float := do
  let whole := text.takeWhile Char.isDigit
  let (fraction,rest) := match text.dropWhile Char.isDigit with
    | '.' :: rest => (rest.takeWhile Char.isDigit,rest.dropWhile Char.isDigit)
    | rest => ([],rest)
  if whole.isEmpty && fraction.isEmpty then none
  else
    let mantissa ← natural? 10 (whole ++ fraction)
    let exponent ← exponent? rest
    let value := Decimal.nearest mantissa (exponent - fraction.length)
    if value.isInf then none else some value

def isInfinite (text : List Char) : Bool := [".inf",".Inf",".INF"].any (·.toList = text)

def isNotANumber (text : List Char) : Bool := [".nan",".NaN",".NAN"].any (·.toList = text)

def float? (text : List Char) : Option Float :=
  if isNotANumber text then some (0.0 / 0.0)
  else match text with
    | '-' :: rest => if isInfinite rest then some (-1.0 / 0.0) else (decimal? rest).map (-·)
    | '+' :: rest => if isInfinite rest then some (1.0 / 0.0) else decimal? rest
    | rest => if isInfinite rest then some (1.0 / 0.0) else decimal? rest

/-- The number that a text spells. An integer of 65 to 128 bits is refused, a longer one is
read as a float. -/
def number? (text : List Char) : Option (Option Number) :=
  let float := if isZeroPadded text then none else (float? text).map Number.float
  match integer? text with
  | some n =>
    match width n with
    | .word => some (some (.integer n))
    | .double => none
    | .wide => some float
  | none => some float

/-- The value of plain text without a tag. -/
def value? (text : List Char) : Option Value :=
  if text.isEmpty || isNull text then some .null
  else match bool? text with
    | some b => some (.bool b)
    | none => (number? text).map fun
      | some n => .number n
      | none => .string (String.ofList text)

def integerOnly? (text : List Char) : Option Value :=
  (integer? text).bind fun n =>
    match width n with
    | .word => some (.number (.integer n))
    | _ => none

inductive Kind where
  | bool
  | int
  | float
  | null

/-- The kinds of scalar that a tag may ask for. -/
def kind? (tag : List Char) : Option Kind :=
  if tag = "tag:yaml.org,2002:bool".toList then some .bool
  else if tag = "tag:yaml.org,2002:int".toList then some .int
  else if tag = "tag:yaml.org,2002:float".toList then some .float
  else if tag = "tag:yaml.org,2002:null".toList then some .null
  else none

def ofKind? (kind : Kind) (text : List Char) : Option Value :=
  match kind with
  | .bool => (bool? text).map .bool
  | .int => integerOnly? text
  | .float => (float? text).map fun x => .number (.float x)
  | .null => if isNull text then some .null else none

end Phrasebook.Yaml.Plain
