import Phrasebook.Json
import Phrasebook.Keyed
import Phrasebook.Text.Quoted

/-! Reading JSON text. A repeated key keeps its first place and its last value. -/
namespace Phrasebook.Json

def skipSpace (text : List Char) : List Char :=
  text.dropWhile fun c => c = ' ' || c = '\n' || c = '\t' || c = '\r'

def digit? (c : Char) : Option Nat := if c.isDigit then some (c.toNat - '0'.toNat) else none

def hex4? : List Char → Option (Nat × List Char)
  | a :: b :: c :: d :: rest => (Text.natural? 16 [a,b,c,d]).map (·,rest)
  | _ => none

/-- The character after `\u`; two surrogates make one character. -/
def unicodeEscape? (text : List Char) : Option (Char × List Char) := do
  let (high,rest) ← hex4? text
  if 0xd800 ≤ high && high < 0xdc00 then
    match rest with
    | '\\' :: 'u' :: rest =>
      let (low,rest) ← hex4? rest
      if 0xdc00 ≤ low && low < 0xe000 then
        some (Char.ofNat (0x10000 + (high - 0xd800) * 0x400 + (low - 0xdc00)),rest)
      else none
    | _ => none
  else if 0xdc00 ≤ high && high < 0xe000 then none
  else some (Char.ofNat high,rest)

def namedEscape? : Char → Option Char
  | '"' => some '"'
  | '\\' => some '\\'
  | '/' => some '/'
  | 'b' => some '\x08'
  | 'f' => some '\x0c'
  | 'n' => some '\n'
  | 'r' => some '\r'
  | 't' => some '\t'
  | _ => none

/-- The characters up to the closing quote. -/
def stringBody : Nat → List Char → List Char → Option (List Char × List Char)
  | 0,_,_ => none
  | _,_,[] => none
  | fuel + 1,read,c :: rest =>
    if c = '"' then some (read.reverse,rest)
    else if c = '\\' then
      match rest with
      | 'u' :: rest => do
        let (c,rest) ← unicodeEscape? rest
        stringBody fuel (c :: read) rest
      | letter :: rest => do stringBody fuel ((← namedEscape? letter) :: read) rest
      | [] => none
    else if c.toNat < 0x20 then none
    else stringBody fuel (c :: read) rest

def wordLimit : Nat := Nat.pow 2 64 - 1

/-- Digits are gathered while they fit a word; the flag says whether all did. -/
def gather : Nat → Nat → List Char → Nat × Nat × Bool × List Char
  | n,count,c :: rest =>
    match digit? c with
    | some d => if 10 * n + d ≤ wordLimit then gather (10 * n + d) (count + 1) rest else (n,count,false,c :: rest)
    | none => (n,count,true,c :: rest)
  | n,count,[] => (n,count,true,[])

/-- The powers of ten that are doubles are multiplied or divided by once. -/
def scale : Nat → Float → Int → Option Float
  | 0,_,_ => none
  | fuel + 1,x,exponent =>
    if exponent.natAbs ≤ 308 then
      let power := Float.ofScientific 1 false exponent.natAbs
      if 0 ≤ exponent then (if (x * power).isInf then none else some (x * power)) else some (x / power)
    else if x == 0.0 then some x
    else if 0 ≤ exponent then none
    else scale fuel (x / 1e308) (exponent + 308)

def float? (negative : Bool) (significand : Nat) (exponent : Int) : Option Json :=
  (scale (exponent.natAbs / 308 + 2) (Float.ofNat significand) exponent).map fun x =>
    .float (if negative then -x else x)

/-- The exponent part, or nothing. -/
def withExponent (negative : Bool) (significand : Nat) (exponent : Int) (text : List Char) :
    Option (Json × List Char) :=
  match text with
  | e :: rest =>
    if e = 'e' || e = 'E' then
      let (minus,rest) := match rest with
        | '-' :: rest => (true,rest)
        | '+' :: rest => (false,rest)
        | rest => (false,rest)
      let digits := rest.takeWhile Char.isDigit
      let rest := rest.dropWhile Char.isDigit
      if digits.isEmpty then none
      else
        let n := digits.foldl (fun n c => 10 * n + (c.toNat - '0'.toNat)) 0
        if Nat.pow 2 31 - 1 < n then
          if significand ≠ 0 && !minus then none
          else some (.float (if negative then -0.0 else 0.0),rest)
        else (float? negative significand (if minus then exponent - n else exponent + n)).map (·,rest)
    else (float? negative significand exponent).map (·,text)
  | [] => (float? negative significand exponent).map (·,[])

/-- Digits after the point; those beyond a word are ignored. -/
def withFraction (negative : Bool) (significand : Nat) (exponent : Int) (text : List Char) :
    Option (Json × List Char) :=
  let (n,count,fits,rest) := gather significand 0 text
  if count = 0 && fits then none
  else withExponent negative n (exponent - count) (if fits then rest else rest.dropWhile Char.isDigit)

/-- A number without its sign. -/
def number? (negative : Bool) (text : List Char) : Option (Json × List Char) :=
  match text with
  | [] => none
  | first :: more =>
    if !first.isDigit || (first = '0' && more.head?.any Char.isDigit) then none
    else
      let (n,_,fits,rest) := gather 0 0 text
      let surplus := if fits then 0 else (rest.takeWhile Char.isDigit).length
      let rest := rest.drop surplus
      match rest with
      | '.' :: rest => withFraction negative n surplus rest
      | e :: _ =>
        if e = 'e' || e = 'E' then withExponent negative n surplus rest else whole n fits surplus rest
      | [] => whole n fits surplus rest
where
  whole (n : Nat) (fits : Bool) (surplus : Nat) (rest : List Char) : Option (Json × List Char) :=
    if !fits then (float? negative n surplus).map (·,rest)
    else if !negative then some (.integer n,rest)
    else if n = 0 || Nat.pow 2 63 < n then some (.float (-(Float.ofNat n)),rest)
    else some (.integer (-(n : Int)),rest)

mutual

def value : Nat → List Char → Option (Json × List Char)
  | 0,_ => none
  | fuel + 1,text =>
    match skipSpace text with
    | 'n' :: 'u' :: 'l' :: 'l' :: rest => some (.null,rest)
    | 't' :: 'r' :: 'u' :: 'e' :: rest => some (.bool true,rest)
    | 'f' :: 'a' :: 'l' :: 's' :: 'e' :: rest => some (.bool false,rest)
    | '"' :: rest => (stringBody (rest.length + 1) [] rest).map fun (s,rest) => (.string (String.ofList s),rest)
    | '[' :: rest =>
      match skipSpace rest with
      | ']' :: rest => some (.array [],rest)
      | rest => items fuel [] rest
    | '{' :: rest =>
      match skipSpace rest with
      | '}' :: rest => some (.object [],rest)
      | rest => fields fuel [] rest
    | '-' :: rest => number? true rest
    | rest => number? false rest

def items : Nat → List Json → List Char → Option (Json × List Char)
  | 0,_,_ => none
  | fuel + 1,read,text => do
    let (item,rest) ← value fuel text
    match skipSpace rest with
    | ',' :: rest => items fuel (item :: read) rest
    | ']' :: rest => some (.array (item :: read).reverse,rest)
    | _ => none

def fields : Nat → List (String × Json) → List Char → Option (Json × List Char)
  | 0,_,_ => none
  | fuel + 1,read,text =>
    match skipSpace text with
    | '"' :: rest => do
      let (key,rest) ← stringBody (rest.length + 1) [] rest
      match skipSpace rest with
      | ':' :: rest =>
        let (item,rest) ← value fuel rest
        let read := Keyed.set (String.ofList key) item read
        match skipSpace rest with
        | ',' :: rest => fields fuel read rest
        | '}' :: rest => some (.object read,rest)
        | _ => none
      | _ => none
    | _ => none

end

/-- The value of a text that holds one JSON value and white space. -/
def parse? (text : String) : Option Json :=
  let chars := text.toList
  match value (chars.length + 1) chars with
  | some (value,rest) => if (skipSpace rest).isEmpty then some value else none
  | none => none

end Phrasebook.Json
