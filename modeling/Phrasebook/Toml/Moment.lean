import Phrasebook.Text.Quoted

/-! Dates and times of day, alone or together, as RFC 3339 writes them. -/
namespace Phrasebook.Toml

structure Date where
  year : Nat
  month : Nat
  day : Nat
deriving DecidableEq, Repr

structure Time where
  hour : Nat
  minute : Nat
  second : Nat
  /-- at most nine digits, the last of them no zero -/
  fraction : List Char
deriving DecidableEq, Repr

inductive Offset where
  | utc
  | minutes (east : Int)
deriving DecidableEq, Repr

inductive Moment where
  | date (date : Date)
  | time (time : Time)
  | dateTime (date : Date) (time : Time) (offset : Option Offset)
deriving DecidableEq, Repr

def padded (width n : Nat) : String :=
  let digits := Nat.toDigits 10 n
  String.ofList (List.replicate (width - digits.length) '0' ++ digits)

namespace Date

def leap (year : Nat) : Bool := year % 4 = 0 && (year % 100 ≠ 0 || year % 400 = 0)

def daysIn (year month : Nat) : Nat :=
  if month = 2 then (if leap year then 29 else 28)
  else if month = 4 || month = 6 || month = 9 || month = 11 then 30
  else 31

def text (date : Date) : String :=
  padded 4 date.year ++ "-" ++ padded 2 date.month ++ "-" ++ padded 2 date.day

/-- A date at the start of a text, and the rest. -/
def read? : List Char → Option (Date × List Char)
  | a :: b :: c :: d :: '-' :: e :: f :: '-' :: g :: h :: rest => do
    let year ← Text.natural? 10 [a,b,c,d]
    let month ← Text.natural? 10 [e,f]
    let day ← Text.natural? 10 [g,h]
    if 1 ≤ month && month ≤ 12 && 1 ≤ day && day ≤ daysIn year month then some (⟨year,month,day⟩,rest)
    else none
  | _ => none

end Date

namespace Time

def text (time : Time) : String :=
  padded 2 time.hour ++ ":" ++ padded 2 time.minute ++ ":" ++ padded 2 time.second ++
    (if time.fraction.isEmpty then "" else "." ++ String.ofList time.fraction)

/-- Digits beyond the ninth do not count. -/
def fractionOf (digits : List Char) : List Char :=
  ((digits.take 9).reverse.dropWhile (· = '0')).reverse

def read? : List Char → Option (Time × List Char)
  | a :: b :: ':' :: c :: d :: ':' :: e :: f :: rest => do
    let hour ← Text.natural? 10 [a,b]
    let minute ← Text.natural? 10 [c,d]
    let second ← Text.natural? 10 [e,f]
    if 23 < hour || 59 < minute || 60 < second then none
    else match rest with
      | '.' :: rest =>
        let digits := rest.takeWhile Char.isDigit
        if digits.isEmpty then none
        else some (⟨hour,minute,second,fractionOf digits⟩,rest.drop digits.length)
      | rest => some (⟨hour,minute,second,[]⟩,rest)
  | _ => none

end Time

namespace Offset

def text : Offset → String
  | utc => "Z"
  | minutes east =>
    (if east < 0 then "-" else "+") ++ padded 2 (east.natAbs / 60) ++ ":" ++ padded 2 (east.natAbs % 60)

/-- A whole text that is an offset. -/
def ofChars? : List Char → Option Offset
  | [z] => if z = 'Z' || z = 'z' then some utc else none
  | [sign,a,b,':',c,d] => do
    let hours ← Text.natural? 10 [a,b]
    let rest ← Text.natural? 10 [c,d]
    if 23 < hours || 59 < rest then none
    else if sign = '+' then some (minutes (hours * 60 + rest : Nat))
    else if sign = '-' then some (minutes (-(hours * 60 + rest : Nat)))
    else none
  | _ => none

end Offset

namespace Moment

def text : Moment → String
  | date d => d.text
  | time t => t.text
  | dateTime d t offset => d.text ++ "T" ++ t.text ++ (offset.map Offset.text).getD ""

def isDelimiter (c : Char) : Bool := c = 'T' || c = 't' || c = ' '

def ofChars? (text : List Char) : Option Moment :=
  match Date.read? text with
  | some (d,[]) => some (date d)
  | some (d,delimiter :: rest) =>
    if isDelimiter delimiter then
      match Time.read? rest with
      | some (t,[]) => some (dateTime d t none)
      | some (t,rest) => (Offset.ofChars? rest).map fun offset => dateTime d t (some offset)
      | none => none
    else none
  | none =>
    match Time.read? text with
    | some (t,[]) => some (time t)
    | _ => none

end Moment
end Phrasebook.Toml
