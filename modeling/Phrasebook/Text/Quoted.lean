/-! Numbers in digits, and double-quoted string literals as JSON writes them: a quote, a backslash and the control
characters below U+0020 are escaped, every other character stands for itself. -/
namespace Phrasebook.Text

/-- Letters of either case are the digits from ten on. -/
def digitValue? (base : Nat) (c : Char) : Option Nat :=
  let n := if c.isDigit then some (c.toNat - '0'.toNat)
    else if c.isLower then some (c.toNat - 'a'.toNat + 10)
    else if c.isUpper then some (c.toNat - 'A'.toNat + 10)
    else none
  n.filter (· < base)

/-- One or more digits. -/
def natural? (base : Nat) : List Char → Option Nat
  | [] => none
  | digits => digits.foldlM (fun n c => (digitValue? base c).map (base * n + ·)) 0

def isScalarValue (n : Nat) : Bool := n < 0xd800 || (0xdfff < n && n ≤ 0x10ffff)

/-- The character that `count` hexadecimal digits name, and the text after them. -/
def hexScalar? (count : Nat) (text : List Char) : Option (Char × List Char) := do
  let digits := text.take count
  let n ← natural? 16 digits
  if digits.length = count && isScalarValue n then some (Char.ofNat n,text.drop count) else none

namespace Quoted

/-- The digit for a number below 16. -/
def hexDigit (n : Nat) : Char :=
  if n < 10 then Char.ofNat ('0'.toNat + n) else Char.ofNat ('a'.toNat + (n - 10))

/-- The written form of one character. -/
def escape (c : Char) : List Char :=
  if c = '"' then ['\\','"']
  else if c = '\\' then ['\\','\\']
  else if c = '\n' then ['\\','n']
  else if c = '\r' then ['\\','r']
  else if c = '\t' then ['\\','t']
  else if c = '\x08' then ['\\','b']
  else if c = '\x0c' then ['\\','f']
  else if c.toNat < 0x20 then ['\\','u','0','0',hexDigit (c.toNat / 16),hexDigit (c.toNat % 16)]
  else [c]

def chars (text : List Char) : List Char := '"' :: (text.flatMap escape ++ ['"'])

end Quoted

def quote (text : String) : String := String.ofList (Quoted.chars text.toList)

end Phrasebook.Text
