import Phrasebook.Decimal
import Phrasebook.Text.Pieces
import Phrasebook.Toml.Value

/-! Strings between quotes, and bare words: booleans, numbers, dates and times. -/
namespace Phrasebook.Toml

def isBlank (c : Char) : Bool := c = ' ' || c = '\t'

/-- Characters that may stand for themselves in a string or a comment. -/
def isPlain (c : Char) : Bool := c = '\t' || (0x20 ≤ c.toNat && c.toNat ≠ 0x7f)

/-- The text after a line break. -/
def afterBreak? : List Char → Option (List Char)
  | '\n' :: rest => some rest
  | '\r' :: '\n' :: rest => some rest
  | _ => none

namespace Quoted

def namedEscape? : Char → Option Char
  | 'b' => some '\x08'
  | 't' => some '\t'
  | 'n' => some '\n'
  | 'f' => some '\x0c'
  | 'r' => some '\r'
  | '"' => some '"'
  | '\\' => some '\\'
  | _ => none

/-- The character that stands after a backslash, and the rest. -/
def escape? : List Char → Option (Char × List Char)
  | 'u' :: rest => Text.hexScalar? 4 rest
  | 'U' :: rest => Text.hexScalar? 8 rest
  | c :: rest => (namedEscape? c).map (·,rest)
  | [] => none

/-- The rest of a string on one line, and the text after it. Only double quotes know escapes. -/
def line (quote : Char) : Nat → List Char → Option (List Char × List Char)
  | fuel + 1,c :: rest =>
    if c = quote then some ([],rest)
    else if c = '\\' && quote = '"' then do
      let (c,rest) ← escape? rest
      let (body,rest) ← line quote fuel rest
      some (c :: body,rest)
    else if isPlain c then do
      let (body,rest) ← line quote fuel rest
      some (c :: body,rest)
    else none
  | _,_ => none

/-- Skips blanks and line breaks. -/
def skipGap : List Char → List Char
  | '\r' :: '\n' :: rest => skipGap rest
  | c :: rest => if isBlank c || c = '\n' then skipGap rest else c :: rest
  | [] => []

/-- The text after a backslash that hides the end of its line and all blanks of the next ones. -/
def afterHidden? (text : List Char) : Option (List Char) :=
  (afterBreak? (text.dropWhile isBlank)).map skipGap

/-- The rest of a string that may span lines; up to two quotes may stand before the last three. -/
def lines (quote : Char) : Nat → List Char → Option (List Char × List Char)
  | fuel + 1,c :: rest =>
    match afterBreak? (c :: rest) with
    | some rest => do
      let (body,rest) ← lines quote fuel rest
      some ('\n' :: body,rest)
    | none =>
      if c = quote then
        let run := ((c :: rest).takeWhile (· = quote)).length
        if run < 3 then do
          let (body,rest) ← lines quote fuel ((c :: rest).drop run)
          some (List.replicate run quote ++ body,rest)
        else
          let kept := min (run - 3) 2
          some (List.replicate kept quote,(c :: rest).drop (kept + 3))
      else if c = '\\' && quote = '"' then
        match afterHidden? rest with
        | some rest => lines quote fuel rest
        | none => do
          let (c,rest) ← escape? rest
          let (body,rest) ← lines quote fuel rest
          some (c :: body,rest)
      else if isPlain c then do
        let (body,rest) ← lines quote fuel rest
        some (c :: body,rest)
      else none
  | _,_ => none

/-- What follows an opening quote on its line. -/
def readLine (quote : Char) (text : List Char) : Option (String × List Char) :=
  (line quote (text.length + 1) text).map fun (body,rest) => (String.ofList body,rest)

/-- What follows three opening quotes; a line break right behind them does not count. -/
def readLines (quote : Char) (text : List Char) : Option (String × List Char) :=
  let text := (afterBreak? text).getD text
  (lines quote (text.length + 1) text).map fun (body,rest) => (String.ofList body,rest)

end Quoted

namespace Word

def isPart (c : Char) : Bool := c.isAlphanum || ['_','+','-','.',':'].contains c

def dropSign : List Char → Bool × List Char
  | '+' :: rest => (false,rest)
  | '-' :: rest => (true,rest)
  | text => (false,text)

/-- Digits of a base, between which single underscores may stand. -/
def grouped? (base : Nat) (text : List Char) : Option (List Char) :=
  let groups := Text.pieces '_' text
  if groups.all fun group => (Text.natural? base group).isSome then some groups.flatten else none

/-- Decimal digits without a zero in front. -/
def whole? : List Char → Option (List Char)
  | ['0'] => some ['0']
  | '0' :: _ => none
  | text => grouped? 10 text

/-- Whether a text is an integer of 64 bits. -/
def isInteger (text : List Char) : Bool :=
  let within := fun (base : Nat) (digits : List Char) (bound : Nat) =>
    ((grouped? base digits).bind (Text.natural? base)).any (· < bound)
  match text with
  | '0' :: 'x' :: digits => within 16 digits (Nat.pow 2 63)
  | '0' :: 'o' :: digits => within 8 digits (Nat.pow 2 63)
  | '0' :: 'b' :: digits => within 2 digits (Nat.pow 2 63)
  | text =>
    let (negative,digits) := dropSign text
    ((whole? digits).bind (Text.natural? 10)).any (· < if negative then Nat.pow 2 63 + 1 else Nat.pow 2 63)

/-- The exponent of a decimal; nothing stands for zero. -/
def exponent? : Option (List Char) → Option Int
  | none => some 0
  | some text => do
    let (negative,digits) := dropSign text
    let n ← Text.natural? 10 (← grouped? 10 digits)
    some (if negative then -(n : Int) else n)

/-- Whether a text is a decimal fraction, with a point or an exponent or both. One above all
doubles is refused, one below all of them is not. -/
def isDecimal (text : List Char) : Bool :=
  let (negative,text) := dropSign text
  let (mantissa,exponent) := ((Text.cutAt 'e' text).or (Text.cutAt 'E' text)).elim (text,none)
    fun (mantissa,exponent) => (mantissa,some exponent)
  let (whole,fraction) := (Text.cutAt '.' mantissa).elim (mantissa,none)
    fun (whole,fraction) => (whole,some fraction)
  let fractionDigits := fraction.elim (some []) (grouped? 10)
  match whole? whole,fractionDigits,exponent? exponent with
  | some whole,some digits,some n =>
    let mantissa := (Text.natural? 10 (whole ++ digits)).getD 0
    (fraction.isSome || exponent.isSome) &&
    (negative || !(Decimal.nearest mantissa (n - digits.length)).isInf)
  | _,_,_ => false

def isSpecial (text : List Char) : Bool :=
  let text := (dropSign text).2
  text = ['i','n','f'] || text = ['n','a','n']

def value? (text : List Char) : Option Value :=
  if text = ['t','r','u','e'] then some (.bool true)
  else if text = ['f','a','l','s','e'] then some (.bool false)
  else if isInteger text || isDecimal text || isSpecial text then some (.number (String.ofList text))
  else (Moment.ofChars? text).map .moment

/-- The longest word at the start of a text. A blank may stand between a date and a time. -/
def read (text : List Char) : List Char × List Char :=
  let word := text.takeWhile isPart
  let rest := text.drop word.length
  match (Date.read? word),rest with
  | some (_,[]),' ' :: more =>
    if more.head?.any Char.isDigit then
      let time := more.takeWhile isPart
      (word ++ ' ' :: time,more.drop time.length)
    else (word,rest)
  | _,_ => (word,rest)

end Word
end Phrasebook.Toml
