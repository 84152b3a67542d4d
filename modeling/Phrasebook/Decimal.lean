/-! Decimal text of binary floating-point numbers: the fewest digits that read back, of
those the nearest, an exact tie to the even digit. All arithmetic is on natural numbers. -/
namespace Phrasebook.Decimal

/-- `mantissa * 2 ^ (exponent - 1074)`. -/
structure Dyadic where
  mantissa : Nat
  exponent : Nat
deriving DecidableEq, Repr

/-- The magnitude that the bits of a finite double stand for. -/
def Dyadic.ofBits (bits : UInt64) : Dyadic :=
  let fraction := bits.toNat % Nat.pow 2 52
  let field := bits.toNat / Nat.pow 2 52 % Nat.pow 2 11
  if field = 0 then ⟨fraction,0⟩ else ⟨fraction + Nat.pow 2 52,field - 1⟩

/-- `digits * 10 ^ exponent`. -/
structure Digits where
  digits : Nat
  exponent : Int
deriving DecidableEq, Repr

/-- `n * 2 ^ (q - 1076) * 10 ^ (-k)` as numerator and denominator. -/
def scaled (n q : Nat) (k : Int) : Nat × Nat :=
  let n := n * Nat.pow 2 q
  if 0 ≤ k then (n,Nat.pow 2 1076 * Nat.pow 10 k.toNat) else (n * Nat.pow 10 (-k).toNat,Nat.pow 2 1076)

/-- The exponent of the leading digit of a nonzero magnitude. -/
def magnitude (x : Dyadic) : Int :=
  let (n,d) := scaled (4 * x.mantissa) x.exponent (-340)
  (Nat.toDigits 10 (n / d)).length - 341

/-- Of the two neighbours on the grid of `10 ^ k`, the nearer one that rounds to `x`. -/
def onGrid? (x : Dyadic) (k : Int) : Option Nat :=
  let whole := Nat.pow 2 52
  let below := if x.mantissa = whole && 0 < x.exponent then 4 * x.mantissa - 1 else 4 * x.mantissa - 2
  let (value,unit) := scaled (4 * x.mantissa) x.exponent k
  let (low,_) := scaled below x.exponent k
  let (high,_) := scaled (4 * x.mantissa + 2) x.exponent k
  let closed : Bool := x.mantissa % 2 = 0
  let reaches := fun n => if closed then low ≤ n * unit && n * unit ≤ high else low < n * unit && n * unit < high
  let down := value / unit
  let up := down + 1
  match reaches down,reaches up with
  | true,true =>
    let toDown := value - down * unit
    let toUp := up * unit - value
    some (if toDown < toUp || (toDown = toUp && down % 2 = 0) then down else up)
  | true,false => some down
  | false,true => some up
  | false,false => none

/-- The first grid with a hit, from one digit on. -/
def search (x : Dyadic) (top : Int) : Nat → Nat → Digits
  | 0,count => ⟨((onGrid? x (top - count)).getD 0),top - count⟩
  | fuel + 1,count =>
    match onGrid? x (top - count) with
    | some digits => ⟨digits,top - count⟩
    | none => search x top fuel (count + 1)

def shortest (x : Dyadic) : Digits :=
  if x.mantissa = 0 then ⟨0,0⟩ else search x (magnitude x) 17 0

/-- Drops zeros at the end of the digits. -/
def Digits.trim (x : Digits) : List Char × Int :=
  let digits := Nat.toDigits 10 x.digits
  let kept := (digits.reverse.dropWhile (· = '0')).reverse
  if kept.isEmpty then (['0'],0) else (kept,x.exponent + (digits.length - kept.length : Nat))

/-- Scientific notation: one digit, a point if more follow, and the exponent. -/
def scientific (plus : Bool) (digits : List Char) (lead : Int) : List Char :=
  let mark := if lead < 0 then ['-'] else if plus then ['+'] else []
  let body := match digits with
    | first :: second :: more => first :: '.' :: second :: more
    | few => few
  body ++ 'e' :: mark ++ Nat.toDigits 10 lead.natAbs

/-- Positional notation from 1e-5 up to 1e16, with at least one digit on either side of
the point; scientific notation elsewhere. -/
def write (plus : Bool) (digits : List Char) (exponent : Int) : List Char :=
  let point := digits.length + exponent
  if 0 ≤ exponent && point ≤ 16 then digits ++ List.replicate exponent.toNat '0' ++ ['.','0']
  else if 0 < point && point ≤ 16 then digits.take point.toNat ++ '.' :: digits.drop point.toNat
  else if -5 < point && point ≤ 0 then '0' :: '.' :: List.replicate (-point).toNat '0' ++ digits
  else scientific plus digits (point - 1)

/-- The text of a finite double; `plus` puts a sign on positive exponents. -/
def text (plus : Bool) (value : Float) : String :=
  let bits := value.toBits
  let (digits,exponent) := (shortest (Dyadic.ofBits bits)).trim
  String.ofList ((if bits.toNat < Nat.pow 2 63 then [] else ['-']) ++ write plus digits exponent)

/-- The nearest double to `mantissa * 10 ^ exponent`. -/
def nearest (mantissa : Nat) (exponent : Int) : Float :=
  let digits := (Nat.toDigits 10 mantissa).length
  if mantissa = 0 || exponent + digits < -400 then 0
  else if 400 < exponent + digits then Float.ofScientific 1 false 400
  else if 0 ≤ exponent then Float.ofScientific mantissa false exponent.toNat
  else Float.ofScientific mantissa true (-exponent).toNat

end Phrasebook.Decimal
