import Mathlib.Data.List.DropRight
import Phrasebook.Proofs.Decimal.Shortest
import Phrasebook.Proofs.Text.Separated

/-! The text of a double determines it (`text_injective`): read as a number, it has the value of the digits that were
written (`reading_write`), and that value rounds to one double only. -/
namespace Phrasebook.Decimal

/-- The number that a row of digits stands for. -/
def whole (digits : List Char) : ℚ := Nat.ofDigitChars 10 digits 0

theorem whole_append_zeros (digits : List Char) (count : Nat) :
    whole (digits ++ List.replicate count '0') = whole digits * 10 ^ count := by
  rw [whole,Nat.ofDigitChars_append,Nat.ofDigitChars_replicate_zero,whole]
  push_cast
  ring

theorem whole_zeros_append (count : Nat) (digits : List Char) :
    whole (List.replicate count '0' ++ digits) = whole digits := by
  rw [whole,Nat.ofDigitChars_append,Nat.ofDigitChars_replicate_zero,Nat.mul_zero,whole]

def AllDigits (text : List Char) : Prop := ∀ c ∈ text, c.isDigit = true

theorem allDigits_toDigits (n : Nat) : AllDigits (Nat.toDigits 10 n) :=
  fun _ member => Nat.isDigit_of_mem_toDigits (by decide) (by decide) member

theorem allDigits_zeros (count : Nat) : AllDigits (List.replicate count '0') := by
  intro c member
  rw [List.eq_of_mem_replicate member]
  rfl

theorem AllDigits.append {first second : List Char} (one : AllDigits first) (two : AllDigits second) :
    AllDigits (first ++ second) := by
  intro c member
  rcases List.mem_append.mp member with member | member
  · exact one c member
  · exact two c member

/-- The number after the mark of an exponent. -/
def exponentOf : List Char → Int
  | _ :: '-' :: digits => -Nat.ofDigitChars 10 digits 0
  | _ :: '+' :: digits => Nat.ofDigitChars 10 digits 0
  | _ :: digits => Nat.ofDigitChars 10 digits 0
  | [] => 0

/-- The number that a text without a sign spells. -/
def reading (text : List Char) : ℚ :=
  let front := text.takeWhile Char.isDigit
  match text.dropWhile Char.isDigit with
  | '.' :: rest =>
    let fraction := rest.takeWhile Char.isDigit
    whole (front ++ fraction) * 10 ^ (exponentOf (rest.dropWhile Char.isDigit) - fraction.length)
  | rest => whole front * 10 ^ exponentOf rest

theorem reading_point {front fraction rest : List Char} (digits : AllDigits front) (more : AllDigits fraction)
    (ends : rest.head?.any Char.isDigit = false) : reading (front ++ '.' :: (fraction ++ rest)) =
      whole (front ++ fraction) * 10 ^ (exponentOf rest - fraction.length) := by
  simp only [reading]
  rw [Text.takeWhile_front digits rfl,Text.dropWhile_front digits rfl]
  simp only
  rw [Text.takeWhile_front more ends,Text.dropWhile_front more ends]

theorem reading_scientific {front rest : List Char} (digits : AllDigits front) :
    reading (front ++ 'e' :: rest) = whole front * 10 ^ exponentOf ('e' :: rest) := by
  simp only [reading]
  rw [Text.takeWhile_front digits rfl,Text.dropWhile_front digits rfl]
  rfl

/-- The mark of an exponent with the exponent. -/
def mark (plus : Bool) (lead : Int) : List Char :=
  'e' :: (if lead < 0 then ['-'] else if plus then ['+'] else []) ++ Nat.toDigits 10 lead.natAbs

theorem exponentOf_mark (plus : Bool) (lead : Int) : exponentOf (mark plus lead) = lead := by
  have back : Nat.ofDigitChars 10 (Nat.toDigits 10 lead.natAbs) 0 = lead.natAbs := Nat.ofDigitChars_ten_toDigits
  rw [mark]
  split
  next negative =>
    change -(Nat.ofDigitChars 10 (Nat.toDigits 10 lead.natAbs) 0 : Int) = lead
    rw [back]
    omega
  next positive =>
    have value : (Nat.ofDigitChars 10 (Nat.toDigits 10 lead.natAbs) 0 : Int) = lead := by
      rw [back]
      omega
    split
    next => exact value
    next =>
      -- Without a sign the exponent begins with a digit, so none is taken for one.
      cases written : Nat.toDigits 10 lead.natAbs with
      | nil => exact absurd written Nat.toDigits_ne_nil
      | cons first more =>
        have digit : first.isDigit = true := allDigits_toDigits _ _ (written ▸ List.mem_cons_self)
        have unfolded : exponentOf ('e' :: first :: more) = Nat.ofDigitChars 10 (first :: more) 0 := by
          rw [exponentOf.eq_3]
          · rintro _ same
            cases same
            cases digit
          · rintro _ same
            cases same
            cases digit
        rw [written] at value
        exact unfolded.trans value

variable {digits : List Char}

theorem reading_scientific_of (all : AllDigits digits) (filled : digits ≠ []) (plus : Bool) (lead : Int) :
    reading (scientific plus digits lead) = whole digits * 10 ^ (lead + 1 - digits.length) := by
  have tail := exponentOf_mark plus lead
  match digits,filled with
  | [first],_ =>
    have shape : scientific plus [first] lead = [first] ++ mark plus lead := rfl
    have exponent : lead + 1 - ([first].length : Nat) = lead := by simp
    have read : reading ([first] ++ mark plus lead) = whole [first] * 10 ^ exponentOf (mark plus lead) :=
      reading_scientific all
    rw [shape,read,tail,exponent]
  | first :: second :: more,_ =>
    have shape : scientific plus (first :: second :: more) lead =
      [first] ++ '.' :: (second :: more ++ mark plus lead) := by simp [scientific,mark]
    have front : AllDigits [first] := fun c member => all c (List.mem_cons.mpr (.inl (List.mem_singleton.mp member)))
    have behind : AllDigits (second :: more) := fun c member => all c (List.mem_cons_of_mem _ member)
    have exponent : lead + 1 - ((first :: second :: more).length : Nat) = lead - ((second :: more).length : Nat) := by
      simp only [List.length_cons]
      omega
    rw [shape,reading_point front behind rfl,tail,exponent]
    rfl

/-- What is written reads as the digits at their exponent. -/
theorem reading_write (all : AllDigits digits) (filled : digits ≠ []) (plus : Bool) (exponent : Int) :
    reading (write plus digits exponent) = whole digits * 10 ^ exponent := by
  have ends : ([] : List Char).head?.any Char.isDigit = false := rfl
  have none_behind : exponentOf [] = 0 := rfl
  rw [write]
  simp only [Bool.and_eq_true,decide_eq_true_eq]
  split
  next large =>
    obtain ⟨count,rfl⟩ := Int.eq_ofNat_of_zero_le large.1
    have zero : AllDigits ['0'] := allDigits_zeros 1
    have read := reading_point (all.append (allDigits_zeros count)) zero ends
    have zeros : whole (digits ++ List.replicate count '0' ++ ['0']) = whole digits * 10 ^ count * 10 := by
      rw [← whole_append_zeros,← pow_one (10 : ℚ),← whole_append_zeros]
      rfl
    rw [Int.toNat_natCast]
    refine read.trans ?_
    rw [zeros,none_behind,zpow_natCast,List.length_singleton,Nat.cast_one,zero_sub,zpow_neg_one,
      mul_inv_cancel_right₀ (by norm_num)]
  next =>
    split
    next inside =>
      have front : AllDigits (digits.take (digits.length + exponent).toNat) :=
        fun c member => all c (List.mem_of_mem_take member)
      have fraction : AllDigits (digits.drop (digits.length + exponent).toNat) :=
        fun c member => all c (List.mem_of_mem_drop member)
      have read := reading_point front fraction ends
      rw [List.append_nil,List.take_append_drop,none_behind,List.length_drop] at read
      rw [read]
      congr 2
      omega
    next =>
      split
      next small =>
        have zero : AllDigits ['0'] := allDigits_zeros 1
        have read := reading_point zero ((allDigits_zeros (-(digits.length + exponent)).toNat).append all) ends
        rw [List.append_nil,none_behind,List.length_append,List.length_replicate] at read
        refine read.trans ?_
        have zeros : whole (['0'] ++ (List.replicate (-(digits.length + exponent)).toNat '0' ++ digits)) =
            whole digits := by
          rw [← List.append_assoc]
          exact whole_zeros_append ((-(digits.length + exponent)).toNat + 1) digits
        rw [zeros]
        congr 2
        omega
      next =>
        rw [reading_scientific_of all filled]
        congr 2
        omega

theorem whole_toDigits (n : Nat) : whole (Nat.toDigits 10 n) = n := by
  rw [whole,Nat.ofDigitChars_ten_toDigits]

/-- Digits at an exponent that stand for a number. -/
structure Spells (digits : List Char) (exponent : Int) (value : ℚ) : Prop where
  all : AllDigits digits
  filled : digits ≠ []
  value : whole digits * 10 ^ exponent = value

/-- The digits are those that are kept and some zeros. -/
theorem trim_parts (x : Digits) : ∃ kept count, Nat.toDigits 10 x.digits = kept ++ List.replicate count '0' ∧
    x.trim = if kept.isEmpty then (['0'],0) else (kept,x.exponent + count) := by
  have parts : List.rdropWhile (· = '0') (Nat.toDigits 10 x.digits) ++
    List.rtakeWhile (· = '0') (Nat.toDigits 10 x.digits) = Nat.toDigits 10 x.digits := List.rdropWhile_append_rtakeWhile
  have zeros : List.rtakeWhile (· = '0') (Nat.toDigits 10 x.digits) =
      List.replicate (List.rtakeWhile (· = '0') (Nat.toDigits 10 x.digits)).length '0' := by
    refine List.eq_replicate_of_mem fun c member => ?_
    exact of_decide_eq_true (List.mem_rtakeWhile_imp (p := (· = '0')) member)
  have count : (Nat.toDigits 10 x.digits).length - (List.rdropWhile (· = '0') (Nat.toDigits 10 x.digits)).length =
      (List.rtakeWhile (· = '0') (Nat.toDigits 10 x.digits)).length := by
    have lengths := congrArg List.length parts
    rw [List.length_append] at lengths
    omega
  refine ⟨_,_,(zeros ▸ parts).symm,?_⟩
  rw [← count]
  rfl

/-- Dropping zeros at the end keeps the number. -/
theorem trim_spells (x : Digits) : Spells x.trim.1 x.trim.2 x.value := by
  obtain ⟨kept,count,parts,trimmed⟩ := trim_parts x
  have total := whole_toDigits x.digits
  rw [parts,whole_append_zeros] at total
  rw [trimmed,Digits.value,← total]
  split
  next empty =>
    have zero : whole kept = 0 := by
      rw [List.isEmpty_iff.mp empty]
      rfl
    refine ⟨allDigits_zeros 1,List.cons_ne_nil _ _,?_⟩
    rw [zero,zero_mul,zero_mul]
    exact zero_mul _
  next full =>
    have all : AllDigits (kept ++ List.replicate count '0') := parts ▸ allDigits_toDigits x.digits
    refine ⟨fun c member => all c (List.mem_append_left _ member),fun empty => full (List.isEmpty_iff.mpr empty),?_⟩
    rw [add_comm,zpow_add₀ (by norm_num),zpow_natCast,mul_assoc]

/-- A text that no integer has: it begins with a digit, and there is a point or the mark of an exponent behind it. -/
def Fractional (text : List Char) : Prop :=
  ∃ first rest, text = first :: rest ∧ first.isDigit = true ∧ ∃ c ∈ rest, c = '.' ∨ c = 'e'

theorem write_fractional {digits : List Char} (all : AllDigits digits) (filled : digits ≠ []) (plus : Bool)
    (exponent : Int) : Fractional (write plus digits exponent) := by
  obtain ⟨first,more,rfl⟩ := List.exists_cons_of_ne_nil filled
  have digit : first.isDigit = true := all first List.mem_cons_self
  rw [write]
  simp only [Bool.and_eq_true,decide_eq_true_eq]
  split
  next => exact ⟨first,_,rfl,digit,'.',by simp,.inl rfl⟩
  next =>
    split
    next inside =>
      obtain ⟨front,point⟩ : ∃ front, (((first :: more).length : Int) + exponent).toNat = front + 1 :=
        ⟨(((first :: more).length : Int) + exponent).toNat - 1,by omega⟩
      rw [point]
      exact ⟨first,_,rfl,digit,'.',by simp,.inl rfl⟩
    next =>
      split
      next => exact ⟨'0',_,rfl,rfl,'.',List.mem_cons_self,.inl rfl⟩
      next =>
        cases more with
        | nil => exact ⟨first,_,rfl,digit,'e',List.mem_cons_self,.inr rfl⟩
        | cons second more => exact ⟨first,_,rfl,digit,'.',List.mem_cons_self,.inl rfl⟩

/-- The digits that are written for a double. -/
theorem text_eq (plus : Bool) (value : Float) : ∃ digits exponent,
    (text plus value).toList =
      (if value.toBits.toNat < Nat.pow 2 63 then [] else ['-']) ++ write plus digits exponent ∧
    Spells digits exponent (shortest (Dyadic.ofBits value.toBits)).value :=
  ⟨_,_,String.toList_ofList,trim_spells _⟩

/-- The text of a double is a fraction, perhaps with a sign. -/
theorem text_fractional (plus : Bool) (value : Float) : ∃ unsigned, Fractional unsigned ∧
    ((text plus value).toList = unsigned ∨ (text plus value).toList = '-' :: unsigned) := by
  obtain ⟨digits,exponent,written,spells⟩ := text_eq plus value
  refine ⟨_,write_fractional spells.all spells.filled plus exponent,?_⟩
  rw [written]
  split
  · exact .inl rfl
  · exact .inr rfl

/-- A sign in front of a fraction is told from the fraction. -/
theorem Fractional.sign_unique {first second : List Char} (one : Fractional first) (two : Fractional second)
    {p q : Prop} [Decidable p] [Decidable q]
    (same : (if p then [] else ['-']) ++ first = (if q then [] else ['-']) ++ second) : (p ↔ q) ∧ first = second := by
  have unsigned {text more : List Char} (fractional : Fractional text) : text ≠ '-' :: more := by
    rintro rfl
    obtain ⟨first,rest,shape,digit,-⟩ := fractional
    cases shape
    cases digit
  split at same
  next positive =>
    split at same
    next positive' => exact ⟨iff_of_true positive positive',same⟩
    next => exact absurd same (unsigned one)
  next negative =>
    split at same
    next => exact absurd same.symm (unsigned two)
    next negative' => exact ⟨iff_of_false negative negative',(List.cons.inj same).2⟩

theorem eq_of_toBits {x y : Float} (same : x.toBits = y.toBits) : x = y := by
  obtain ⟨⟨a,valid⟩⟩ := x
  obtain ⟨⟨b,valid'⟩⟩ := y
  change a = b at same
  subst same
  rfl

/-- Doubles with one text are one. -/
theorem text_injective {plus : Bool} {x y : Float} (same : text plus x = text plus y) : x = y := by
  obtain ⟨digits,exponent,written,spells⟩ := text_eq plus x
  obtain ⟨others,other,rewritten,respells⟩ := text_eq plus y
  rw [same,rewritten] at written
  obtain ⟨signs,one_text⟩ := (write_fractional respells.all respells.filled plus other).sign_unique
    (write_fractional spells.all spells.filled plus exponent) written
  have values : (shortest (Dyadic.ofBits y.toBits)).value = (shortest (Dyadic.ofBits x.toBits)).value := by
    rw [← spells.value,← respells.value,← reading_write spells.all spells.filled plus,
      ← reading_write respells.all respells.filled plus,one_text]
  have first := shortest_rounds (Dyadic.ofBits_normal x.toBits)
  have second := shortest_rounds (Dyadic.ofBits_normal y.toBits)
  rw [values] at second
  have magnitudes := first.unique second (Dyadic.ofBits_normal _) (Dyadic.ofBits_normal _)
  exact eq_of_toBits (Dyadic.ofBits_injective magnitudes signs.symm)

end Phrasebook.Decimal
