import Phrasebook.Proofs.Decimal.Notation
import Phrasebook.Proofs.Json.Reading
import Phrasebook.Yaml.Value

/-! Numbers and booleans as text. Those that differ as keys differ as texts: `Number.same_of_text`. -/
namespace Phrasebook.Yaml

open Float.Model (UnpackedFloat)
open Decimal (Fractional)

section Floats

variable {x y : Float}

/-- A double is equal to itself unless it is no number. -/
theorem beq_self_of_number (number : x.isNaN = false) : (x == x) = true := by
  have unpacked {u : UnpackedFloat} (number : u.isNaN = false) : u.beq u = true := by
    cases u with
    | notANumber => cases number
    | infinity sign => cases sign <;> rfl
    | zero sign => rfl
    | finite sign mantissa exponent =>
      have level : (compare exponent exponent).then (compare mantissa mantissa) = .eq := by
        rw [Std.ReflOrd.compare_self,Std.ReflOrd.compare_self]
        rfl
      cases sign with
      | positive =>
        change (some ((compare exponent exponent).then (compare mantissa mantissa)) == some .eq) = true
        rw [level]
        rfl
      | negative =>
        change (some ((compare exponent exponent).then (compare mantissa mantissa)).swap == some .eq) = true
        rw [level]
        rfl
  exact unpacked number

theorem lt_zero_iff : x < 0 ↔ x.toModel.unpack.lt (.zero .positive) = true := decide_eq_true_iff

/-- There is one infinity of each sign. -/
theorem beq_of_infinite (first : x.isInf = true) (second : y.isInf = true) (signs : x < 0 ↔ y < 0) :
    (x == y) = true := by
  have unpacked {u v : UnpackedFloat} (first : u.isInf = true) (second : v.isInf = true)
      (signs : u.lt (.zero .positive) = true ↔ v.lt (.zero .positive) = true) : u.beq v = true := by
    cases u with
    | notANumber | zero | finite => cases first
    | infinity s =>
      cases v with
      | notANumber | zero | finite => cases second
      | infinity t =>
        cases s with
        | negative =>
          cases t with
          | negative => rfl
          | positive => exact absurd (signs.mp rfl) Bool.false_ne_true
        | positive =>
          cases t with
          | negative => exact absurd (signs.mpr rfl) Bool.false_ne_true
          | positive => rfl
  exact unpacked first second (by rw [← lt_zero_iff,← lt_zero_iff]; exact signs)

end Floats

namespace Number

/-- The texts of doubles: words that begin with a point, perhaps behind a sign, and fractions. -/
theorem float_text_cases (x : Float) : (x.isNaN = true ∧ (float x).text = ".nan") ∨
    (x.isNaN = false ∧ x.isInf = true ∧ (float x).text = if x < 0 then "-.inf" else ".inf") ∨
    (x.isNaN = false ∧ x.isInf = false ∧ (float x).text = Decimal.text false x) := by
  cases nan : x.isNaN with
  | true => exact .inl ⟨rfl,by rw [text,if_pos nan]⟩
  | false =>
    have number : ¬x.isNaN = true := by rw [nan]; exact Bool.false_ne_true
    cases inf : x.isInf with
    | true => exact .inr (.inl ⟨rfl,rfl,by rw [text,if_neg number,if_pos inf]⟩)
    | false =>
      have finite : ¬x.isInf = true := by rw [inf]; exact Bool.false_ne_true
      exact .inr (.inr ⟨rfl,rfl,by rw [text,if_neg number,if_neg finite]⟩)

/-- Texts that begin with a point, perhaps behind a sign. -/
def Pointed (text : String) : Prop := ∃ more, text.toList = '.' :: more ∨ text.toList = '-' :: '.' :: more

theorem finite_not_pointed (x : Float) : ¬Pointed (Decimal.text false x) := by
  rintro ⟨more,pointed⟩
  obtain ⟨unsigned,⟨first,rest,shape,digit,-⟩,written⟩ := Decimal.text_fractional false x
  have no_point : first ≠ '.' := by rintro rfl; cases digit
  have no_sign : first ≠ '-' := by rintro rfl; cases digit
  rw [shape] at written
  rcases written with written | written
  · rw [written] at pointed
    rcases pointed with same | same
    · exact no_point (List.cons.inj same).1
    · exact no_sign (List.cons.inj same).1
  · rw [written] at pointed
    rcases pointed with same | same
    · cases (List.cons.inj same).1
    · exact no_point (List.cons.inj (List.cons.inj same).2).1

theorem text_nan_iff {x : Float} : (float x).text = ".nan" ↔ x.isNaN = true := by
  rcases float_text_cases x with ⟨nan,written⟩ | ⟨number,-,written⟩ | ⟨number,-,written⟩
  · exact iff_of_true written nan
  · rw [written,number]
    refine iff_of_false ?_ Bool.false_ne_true
    split <;> decide
  · rw [written,number]
    refine iff_of_false ?_ Bool.false_ne_true
    intro same
    exact finite_not_pointed x ⟨_,.inl (congrArg String.toList same)⟩

/-- Finite doubles are told by their text from the others. -/
theorem text_pointed_iff {x : Float} : Pointed (float x).text ↔ x.isNaN = true ∨ x.isInf = true := by
  rcases float_text_cases x with ⟨nan,written⟩ | ⟨-,infinite,written⟩ | ⟨number,finite,written⟩
  · exact iff_of_true ⟨_,.inl (congrArg String.toList written)⟩ (.inl nan)
  · refine iff_of_true ?_ (.inr infinite)
    rw [written]
    split
    · exact ⟨_,.inr rfl⟩
    · exact ⟨_,.inl rfl⟩
  · rw [written,number,finite]
    refine iff_of_false (finite_not_pointed x) ?_
    rintro (nan | infinite)
    · cases nan
    · cases infinite

/-- Doubles with one text are one key. -/
theorem float_same_of_text {x y : Float} (texts : (float x).text = (float y).text) :
    (float x).same (float y) = true := by
  have nan : x.isNaN = true ↔ y.isNaN = true := by rw [← text_nan_iff,texts,text_nan_iff]
  have special : x.isNaN = true ∨ x.isInf = true ↔ y.isNaN = true ∨ y.isInf = true := by
    rw [← text_pointed_iff,texts,text_pointed_iff]
  have ordinary {z : Float} (number : z.isNaN = false) (finite : z.isInf = false) :
      ¬(z.isNaN = true ∨ z.isInf = true) := by
    rintro (nan | infinite)
    · rw [number] at nan
      cases nan
    · rw [finite] at infinite
      cases infinite
  rw [same,Bool.or_eq_true,Bool.and_eq_true]
  rcases float_text_cases x with ⟨one,-⟩ | ⟨number,infinite,written⟩ | ⟨number,finite,written⟩
  · exact .inr ⟨one,nan.mp one⟩
  · left
    rcases float_text_cases y with ⟨other,-⟩ | ⟨-,infinite',written'⟩ | ⟨number',finite',-⟩
    · rw [nan.mpr other] at number
      cases number
    · refine beq_of_infinite infinite infinite' ?_
      rw [written,written'] at texts
      by_cases first : x < 0
      · by_cases second : y < 0
        · exact iff_of_true first second
        · rw [if_pos first,if_neg second] at texts
          exact absurd texts (by decide)
      · by_cases second : y < 0
        · rw [if_neg first,if_pos second] at texts
          exact absurd texts (by decide)
        · exact iff_of_false first second
    · exact absurd (special.mp (.inr infinite)) (ordinary number' finite')
  · left
    rcases float_text_cases y with ⟨other,-⟩ | ⟨-,infinite',-⟩ | ⟨-,-,written'⟩
    · exact absurd (special.mpr (.inl other)) (ordinary number finite)
    · exact absurd (special.mpr (.inr infinite')) (ordinary number finite)
    · rw [written,written'] at texts
      rw [← Decimal.text_injective texts]
      exact beq_self_of_number number

/-- The text of an integer has digits only, perhaps behind a sign. -/
theorem integer_text_plain (n : Int) : ∀ c ∈ (integer n).text.toList, c.isDigit = true ∨ c = '-' := by
  intro c member
  cases n with
  | ofNat n =>
    have digits : c ∈ Nat.toDigits 10 n := Json.toList_toString n ▸ member
    exact .inl (Decimal.allDigits_toDigits n c digits)
  | negSucc n =>
    have digits : c ∈ '-' :: Nat.toDigits 10 (n + 1) := Json.toList_toString_negative n ▸ member
    rcases List.mem_cons.mp digits with sign | digits
    · exact .inr sign
    · exact .inl (Decimal.allDigits_toDigits _ c digits)

theorem integer_text_injective {m n : Int} (texts : (integer m).text = (integer n).text) : m = n := by
  have digits {a b : Nat} (same : Nat.toDigits 10 a = Nat.toDigits 10 b) : a = b := by
    rw [← Nat.ofDigitChars_ten_toDigits (n := a),same,Nat.ofDigitChars_ten_toDigits]
  have unsigned {a b : Nat} : Nat.toDigits 10 a ≠ '-' :: Nat.toDigits 10 b := by
    intro same
    have digit : '-'.isDigit = true := Decimal.allDigits_toDigits a _ (same ▸ List.mem_cons_self)
    cases digit
  have texts := congrArg String.toList texts
  cases m with
  | ofNat m =>
    have first := Json.toList_toString m
    cases n with
    | ofNat n => exact congrArg Int.ofNat (digits (first.symm.trans (texts.trans (Json.toList_toString n))))
    | negSucc n => exact absurd (first.symm.trans (texts.trans (Json.toList_toString_negative n))) unsigned
  | negSucc m =>
    have first := Json.toList_toString_negative m
    cases n with
    | ofNat n => exact absurd ((Json.toList_toString n).symm.trans (texts.symm.trans first)) unsigned
    | negSucc n =>
      have tails := (List.cons.inj (first.symm.trans (texts.trans (Json.toList_toString_negative n)))).2
      rw [Nat.succ.inj (digits tails)]

/-- The text of a double has something that no integer has. -/
theorem float_text_mark (x : Float) : ∃ c ∈ (float x).text.toList, c = '.' ∨ c = 'e' := by
  rcases float_text_cases x with ⟨-,written⟩ | ⟨-,-,written⟩ | ⟨-,-,written⟩
  · rw [written]
    exact ⟨'.',by decide,.inl rfl⟩
  · rw [written]
    refine ⟨'.',?_,.inl rfl⟩
    split <;> decide
  · obtain ⟨unsigned,⟨first,rest,shape,-,c,member,mark⟩,whole⟩ := Decimal.text_fractional false x
    have inside : c ∈ unsigned := shape ▸ List.mem_cons_of_mem _ member
    rw [written]
    refine ⟨c,?_,mark⟩
    rcases whole with whole | whole
    · rw [whole]
      exact inside
    · rw [whole]
      exact List.mem_cons_of_mem _ inside

theorem integer_text_ne (n : Int) (x : Float) : (integer n).text ≠ (float x).text := by
  intro texts
  obtain ⟨c,member,mark⟩ := float_text_mark x
  rcases integer_text_plain n c (texts ▸ member) with digit | sign
  · rcases mark with rfl | rfl <;> cases digit
  · rcases mark with rfl | rfl <;> cases sign

/-- Numbers with one text are one key. -/
theorem same_of_text {a b : Number} (texts : a.text = b.text) : a.same b = true := by
  cases a with
  | integer m =>
    cases b with
    | integer n => exact decide_eq_true (integer_text_injective texts)
    | float y => exact absurd texts (integer_text_ne m y)
  | float x =>
    cases b with
    | integer n => exact absurd texts.symm (integer_text_ne n x)
    | float y => exact float_same_of_text texts

theorem text_head (a : Number) : ∀ c ∈ a.text.toList.head?, c.isDigit = true ∨ c = '-' ∨ c = '.' := by
  intro c head
  cases a with
  | integer n =>
    rcases integer_text_plain n c (List.mem_of_mem_head? head) with digit | sign
    · exact .inl digit
    · exact .inr (.inl sign)
  | float x =>
    rcases float_text_cases x with ⟨-,written⟩ | ⟨-,-,written⟩ | ⟨-,-,written⟩
    · rw [written] at head
      cases head
      exact .inr (.inr rfl)
    · rw [written] at head
      split at head
      · cases head
        exact .inr (.inl rfl)
      · cases head
        exact .inr (.inr rfl)
    · obtain ⟨unsigned,⟨first,rest,shape,digit,-⟩,whole⟩ := Decimal.text_fractional false x
      rw [written] at head
      rcases whole with whole | whole
      · rw [whole,shape] at head
        cases head
        exact .inl digit
      · rw [whole] at head
        cases head
        exact .inr (.inl rfl)

/-- No number is written like a boolean. -/
theorem text_ne_bool (a : Number) (b : Bool) : a.text ≠ toString b := by
  intro texts
  have head := texts ▸ a.text_head
  cases b with
  | false => simpa using head 'f' rfl
  | true => simpa using head 't' rfl

end Number

end Phrasebook.Yaml
