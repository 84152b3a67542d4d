/-! Texts in UTF-8, and octets that need not be the UTF-8 of any text: `ofOctets?_eq_some_iff` says which text they
are, and `display_octets` that a text is shown as itself. -/
namespace Phrasebook

/-- What names are made of. -/
abbrev Octets := List UInt8

namespace Text

def octets (text : String) : Octets := text.toUTF8.data.toList

instance : Coe String Octets := ⟨octets⟩

/-- The text that octets are. -/
def ofOctets? (octets : Octets) : Option String := String.fromUTF8? octets.toByteArray

/-- An octet of a character after its first. -/
def continues (octet : UInt8) : Bool := octet &&& 0xc0 = 0x80

/-- Two octets that a character of three or four could start with. -/
def begins (first second : UInt8) : Bool :=
  if first = 0xe0 then 0xa0 ≤ second && second ≤ 0xbf
  else if first = 0xed then 0x80 ≤ second && second ≤ 0x9f
  else if first = 0xf0 then 0x90 ≤ second && second ≤ 0xbf
  else if first = 0xf4 then 0x80 ≤ second && second ≤ 0x8f
  else 0xe1 ≤ first && first ≤ 0xf3 && continues second

/-- How many octets count as one where no character stands: as many as one could start with. -/
def strayLength : Octets → Nat
  | first :: second :: rest =>
    if !begins first second then 1
    else if 0xf0 ≤ first && rest.head?.any continues then 3
    else 2
  | _ => 1

/-- The character that octets start with. -/
def firstChar? (octets : Octets) : Option Char := (octets.take 4).toByteArray.utf8DecodeChar? 0

/-- The characters after the next few octets, and nothing for octets that are in none. -/
def charsAfter : Nat → Octets → List (Option Char)
  | _,[] => []
  | n + 1,_ :: rest => charsAfter n rest
  | 0,octet :: rest =>
    match firstChar? (octet :: rest) with
    | some c => some c :: charsAfter (c.utf8Size - 1) rest
    | none => none :: charsAfter (strayLength (octet :: rest) - 1) rest

/-- Octets as people see them: a replacement character stands for those that are in none. -/
def display (octets : Octets) : String := String.ofList ((charsAfter 0 octets).map (·.getD '\ufffd'))

theorem octets_eq (text : String) : octets text = text.toList.flatMap String.utf8EncodeChar := by
  have encoded : text.toUTF8 = (text.toList.flatMap String.utf8EncodeChar).toByteArray := String.utf8Encode_toList.symm
  rw [octets,encoded,List.data_toByteArray]

theorem octets_append (a b : String) : octets (a ++ b) = octets a ++ octets b := by
  simp [octets_eq]

theorem octets_injective {a b : String} (same : octets a = octets b) : a = b := by
  have arrays : a.toByteArray = b.toByteArray := by
    ext1
    exact Array.toList_inj.mp same
  exact String.toByteArray_inj.mp arrays

@[simp] theorem octets_eq_nil_iff {text : String} : octets text = [] ↔ text = "" :=
  ⟨fun none => octets_injective none,fun none => none ▸ rfl⟩

/-- Octets are a text if they are its own. -/
theorem ofOctets?_eq_some_iff {octets : Octets} {text : String} :
    ofOctets? octets = some text ↔ octets = Text.octets text := by
  rw [ofOctets?,String.fromUTF8?]
  constructor
  · intro read
    split at read
    · cases read
      change octets = octets.toByteArray.data.toList
      rw [List.data_toByteArray]
    · cases read
  · rintro rfl
    have whole : (Text.octets text).toByteArray = text.toByteArray := by
      ext1
      simp [Text.octets]
    rw [whole,dif_pos text.isValidUTF8]
    rfl

@[simp] theorem ofOctets?_octets (text : String) : ofOctets? (octets text) = some text :=
  ofOctets?_eq_some_iff.mpr rfl

theorem charsAfter_eq (n : Nat) (octets : Octets) : charsAfter n octets = charsAfter 0 (octets.drop n) := by
  induction octets generalizing n with
  | nil => cases n <;> rfl
  | cons octet rest ih =>
    cases n with
    | zero => rfl
    | succ n => exact ih n

theorem firstChar?_encode (c : Char) (rest : Octets) : firstChar? (String.utf8EncodeChar c ++ rest) = some c := by
  have short : (String.utf8EncodeChar c).length ≤ 4 := by
    rw [String.length_utf8EncodeChar]
    exact c.utf8Size_le_four
  have front : (String.utf8EncodeChar c ++ rest).take 4 =
      String.utf8EncodeChar c ++ rest.take (4 - (String.utf8EncodeChar c).length) := by
    rw [List.take_append,List.take_of_length_le short]
  rw [firstChar?,front,List.toByteArray_append]
  exact ByteArray.utf8DecodeChar?_utf8EncodeChar_append

theorem charsAfter_encode (c : Char) (rest : Octets) :
    charsAfter 0 (String.utf8EncodeChar c ++ rest) = some c :: charsAfter 0 rest := by
  have first := firstChar?_encode c rest
  have length := String.length_utf8EncodeChar c
  cases written : String.utf8EncodeChar c with
  | nil => exact absurd written String.utf8EncodeChar_ne_nil
  | cons octet more =>
    rw [written] at first length
    rw [List.cons_append] at first ⊢
    have size : c.utf8Size - 1 = more.length := by simp at length; omega
    rw [charsAfter,first]
    simp only [size,charsAfter_eq more.length,List.drop_left]

@[simp] theorem display_octets (text : String) : display (octets text) = text := by
  have chars : charsAfter 0 (octets text) = text.toList.map some := by
    rw [octets_eq]
    induction text.toList with
    | nil => rfl
    | cons c rest ih => rw [List.flatMap_cons,charsAfter_encode,ih,List.map_cons]
  simp [display,chars,Function.comp_def]

end Text
end Phrasebook
