import Phrasebook.Text.Quoted

/-! Quoted literals can be read back, wherever they stand, and none spans two lines. -/
namespace Phrasebook.Text

namespace Quoted

def hexValue (c : Char) : Nat := if c.isDigit then c.toNat - '0'.toNat else c.toNat - 'a'.toNat + 10

theorem hexValue_hexDigit {n : Nat} (small : n < 16) : hexValue (hexDigit n) = n := by
  have all : ∀ i : Fin 16, hexValue (hexDigit i) = i := by decide
  exact all ⟨n,small⟩

/-- The character that a backslash and this one stand for. -/
def unescape (c : Char) : Char :=
  if c = 'n' then '\n'
  else if c = 'r' then '\r'
  else if c = 't' then '\t'
  else if c = 'b' then '\x08'
  else if c = 'f' then '\x0c'
  else c

/-- The text up to the closing quote, and what follows it. -/
def read : List Char → Option (List Char × List Char)
  | [] => none
  | '"' :: rest => some ([],rest)
  | '\\' :: 'u' :: a :: b :: c :: d :: rest =>
    let code := ((hexValue a * 16 + hexValue b) * 16 + hexValue c) * 16 + hexValue d
    (read rest).map fun (text,after) => (Char.ofNat code :: text,after)
  | '\\' :: c :: rest => (read rest).map fun (text,after) => (unescape c :: text,after)
  | c :: rest => (read rest).map fun (text,after) => (c :: text,after)

theorem read_escape (c : Char) (rest : List Char) :
    read (escape c ++ rest) = (read rest).map fun (text,after) => (c :: text,after) := by
  by_cases quote : c = '"'
  · subst c; simp [escape,read,unescape]
  by_cases backslash : c = '\\'
  · subst c; simp [escape,read,unescape]
  by_cases feed : c = '\n'
  · subst c; simp [escape,read,unescape]
  by_cases ret : c = '\r'
  · subst c; simp [escape,read,unescape]
  by_cases tab : c = '\t'
  · subst c; simp [escape,read,unescape]
  by_cases back : c = '\x08'
  · subst c; simp [escape,read,unescape]
  by_cases form : c = '\x0c'
  · subst c; simp [escape,read,unescape]
  by_cases control : c.toNat < 0x20
  · have high : hexValue (hexDigit (c.toNat / 16)) = c.toNat / 16 := hexValue_hexDigit (by omega)
    have low : hexValue (hexDigit (c.toNat % 16)) = c.toNat % 16 := hexValue_hexDigit (by omega)
    have zero : hexValue '0' = 0 := rfl
    have code : c.toNat / 16 * 16 + c.toNat % 16 = c.toNat := by omega
    simp [escape,quote,backslash,feed,ret,tab,back,form,control,read,high,low,zero,code,Char.ofNat_toNat]
  · simp [escape,quote,backslash,feed,ret,tab,back,form,control,read]

/-- A literal is read back as it was written. -/
theorem read_chars (text rest : List Char) :
    read (text.flatMap escape ++ '"' :: rest) = some (text,rest) := by
  induction text with
  | nil => rfl
  | cons c more ih => rw [List.flatMap_cons,List.append_assoc,read_escape,ih]; rfl

theorem isAlphanum_hexDigit {n : Nat} (small : n < 16) : (hexDigit n).isAlphanum = true := by
  have all : ∀ i : Fin 16, (hexDigit i).isAlphanum = true := by decide
  exact all ⟨n,small⟩

theorem hexDigit_ne {c : Char} {n : Nat} (mark : c.isAlphanum = false) (small : n < 16) : hexDigit n ≠ c := by
  rintro rfl
  exact absurd (isAlphanum_hexDigit small) (by simp [mark])

/-- A character is written as a backslash and a mark, by its number, or as itself. -/
theorem escape_cases (c : Char) : (∃ mark : Char, 0x20 ≤ mark.toNat ∧ escape c = ['\\',mark]) ∨
    c.toNat < 0x20 ∧ escape c = ['\\','u','0','0',hexDigit (c.toNat / 16),hexDigit (c.toNat % 16)] ∨
    0x20 ≤ c.toNat ∧ c ≠ '"' ∧ c ≠ '\\' ∧ escape c = [c] := by
  have marked {mark : Char} (printable : 0x20 ≤ mark.toNat) :
      ∃ m : Char, 0x20 ≤ m.toNat ∧ ['\\',mark] = ['\\',m] := ⟨mark,printable,rfl⟩
  rw [escape]
  -- the seven characters that have a mark of their own
  iterate 7
    split
    · exact .inl (marked (by decide))
  split
  next control => exact .inr (.inl ⟨control,rfl⟩)
  next quote backslash _ _ _ _ _ printable =>
    exact .inr (.inr ⟨Nat.le_of_not_lt printable,quote,backslash,rfl⟩)

theorem newline_not_mem_escape (c : Char) : '\n' ∉ escape c := by
  have newline {mark : Char} (printable : 0x20 ≤ mark.toNat) : '\n' ≠ mark := by
    rintro rfl
    exact absurd printable (by decide)
  rcases escape_cases c with ⟨mark,printable,written⟩ | ⟨control,written⟩ | ⟨printable,-,-,written⟩
  · simp [written,newline printable]
  · have high := hexDigit_ne (c := '\n') (n := c.toNat / 16) (by decide) (by omega)
    have low := hexDigit_ne (c := '\n') (n := c.toNat % 16) (by decide) (by omega)
    simp [written,high.symm,low.symm]
  · simp [written,newline printable]

end Quoted

theorem toList_quote (text : String) :
    (quote text).toList = '"' :: (text.toList.flatMap Quoted.escape ++ ['"']) := by
  simp [quote,Quoted.chars]

theorem newline_not_mem_quote (text : String) : '\n' ∉ (quote text).toList := by
  simp [toList_quote,Quoted.newline_not_mem_escape]

end Phrasebook.Text
