import Phrasebook.Json.Reader
import Phrasebook.Proofs.Text.Quoted

/-! What is written as JSON is read back: `parse?_text`. Every reader leaves whatever stands behind the value, so
the lemmas append a rest. -/
namespace Phrasebook.Json

open Text.Quoted (escape hexDigit)

/-! ### Strings -/

theorem unicodeEscape?_hexDigit {c : Char} (control : c.toNat < 0x20) (rest : List Char) :
    unicodeEscape? ('0' :: '0' :: hexDigit (c.toNat / 16) :: hexDigit (c.toNat % 16) :: rest) = some (c,rest) := by
  have digit : ∀ i : Fin 16, Text.digitValue? 16 (hexDigit i) = some i.val := by decide
  have zero : Text.digitValue? 16 '0' = some 0 := rfl
  have high := digit ⟨c.toNat / 16,by omega⟩
  have low := digit ⟨c.toNat % 16,by omega⟩
  have number : Text.natural? 16 ['0','0',hexDigit (c.toNat / 16),hexDigit (c.toNat % 16)] = some c.toNat := by
    simp only [Text.natural?,List.foldlM_cons,List.foldlM_nil,zero,high,low]
    change some (16 * (16 * (16 * (16 * 0 + 0) + 0) + c.toNat / 16) + c.toNat % 16) = some c.toNat
    exact congrArg some (by omega)
  have plain : ¬(0xd800 ≤ c.toNat ∧ c.toNat < 0xdc00) ∧ ¬(0xdc00 ≤ c.toNat ∧ c.toNat < 0xe000) := by omega
  simp [unicodeEscape?,hex4?,number,plain.1,plain.2,Char.ofNat_toNat]

theorem stringBody_escape (fuel : Nat) (read : List Char) (c : Char) (rest : List Char) :
    stringBody (fuel + 1) read (escape c ++ rest) = stringBody fuel (c :: read) rest := by
  by_cases quote : c = '"'
  · subst c; simp [escape,stringBody,namedEscape?]
  by_cases backslash : c = '\\'
  · subst c; simp [escape,stringBody,namedEscape?]
  by_cases feed : c = '\n'
  · subst c; simp [escape,stringBody,namedEscape?]
  by_cases ret : c = '\r'
  · subst c; simp [escape,stringBody,namedEscape?]
  by_cases tab : c = '\t'
  · subst c; simp [escape,stringBody,namedEscape?]
  by_cases back : c = '\x08'
  · subst c; simp [escape,stringBody,namedEscape?]
  by_cases form : c = '\x0c'
  · subst c; simp [escape,stringBody,namedEscape?]
  by_cases control : c.toNat < 0x20
  · simp [escape,quote,backslash,feed,ret,tab,back,form,control,stringBody,unicodeEscape?_hexDigit control]
  · simp [escape,quote,backslash,feed,ret,tab,back,form,control,stringBody]

/-- Each character takes one step, in whatever way it is written. -/
theorem stringBody_chars {fuel : Nat} {text : List Char} (enough : text.length < fuel) (read rest : List Char) :
    stringBody fuel read (text.flatMap escape ++ '"' :: rest) = some (read.reverse ++ text,rest) := by
  induction text generalizing fuel read with
  | nil =>
    obtain ⟨fuel,rfl⟩ := Nat.exists_eq_add_of_lt enough
    simp [stringBody]
  | cons c text ih =>
    cases fuel with
    | zero => cases enough
    | succ fuel =>
      rw [List.flatMap_cons,List.append_assoc,stringBody_escape,ih (Nat.lt_of_succ_lt_succ enough)]
      simp

theorem length_le_escaped (text : List Char) : text.length ≤ (text.flatMap escape).length := by
  induction text with
  | nil => exact Nat.le_refl _
  | cons c text ih =>
    have some : 0 < (escape c).length := by
      rcases Text.Quoted.escape_cases c with ⟨mark,-,written⟩ | ⟨-,written⟩ | ⟨-,-,-,written⟩ <;> simp [written]
    rw [List.flatMap_cons,List.length_append,List.length_cons]
    omega

/-- A quoted text behind its opening quote. -/
theorem stringBody_quote (text : String) (rest : List Char) :
    let after := text.toList.flatMap escape ++ '"' :: rest
    stringBody (after.length + 1) [] after = some (text.toList,rest) := by
  have length := length_le_escaped text.toList
  exact stringBody_chars (by simp only [List.length_append,List.length_cons]; omega) [] rest

/-! ### Numbers -/

/-- A number ends before this. -/
def Stops (rest : List Char) : Prop := ∀ c ∈ rest.head?, c.isDigit = false ∧ c ≠ '.' ∧ c ≠ 'e' ∧ c ≠ 'E'

theorem digit?_of_isDigit {c : Char} (digit : c.isDigit = true) : digit? c = some (c.toNat - '0'.toNat) := if_pos digit

theorem le_ofDigitChars (digits : List Char) (n : Nat) : n ≤ Nat.ofDigitChars 10 digits n := by
  induction digits generalizing n with
  | nil => exact Nat.le_refl n
  | cons c digits ih =>
    rw [Nat.ofDigitChars_cons]
    exact Nat.le_trans (by omega) (ih _)

theorem gather_digits {digits rest : List Char} (all : ∀ c ∈ digits, c.isDigit = true) {n : Nat}
    (fits : Nat.ofDigitChars 10 digits n ≤ wordLimit) (stops : Stops rest) (count : Nat) :
    gather n count (digits ++ rest) = (Nat.ofDigitChars 10 digits n,count + digits.length,true,rest) := by
  induction digits generalizing n count with
  | nil =>
    cases rest with
    | nil => rfl
    | cons c rest =>
      have other : digit? c = none := if_neg (by simp [(stops c rfl).1])
      rw [List.nil_append,gather,other]
      rfl
  | cons c digits ih =>
    obtain ⟨digit,others⟩ := List.forall_mem_cons.mp all
    rw [Nat.ofDigitChars_cons] at fits ⊢
    have here : 10 * n + (c.toNat - '0'.toNat) ≤ wordLimit := Nat.le_trans (le_ofDigitChars digits _) fits
    rw [List.cons_append,gather,digit?_of_isDigit digit]
    dsimp only
    rw [if_pos here,ih others fits,List.length_cons,Nat.add_assoc,Nat.add_comm 1]

/-- No number but zero is written with a leading zero. -/
theorem eq_nil_of_leading_zero {n : Nat} {more : List Char} (written : Nat.toDigits 10 n = '0' :: more) :
    more = [] := by
  induction n using Nat.strongRecOn generalizing more with
  | ind n ih =>
    by_cases small : n < 10
    · rw [Nat.toDigits_of_lt_base small] at written
      exact (List.cons.inj written).2.symm
    · rw [Nat.toDigits_eq_if (by decide),if_neg small] at written
      cases front : Nat.toDigits 10 (n / 10) with
      | nil => exact absurd front Nat.toDigits_ne_nil
      | cons first others =>
        rw [front,List.cons_append] at written
        obtain ⟨rfl,-⟩ := List.cons.inj written
        obtain rfl := ih (n / 10) (by omega) front
        have zero : Nat.ofDigitChars 10 (Nat.toDigits 10 (n / 10)) 0 = n / 10 :=
          Nat.ofDigitChars_toDigits (by decide) (by decide)
        rw [front] at zero
        change 0 = n / 10 at zero
        omega

theorem number?_toDigits {n : Nat} (fits : n ≤ wordLimit) {rest : List Char} (stops : Stops rest) (negative : Bool) :
    number? negative (Nat.toDigits 10 n ++ rest) = number?.whole negative n true 0 rest := by
  have digits : ∀ c ∈ Nat.toDigits 10 n, c.isDigit = true :=
    fun c member => Nat.isDigit_of_mem_toDigits (by decide) (by decide) member
  have value : Nat.ofDigitChars 10 (Nat.toDigits 10 n) 0 = n := Nat.ofDigitChars_toDigits (by decide) (by decide)
  have gathered := gather_digits digits (value ▸ fits) stops 0
  rw [value] at gathered
  cases written : Nat.toDigits 10 n with
  | nil => exact absurd written Nat.toDigits_ne_nil
  | cons first more =>
    have leading : ¬(!first.isDigit || (first = '0' && (more ++ rest).head?.any Char.isDigit)) = true := by
      have digit : first.isDigit = true := digits first (written ▸ List.mem_cons_self ..)
      simp only [digit,Bool.not_true,Bool.false_or,Bool.and_eq_true,decide_eq_true_eq,not_and]
      rintro rfl
      obtain rfl := eq_nil_of_leading_zero written
      cases rest with
      | nil => simp
      | cons c rest => simp [(stops c rfl).1]
    rw [written,List.cons_append] at gathered
    rw [List.cons_append,number?,if_neg leading,gathered]
    dsimp only
    rw [if_pos rfl,List.drop_zero]
    split
    next => exact absurd rfl (stops '.' rfl).2.1
    next e _ _ => rw [if_neg (by simp [(stops e rfl).2.2])]
    next => rfl

/-! ### Values -/

/-- Such text is not skipped. -/
theorem skipSpace_cons {c : Char} (visible : c ≠ ' ' ∧ c ≠ '\n' ∧ c ≠ '\t' ∧ c ≠ '\r') (rest : List Char) :
    skipSpace (c :: rest) = c :: rest := by
  simp [skipSpace,visible]

theorem visible_of_isDigit {c : Char} (digit : c.isDigit = true) :
    c ≠ ' ' ∧ c ≠ '\n' ∧ c ≠ '\t' ∧ c ≠ '\r' := by
  refine ⟨?_,?_,?_,?_⟩ <;> (rintro rfl; exact absurd digit (by decide))

theorem value_of_digit {c : Char} (digit : c.isDigit = true) (fuel : Nat) (rest : List Char) :
    value (fuel + 1) (c :: rest) = number? false (c :: rest) := by
  have other {mark : Char} (plain : mark.isDigit = false) : c ≠ mark := by
    rintro rfl
    rw [digit] at plain
    cases plain
  rw [value,skipSpace_cons (visible_of_isDigit digit)]
  split
  next same => exact absurd (List.cons.inj same).1 (other (by decide))
  next same => exact absurd (List.cons.inj same).1 (other (by decide))
  next same => exact absurd (List.cons.inj same).1 (other (by decide))
  next same => exact absurd (List.cons.inj same).1 (other (by decide))
  next same => exact absurd (List.cons.inj same).1 (other (by decide))
  next same => exact absurd (List.cons.inj same).1 (other (by decide))
  next same => exact absurd (List.cons.inj same).1 (other (by decide))
  next => rfl

mutual

/-- Values that text holds exactly: no floating-point numbers, integers of a machine word, and no key twice. -/
def Exact : Json → Prop
  | float _ => False
  | integer n => -(2 ^ 63 : Nat) ≤ n ∧ n ≤ wordLimit
  | array items => ExactItems items
  | object fields => (fields.map Prod.fst).Nodup ∧ ExactFields fields
  | null | bool _ | string _ => True

def ExactItems : List Json → Prop
  | [] => True
  | item :: rest => Exact item ∧ ExactItems rest

def ExactFields : List (String × Json) → Prop
  | [] => True
  | (_,value) :: rest => Exact value ∧ ExactFields rest

end

theorem toList_toString (n : Nat) : (toString (n : Int)).toList = Nat.toDigits 10 n := Nat.toList_repr

theorem toList_toString_negative (n : Nat) : (toString (Int.negSucc n)).toList = '-' :: Nat.toDigits 10 (n + 1) := by
  change ("-" ++ Nat.repr (n + 1)).toList = _
  rw [String.toList_append,Nat.toList_repr]
  rfl

theorem value_integer {n : Int} (exact : Exact (.integer n)) {rest : List Char} (stops : Stops rest) (fuel : Nat) :
    value (fuel + 1) ((text (.integer n)).toList ++ rest) = some (.integer n,rest) := by
  rw [text]
  cases n with
  | ofNat n =>
    have fits : n ≤ wordLimit := Int.ofNat_le.mp exact.2
    change value (fuel + 1) ((toString (n : Int)).toList ++ rest) = _
    rw [toList_toString]
    have read := number?_toDigits fits stops false
    cases written : Nat.toDigits 10 n with
    | nil => exact absurd written Nat.toDigits_ne_nil
    | cons first more =>
      have digit : first.isDigit = true :=
        Nat.isDigit_of_mem_toDigits (by decide) (by decide) (written ▸ List.mem_cons_self ..)
      rw [written,List.cons_append] at read
      rw [List.cons_append,value_of_digit digit,read]
      rfl
  | negSucc n =>
    have least : -(2 ^ 63 : Nat) ≤ Int.negSucc n := exact.1
    have small : n + 1 ≤ 2 ^ 63 := by omega
    have fits : n + 1 ≤ wordLimit := Nat.le_trans small (by decide)
    have sign : ¬(decide (n + 1 = 0) || decide (Nat.pow 2 63 < n + 1)) = true := by simpa using small
    rw [toList_toString_negative,List.cons_append]
    change number? true (Nat.toDigits 10 (n + 1) ++ rest) = _
    rw [number?_toDigits fits stops,number?.whole,if_neg (by decide),if_neg (by decide),if_neg sign]
    rfl

theorem set_of_absent {key : String} {fields : List (String × Json)} (absent : key ∉ fields.map Prod.fst)
    (item : Json) : Keyed.set key item fields = fields ++ [(key,item)] := by
  induction fields with
  | nil => rfl
  | cons field rest ih =>
    obtain ⟨other,old⟩ := field
    rw [List.map_cons,List.mem_cons,not_or] at absent
    rw [Keyed.set,if_neg (Ne.symm absent.1),ih absent.2]
    rfl

theorem toList_intercalate (sep first : String) (rest : List String) :
    (String.intercalate sep (first :: rest)).toList = first.toList ++ rest.flatMap fun s => sep.toList ++ s.toList := by
  induction rest generalizing first with
  | nil => simp
  | cons next rest ih =>
    rw [String.intercalate_cons_cons,String.toList_append,String.toList_append,ih]
    simp

/-- Every text begins with a character that is neither skipped nor closes an array. -/
theorem head_text {json : Json} (exact : Exact json) : ∃ c rest, (text json).toList = c :: rest ∧
    (c ≠ ' ' ∧ c ≠ '\n' ∧ c ≠ '\t' ∧ c ≠ '\r') ∧ c ≠ ']' := by
  cases json with
  | null => exact ⟨'n',_,rfl,by decide⟩
  | bool value => cases value <;> exact ⟨_,_,rfl,by decide⟩
  | integer n =>
    cases n with
    | ofNat n =>
      cases written : Nat.toDigits 10 n with
      | nil => exact absurd written Nat.toDigits_ne_nil
      | cons first more =>
        have digit : first.isDigit = true :=
          Nat.isDigit_of_mem_toDigits (by decide) (by decide) (written ▸ List.mem_cons_self ..)
        refine ⟨first,more,(toList_toString n).trans written,visible_of_isDigit digit,?_⟩
        rintro rfl
        cases digit
    | negSucc n => exact ⟨'-',_,toList_toString_negative n,by decide⟩
  | float => cases exact
  | string s => exact ⟨'"',_,Text.toList_quote s,by decide⟩
  | array items => exact ⟨'[',_,by rw [text,String.toList_append,String.toList_append]; rfl,by decide⟩
  | object fields => exact ⟨'\x7b',_,by rw [text,String.toList_append,String.toList_append]; rfl,by decide⟩

theorem stops_cons {c : Char} (mark : c.isDigit = false ∧ c ≠ '.' ∧ c ≠ 'e' ∧ c ≠ 'E') (rest : List Char) :
    Stops (c :: rest) := by
  rintro d ⟨⟩
  exact mark

theorem value_string (fuel : Nat) (s : String) (rest : List Char) :
    value (fuel + 1) ((text (.string s)).toList ++ rest) = some (.string s,rest) := by
  have body := stringBody_quote s rest
  dsimp only at body
  rw [text,Text.toList_quote,List.cons_append,List.append_assoc,List.singleton_append]
  change (stringBody _ [] (s.toList.flatMap escape ++ '"' :: rest)).map _ = _
  rw [body]
  exact congrArg (fun s => some (Json.string s,rest)) String.ofList_toList

theorem value_array (fuel : Nat) {c : Char} (visible : c ≠ ' ' ∧ c ≠ '\n' ∧ c ≠ '\t' ∧ c ≠ '\r')
    (filled : c ≠ ']') (rest : List Char) :
    value (fuel + 1) ('[' :: c :: rest) = items fuel [] (c :: rest) := by
  rw [value,skipSpace_cons (by decide)]
  simp only [skipSpace_cons visible]
  split
  next same => exact absurd (List.cons.inj same).1 filled
  next => rfl

/-- One field, up to what follows its value. -/
theorem fields_step (fuel : Nat) (read : List (String × Json)) (key : String) (more : List Char) :
    fields (fuel + 1) read ((Text.quote key ++ ":").toList ++ more) = (value fuel more).bind fun (item,rest) =>
      match skipSpace rest with
      | ',' :: rest => fields fuel (Keyed.set key item read) rest
      | '\x7d' :: rest => some (.object (Keyed.set key item read),rest)
      | _ => none := by
  obtain ⟨letters,rfl⟩ : ∃ letters, key = String.ofList letters := ⟨key.toList,String.ofList_toList.symm⟩
  have body := stringBody_quote (String.ofList letters) (':' :: more)
  simp only [String.toList_ofList] at body
  have written : (Text.quote (String.ofList letters) ++ ":").toList ++ more =
      '"' :: (letters.flatMap escape ++ '"' :: ':' :: more) := by
    rw [String.toList_append,Text.toList_quote,String.toList_ofList]
    simp
  rw [written]
  change (stringBody _ [] _ >>= _) = _
  rw [body]
  rfl

mutual

/-- The length of the text is fuel enough: two characters enclose the items of an array, and take two steps. -/
theorem value_text (json : Json) (exact : Exact json) {rest : List Char} (stops : Stops rest) {fuel : Nat}
    (enough : (text json).toList.length ≤ fuel) : value fuel ((text json).toList ++ rest) = some (json,rest) := by
  obtain ⟨first,others,begins,visible,filled⟩ := head_text exact
  have positive : 0 < (text json).toList.length := by rw [begins]; exact Nat.succ_pos _
  obtain ⟨fuel,rfl⟩ := Nat.exists_eq_succ_of_ne_zero (Nat.ne_of_gt (Nat.lt_of_lt_of_le positive enough))
  cases json with
  | null => rw [text]; rfl
  | bool b => cases b <;> (rw [text]; rfl)
  | integer n => exact value_integer exact stops fuel
  | float => cases exact
  | string s => exact value_string fuel s rest
  | array list =>
    cases list with
    | nil => rw [text]; rfl
    | cons item more =>
      obtain ⟨c,after,first,visible,filled⟩ := head_text exact.1
      have written : (text (.array (item :: more))).toList =
          '[' :: ((String.intercalate "," (itemTexts (item :: more))).toList ++ [']']) := by
        rw [text]
        simp
      have front : ∃ after, (String.intercalate "," (itemTexts (item :: more))).toList ++ ']' :: rest = c :: after := by
        rw [itemTexts,toList_intercalate,first]
        exact ⟨_,rfl⟩
      rw [written] at enough ⊢
      simp only [List.length_cons,List.length_append,List.length_nil] at enough
      have inside := items_text (item :: more) exact (List.cons_ne_nil _ _) [] rest (by omega : _ < fuel)
      obtain ⟨after,same⟩ := front
      rw [List.cons_append,List.append_assoc,List.singleton_append]
      rw [same] at inside ⊢
      rw [value_array fuel visible filled,inside]
      rfl
  | object list =>
    cases list with
    | nil => rw [text]; rfl
    | cons field more =>
      have written : (text (.object (field :: more))).toList =
          '\x7b' :: ((String.intercalate "," (fieldTexts (field :: more))).toList ++ ['\x7d']) := by
        rw [text]
        simp
      have front : ∃ after, (String.intercalate "," (fieldTexts (field :: more))).toList ++ '\x7d' :: rest =
          '"' :: after := by
        rw [fieldTexts,toList_intercalate,String.toList_append,String.toList_append,Text.toList_quote]
        exact ⟨_,rfl⟩
      rw [written] at enough ⊢
      simp only [List.length_cons,List.length_append,List.length_nil] at enough
      have inside := fields_text (field :: more) exact.2 (List.cons_ne_nil _ _) [] (by simpa using exact.1) rest
        (by omega : _ < fuel)
      obtain ⟨after,same⟩ := front
      rw [List.cons_append,List.append_assoc,List.singleton_append]
      rw [same] at inside ⊢
      exact inside

theorem items_text (list : List Json) (exact : ExactItems list) (nonempty : list ≠ []) (read : List Json)
    (rest : List Char) {fuel : Nat} (enough : (String.intercalate "," (itemTexts list)).toList.length < fuel) :
    items fuel read ((String.intercalate "," (itemTexts list)).toList ++ ']' :: rest) =
      some (.array (read.reverse ++ list),rest) := by
  obtain ⟨fuel,rfl⟩ := Nat.exists_eq_succ_of_ne_zero (Nat.ne_zero_of_lt enough)
  cases list with
  | nil => exact absurd rfl nonempty
  | cons item others =>
    obtain ⟨here,later⟩ := exact
    have step (more : List Char) : items (fuel + 1) read more = (value fuel more).bind fun (item,rest) =>
        match skipSpace rest with
        | ',' :: rest => items fuel (item :: read) rest
        | ']' :: rest => some (.array (item :: read).reverse,rest)
        | _ => none := rfl
    cases others with
    | nil =>
      have ends : Stops (']' :: rest) := stops_cons (by decide) rest
      rw [itemTexts,itemTexts,String.intercalate_singleton] at enough ⊢
      rw [step,value_text item here ends (Nat.le_of_lt_succ enough)]
      simp [skipSpace]
    | cons next more =>
      have written : (String.intercalate "," (itemTexts (item :: next :: more))).toList =
          (text item).toList ++ ',' :: (String.intercalate "," (itemTexts (next :: more))).toList := by
        simp [itemTexts,String.intercalate_cons_cons]
      have between (rest : List Char) : Stops (',' :: rest) := stops_cons (by decide) rest
      rw [written] at enough ⊢
      rw [List.length_append,List.length_cons] at enough
      rw [step,List.append_assoc,List.cons_append,value_text item here (between _) (by omega)]
      change items fuel (item :: read) (_ ++ ']' :: rest) = _
      rw [items_text (next :: more) later (List.cons_ne_nil _ _) (item :: read) rest (by omega)]
      simp

theorem fields_text (list : List (String × Json)) (exact : ExactFields list) (nonempty : list ≠ [])
    (read : List (String × Json)) (once : ((read ++ list).map Prod.fst).Nodup) (rest : List Char) {fuel : Nat}
    (enough : (String.intercalate "," (fieldTexts list)).toList.length < fuel) :
    fields fuel read ((String.intercalate "," (fieldTexts list)).toList ++ '\x7d' :: rest) =
      some (.object (read ++ list),rest) := by
  obtain ⟨fuel,rfl⟩ := Nat.exists_eq_succ_of_ne_zero (Nat.ne_zero_of_lt enough)
  cases list with
  | nil => exact absurd rfl nonempty
  | cons field others =>
    obtain ⟨key,item⟩ := field
    obtain ⟨here,later⟩ := exact
    have absent : key ∉ read.map Prod.fst := by
      rw [List.map_append,List.map_cons] at once
      exact fun member => (List.nodup_append.mp once).2.2 key member key (List.mem_cons_self ..) rfl
    cases others with
    | nil =>
      have ends : Stops ('\x7d' :: rest) := stops_cons (by decide) rest
      rw [fieldTexts,fieldTexts,String.intercalate_singleton] at enough ⊢
      rw [String.toList_append,List.length_append] at enough
      rw [String.toList_append,List.append_assoc,fields_step,value_text item here ends (by omega)]
      simp [skipSpace,set_of_absent absent]
    | cons next more =>
      have written : (String.intercalate "," (fieldTexts ((key,item) :: next :: more))).toList =
          (Text.quote key ++ ":").toList ++
            ((text item).toList ++ ',' :: (String.intercalate "," (fieldTexts (next :: more))).toList) := by
        obtain ⟨k,v⟩ := next
        simp [fieldTexts,String.intercalate_cons_cons]
      have between (rest : List Char) : Stops (',' :: rest) := stops_cons (by decide) rest
      have afterwards : ((read ++ [(key,item)]) ++ next :: more).map Prod.fst |>.Nodup := by simpa using once
      rw [written] at enough ⊢
      rw [List.length_append,List.length_append,List.length_cons] at enough
      rw [List.append_assoc,List.append_assoc,List.cons_append,fields_step,value_text item here (between _) (by omega)]
      change fields fuel (Keyed.set key item read) (_ ++ '\x7d' :: rest) = _
      rw [set_of_absent absent,
        fields_text (next :: more) later (List.cons_ne_nil _ _) _ afterwards rest (by omega)]
      simp

end

/-- A value is read back from its text. -/
theorem parse?_text {json : Json} (exact : Exact json) : parse? (text json) = some json := by
  have stops : Stops [] := nofun
  have read := value_text json exact stops (Nat.le_succ _)
  rw [List.append_nil] at read
  rw [parse?,read]
  rfl

/-! ### Lines -/

theorem newline_not_mem_intercalate {sep : String} {texts : List String} (between : '\n' ∉ sep.toList)
    (single : ∀ text ∈ texts, '\n' ∉ text.toList) : '\n' ∉ (String.intercalate sep texts).toList := by
  cases texts with
  | nil => exact List.not_mem_nil
  | cons first rest =>
    obtain ⟨here,others⟩ := List.forall_mem_cons.mp single
    rw [toList_intercalate,List.mem_append,List.mem_flatMap]
    rintro (member | ⟨text,listed,member⟩)
    · exact here member
    · exact (List.mem_append.mp member).elim between (others text listed)

theorem newline_not_mem_toDigits (n : Nat) : '\n' ∉ Nat.toDigits 10 n := by
  intro member
  have digit : '\n'.isDigit = true := Nat.isDigit_of_mem_toDigits (by decide) (by decide) member
  cases digit

mutual

/-- A text is one line, whatever it holds. -/
theorem newline_not_mem_text (json : Json) (exact : Exact json) : '\n' ∉ (text json).toList := by
  cases json with
  | null => rw [text]; decide
  | bool b => cases b <;> (rw [text]; decide)
  | integer n =>
    rw [text]
    cases n with
    | ofNat n => exact toList_toString n ▸ newline_not_mem_toDigits n
    | negSucc n =>
      rw [toList_toString_negative,List.mem_cons,not_or]
      exact ⟨by decide,newline_not_mem_toDigits (n + 1)⟩
  | float => cases exact
  | string s => rw [text]; exact Text.newline_not_mem_quote s
  | array list =>
    have inside := newline_not_mem_intercalate (by decide : '\n' ∉ ",".toList) (newline_not_mem_itemTexts list exact)
    rw [text,String.toList_append,String.toList_append]
    exact List.not_mem_append (List.not_mem_append (by decide) inside) (by decide)
  | object list =>
    have inside := newline_not_mem_intercalate (by decide : '\n' ∉ ",".toList)
      (newline_not_mem_fieldTexts list exact.2)
    rw [text,String.toList_append,String.toList_append]
    exact List.not_mem_append (List.not_mem_append (by decide) inside) (by decide)

theorem newline_not_mem_itemTexts (list : List Json) (exact : ExactItems list) :
    ∀ text ∈ itemTexts list, '\n' ∉ text.toList := by
  cases list with
  | nil => exact List.forall_mem_nil _
  | cons item rest =>
    exact List.forall_mem_cons.mpr ⟨newline_not_mem_text item exact.1,newline_not_mem_itemTexts rest exact.2⟩

theorem newline_not_mem_fieldTexts (list : List (String × Json)) (exact : ExactFields list) :
    ∀ text ∈ fieldTexts list, '\n' ∉ text.toList := by
  cases list with
  | nil => exact List.forall_mem_nil _
  | cons field rest =>
    obtain ⟨key,item⟩ := field
    have value := newline_not_mem_text item exact.1
    refine List.forall_mem_cons.mpr ⟨?_,newline_not_mem_fieldTexts rest exact.2⟩
    simp [value,Text.newline_not_mem_quote]

end

end Phrasebook.Json
