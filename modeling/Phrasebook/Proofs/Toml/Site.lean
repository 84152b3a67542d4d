import Mathlib.Data.List.TakeWhile
import Phrasebook.Proofs.Toml.Remainder

/-! Where the keys of a document are written: in headers, in front of values, and between braces, each with the keys
before it on its path. A key that is not escaped stands in the text as it is: `verbatim_of_key?`. -/
namespace Phrasebook.Toml

/-- A key as it is written: its path from the root, itself last, and the text from its first character on. -/
structure Site where
  path : List String
  onward : List Char
deriving DecidableEq, Repr

/-- The keys of a dotted key. -/
def keySites : Nat → List String → List Char → List Site
  | 0,_,_ => []
  | fuel + 1,base,text =>
    let text := text.dropWhile isBlank
    match key? text with
    | none => []
    | some (key,rest) =>
      ⟨base ++ [key],text⟩ ::
        match rest.dropWhile isBlank with
        | '.' :: rest => keySites fuel (base ++ [key]) rest
        | _ => []

mutual

/-- The keys in a value that is a table between braces, and in the tables in it. Those in arrays have no path. -/
def valueSites : Nat → Nat → List String → List Char → List Site
  | 0,_,_,_ => []
  | fuel + 1,depth,base,text =>
    match text,depth with
    | '\x7b' :: rest,depth + 1 => memberSites fuel depth base (rest.dropWhile isBlank)
    | _,_ => []

def memberSites : Nat → Nat → List String → List Char → List Site
  | 0,_,_,_ => []
  | fuel + 1,depth,base,text =>
    keySites depthLimit base text ++
      match path? depthLimit [] text with
      | some (path,key,'=' :: rest) =>
        valueSites fuel depth (base ++ (path ++ [key])) (rest.dropWhile isBlank) ++
          match value? fuel depth (rest.dropWhile isBlank) with
          | some (_,rest) =>
            match rest.dropWhile isBlank with
            | ',' :: rest => memberSites fuel depth base rest
            | _ => []
          | none => []
      | _ => []

end

/-- The keys of a header, after its first bracket. -/
def headerSites : List Char → List Site
  | '[' :: text => keySites depthLimit [] text
  | text => keySites depthLimit [] text

/-- The keys in front of a value and in it. -/
def assignmentSites (header : List String) (text : List Char) : List Site :=
  keySites depthLimit header text ++
    match path? depthLimit [] text with
    | some (path,key,'=' :: rest) =>
      valueSites (2 * rest.length + 2) depthLimit (header ++ (path ++ [key])) (rest.dropWhile isBlank)
    | _ => []

/-- The keys of a document, in the order in which they are written. -/
def documentSites : Nat → Draft → List Char → List Site
  | 0,_,_ => []
  | fuel + 1,draft,text =>
    match text.dropWhile isBlank with
    | [] => []
    | '[' :: text =>
      headerSites text ++
        match header? draft text with
        | some (draft,rest) => (finishLine? rest).elim [] (documentSites fuel draft)
        | none => []
    | text =>
      match finishLine? text with
      | some rest => documentSites fuel draft rest
      | none =>
        assignmentSites draft.path text ++
          match assignment? draft text with
          | some (draft,rest) => (finishLine? rest).elim [] (documentSites fuel draft)
          | none => []

/-- What is read of a text: all but a byte order mark at its start. -/
def unmarked : List Char → List Char
  | '\ufeff' :: rest => rest
  | text => text

def sites (text : String) : List Site :=
  documentSites ((unmarked text.toList).length + 1) {} (unmarked text.toList)

theorem suffix_unmarked (text : List Char) : unmarked text <:+ text := by
  unfold unmarked
  split
  · exact List.suffix_cons _ _
  · exact List.suffix_refl _

theorem parse?_eq (text : String) : parse? text =
    (document? ((unmarked text.toList).length + 1) {} (unmarked text.toList)).map (·.fields) := by
  rfl

/-- A site lies in a text, and the last key of its path is read there. -/
def Site.In (site : Site) (text : List Char) : Prop :=
  site.onward <:+ text ∧ ∃ above key rest, site.path = above ++ [key] ∧ key? site.onward = some (key,rest)

section In

variable {text more : List Char} {site : Site}

theorem Site.In.within (inside : site.In more) (shorter : more <:+ text) : site.In text :=
  ⟨inside.1.trans shorter,inside.2⟩

theorem in_of_mem_keySites {fuel : Nat} {base : List String} (member : site ∈ keySites fuel base text) :
    site.In text := by
  induction fuel generalizing base text with
  | zero => cases member
  | succ fuel ih =>
    have trimmed : text.dropWhile isBlank <:+ text := List.dropWhile_suffix _
    simp only [keySites] at member
    split at member
    · cases member
    next key rest read =>
      have shorter : rest.dropWhile isBlank <:+ text :=
        (List.dropWhile_suffix _).trans ((leaves_key? _ _ _ read).trans trimmed)
      rcases List.mem_cons.mp member with rfl | later
      · exact ⟨trimmed,base,key,rest,rfl,read⟩
      · split at later
        next more dotted =>
          rw [dotted] at shorter
          exact (ih later).within ((List.suffix_cons _ _).trans shorter)
        · cases later

mutual

theorem in_of_mem_valueSites {fuel depth : Nat} {base : List String} {text : List Char}
    (member : site ∈ valueSites fuel depth base text) : site.In text := by
  cases fuel with
  | zero => cases member
  | succ fuel =>
    unfold valueSites at member
    split at member
    · exact (in_of_mem_memberSites member).within ((List.dropWhile_suffix _).trans (List.suffix_cons _ _))
    · cases member

theorem in_of_mem_memberSites {fuel depth : Nat} {base : List String} {text : List Char}
    (member : site ∈ memberSites fuel depth base text) : site.In text := by
  cases fuel with
  | zero => cases member
  | succ fuel =>
    unfold memberSites at member
    rcases List.mem_append.mp member with here | later
    · exact in_of_mem_keySites here
    · split at later
      next path key rest read =>
        have valued : rest.dropWhile isBlank <:+ text :=
          (List.dropWhile_suffix _).trans ((List.suffix_cons _ _).trans (suffix_path? read))
        rcases List.mem_append.mp later with inner | further
        · exact (in_of_mem_valueSites inner).within valued
        · split at further
          next item after valueRead =>
            have shorter := (leaves_value? _ _ _ _ _ valueRead).trans valued
            split at further
            next more comma =>
              have blank : ',' :: more <:+ after := comma ▸ List.dropWhile_suffix isBlank
              exact (in_of_mem_memberSites further).within ((List.suffix_cons _ _).trans (blank.trans shorter))
            · cases further
          · cases further
      · cases later

end

theorem in_of_mem_headerSites (member : site ∈ headerSites text) : site.In text := by
  unfold headerSites at member
  split at member
  · exact (in_of_mem_keySites member).within (List.suffix_cons _ _)
  · exact in_of_mem_keySites member

theorem in_of_mem_assignmentSites {header : List String} (member : site ∈ assignmentSites header text) :
    site.In text := by
  rcases List.mem_append.mp member with here | later
  · exact in_of_mem_keySites here
  · split at later
    next path key rest read =>
      have valued : rest.dropWhile isBlank <:+ text :=
        (List.dropWhile_suffix _).trans ((List.suffix_cons _ _).trans (suffix_path? read))
      exact (in_of_mem_valueSites later).within valued
    · cases later

theorem in_of_mem_documentSites {fuel : Nat} {draft : Draft} (member : site ∈ documentSites fuel draft text) :
    site.In text := by
  induction fuel generalizing draft text with
  | zero => cases member
  | succ fuel ih =>
    -- what follows an expression and the end of its line
    have next {draft : Draft} {rest : List Char} (shorter : rest <:+ text)
        (later : site ∈ (finishLine? rest).elim [] (documentSites fuel draft)) : site.In text := by
      cases finished : finishLine? rest with
      | none => rw [finished] at later; cases later
      | some more =>
        rw [finished] at later
        exact (ih later).within ((suffix_finishLine? finished).trans shorter)
    have trimmed : text.dropWhile isBlank <:+ text := List.dropWhile_suffix _
    unfold documentSites at member
    split at member
    · cases member
    next inner opened =>
      have shorter : inner <:+ text := (List.suffix_cons _ _).trans (opened ▸ trimmed)
      rcases List.mem_append.mp member with here | later
      · exact (in_of_mem_headerSites here).within shorter
      · split at later
        next read => exact next ((leaves_header? _ _ _ _ read).trans shorter) later
        · cases later
    · split at member
      next rest finished => exact (ih member).within ((suffix_finishLine? finished).trans trimmed)
      · rcases List.mem_append.mp member with here | later
        · exact (in_of_mem_assignmentSites here).within trimmed
        · split at later
          next read => exact next ((leaves_assignment? _ _ _ _ read).trans trimmed) later
          · cases later

theorem in_of_mem_sites {text : String} (member : site ∈ sites text) : site.In text.toList :=
  (in_of_mem_documentSites member).within (suffix_unmarked _)

end In

/-- A key between double quotes, with a backslash in it. -/
def isEscaped : List Char → Bool
  | '"' :: rest => (rest.takeWhile (· ≠ '"')).contains '\\'
  | _ => false

section Verbatim

variable {text rest : List Char}

/-- Without escapes a string on one line is what stands between its quotes. -/
theorem Quoted.verbatim_of_line {quote : Char} {fuel : Nat} {body : List Char}
    (read : line quote fuel text = some (body,rest)) (plain : quote = '"' → '\\' ∉ text.takeWhile (· ≠ '"')) :
    text = body ++ quote :: rest ∧ ∀ c ∈ body, isPlain c = true := by
  induction fuel generalizing text body with
  | zero => cases read
  | succ fuel ih =>
    cases text with
    | nil => cases read
    | cons c more =>
      rw [line] at read
      split at read
      next closing =>
        cases read
        exact ⟨congrArg (· :: rest) closing,List.forall_mem_nil _⟩
      next other =>
        have further : quote = '"' → '\\' ∉ more.takeWhile (· ≠ '"') := by
          rintro rfl later
          refine plain rfl ?_
          rw [List.takeWhile_cons_of_pos (by simpa using other)]
          exact List.mem_cons_of_mem _ later
        split at read
        next escape =>
          obtain ⟨rfl,rfl⟩ : c = '\\' ∧ quote = '"' := by simpa using escape
          exact absurd (by simp) (plain rfl)
        · split at read
          next character =>
            obtain ⟨⟨tail,after⟩,found,same⟩ := Option.bind_eq_some_iff.mp read
            cases same
            obtain ⟨cut,all⟩ := ih found further
            exact ⟨congrArg (c :: ·) cut,List.forall_mem_cons.mpr ⟨character,all⟩⟩
          · cases read

theorem Quoted.verbatim_of_readLine {quote : Char} {key : String} (read : readLine quote text = some (key,rest))
    (plain : quote = '"' → '\\' ∉ text.takeWhile (· ≠ '"')) :
    text = key.toList ++ quote :: rest ∧ ∀ c ∈ key.toList, isPlain c = true := by
  obtain ⟨⟨body,after⟩,found,same⟩ := Option.map_eq_some_iff.mp read
  cases same
  rw [String.toList_ofList]
  exact verbatim_of_line found plain

/-- A character that ends no line. -/
def Inline (c : Char) : Prop := c ≠ '\n' ∧ c ≠ '\r'
deriving Decidable

theorem inline_of_isPlain {c : Char} (plain : isPlain c = true) : Inline c := by
  constructor <;> (rintro rfl; revert plain; decide)

theorem inline_of_isBareKey {c : Char} (bare : isBareKey c = true) : Inline c := by
  constructor <;> (rintro rfl; revert bare; decide)

/-- A key that is not escaped stands where it is read, after a quote or none, and on one line. -/
theorem verbatim_of_key? {key : String} (read : key? text = some (key,rest)) (plain : isEscaped text = false) :
    ∃ mark after, text = mark ++ key.toList ++ after ∧ mark ++ key.toList ≠ [] ∧
      ∀ c ∈ mark ++ key.toList, Inline c := by
  have quoted {quote : Char} {more : List Char} (mark : Inline quote) (read : Quoted.readLine quote more = some (key,rest))
      (plain : quote = '"' → '\\' ∉ more.takeWhile (· ≠ '"')) :
      ∃ mark after, quote :: more = mark ++ key.toList ++ after ∧ mark ++ key.toList ≠ [] ∧
        ∀ c ∈ mark ++ key.toList, Inline c := by
    obtain ⟨rfl,all⟩ := Quoted.verbatim_of_readLine read plain
    refine ⟨[quote],quote :: rest,by simp,by simp,?_⟩
    exact List.forall_mem_cons.mpr ⟨mark,fun c member => inline_of_isPlain (all c member)⟩
  unfold key? at read
  split at read
  · exact quoted (by decide) read fun _ => by simpa [isEscaped] using plain
  · exact quoted (by decide) read nofun
  · dsimp only at read
    split at read
    · cases read
    next some =>
      cases read
      refine ⟨[],text.dropWhile isBareKey,?_,?_,?_⟩
      · simp
      · simpa using some
      · intro c member
        rw [String.toList_ofList] at member
        exact inline_of_isBareKey (List.mem_takeWhile_imp member)

end Verbatim

end Phrasebook.Toml
