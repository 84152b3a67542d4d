import Mathlib.Data.List.Basic
import Phrasebook.Project.Reader
import Phrasebook.Proofs.Text.Lines
import Phrasebook.Proofs.Toml.Presence

/-! Where the warnings about unknown keys point: to the first line that has the characters of the key, wherever they
stand in it. That is a line of the key itself only if no line above it has them: `unknown_line_iff`. -/
namespace Phrasebook.Project

open Toml (Value)

/-- A line of the text, counted from one, has the characters of a key. -/
def Mentions (text key : String) (n : Nat) : Prop :=
  ∃ i line, n = i + 1 ∧ (Text.lines text)[i]? = some line ∧ key.toList <:+: line.toList

/-- The key at the end of the path is written on this line, in a header, before a value or between braces. -/
def WrittenOn (text : String) (path : List String) (n : Nat) : Prop :=
  ∃ site ∈ Toml.sites text, site.path = path ∧ Text.lineAt text.toList site.onward = n

instance (text : String) (path : List String) (n : Nat) : Decidable (WrittenOn text path n) :=
  inferInstanceAs (Decidable (∃ site ∈ Toml.sites text, site.path = path ∧ Text.lineAt text.toList site.onward = n))

/-- The paths of the unknown keys of a document. -/
def unknownPaths (fields : List (String × Value)) : List (List String) :=
  fields.flatMap fun (key,value) =>
    if key = "plugin" then (unknownIn Plugin.keys value).map fun inner => [key,inner]
    else if key = "logging" then (unknownIn Logging.keys value).map fun inner => [key,inner]
    else [[key]]

/-- What is said of an unknown key. -/
def warning (text : String) (file : Path) (path : List String) : Unknown := .of text file (path.getLastD "")

variable {text key : String} {path : List String} {n : Nat} {fields : List (String × Value)}

theorem Unknown.occursIn_iff {part text : List Char} : occursIn part text = true ↔ part <:+: text := by
  induction text with
  | nil => simp [occursIn]
  | cons c rest ih => rw [occursIn,Bool.or_eq_true,ih,List.isPrefixOf_iff_prefix,List.infix_cons_iff]

theorem mentions_succ_iff : Mentions text key (n + 1) ↔
    ∃ line, (Text.lines text)[n]? = some line ∧ Unknown.occursIn key.toList line.toList = true := by
  constructor
  · rintro ⟨i,line,same,found,inside⟩
    obtain rfl := Nat.succ.inj same
    exact ⟨line,found,Unknown.occursIn_iff.mpr inside⟩
  · rintro ⟨line,found,occurs⟩
    exact ⟨n,line,rfl,found,Unknown.occursIn_iff.mp occurs⟩

theorem not_mentions_zero : ¬Mentions text key 0 := by
  rintro ⟨i,line,same,-⟩
  cases same

/-- The first line with the characters of the key. -/
theorem findLine?_eq_some_iff :
    Unknown.findLine? text key = some n ↔ Mentions text key n ∧ ∀ m < n, ¬Mentions text key m := by
  rw [Unknown.findLine?,Option.map_eq_some_iff]
  simp only [List.findIdx?_eq_some_iff_getElem]
  constructor
  · rintro ⟨i,⟨bound,occurs,first⟩,rfl⟩
    refine ⟨mentions_succ_iff.mpr ⟨_,List.getElem?_eq_getElem bound,occurs⟩,fun m earlier mentions => ?_⟩
    cases m with
    | zero => exact not_mentions_zero mentions
    | succ j =>
      obtain ⟨line,found,occurs⟩ := mentions_succ_iff.mp mentions
      obtain ⟨inside,rfl⟩ := List.getElem?_eq_some_iff.mp found
      exact first j (by omega) occurs
  · rintro ⟨mentions,first⟩
    cases n with
    | zero => exact absurd mentions not_mentions_zero
    | succ i =>
      obtain ⟨line,found,occurs⟩ := mentions_succ_iff.mp mentions
      obtain ⟨bound,rfl⟩ := List.getElem?_eq_some_iff.mp found
      refine ⟨i,⟨bound,occurs,fun j earlier occurs => ?_⟩,rfl⟩
      exact first (j + 1) (by omega) (mentions_succ_iff.mpr ⟨_,List.getElem?_eq_getElem (by omega),occurs⟩)

/-- Some line is found if any has the characters of the key. -/
theorem findLine?_of_mentions (mentions : Mentions text key n) : ∃ first ≤ n, Unknown.findLine? text key = some first := by
  cases search : Unknown.findLine? text key with
  | none =>
    obtain ⟨i,line,rfl,found,inside⟩ := mentions
    have nowhere := List.findIdx?_eq_none_iff.mp (Option.map_eq_none_iff.mp search)
    have here := nowhere line (List.mem_of_getElem? found)
    rw [Unknown.occursIn_iff.mpr inside] at here
    cases here
  | some first =>
    refine ⟨first,?_,rfl⟩
    by_contra later
    exact (findLine?_eq_some_iff.mp search).2 n (by omega) mentions

theorem warnings_eq {file : Path} :
    (unknownKeys fields).map (Unknown.of text file) = (unknownPaths fields).map (warning text file) := by
  rw [unknownKeys,unknownPaths,List.map_flatMap,List.map_flatMap]
  refine List.flatMap_congr fun field _ => ?_
  obtain ⟨key,value⟩ := field
  dsimp only
  split
  · simp [warning,Function.comp_def]
  · split <;> simp [warning,Function.comp_def]

theorem mem_unknownIn {known : List String} {value : Value} (member : key ∈ unknownIn known value) :
    value.Has [key] ∨ key = Value.momentKey ∧ ∃ moment, value = .moment moment := by
  obtain ⟨field,inside,rfl⟩ := List.mem_map.mp (List.mem_filter.mp member).1
  cases value with
  | table origin fields => exact .inl ⟨origin,fields,rfl,.here inside⟩
  | moment moment =>
    obtain rfl : field = (Value.momentKey,.string moment.text) := by simpa [Value.fields?] using inside
    exact .inr ⟨rfl,moment,rfl⟩
  | string | bool | number | array | tables => cases inside

/-- An unknown key is one of the document, or the one under which a moment holds its text. -/
theorem has_of_mem_unknownPaths (member : path ∈ unknownPaths fields) : Toml.Has fields path ∨
    ∃ name moment, path = [name,Value.momentKey] ∧ (name,.moment moment) ∈ fields := by
  obtain ⟨⟨key,value⟩,field,inside⟩ := List.mem_flatMap.mp member
  have inner {known : List String}
      (inside : path ∈ (unknownIn known value).map fun inner => [key,inner]) : Toml.Has fields path ∨
      ∃ name moment, path = [name,Value.momentKey] ∧ (name,.moment moment) ∈ fields := by
    obtain ⟨inner,unknown,rfl⟩ := List.mem_map.mp inside
    rcases mem_unknownIn unknown with ⟨origin,below,rfl,has⟩ | ⟨rfl,moment,rfl⟩
    · exact .inl (.inside field has)
    · exact .inr ⟨key,moment,rfl,field⟩
  dsimp only at inside
  split at inside
  · exact inner inside
  · split at inside
    · exact inner inside
    · obtain rfl := List.mem_singleton.mp inside
      exact .inl (.here field)

/-- What follows the last dot ends the key. -/
theorem suffix_key (file : Path) (above : List String) (key : String) :
    (warning text file (above ++ [key])).key.toList <:+ key.toList := by
  have last (parts : List (List Char)) : parts.getLastD [] <:+ Text.joined '.' parts := by
    induction parts with
    | nil => exact List.suffix_refl _
    | cons part rest ih =>
      cases rest with
      | nil => exact List.suffix_refl _
      | cons next rest => exact ih.trans ((List.suffix_cons '.' _).trans (List.suffix_append part _))
  have piece := last (Text.pieces '.' key.toList)
  rw [Text.joined_pieces] at piece
  have same : (warning text file (above ++ [key])).key.toList = (Text.pieces '.' key.toList).getLastD [] := by
    obtain none | ⟨front,piece,cut⟩ := List.eq_nil_or_concat (Text.pieces '.' key.toList)
    · exact absurd none (Text.pieces_ne_nil '.' key.toList)
    · simp [warning,Unknown.of,Text.split,cut]
  rw [same]
  exact piece

/-- Where a key is written without escapes, its line has its characters. -/
theorem mentions_of_site {site : Toml.Site} {file : Path} (member : site ∈ Toml.sites text)
    (plain : Toml.isEscaped site.onward = false) :
    Mentions text (warning text file site.path).key (Text.lineAt text.toList site.onward) := by
  obtain ⟨⟨before,cut⟩,above,key,rest,named,read⟩ := Toml.in_of_mem_sites member
  obtain ⟨mark,after,onward,some,inline⟩ := Toml.verbatim_of_key? read plain
  have piece : (warning text file site.path).key.toList <:+: mark ++ key.toList := by
    rw [named]
    exact ((suffix_key file above key).trans (List.suffix_append mark _)).isInfix
  have cut' : text.toList = before ++ (mark ++ key.toList ++ after) := by rw [← cut,onward]
  obtain ⟨line,found,inside⟩ := Text.line_of_cut cut' some (fun feed => (inline _ feed).1 rfl) fun ret => (inline _ ret).2 rfl
  rw [← cut,Text.lineAt_append]
  exact ⟨_,line,rfl,found,piece.trans inside⟩

/-- The key is nowhere written with escapes. -/
def Unescaped (text : String) (path : List String) : Prop :=
  ∀ site ∈ Toml.sites text, site.path = path → Toml.isEscaped site.onward = false

instance (text : String) (path : List String) : Decidable (Unescaped text path) :=
  inferInstanceAs (Decidable (∀ site ∈ Toml.sites text, site.path = path → Toml.isEscaped site.onward = false))

/-- A line above all those on which the key is written. -/
def Above (text : String) (path : List String) (m : Nat) : Prop := ∀ n, WrittenOn text path n → m < n

/-- There is a warning for each unknown key of the document, which is written in it unless it is the one under which
a moment holds its text. The reported line is the key's own exactly if the first line that has its characters is. For
a key without escapes a line is reported, no later than the first of its own, and it is its own exactly if no line
above them has its characters. -/
theorem unknown_line_iff {text : String} {file : Path} {project : Project} {unknowns : List Unknown}
    (read : parse? text file = some (project,unknowns)) :
    ∃ fields, Toml.parse? text = some fields ∧ unknowns = (unknownPaths fields).map (warning text file) ∧
      ∀ path ∈ unknownPaths fields,
        ((∃ n, WrittenOn text path n) ∨
          ∃ name moment, path = [name,Value.momentKey] ∧ (name,.moment moment) ∈ fields) ∧
        ((∃ n, (warning text file path).line = some n ∧ WrittenOn text path n) ↔
          ∃ n, WrittenOn text path n ∧ Mentions text (warning text file path).key n ∧
            ∀ m < n, ¬Mentions text (warning text file path).key m) ∧
        (Unescaped text path → (∃ n, WrittenOn text path n) →
          ∃ n, (warning text file path).line = some n ∧ (∀ k, WrittenOn text path k → n ≤ k) ∧
            (WrittenOn text path n ↔ ∀ m, Above text path m → ¬Mentions text (warning text file path).key m)) := by
  obtain ⟨fields,document,read⟩ := Option.bind_eq_some_iff.mp read
  obtain ⟨settled,-,same⟩ := Option.bind_eq_some_iff.mp read
  cases same
  refine ⟨fields,document,warnings_eq,fun path member => ⟨?_,?_,fun plain written => ?_⟩⟩
  · refine (has_of_mem_unknownPaths member).imp_left fun has => ?_
    obtain ⟨site,member,same⟩ := Toml.shown_sites document has
    exact ⟨_,site,member,same,rfl⟩
  · constructor
    · rintro ⟨n,line,written⟩
      exact ⟨n,written,findLine?_eq_some_iff.mp line⟩
    · rintro ⟨n,written,first⟩
      exact ⟨n,findLine?_eq_some_iff.mpr first,written⟩
  · have mentions {n : Nat} (written : WrittenOn text path n) : Mentions text (warning text file path).key n := by
      obtain ⟨site,inside,rfl,rfl⟩ := written
      exact mentions_of_site inside (plain site inside rfl)
    obtain ⟨k,written⟩ := written
    obtain ⟨n,-,line⟩ := findLine?_of_mentions (mentions written)
    obtain ⟨here,first⟩ := findLine?_eq_some_iff.mp line
    have early {k : Nat} (written : WrittenOn text path k) : n ≤ k := by
      by_contra later
      exact first k (by omega) (mentions written)
    refine ⟨n,line,fun k => early,fun own m above => first m (above n own),fun none => ?_⟩
    by_contra other
    refine none n (fun k written => ?_) here
    exact Nat.lt_of_le_of_ne (early written) fun same => other (same ▸ written)

/-- A misspelled key below a known one. -/
def misspelled : String := "[plugin]\nmodule_name = \"i18n\"\nouptut = \"src/i18n.d.ts\"\n"

theorem misspelled_located :
    parse? misspelled ⟨"localetypes.toml"⟩ =
      some (⟨{moduleName := some "i18n"},{}⟩,[⟨"ouptut",⟨"localetypes.toml"⟩,some 3,some "output"⟩]) ∧
    Unescaped misspelled ["plugin","ouptut"] ∧ WrittenOn misspelled ["plugin","ouptut"] 3 ∧
    ∀ m, Above misspelled ["plugin","ouptut"] m → ¬Mentions misspelled "ouptut" m := by
  have read : parse? misspelled ⟨"localetypes.toml"⟩ =
      some (⟨{moduleName := some "i18n"},{}⟩,[⟨"ouptut",⟨"localetypes.toml"⟩,some 3,some "output"⟩]) := by decide +kernel
  have plain : Unescaped misspelled ["plugin","ouptut"] := by decide +kernel
  have written : WrittenOn misspelled ["plugin","ouptut"] 3 := by decide +kernel
  have paths : (Toml.parse? misspelled).map unknownPaths = some [["plugin","ouptut"]] := by decide +kernel
  obtain ⟨fields,document,-,located⟩ := unknown_line_iff read
  rw [document] at paths
  have member : ["plugin","ouptut"] ∈ unknownPaths fields := by rw [Option.some.inj paths]; exact List.mem_singleton_self _
  obtain ⟨-,-,first⟩ := located _ member
  obtain ⟨n,line,early,own⟩ := first plain ⟨3,written⟩
  have third : (warning misspelled ⟨"localetypes.toml"⟩ ["plugin","ouptut"]).line = some 3 := by decide +kernel
  obtain rfl : n = 3 := Option.some.inj (line.symm.trans third)
  exact ⟨read,plain,written,own.mp written⟩

/-- A comment that tells of the key is taken for it. -/
theorem commented_misplaced :
    parse? "# the ouptut below is misspelled\n[plugin]\nouptut = \"src/i18n.d.ts\"\n" ⟨"localetypes.toml"⟩ =
      some ({},[⟨"ouptut",⟨"localetypes.toml"⟩,some 1,some "output"⟩]) ∧
    ¬WrittenOn "# the ouptut below is misspelled\n[plugin]\nouptut = \"src/i18n.d.ts\"\n" ["plugin","ouptut"] 1 ∧
    WrittenOn "# the ouptut below is misspelled\n[plugin]\nouptut = \"src/i18n.d.ts\"\n" ["plugin","ouptut"] 3 := by
  decide +kernel

end Phrasebook.Project
