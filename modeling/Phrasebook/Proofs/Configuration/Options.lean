import Mathlib.Data.List.Nodup
import Phrasebook.Options

/-! Options as JSON and back. Present fields stand under their long names, which no short name resembles; so
reading them sets one field after another. That gives the options themselves if their paths are texts, as they are
in all options that come from JSON: `ofJson_toJson_iff`, `textual_of_ofJson`. -/
namespace Phrasebook

theorem Keyed.swapRemove_of_absent {ν : Type} {key : String} {fields : List (String × ν)}
    (absent : ∀ field ∈ fields, field.1 ≠ key) : swapRemove key fields = fields := by
  have nowhere : fields.findIdx? (·.1 = key) = none := by
    rw [List.findIdx?_eq_none_iff]
    intro field member
    exact decide_eq_false (absent field member)
  rw [swapRemove,nowhere]

theorem Except.map_eq_ok_iff {ε α β : Type} {f : α → β} {result : Except ε α} {b : β} :
    result.map f = .ok b ↔ ∃ a, result = .ok a ∧ f a = b := by
  cases result <;> simp [Except.map]

namespace Options

theorem Field.ofKey?_name (field : Field) : ofKey? field.name = some field := by cases field <;> rfl

theorem Field.shortName?_ne (field other : Field) : other.shortName? ≠ some field.name := by
  cases field <;> cases other <;> decide

/-- Values under the long names of their fields. -/
def named (entries : List (Field × Json)) : List (String × Json) := entries.map fun (field,value) => (field.name,value)

/-- Sets fields in order, up to the first bad one. -/
def setAll (options : Options) (entries : List (Field × Json)) : Except Fault Options :=
  entries.foldlM (fun options (field,value) => options.set field value) options

theorem dropShort_named (entries : List (Field × Json)) (field : Field) :
    dropShort (named entries) field = named entries := by
  unfold dropShort
  split
  next short found =>
    have absent : ∀ entry ∈ named entries, entry.1 ≠ short := by
      rw [named,List.forall_mem_map]
      rintro ⟨other,value⟩ _ rfl
      exact Field.shortName?_ne other field found
    rw [Keyed.swapRemove_of_absent absent,ite_self]
  · rfl

/-- With no field twice, reading is setting. -/
theorem ofFields_named {read : List Field} {options : Options} {entries : List (Field × Json)}
    (apart : (read ++ entries.map (·.1)).Nodup) : ofFields read options (named entries) = options.setAll entries := by
  induction entries generalizing read options with
  | nil => rfl
  | cons entry rest ih =>
    obtain ⟨field,value⟩ := entry
    obtain ⟨new,others⟩ := List.nodup_cons.mp (List.nodup_middle.mp apart)
    have unread : ¬read.contains field = true := by
      intro again
      exact new (List.mem_append_left _ (List.contains_iff_mem.mp again))
    have later : (field :: read ++ rest.map (·.1)).Nodup := List.nodup_cons.mpr ⟨new,others⟩
    change ofFields read options ((field.name,value) :: named rest) = _
    rw [ofFields,Field.ofKey?_name,setAll,List.foldlM_cons]
    simp only [if_neg unread]
    cases options.set field value with
    | error fault => rfl
    | ok options => exact ih later

theorem ofJson_named {entries : List (Field × Json)} (apart : (entries.map (·.1)).Nodup) :
    ofJson (.object (named entries)) = setAll {} entries := by
  have kept : Field.all.foldl dropShort (named entries) = named entries := by
    simp only [Field.all,List.foldl_cons,List.foldl_nil,dropShort_named]
  rw [ofJson,kept,ofFields_named (by simpa using apart)]

/-- Paths that are there are texts. -/
structure Textual (options : Options) : Prop where
  localesDirectory : ∀ path ∈ options.localesDirectory, path.text?.isSome
  outputPath : ∀ path ∈ options.outputPath, path.text?.isSome

theorem mapM_text?_eq_some_iff {path : Option Path} {text : Option String} :
    path.mapM Path.text? = some text ↔ path = text.map fun text : String => ⟨text⟩ := by
  cases path with
  | none => cases text <;> simp
  | some path => cases text <;> simp [Path.text?_eq_some_iff]

theorem exists_mapM_text? {path : Option Path} (textual : ∀ p ∈ path, p.text?.isSome) :
    ∃ text, path.mapM Path.text? = some text := by
  cases path with
  | none => exact ⟨none,rfl⟩
  | some path =>
    obtain ⟨text,rfl⟩ := Path.isSome_text?_iff.mp (textual path rfl)
    exact ⟨some text,by simp⟩

theorem textual_of_mapM_text? {path : Option Path} {text : Option String} (read : path.mapM Path.text? = some text) :
    ∀ p ∈ path, p.text?.isSome := by
  rw [mapM_text?_eq_some_iff.mp read]
  cases text <;> simp

theorem isSome_fields?_iff {options : Options} : options.fields?.isSome ↔ options.Textual := by
  constructor
  · intro written
    obtain ⟨fields,written⟩ := Option.isSome_iff_exists.mp written
    simp only [fields?,Option.bind_eq_bind,Option.bind_eq_some_iff] at written
    obtain ⟨_,locales,_,output,-⟩ := written
    exact ⟨textual_of_mapM_text? locales,textual_of_mapM_text? output⟩
  · intro textual
    obtain ⟨_,locales⟩ := exists_mapM_text? textual.localesDirectory
    obtain ⟨_,output⟩ := exists_mapM_text? textual.outputPath
    simp [fields?,locales,output]

instance (options : Options) : Decidable options.Textual := decidable_of_iff _ isSome_fields?_iff

theorem toJson_of_not_textual {options : Options} (stray : ¬options.Textual) : options.toJson = .null := by
  rw [toJson,Option.not_isSome_iff_eq_none.mp (mt isSome_fields?_iff.mp stray)]
  rfl

/-- A value that is set is a text or no path. -/
theorem Textual.set {options after : Options} {field : Field} {json : Json} (textual : options.Textual)
    (set : options.set field json = .ok after) : after.Textual := by
  have path {path : Option Path} (read : path? json = .ok path) : ∀ p ∈ path, p.text?.isSome := by
    cases json <;> cases read <;> simp
  cases field with
  | moduleName | lazy | defaultLocale =>
    obtain ⟨_,-,rfl⟩ := Except.map_eq_ok_iff.mp set
    exact ⟨textual.localesDirectory,textual.outputPath⟩
  | localesDirectory =>
    obtain ⟨_,read,rfl⟩ := Except.map_eq_ok_iff.mp set
    exact ⟨path read,textual.outputPath⟩
  | outputPath =>
    obtain ⟨_,read,rfl⟩ := Except.map_eq_ok_iff.mp set
    exact ⟨textual.localesDirectory,path read⟩

/-- A path as JSON, where it is no text as null. -/
def pathValue (path : Path) : Json := (path.text?.map .string).getD .null

@[simp] theorem pathValue_mk (text : String) : pathValue ⟨text⟩ = .string text := by simp [pathValue]

/-- The value of a field as JSON, if it has one. -/
def value? (options : Options) : Field → Option Json
  | .moduleName => options.moduleName.map .string
  | .localesDirectory => options.localesDirectory.map pathValue
  | .outputPath => options.outputPath.map pathValue
  | .lazy => options.lazy.map .bool
  | .defaultLocale => options.defaultLocale.map .string

/-- A field with its value, if there is one. -/
def entry (field : Field) (value : Option Json) : List (Field × Json) := (value.map fun v => (field,v)).toList

/-- The fields that are present. -/
def present (options : Options) : List (Field × Json) :=
  entry .moduleName (options.value? .moduleName) ++
  (entry .localesDirectory (options.value? .localesDirectory) ++
  (entry .outputPath (options.value? .outputPath) ++
  (entry .lazy (options.value? .lazy) ++
  entry .defaultLocale (options.value? .defaultLocale))))

theorem map_pathValue {path : Option Path} {text : Option String} (read : path.mapM Path.text? = some text) :
    path.map pathValue = text.map .string := by
  rw [mapM_text?_eq_some_iff.mp read]
  cases text <;> simp

theorem toJson_eq {options : Options} (textual : options.Textual) : options.toJson = .object (named options.present) := by
  have one (field : Field) (value : Option Json) :
      named (entry field value) = (value.map fun v => (field.name,v)).toList := by
    cases value <;> rfl
  have append (front back : List (Field × Json)) : named (front ++ back) = named front ++ named back := List.map_append
  obtain ⟨_,locales⟩ := exists_mapM_text? textual.localesDirectory
  obtain ⟨_,output⟩ := exists_mapM_text? textual.outputPath
  simp [toJson,fields?,locales,output,present,append,one,value?,map_pathValue locales,map_pathValue output,Field.name]

/-- Present fields are in the order of all fields. -/
theorem present_order (options : Options) : (options.present.map (·.1)).Sublist Field.all := by
  have one (field : Field) (value : Option Json) : ((entry field value).map (·.1)).Sublist [field] := by
    cases value with
    | none => exact List.nil_sublist _
    | some value => exact List.Sublist.refl _
  simp only [present,List.map_append]
  exact (one ..).append ((one ..).append ((one ..).append ((one ..).append (one ..))))

theorem nodup_present (options : Options) : (options.present.map (·.1)).Nodup :=
  options.present_order.nodup (by decide)

theorem setAll_append {options middle : Options} {front : List (Field × Json)}
    (first : options.setAll front = .ok middle) (back : List (Field × Json)) :
    options.setAll (front ++ back) = middle.setAll back := by
  rw [setAll] at first ⊢
  rw [List.foldlM_append,first]
  rfl

theorem setAll_present {options : Options} (textual : options.Textual) : setAll {} options.present = .ok options := by
  obtain ⟨moduleName,locales,output,isLazy,locale⟩ := options
  have first : setAll {} (entry .moduleName (moduleName.map .string)) = .ok ⟨moduleName,none,none,none,none⟩ := by
    cases moduleName <;> rfl
  have second : setAll ⟨moduleName,none,none,none,none⟩ (entry .localesDirectory (locales.map pathValue)) =
      .ok ⟨moduleName,locales,none,none,none⟩ := by
    cases locales with
    | none => rfl
    | some path =>
      obtain ⟨text,rfl⟩ := Path.isSome_text?_iff.mp (textual.localesDirectory path rfl)
      rw [Option.map_some,pathValue_mk]
      rfl
  have third : setAll ⟨moduleName,locales,none,none,none⟩ (entry .outputPath (output.map pathValue)) =
      .ok ⟨moduleName,locales,output,none,none⟩ := by
    cases output with
    | none => rfl
    | some path =>
      obtain ⟨text,rfl⟩ := Path.isSome_text?_iff.mp (textual.outputPath path rfl)
      rw [Option.map_some,pathValue_mk]
      rfl
  have fourth : setAll ⟨moduleName,locales,output,none,none⟩ (entry .lazy (isLazy.map .bool)) =
      .ok ⟨moduleName,locales,output,isLazy,none⟩ := by
    cases isLazy <;> rfl
  have fifth : setAll ⟨moduleName,locales,output,isLazy,none⟩ (entry .defaultLocale (locale.map .string)) =
      .ok ⟨moduleName,locales,output,isLazy,locale⟩ := by
    cases locale <;> rfl
  simp only [present,value?]
  rw [setAll_append first,setAll_append second,setAll_append third,setAll_append fourth,fifth]

/-- Options are what their JSON says. -/
theorem ofJson_toJson {options : Options} (textual : options.Textual) : ofJson options.toJson = .ok options := by
  rw [toJson_eq textual,ofJson_named options.nodup_present,setAll_present textual]

theorem textual_empty : Textual {} := ⟨by simp,by simp⟩

/-- All that is left of other options are the ones that nothing was said about. -/
theorem ofJson_toJson_iff {options : Options} : ofJson options.toJson = .ok options ↔ options.Textual := by
  constructor
  · intro kept
    refine Decidable.byContradiction fun stray => ?_
    rw [toJson_of_not_textual stray] at kept
    obtain rfl : {} = options := Except.ok.inj kept
    exact stray textual_empty
  · exact ofJson_toJson

theorem Textual.ofFields {read : List Field} {options after : Options} {fields : List (String × Json)}
    (textual : options.Textual) (run : ofFields read options fields = .ok after) : after.Textual := by
  induction fields generalizing read options with
  | nil =>
    cases run
    exact textual
  | cons entry rest ih =>
    obtain ⟨key,json⟩ := entry
    rw [Options.ofFields] at run
    split at run
    · exact ih textual run
    next field _ =>
      split at run
      · cases run
      · cases set : options.set field json with
        | error fault => rw [set] at run; cases run
        | ok middle =>
          rw [set] at run
          exact ih (textual.set set) run

theorem Textual.ofItems {options after : Options} {fields : List Field} {items : List Json} (textual : options.Textual)
    (run : ofItems options fields items = .ok after) : after.Textual := by
  induction fields generalizing options items with
  | nil =>
    cases run
    exact textual
  | cons field rest ih =>
    cases items with
    | nil =>
      cases run
      exact textual
    | cons json items =>
      rw [Options.ofItems] at run
      cases set : options.set field json with
      | error fault => rw [set] at run; cases run
      | ok middle =>
        rw [set] at run
        exact ih (textual.set set) run

/-- No position is surplus. -/
theorem ofJson_array_eq_ok {items : List Json} {options : Options} (read : ofJson (.array items) = .ok options) :
    Options.ofItems {} Field.all items = .ok options ∧ items.length ≤ Field.all.length := by
  rw [ofJson] at read
  cases run : Options.ofItems {} Field.all items with
  | error fault => rw [run] at read; cases read
  | ok found =>
    rw [run] at read
    change (if Field.all.length < items.length then _ else _) = _ at read
    split at read
    · cases read
    next fits =>
      cases read
      exact ⟨rfl,Nat.not_lt.mp fits⟩

/-- JSON holds nothing but texts. -/
theorem textual_of_ofJson {json : Json} {options : Options} (read : ofJson json = .ok options) : options.Textual := by
  cases json with
  | null =>
    cases read
    exact textual_empty
  | object fields => exact textual_empty.ofFields read
  | array items => exact textual_empty.ofItems (ofJson_array_eq_ok read).1
  | bool _ | integer _ | float _ | string _ => cases read

end Options
end Phrasebook
