import Phrasebook.CommandLine.Run
import Phrasebook.Proofs.Configuration.Decoding
import Phrasebook.Proofs.Configuration.Project
import Phrasebook.Proofs.Json.Reading

/-! What options are written as, if their paths are texts: an object of the fields that they have, in the order of the
fields and under long names. Each options are written in one such way and each such object is what some options are
written as, whatever shape they were read from: `toJson_normal`. -/
namespace Phrasebook

namespace Options

/-- Fields in their order, each with a value of its type. -/
structure Ordered (entries : List (Field × Json)) : Prop where
  order : (entries.map (·.1)).Sublist Field.all
  typed : ∀ entry ∈ entries, entry.1.accepts entry.2 = true
  given : ∀ entry ∈ entries, entry.2 ≠ .null

/-- The JSON of options. -/
def Normal (json : Json) : Prop := ∃ entries, Ordered entries ∧ json = .object (named entries)

/-- The text that is written for the options that a text holds. -/
def rewritten? (text : String) : Option String := do
  let json ← Json.parse? text
  let options ← (ofJson json).toOption
  some options.toJson.text

variable {options : Options} {json : Json} {entries : List (Field × Json)}

theorem mem_present {field : Field} : (field,json) ∈ options.present ↔ options.value? field = some json := by
  have one (other : Field) (value : Option Json) :
      (field,json) ∈ entry other value ↔ other = field ∧ value = some json := by
    cases value <;> simp [entry,eq_comm]
  simp only [present,List.mem_append,one]
  cases field <;> simp [value?]

/-- A field that has a value has one of its type. -/
theorem accepts_of_value? (textual : options.Textual) {field : Field} (has : options.value? field = some json) :
    field.accepts json = true ∧ json ≠ .null := by
  cases field <;> simp only [value?,Option.map_eq_some_iff] at has
  case localesDirectory =>
    obtain ⟨path,there,rfl⟩ := has
    obtain ⟨text,rfl⟩ := Path.isSome_text?_iff.mp (textual.localesDirectory path there)
    exact ⟨by simp [Field.accepts],by simp⟩
  case outputPath =>
    obtain ⟨path,there,rfl⟩ := has
    obtain ⟨text,rfl⟩ := Path.isSome_text?_iff.mp (textual.outputPath path there)
    exact ⟨by simp [Field.accepts],by simp⟩
  all_goals
    obtain ⟨_,_,rfl⟩ := has
    exact ⟨rfl,by simp⟩

theorem noNull_of_ne (given : json ≠ .null) : noNull json = some json := by
  cases json with
  | null => exact absurd rfl given
  | _ => rfl

theorem Textual.present_ordered (textual : options.Textual) : Ordered options.present where
  order := options.present_order
  typed _ member := (accepts_of_value? textual (mem_present.mp member)).1
  given _ member := (accepts_of_value? textual (mem_present.mp member)).2

theorem Field.name_injective : Function.Injective name := by
  intro a b same
  rw [← Option.some_inj,← ofKey?_name a,same,ofKey?_name]

/-- Where a field stands among all fields. -/
def Field.place (field : Field) : Nat := all.idxOf field

namespace Ordered

theorem pairwise (ordered : Ordered entries) : entries.Pairwise fun a b => a.1.place < b.1.place := by
  have all : Field.all.Pairwise fun a b => a.place < b.place := by decide
  have keys := all.sublist ordered.order
  rwa [List.pairwise_map] at keys

theorem apart (ordered : Ordered entries) : (entries.map (·.1)).Nodup := ordered.order.nodup (by decide)

/-- The order leaves no choice. -/
theorem ext {others : List (Field × Json)} (ordered : Ordered entries) (ordered' : Ordered others)
    (same : ∀ field json, (field,json) ∈ entries ↔ (field,json) ∈ others) : entries = others := by
  have perm : entries.Perm others :=
    (List.perm_ext_iff_of_nodup (.of_map _ ordered.apart) (.of_map _ ordered'.apart)).mpr fun entry => same entry.1 entry.2
  exact perm.eq_of_pairwise (fun _ _ _ _ before after => absurd before (Nat.lt_asymm after)) ordered.pairwise
    ordered'.pairwise

/-- Ordered fields are those of some options, which are read from them. -/
theorem exists_present (ordered : Ordered entries) :
    ∃ options, ofJson (.object (named entries)) = .ok options ∧ options.present = entries := by
  obtain ⟨options,run,values,others⟩ := setAll_of_accepts {} ordered.apart ordered.typed
  have read : ofJson (.object (named entries)) = .ok options := by rw [ofJson_named ordered.apart,run]
  refine ⟨options,read,(textual_of_ofJson read).present_ordered.ext ordered fun field json => ?_⟩
  rw [mem_present]
  constructor
  · intro has
    have inside : field ∈ entries.map (·.1) := by
      apply Decidable.byContradiction
      intro absent
      rw [others field absent] at has
      cases field <;> cases has
    obtain ⟨entry,member,rfl⟩ := List.mem_map.mp inside
    rw [values _ member,noNull_of_ne (ordered.given _ member)] at has
    cases has
    exact member
  · intro member
    rw [values _ member,noNull_of_ne (ordered.given _ member)]

theorem exact (ordered : Ordered entries) : Json.Exact (.object (named entries)) := by
  constructor
  · have keys : (named entries).map Prod.fst = (entries.map (·.1)).map Field.name := by simp [named]
    rw [keys]
    exact ordered.apart.map Field.name_injective
  · have typed := ordered.typed
    clear ordered
    induction entries with
    | nil => trivial
    | cons entry rest ih =>
      obtain ⟨field,json⟩ := entry
      obtain ⟨here,others⟩ := List.forall_mem_cons.mp typed
      refine ⟨?_,ih others⟩
      cases field <;> cases json <;> trivial

end Ordered

/-- A normal form is that of the options that are read from it. -/
theorem Normal.toJson_eq (normal : Normal json) : ∃ options, ofJson json = .ok options ∧ options.toJson = json := by
  obtain ⟨entries,ordered,rfl⟩ := normal
  obtain ⟨options,run,same⟩ := ordered.exists_present
  exact ⟨options,run,by rw [Options.toJson_eq (textual_of_ofJson run),same]⟩

namespace Textual

variable (textual : options.Textual)

include textual

theorem toJson_isNormal : Normal options.toJson := ⟨_,textual.present_ordered,toJson_eq textual⟩

theorem parse?_toJson : Json.parse? options.toJson.text = some options.toJson := by
  rw [toJson_eq textual]
  exact Json.parse?_text textual.present_ordered.exact

theorem rewritten?_toJson : rewritten? options.toJson.text = some options.toJson.text := by
  rw [rewritten?,textual.parse?_toJson,Option.bind_eq_bind,Option.bind_some,ofJson_toJson textual]
  rfl

end Textual

end Options

namespace CommandLine

variable (located : Located) (console : Console) (disk : Disk)

/-- A session starts with the options of the project if they are usable, and without any otherwise. -/
theorem start_config : ∃ w, start located console disk = some w ∧
    (w.session 0).config = (located.check disk).toOption := by
  have checked : Config.check located.options ((some 0).map (world console.resolver disk).host) =
      located.check disk := rfl
  have fresh : ((world console.resolver disk).session 0).phase ≠ .disposed := nofun
  rw [start,Environment.create,if_neg fresh]
  simp only [checked]
  cases located.check disk with
  | error rejection => exact ⟨_,rfl,rfl⟩
  | ok config => exact ⟨_,rfl,rfl⟩

/-- The session gets what is usable of the options of the project. -/
theorem start_usable (textual : (located.project.plugin.options located.root).Textual) :
    ∃ w, start located console disk = some w ∧ ∀ config, (w.session 0).config = some config ↔
      (located.project.plugin.options located.root).Usable ({disk := disk} : DiskHost) config := by
  obtain ⟨w,started,adopted⟩ := start_config located console disk
  refine ⟨w,started,fun config => ?_⟩
  rw [adopted,← Config.check_ok_iff (Options.ofJson_toJson textual)]
  change (located.check disk).toOption = some config ↔ located.check disk = .ok config
  cases located.check disk with
  | error rejection => exact iff_of_false nofun nofun
  | ok config' => simp [Except.toOption]

/-- What was found on a disk was read from a text. -/
theorem Located.textual_of_find {located : Located} {disk : Disk} {config : Option Path}
    (found : find disk config = .ok located) (based : located.root.text?.isSome) :
    (located.project.plugin.options located.root).Textual := by
  rw [find] at found
  split at found
  · cases found
  next file _ =>
    split at found
    next project unknown loaded =>
      cases found
      rw [Project.load] at loaded
      split at loaded
      · cases loaded
      next text _ =>
        split at loaded
        next parsed =>
          cases loaded
          exact Project.Plugin.textual_options (Project.textual_of_parse? parsed) based
        · cases loaded
    · cases found

end CommandLine

namespace Options

/-- What the JSON of options is like that were read from some JSON. -/
structure Settled (json : Json) (options : Options) : Prop where
  shape : json = .null ∨ (∃ fields, json = .object fields) ∨ ∃ items, json = .array items ∧ items.length ≤ Field.all.length
  normal : Normal options.toJson
  again : ofJson options.toJson = .ok options
  /-- No other normal form is read as these options. -/
  only : ∀ other, Normal other → ofJson other = .ok options → other = options.toJson
  text : Json.parse? options.toJson.text = some options.toJson

theorem settled (read : ofJson json = .ok options) : Settled json options where
  shape := by
    cases json with
    | null => exact .inl rfl
    | object fields => exact .inr (.inl ⟨fields,rfl⟩)
    | array items => exact .inr (.inr ⟨items,rfl,(ofJson_array_eq_ok read).2⟩)
    | bool _ | integer _ | float _ | string _ => cases read
  normal := (textual_of_ofJson read).toJson_isNormal
  again := ofJson_toJson (textual_of_ofJson read)
  only other normal found := by
    obtain ⟨options',found',same⟩ := normal.toJson_eq
    cases found.symm.trans found'
    exact same.symm
  text := (textual_of_ofJson read).parse?_toJson

/-- Options whose paths are texts are what their JSON says, and other options say nothing. The JSON is a normal form
whatever they were read from, and rewriting a text once is rewriting it for good. So the options of a project come to
a session as they are, if they start at a directory whose path is a text. -/
theorem toJson_normal : (∀ options : Options, ofJson options.toJson = .ok options ↔ options.Textual) ∧
    (∀ options : Options, ¬options.Textual → options.toJson = .null ∧ ofJson options.toJson = .ok {}) ∧
    (∀ json options, ofJson json = .ok options → Settled json options) ∧
    (∀ text text', rewritten? text = some text' → rewritten? text' = some text') ∧
    (∀ (plugin : Project.Plugin) (base : Path) (σ : Type) [Host σ] (host : σ) (config : Config),
      (plugin.options base).Textual → (Config.check (plugin.options base).toJson (some host) = .ok config ↔
        (plugin.options base).Usable host config)) ∧
    (∀ (located : CommandLine.Located) (console : CommandLine.Console) (disk : Disk),
      (located.project.plugin.options located.root).Textual →
        ofJson located.options = .ok (located.project.plugin.options located.root) ∧
        ∃ w, CommandLine.start located console disk = some w ∧ ∀ config, (w.session 0).config = some config ↔
          (located.project.plugin.options located.root).Usable ({disk := disk} : DiskHost) config) ∧
    ∀ (disk : Disk) (config : Option Path) (located : CommandLine.Located),
      CommandLine.Located.find disk config = .ok located → located.root.text?.isSome →
        (located.project.plugin.options located.root).Textual := by
  refine ⟨fun _ => ofJson_toJson_iff,fun options stray => ?_,fun _ _ => settled,fun text text' run => ?_,
    fun plugin base σ _ host config textual => Config.check_ok_iff (ofJson_toJson textual) host config,
    fun located console disk textual => ⟨ofJson_toJson textual,CommandLine.start_usable located console disk textual⟩,
    fun _ _ _ => CommandLine.Located.textual_of_find⟩
  · rw [toJson_of_not_textual stray]
    exact ⟨rfl,rfl⟩
  · simp only [rewritten?,Option.bind_eq_bind,Option.bind_eq_some_iff] at run
    obtain ⟨_,_,options,read,written⟩ := run
    cases written
    cases decoded : ofJson _ with
    | error fault => rw [decoded] at read; cases read
    | ok options' =>
      rw [decoded] at read
      cases read
      exact (textual_of_ofJson decoded).rewritten?_toJson

/-- Read by position, with null for a field that is not given. -/
def positional : Json := .array [.string "i18n",.null,.string "o.d.ts"]

theorem positional_settled :
    Settled positional {moduleName := some "i18n",outputPath := some ⟨"o.d.ts"⟩} ∧
    (Options.toJson {moduleName := some "i18n",outputPath := some ⟨"o.d.ts"⟩}).text =
      "\x7b\"moduleName\":\"i18n\",\"outputPath\":\"o.d.ts\"\x7d" := by
  obtain ⟨-,-,settles,-⟩ := toJson_normal
  exact ⟨settles _ _ rfl,by decide +kernel⟩

/-- The options of a project in a directory whose name is no text. -/
def strayed : Options :=
  Project.Plugin.options {moduleName := some "i18n",locales := some ⟨"locales"⟩,output := some ⟨"i18n.d.ts"⟩}
    ⟨Text.octets "/p" ++ [Path.slash,0xff]⟩

theorem strayed_not_kept : strayed.toJson = .null ∧ ofJson strayed.toJson = .ok {} ∧
    ¬∀ options : Options, ofJson options.toJson = .ok options := by
  have lost : ofJson strayed.toJson ≠ .ok strayed := by decide +kernel
  exact ⟨toJson_of_not_textual (by decide +kernel),by decide +kernel,fun kept => lost (kept strayed)⟩

end Options
end Phrasebook
