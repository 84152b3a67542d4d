import Phrasebook.Host.Memory
import Phrasebook.Project.Reader
import Phrasebook.Proofs.Configuration.Options
import Phrasebook.Proofs.Configuration.Validation
import Phrasebook.Proofs.Path.Joining

/-! A project's options against the ones that an editor passes. Both paths are required, and an empty one counts
as absent; but what is empty in a project is the directory of its configuration by the time that it is checked.
`project_missing_iff` says when it is missed all the same. -/
namespace Phrasebook

/-- Absent or empty. -/
def Lacking (path : Option Path) : Prop := ∀ p ∈ path, p.octets = []

instance (path : Option Path) : Decidable (Lacking path) := by
  unfold Lacking
  infer_instance

theorem lacking_iff {path : Option Path} : Lacking path ↔ ¬∃ p ∈ path, p.octets ≠ [] := by simp [Lacking]

theorem lacking_map_join {base : Path} {path : Option Path} :
    Lacking (path.map base.join) ↔ path = none ∨ Lacking path ∧ base.octets = [] := by
  cases path with
  | none => simp [Lacking]
  | some p => simp [Lacking,Path.octets_join_eq_nil,and_comm]

namespace Config

variable {σ : Type} [Host σ] {options : Options} {name field : String}

/-- No other field is reported as missing. -/
theorem settle_ne_missing (localesDirectory outputPath : Path) (host : σ) :
    settle options name localesDirectory outputPath host ≠ .error (.missing field) := by
  intro missing
  cases mode : modeOf options with
  | error rejection =>
    rw [settle,mode] at missing
    obtain rfl : rejection = .missing field := Except.error.inj missing
    unfold modeOf at mode
    split at mode
    · cases locale : options.defaultLocale.filter (!·.isEmpty) with
      | none => rw [locale] at mode; cases mode
      | some locale' => rw [locale] at mode; cases mode
    · cases mode
  | ok mode' =>
    rw [settle,mode,Except.bind] at missing
    split at missing <;> cases missing

/-- The paths are asked for one after the other. -/
theorem check_toJson (textual : options.Textual) (named : options.moduleName = some name) (given : name ≠ "") (host : σ) :
    check options.toJson (some host) =
      (require (options.outputPath.filter (!·.isEmpty)) (.missing "outputPath")).bind fun outputPath =>
      (require (options.localesDirectory.filter (!·.isEmpty)) (.missing "localesDirectory")).bind
        fun localesDirectory => settle options name localesDirectory outputPath host := by
  have kept : options.moduleName.filter (!·.isEmpty) = some name := by
    rw [named,Option.filter_some_pos]
    simpa using given
  rw [check_of_ofJson (Options.ofJson_toJson textual),kept]
  rfl

/-- Where a path is no text, even the name of the module is missed. -/
theorem check_of_not_textual (stray : ¬options.Textual) (host : σ) :
    check options.toJson (some host) = .error (.missing "moduleName") := by
  rw [Options.toJson_of_not_textual stray]
  rfl

theorem check_missing_output_iff (named : options.moduleName = some name) (given : name ≠ "") (host : σ) :
    check options.toJson (some host) = .error (.missing "outputPath") ↔ options.Textual ∧ Lacking options.outputPath := by
  by_cases textual : options.Textual
  case neg => simp [check_of_not_textual textual,textual]
  rw [check_toJson textual named given,lacking_iff]
  rcases require_path options.outputPath (.missing "outputPath") with
    ⟨output,written,filled,kept⟩ | ⟨lacking,missing⟩
  · refine iff_of_false ?_ fun both => both.2 ⟨output,written,filled⟩
    rw [kept,Except.bind]
    rcases require_path options.localesDirectory (.missing "localesDirectory") with
      ⟨directory,-,-,found⟩ | ⟨-,missing⟩
    · rw [found]
      exact settle_ne_missing directory output host
    · rw [missing]
      simp [Except.bind]
  · rw [missing]
    exact iff_of_true rfl ⟨textual,lacking⟩

theorem check_missing_locales_iff (named : options.moduleName = some name) (given : name ≠ "") (host : σ) :
    check options.toJson (some host) = .error (.missing "localesDirectory") ↔
      options.Textual ∧ ¬Lacking options.outputPath ∧ Lacking options.localesDirectory := by
  by_cases textual : options.Textual
  case neg => simp [check_of_not_textual textual,textual]
  rw [check_toJson textual named given,lacking_iff,lacking_iff,not_not]
  rcases require_path options.outputPath (.missing "outputPath") with
    ⟨output,written,filled,kept⟩ | ⟨lacking,missing⟩
  · rw [kept,Except.bind]
    rcases require_path options.localesDirectory (.missing "localesDirectory") with
      ⟨directory,stored,filled',found⟩ | ⟨lacking,missing⟩
    · rw [found]
      exact iff_of_false (settle_ne_missing directory output host) fun all => all.2.2 ⟨directory,stored,filled'⟩
    · rw [missing]
      exact iff_of_true rfl ⟨textual,⟨output,written,filled⟩,lacking⟩
  · rw [missing]
    exact iff_of_false (by simp [Except.bind]) fun all => lacking all.2.1

end Config

/-- The options of a section as they are written there, passed by an editor. -/
def Project.Plugin.passed (plugin : Project.Plugin) : Options where
  moduleName := plugin.moduleName
  localesDirectory := plugin.locales
  outputPath := plugin.output
  lazy := if plugin.lazy then some true else none
  defaultLocale := plugin.defaultLocale

namespace Project

/-- Section by section, a configuration is read into texts. -/
theorem foldlM_kept {α β : Type} (holds : β → Prop) {f : β → α → Option β}
    (step : ∀ before a after, holds before → f before a = some after → holds after) {items : List α} {start finish : β}
    (begun : holds start) (run : items.foldlM f start = some finish) : holds finish := by
  induction items generalizing start with
  | nil =>
    cases run
    exact begun
  | cons a rest ih =>
    rw [List.foldlM_cons] at run
    obtain ⟨middle,first,later⟩ := Option.bind_eq_some_iff.mp run
    exact ih (step _ _ _ begun first) later

theorem Plugin.textual_set {plugin after : Plugin} {entry : String × Toml.Value} (textual : plugin.passed.Textual)
    (set : plugin.set entry = some after) : after.passed.Textual := by
  have text (text : String) : ∀ p ∈ some (Path.mk text), p.text?.isSome := by simp
  unfold Plugin.set at set
  split at set
  all_goals try obtain ⟨value,-,rfl⟩ := Option.map_eq_some_iff.mp set
  · exact ⟨textual.localesDirectory,textual.outputPath⟩
  · exact ⟨text value,textual.outputPath⟩
  · exact ⟨textual.localesDirectory,text value⟩
  · exact ⟨textual.localesDirectory,textual.outputPath⟩
  · exact ⟨textual.localesDirectory,textual.outputPath⟩
  · cases set
    exact textual

/-- What a text says of paths are texts. -/
theorem textual_of_parse? {text : String} {file : Path} {project : Project} {unknown : List Unknown}
    (parsed : parse? text file = some (project,unknown)) : project.plugin.passed.Textual := by
  have blank : ({} : Plugin).passed.Textual := ⟨by simp [Plugin.passed],by simp [Plugin.passed]⟩
  obtain ⟨fields,-,parsed⟩ := Option.bind_eq_some_iff.mp parsed
  obtain ⟨found,run,same⟩ := Option.bind_eq_some_iff.mp parsed
  cases same
  refine foldlM_kept (fun project => project.plugin.passed.Textual) (fun before entry after textual set => ?_) blank run
  unfold Project.set at set
  split at set
  · obtain ⟨_,-,set⟩ := Option.bind_eq_some_iff.mp set
    obtain ⟨plugin,run,same⟩ := Option.bind_eq_some_iff.mp set
    cases same
    exact foldlM_kept (fun plugin => plugin.passed.Textual) (fun _ _ _ => Plugin.textual_set) blank run
  · obtain ⟨_,-,set⟩ := Option.bind_eq_some_iff.mp set
    obtain ⟨logging,-,same⟩ := Option.bind_eq_some_iff.mp set
    cases same
    exact textual
  · cases set
    exact textual

/-- Relative to a text, they stay texts. -/
theorem Plugin.textual_options {plugin : Plugin} {base : Path} (textual : plugin.passed.Textual)
    (based : base.text?.isSome) : (plugin.options base).Textual := by
  have joined {path : Option Path} (text : ∀ p ∈ path, p.text?.isSome) :
      ∀ p ∈ path.map base.join, p.text?.isSome := by
    intro p there
    obtain ⟨tail,inside,rfl⟩ := Option.map_eq_some_iff.mp there
    exact Path.isSome_text?_join based (text tail inside)
  exact ⟨joined textual.localesDirectory,joined textual.outputPath⟩

end Project

/-- Passed by an editor, a path is missed if it is absent or empty. In a project it is missed if it is absent; an
empty one only if it is relative to an empty base. Either way the paths that are there must be texts, or else no
option comes through and the name of the module is missed. -/
theorem project_missing_iff {σ : Type} [Host σ] {plugin : Project.Plugin} {name : String}
    (named : plugin.moduleName = some name) (given : name ≠ "") (base : Path) (host : σ) :
    (Config.check plugin.passed.toJson (some host) = .error (.missing "outputPath") ↔
      plugin.passed.Textual ∧ Lacking plugin.output) ∧
    (Config.check plugin.passed.toJson (some host) = .error (.missing "localesDirectory") ↔
      plugin.passed.Textual ∧ ¬Lacking plugin.output ∧ Lacking plugin.locales) ∧
    (Config.check (plugin.options base).toJson (some host) = .error (.missing "outputPath") ↔
      (plugin.options base).Textual ∧ (plugin.output = none ∨ Lacking plugin.output ∧ base.octets = [])) ∧
    (Config.check (plugin.options base).toJson (some host) = .error (.missing "localesDirectory") ↔
      (plugin.options base).Textual ∧ ¬(plugin.output = none ∨ Lacking plugin.output ∧ base.octets = []) ∧
        (plugin.locales = none ∨ Lacking plugin.locales ∧ base.octets = [])) ∧
    (¬(plugin.options base).Textual →
      Config.check (plugin.options base).toJson (some host) = .error (.missing "moduleName")) ∧
    (plugin.passed.Textual → base.text?.isSome → (plugin.options base).Textual) := by
  have direct : plugin.passed.moduleName = some name := named
  have based : (plugin.options base).moduleName = some name := named
  refine ⟨Config.check_missing_output_iff direct given host,Config.check_missing_locales_iff direct given host,?_,?_,
    fun stray => Config.check_of_not_textual stray host,Project.Plugin.textual_options⟩
  · rw [Config.check_missing_output_iff based given,← lacking_map_join]
    rfl
  · rw [Config.check_missing_locales_iff based given,← lacking_map_join,← lacking_map_join]
    rfl

def oneLocale : MemoryHost := {files := [(⟨"/p/locales/en.yaml"⟩,"a: b")]}

def absentOutput : Project.Plugin := {moduleName := some "i18n",locales := some ⟨"locales"⟩}

theorem absent_output_missing :
    Config.check (absentOutput.options ⟨"/p"⟩).toJson (some oneLocale) = .error (.missing "outputPath") := by
  have named : absentOutput.moduleName = some "i18n" := rfl
  obtain ⟨-,-,missing,-,-,textual⟩ := project_missing_iff named (by decide) ⟨"/p"⟩ oneLocale
  exact missing.mpr ⟨textual (by decide +kernel) (by simp),.inl rfl⟩

def emptyOutput : Project.Plugin := {absentOutput with output := some ⟨""⟩}

/-- An empty output is not missed in a project: it becomes the directory of the project itself. -/
theorem empty_output_accepted :
    Config.check emptyOutput.passed.toJson (some oneLocale) = .error (.missing "outputPath") ∧
    Config.check (emptyOutput.options ⟨"/p"⟩).toJson (some oneLocale) =
      .ok ⟨"i18n",⟨"/p/locales"⟩,⟨"/p/"⟩,.normal⟩ := by
  constructor <;> decide +kernel

end Phrasebook
