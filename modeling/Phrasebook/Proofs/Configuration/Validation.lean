import Phrasebook.Config
import Phrasebook.Session.Scripted

/-! Which options may be adopted for a host. Eight demands are made one after the other, and the first that is not met
is what options are rejected for: `check_meets_demands`. -/
namespace Phrasebook

variable {σ : Type} [Host σ]

/-- Options that may be adopted for a host, and the configuration that they come to. -/
structure Options.Usable (options : Options) (host : σ) (config : Config) : Prop where
  moduleName : options.moduleName = some config.moduleName
  outputPath : options.outputPath = some config.outputPath
  localesDirectory : options.localesDirectory = some config.localesDirectory
  filled : config.moduleName ≠ "" ∧ config.outputPath.octets ≠ [] ∧ config.localesDirectory.octets ≠ []
  lazy : config.mode.isLazy = true ↔ options.lazy = some true
  defaultLocale : ∀ locale, config.mode = .lazy locale → options.defaultLocale = some locale ∧ locale ≠ ""
  listing : ∃ first rest, Host.list config.localesDirectory host = .ok (first :: rest)

theorem Options.Usable.unique {options : Options} {host : σ} {config other : Config}
    (usable : options.Usable host config) (usable' : options.Usable host other) : config = other := by
  have mode : config.mode = other.mode := by
    have lazy := usable.lazy.trans usable'.lazy.symm
    cases chosen : config.mode with
    | normal =>
      cases chosen' : other.mode with
      | normal => rfl
      | lazy locale' => simp [chosen,chosen',Mode.isLazy] at lazy
    | lazy locale =>
      cases chosen' : other.mode with
      | normal => simp [chosen,chosen',Mode.isLazy] at lazy
      | lazy locale' =>
        have same := (usable.defaultLocale locale chosen).1.symm.trans (usable'.defaultLocale locale' chosen').1
        rw [Option.some.inj same]
  have moduleName := Option.some.inj (usable.moduleName.symm.trans usable'.moduleName)
  have outputPath := Option.some.inj (usable.outputPath.symm.trans usable'.outputPath)
  have localesDirectory := Option.some.inj (usable.localesDirectory.symm.trans usable'.localesDirectory)
  cases config
  cases other
  simp_all

namespace Config

/-- What is demanded of options and of the host that they are for. -/
inductive Demand where
  | host
  | shape
  | moduleName
  | outputPath
  | localesDirectory
  | defaultLocale
  | listing
  | files
deriving DecidableEq

/-- Demands are made in this order. -/
def Demand.rank : Demand → Nat
  | host => 0
  | shape => 1
  | moduleName => 2
  | outputPath => 3
  | localesDirectory => 4
  | defaultLocale => 5
  | listing => 6
  | files => 7

theorem Demand.rank_injective : Function.Injective rank := by
  intro a b same
  cases a <;> cases b <;> first
    | rfl
    | cases same

end Config

open Config (Demand)

/-- Options that could be read meet a demand, for a host that is there. -/
def Options.Meets (options : Options) (host : σ) : Demand → Prop
  | .host => True
  | .shape => True
  | .moduleName => ∃ name ∈ options.moduleName, name ≠ ""
  | .outputPath => ∃ path ∈ options.outputPath, path.octets ≠ []
  | .localesDirectory => ∃ path ∈ options.localesDirectory, path.octets ≠ []
  | .defaultLocale => options.lazy = some true → ∃ locale ∈ options.defaultLocale, locale ≠ ""
  | .listing => ∃ directory ∈ options.localesDirectory, ∃ files, Host.list directory host = .ok files
  | .files => ∃ directory ∈ options.localesDirectory, ∃ first rest, Host.list directory host = .ok (first :: rest)

/-- The demands up to a rank are met. -/
def Options.Clears (options : Options) (host : σ) (rank : Nat) : Prop :=
  ∀ demand : Demand, demand.rank < rank → options.Meets host demand

theorem Options.Clears.succ {options : Options} {host : σ} {demand : Demand}
    (cleared : options.Clears host demand.rank) (met : options.Meets host demand) :
    options.Clears host (demand.rank + 1) := by
  intro other before
  rcases Nat.lt_succ_iff_lt_or_eq.mp before with earlier | same
  · exact cleared other earlier
  · rwa [Demand.rank_injective same]

/-- Usable options meet every demand. -/
theorem Options.Usable.meets {options : Options} {host : σ} {config : Config} (usable : options.Usable host config)
    (demand : Demand) : options.Meets host demand := by
  obtain ⟨first,rest,listed⟩ := usable.listing
  cases demand with
  | host | shape => trivial
  | moduleName => exact ⟨_,usable.moduleName,usable.filled.1⟩
  | outputPath => exact ⟨_,usable.outputPath,usable.filled.2.1⟩
  | localesDirectory => exact ⟨_,usable.localesDirectory,usable.filled.2.2⟩
  | defaultLocale =>
    intro asked
    cases chosen : config.mode with
    | normal => simpa [chosen,Mode.isLazy,asked] using usable.lazy
    | lazy locale =>
      obtain ⟨given,filled⟩ := usable.defaultLocale locale chosen
      exact ⟨locale,given,filled⟩
  | listing => exact ⟨_,usable.localesDirectory,_,listed⟩
  | files => exact ⟨_,usable.localesDirectory,first,rest,listed⟩

namespace Config

section Demands

variable (json : Json) (platform : Option σ)

/-- The platform is the host that was passed, if any was. -/
def Demand.Met : Demand → Prop
  | host => ∃ state, platform = some state
  | shape => ∃ options, Options.ofJson json = .ok options
  | demand => ∃ state ∈ platform, ∃ options, Options.ofJson json = .ok options ∧ options.Meets state demand

/-- What is said where a demand is not met. -/
def Demand.Rejects : Demand → Rejection → Prop
  | host,rejection => rejection = .noHost
  | shape,rejection => ∃ fault, Options.ofJson json = .error fault ∧ rejection = .malformed fault.message
  | moduleName,rejection => rejection = .missing "moduleName"
  | outputPath,rejection => rejection = .missing "outputPath"
  | localesDirectory,rejection => rejection = .missing "localesDirectory"
  | defaultLocale,rejection => rejection = .missingDefaultLocale
  | listing,rejection => ∃ state ∈ platform, ∃ options, Options.ofJson json = .ok options ∧
    ∃ directory ∈ options.localesDirectory, ∃ fault, Host.list directory state = .error fault ∧
      rejection = .unlistable directory fault.message
  | files,rejection => ∃ options, Options.ofJson json = .ok options ∧
    ∃ directory ∈ options.localesDirectory, rejection = .noLocaleFiles directory

/-- The first demand that is not met, and the rejection for that. -/
structure Demand.Fails (demand : Demand) (rejection : Rejection) : Prop where
  unmet : ¬demand.Met json platform
  earlier : ∀ other : Demand, other.rank < demand.rank → other.Met json platform
  rejects : demand.Rejects json platform rejection

end Demands

variable {json : Json} {platform : Option σ} {options : Options} {host : σ}

namespace Demand

theorem met_iff (decoded : Options.ofJson json = .ok options) (demand : Demand) :
    demand.Met json (some host) ↔ options.Meets host demand := by
  have only : (∃ state ∈ some host, ∃ o, Options.ofJson json = .ok o ∧ o.Meets state demand) ↔
      options.Meets host demand := by simp [decoded]
  cases demand with
  | host => exact iff_of_true ⟨host,rfl⟩ trivial
  | shape => exact iff_of_true ⟨options,decoded⟩ trivial
  | moduleName | outputPath | localesDirectory | defaultLocale | listing | files => exact only

/-- There is one first demand that is not met, and one rejection for it. -/
theorem Fails.unique {demand other : Demand} {rejection rejection' : Rejection}
    (first : demand.Fails json platform rejection) (next : other.Fails json platform rejection') :
    rejection = rejection' := by
  have one : demand = other := by
    apply rank_injective
    rcases Nat.lt_trichotomy demand.rank other.rank with before | same | after
    · exact absurd (next.earlier demand before) first.unmet
    · exact same
    · exact absurd (first.earlier other after) next.unmet
  subst one
  have cause := first.rejects
  have cause' := next.rejects
  cases demand with
  | host | moduleName | outputPath | localesDirectory | defaultLocale => exact cause.trans cause'.symm
  | shape =>
    obtain ⟨fault,failed,rfl⟩ := cause
    obtain ⟨fault',failed',rfl⟩ := cause'
    cases failed.symm.trans failed'
    rfl
  | listing =>
    obtain ⟨state,given,o,decoded,directory,named,fault,listed,rfl⟩ := cause
    obtain ⟨state',given',o',decoded',directory',named',fault',listed',rfl⟩ := cause'
    cases given.symm.trans given'
    cases decoded.symm.trans decoded'
    cases named.symm.trans named'
    cases listed.symm.trans listed'
    rfl
  | files =>
    obtain ⟨o,decoded,directory,named,rfl⟩ := cause
    obtain ⟨o',decoded',directory',named',rfl⟩ := cause'
    cases decoded.symm.trans decoded'
    cases named.symm.trans named'
    rfl

end Demand

/-- Of a value that is asked for, one that is kept is found, or there is none. -/
theorem require_filter {α : Type} (value : Option α) (keep : α → Bool) (rejection : Rejection) :
    (∃ a, value = some a ∧ keep a = true ∧ require (value.filter keep) rejection = .ok a) ∨
    (∀ a, value = some a → keep a = false) ∧ require (value.filter keep) rejection = .error rejection := by
  cases value with
  | none => exact .inr ⟨nofun,rfl⟩
  | some a =>
    cases kept : keep a with
    | true => exact .inl ⟨a,rfl,kept,by rw [Option.filter_some_pos kept]; rfl⟩
    | false => exact .inr ⟨fun _ same => Option.some.inj same ▸ kept,by rw [Option.filter_some_neg kept]; rfl⟩

/-- A text that is asked for is there and not empty, or it is missing. -/
theorem require_text (text : Option String) (rejection : Rejection) :
    (∃ name, text = some name ∧ name ≠ "" ∧ require (text.filter (!·.isEmpty)) rejection = .ok name) ∨
    (¬∃ name ∈ text, name ≠ "") ∧ require (text.filter (!·.isEmpty)) rejection = .error rejection := by
  rcases require_filter text (!·.isEmpty) rejection with ⟨name,given,kept,found⟩ | ⟨none,missing⟩
  · exact .inl ⟨name,given,by simpa using kept,found⟩
  · refine .inr ⟨?_,missing⟩
    rintro ⟨name,given,filled⟩
    exact filled (by simpa using none name given)

theorem require_path (path : Option Path) (rejection : Rejection) :
    (∃ p, path = some p ∧ p.octets ≠ [] ∧ require (path.filter (!·.isEmpty)) rejection = .ok p) ∨
    (¬∃ p ∈ path, p.octets ≠ []) ∧ require (path.filter (!·.isEmpty)) rejection = .error rejection := by
  rcases require_filter path (!·.isEmpty) rejection with ⟨p,given,kept,found⟩ | ⟨none,missing⟩
  · exact .inl ⟨p,given,by simpa [Path.isEmpty] using kept,found⟩
  · refine .inr ⟨?_,missing⟩
    rintro ⟨p,given,filled⟩
    exact filled (by simpa [Path.isEmpty] using none p given)

/-- Options are lazy if they say so, whatever locale they name besides; then they must name one. -/
theorem modeOf_cases (options : Options) :
    (∃ mode, modeOf options = .ok mode ∧ (mode.isLazy = true ↔ options.lazy = some true) ∧
      (∀ locale, mode = .lazy locale → options.defaultLocale = some locale ∧ locale ≠ "") ∧
      (options.lazy = some true → ∃ locale ∈ options.defaultLocale, locale ≠ "")) ∨
    modeOf options = .error .missingDefaultLocale ∧ options.lazy = some true ∧
      ¬∃ locale ∈ options.defaultLocale, locale ≠ "" := by
  by_cases asked : options.lazy = some true
  · have required : modeOf options = (require (options.defaultLocale.filter (!·.isEmpty)) .missingDefaultLocale).bind
        fun locale => .ok (.lazy locale) := by
      rw [modeOf,asked]
      rfl
    rcases require_text options.defaultLocale .missingDefaultLocale with
      ⟨locale,given,filled,found⟩ | ⟨none,missing⟩
    · have chosen : modeOf options = .ok (.lazy locale) := by rw [required,found]; rfl
      refine .inl ⟨.lazy locale,chosen,iff_of_true rfl asked,?_,fun _ => ⟨locale,given,filled⟩⟩
      rintro _ ⟨⟩
      exact ⟨given,filled⟩
    · exact .inr ⟨by rw [required,missing]; rfl,asked,none⟩
  · have normal : modeOf options = .ok .normal := by
      rw [modeOf,if_neg]
      cases choice : options.lazy with
      | none => exact Bool.false_ne_true
      | some isLazy =>
        rw [choice] at asked
        exact fun yes => asked (congrArg some yes)
    exact .inl ⟨.normal,normal,iff_of_false Bool.false_ne_true asked,nofun,fun yes => absurd yes asked⟩

/-- What is left to check once the name and both paths are there. -/
def settle (options : Options) (name : String) (localesDirectory outputPath : Path) (host : σ) :
    Except Rejection Config :=
  (modeOf options).bind fun mode =>
    match Host.list localesDirectory host with
    | .error fault => .error (.unlistable localesDirectory fault.message)
    | .ok [] => .error (.noLocaleFiles localesDirectory)
    | .ok (_ :: _) => .ok ⟨name,localesDirectory,outputPath,mode⟩

/-- The name and both paths are asked for one after the other. -/
theorem check_of_ofJson (decoded : Options.ofJson json = .ok options) (host : σ) :
    check json (some host) =
      (require (options.moduleName.filter (!·.isEmpty)) (.missing "moduleName")).bind fun name =>
      (require (options.outputPath.filter (!·.isEmpty)) (.missing "outputPath")).bind fun outputPath =>
      (require (options.localesDirectory.filter (!·.isEmpty)) (.missing "localesDirectory")).bind
        fun localesDirectory => settle options name localesDirectory outputPath host := by
  rw [check,decoded]
  rfl

/-- All that matters about a host is what it lists. -/
theorem check_congr {other : σ} (same : ∀ directory, Host.list directory other = Host.list directory host)
    (json : Json) : check json (some other) = check json (some host) := by
  cases decoded : Options.ofJson json with
  | error fault =>
    rw [check,check,decoded]
    rfl
  | ok options =>
    rw [check_of_ofJson decoded,check_of_ofJson decoded]
    simp only [settle,same]

/-- What may become of options that could be read: they are usable, or there is a first demand that they do not meet. -/
inductive Ruled (json : Json) (options : Options) (host : σ) : Except Rejection Config → Prop where
  | usable (config : Config) (usable : options.Usable host config) : Ruled json options host (.ok config)
  | rejected (demand : Demand) (rejection : Rejection) (unmet : ¬options.Meets host demand)
      (cleared : options.Clears host demand.rank) (rejects : demand.Rejects json (some host) rejection) :
      Ruled json options host (.error rejection)

theorem settle_ruled {name : String} {output directory : Path} (decoded : Options.ofJson json = .ok options)
    (named : options.moduleName = some name) (written : options.outputPath = some output)
    (kept : options.localesDirectory = some directory)
    (filled : name ≠ "" ∧ output.octets ≠ [] ∧ directory.octets ≠ [])
    (cleared : options.Clears host (Demand.rank .defaultLocale)) :
    Ruled json options host (settle options name directory output host) := by
  rw [settle]
  rcases modeOf_cases options with ⟨mode,chosen,lazy,defaultLocale,spoken⟩ | ⟨missing,asked,none⟩
  case inr =>
    rw [missing]
    exact .rejected .defaultLocale _ (fun given => none (given asked)) cleared rfl
  have moded : options.Clears host (Demand.rank .listing) := cleared.succ spoken
  rw [chosen,Except.bind]
  cases listed : Host.list directory host with
  | error fault =>
    refine .rejected .listing _ ?_ moded ⟨host,rfl,options,decoded,directory,kept,fault,listed,rfl⟩
    rintro ⟨other,kept',files,listed'⟩
    cases kept.symm.trans kept'
    cases listed.symm.trans listed'
  | ok files =>
    have searched : options.Clears host (Demand.rank .files) := moded.succ ⟨directory,kept,files,listed⟩
    cases files with
    | nil =>
      refine .rejected .files _ ?_ searched ⟨options,decoded,directory,kept,rfl⟩
      rintro ⟨other,kept',first,rest,listed'⟩
      cases kept.symm.trans kept'
      cases listed.symm.trans listed'
    | cons first rest => exact .usable _ ⟨named,written,kept,filled,lazy,defaultLocale,first,rest,listed⟩

/-- The demands are gone through in their order, and those that are behind are met. -/
theorem check_ruled (decoded : Options.ofJson json = .ok options) (host : σ) :
    Ruled json options host (check json (some host)) := by
  have shaped : options.Clears host (Demand.rank .moduleName) := by
    intro other before
    cases other <;> trivial
  rw [check_of_ofJson decoded]
  rcases require_text options.moduleName (.missing "moduleName") with
    ⟨name,named,nameFilled,found⟩ | ⟨none,missing⟩
  case inr =>
    rw [missing]
    exact .rejected .moduleName _ none shaped rfl
  have titled : options.Clears host (Demand.rank .outputPath) := shaped.succ ⟨name,named,nameFilled⟩
  rw [found,Except.bind]
  rcases require_path options.outputPath (.missing "outputPath") with
    ⟨output,written,outputFilled,found⟩ | ⟨none,missing⟩
  case inr =>
    rw [missing]
    exact .rejected .outputPath _ none titled rfl
  have aimed : options.Clears host (Demand.rank .localesDirectory) := titled.succ ⟨output,written,outputFilled⟩
  rw [found,Except.bind]
  rcases require_path options.localesDirectory (.missing "localesDirectory") with
    ⟨directory,kept,directoryFilled,found⟩ | ⟨none,missing⟩
  case inr =>
    rw [missing]
    exact .rejected .localesDirectory _ none aimed rfl
  have stored : options.Clears host (Demand.rank .defaultLocale) := aimed.succ ⟨directory,kept,directoryFilled⟩
  rw [found,Except.bind]
  exact settle_ruled decoded named written kept ⟨nameFilled,outputFilled,directoryFilled⟩ stored

theorem check_ok_iff (decoded : Options.ofJson json = .ok options) (host : σ) (config : Config) :
    check json (some host) = .ok config ↔ options.Usable host config := by
  have ruled := check_ruled decoded host
  generalize check json (some host) = verdict at ruled ⊢
  cases ruled with
  | usable config' usable =>
    constructor
    · rintro ⟨⟩
      exact usable
    · intro usable'
      rw [usable.unique usable']
  | rejected demand rejection unmet => exact iff_of_false nofun fun usable => unmet (usable.meets demand)

/-- Options are usable, or there is a first demand that is not met. -/
theorem check_cases (json : Json) (platform : Option σ) :
    (∃ config state options, check json platform = .ok config ∧ platform = some state ∧
      Options.ofJson json = .ok options ∧ options.Usable state config) ∨
    ∃ demand rejection, check json platform = .error rejection ∧ Demand.Fails json platform demand rejection := by
  cases platform with
  | none =>
    refine .inr ⟨.host,.noHost,rfl,?_,fun _ before => absurd before (Nat.not_lt_zero _),rfl⟩
    rintro ⟨_,⟨⟩⟩
  | some host =>
    cases decoded : Options.ofJson json with
    | error fault =>
      refine .inr ⟨.shape,.malformed fault.message,?_,?_,fun other before => ?_,fault,decoded,rfl⟩
      · rw [check,decoded]
        rfl
      · rintro ⟨options,read⟩
        cases decoded.symm.trans read
      · obtain rfl : other = .host := Demand.rank_injective (Nat.lt_one_iff.mp before)
        exact ⟨host,rfl⟩
    | ok options =>
      have ruled := check_ruled decoded host
      generalize check json (some host) = verdict at ruled ⊢
      cases ruled with
      | usable config usable => exact .inl ⟨config,host,options,rfl,rfl,rfl,usable⟩
      | rejected demand rejection unmet cleared rejects =>
        refine .inr ⟨demand,rejection,rfl,?_,fun other before => ?_,rejects⟩
        · rwa [Demand.met_iff decoded]
        · rw [Demand.met_iff decoded]
          exact cleared other before

section Verdict

variable (json : Json) (platform : Option σ)

theorem check_adopts_iff (config : Config) : check json platform = .ok config ↔
    ∃ state, platform = some state ∧ ∃ options, Options.ofJson json = .ok options ∧ options.Usable state config := by
  constructor
  · intro run
    rcases check_cases json platform with ⟨_,state,options,run',given,decoded,usable⟩ | ⟨_,_,failed,-⟩
    · cases run.symm.trans run'
      exact ⟨state,given,options,decoded,usable⟩
    · cases run.symm.trans failed
  · rintro ⟨state,rfl,options,decoded,usable⟩
    exact (check_ok_iff decoded state config).mpr usable

/-- Nothing else is demanded than what options are rejected for. -/
theorem adopted_iff_met :
    (∃ config, check json platform = .ok config) ↔ ∀ demand : Demand, demand.Met json platform := by
  rcases check_cases json platform with ⟨config,_,_,run,rfl,decoded,usable⟩ | ⟨demand,_,failed,fails⟩
  · exact iff_of_true ⟨config,run⟩ fun demand => (Demand.met_iff decoded demand).mpr (usable.meets demand)
  · refine iff_of_false ?_ fun met => fails.unmet (met demand)
    rintro ⟨_,run⟩
    cases run.symm.trans failed

theorem check_rejects_iff (rejection : Rejection) :
    check json platform = .error rejection ↔ ∃ demand : Demand, demand.Fails json platform rejection := by
  rcases check_cases json platform with ⟨_,_,_,run,rfl,decoded,usable⟩ | ⟨demand,_,failed,fails⟩
  · rw [run]
    refine iff_of_false nofun ?_
    rintro ⟨demand,fails⟩
    exact fails.unmet ((Demand.met_iff decoded demand).mpr (usable.meets demand))
  · rw [failed]
    constructor
    · rintro ⟨⟩
      exact ⟨demand,fails⟩
    · rintro ⟨other,fails'⟩
      rw [fails.unique fails']

theorem validate_cases : (∃ config, check json platform = .ok config ∧ validate json platform = (true,[])) ∨
    ∃ rejection, check json platform = .error rejection ∧
      validate json platform = (false,["invalid options: " ++ rejection.message]) := by
  rw [validate]
  cases check json platform with
  | ok config => exact .inl ⟨config,rfl,rfl⟩
  | error rejection => exact .inr ⟨rejection,rfl,rfl⟩

end Verdict

/-- What is decided about options, for a host in memory or none. -/
structure Judged (json : Json) (platform : Option MemoryHost) : Prop where
  adopts : ∀ config, check json platform = .ok config ↔
    ∃ state : MemoryHost, platform = some state ∧
      ∃ options, Options.ofJson json = .ok options ∧ options.Usable state config
  adopts_iff : (∃ config, check json platform = .ok config) ↔ ∀ demand : Demand, demand.Met json platform
  rejects : ∀ rejection, check json platform = .error rejection ↔
    ∃ demand : Demand, demand.Fails json platform rejection
  agrees : (validate json platform).1 = true ↔ ∃ config, check json platform = .ok config
  quiet : (validate json platform).1 = true → (validate json platform).2 = []
  reports : ∀ rejection, check json platform = .error rejection →
    validate json platform = (false,["invalid options: " ++ rejection.message])
  reports_iff : (validate json platform).2.length = 1 ↔ (validate json platform).1 = false
  /-- The host is asked for listings only, and listing leaves it as it is. -/
  unaltered : ∀ state ∈ platform, ∀ directory, (state.perform (.list directory)).2 = state
  consults : ∀ state ∈ platform, ∀ other : MemoryHost,
    (∀ directory, Host.list directory other = Host.list directory state) →
      check json (some other) = check json platform ∧ validate json (some other) = validate json platform

/-- Exactly the usable options are adopted, with the values that they have; others are rejected for the first demand
that is not met, in one line. -/
theorem check_meets_demands (json : Json) (platform : Option MemoryHost) : Judged json platform where
  adopts := check_adopts_iff json platform
  adopts_iff := adopted_iff_met json platform
  rejects := check_rejects_iff json platform
  agrees := by
    rcases validate_cases json platform with ⟨config,run,gate⟩ | ⟨_,failed,gate⟩ <;> rw [gate]
    · exact iff_of_true rfl ⟨config,run⟩
    · simp [failed]
  quiet := by
    rcases validate_cases json platform with ⟨_,_,gate⟩ | ⟨_,_,gate⟩ <;> simp [gate]
  reports rejection failed := by
    rcases validate_cases json platform with ⟨_,run,_⟩ | ⟨_,failed',gate⟩
    · cases run.symm.trans failed
    · cases failed.symm.trans failed'
      exact gate
  reports_iff := by
    rcases validate_cases json platform with ⟨_,_,gate⟩ | ⟨_,_,gate⟩ <;> simp [gate]
  unaltered state _ directory := by
    rw [MemoryHost.perform]
    split <;> rfl
  consults state given other same := by
    have agree : check json (some other) = check json platform := by rw [given,check_congr same]
    exact ⟨agree,by rw [validate,validate,agree]⟩

/-- Of several faults the first is reported: here the module name is missing, and there is no default locale. -/
example : validate (.object [("outputPath",.string "o"),("lazy",.bool true)]) (some ({} : MemoryHost)) =
    (false,["invalid options: moduleName is required"]) := by decide +kernel

end Config
end Phrasebook
