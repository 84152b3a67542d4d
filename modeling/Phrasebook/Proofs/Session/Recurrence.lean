import Phrasebook.Proofs.Session.Production

/-! A run may write over what it reads. It keeps the locales that it was made from unless it succeeds and its
output is one of them (`Toolchain.retains_run_iff`), and where it keeps them the next run does the same again:
`produce_recurs`. -/
namespace Phrasebook

namespace MemoryHost

variable {host : MemoryHost} {directory path : Path} {content : String} {files : List Path}

/-- A directory lists the same files, and each of them holds what it held. -/
structure Retains (directory : Path) (before after : MemoryHost) : Prop where
  listing : after.list directory = before.list directory
  contents : ∀ {files}, before.list directory = .ok files → ∀ file ∈ files, after.file? file = before.file? file

theorem retains_refl (host : MemoryHost) : host.Retains directory host := ⟨rfl,fun _ _ _ => rfl⟩

theorem retains_of_files {state : MemoryHost} (files : state.files = host.files)
    (directories : state.directories = host.directories) (refuses : state.refusesListing = host.refusesListing) :
    host.Retains directory state := by
  refine ⟨?_,fun _ file _ => ?_⟩
  · rw [list,list,directoryExists,directoryExists,files,directories,refuses]
  · simp only [file?,files]

theorem retains_insert (apart : isLocaleFileOf directory path = false) (listed : host.list directory = .ok files) :
    host.Retains directory (host.insert path content) := by
  refine ⟨(list_insert apart listed).trans listed.symm,fun {others} found file member => ?_⟩
  have locale := isLocaleFileOf_of_list found member
  rw [file?_insert,if_neg]
  intro same
  rw [isLocaleFileOf_of_same _ same,apart] at locale
  contradiction

/-- To be kept, a locale file must be written as it is. -/
theorem files_insert (locale : isLocaleFileOf directory path = true) (listed : host.list directory = .ok files)
    (retained : host.Retains directory (host.insert path content)) : (host.insert path content).files = host.files := by
  have written : (host.insert path content).file? path = some content :=
    (file?_insert ..).trans (if_pos (Path.same_refl path))
  have kept := filter_of_list (retained.listing.trans listed)
  obtain ⟨key,member,same⟩ := Sorted.exists_key_of_get? written
  have known : key ∈ files := by
    rw [← kept]
    exact List.mem_filter.mpr ⟨member,(isLocaleFileOf_of_same directory same).trans locale⟩
  have found : host.file? path = some content := by
    calc host.file? path = host.file? key := (Sorted.get?_of_same same).symm
      _ = (host.insert path content).file? key := (retained.contents listed key known).symm
      _ = (host.insert path content).file? path := Sorted.get?_of_same same
      _ = some content := written
  exact Sorted.insert_eq_self locale (kept.trans (filter_of_list listed).symm) found

end MemoryHost

namespace Toolchain

variable (tools : Toolchain) (config : Config) (host : MemoryHost)

/-- What a run comes to if nobody interferes, and the host after it. -/
def run : Except RunFault Report × MemoryHost :=
  match tools.rendering .types config host with
  | .error fault => (.error fault,host)
  | .ok (entries,source) =>
    match host.write config.outputPath source with
    | .error fault => (.error (.write fault),host)
    | .ok state => (.ok ⟨config.outputPath,entries.map (·.name),Digest.ofText source⟩,state)

variable {tools config host}

theorem run_writes {entries : List Locale.Entry} {source : String}
    (rendered : tools.rendering .types config host = .ok (entries,source))
    (unsealed : ¬host.readOnly.any (·.same config.outputPath) = true) :
    tools.run config host = (.ok ⟨config.outputPath,entries.map (·.name),Digest.ofText source⟩,
      {host.insert config.outputPath source with writes := host.writes ++ [config.outputPath]}) := by
  have written : host.write config.outputPath source =
      .ok {host.insert config.outputPath source with writes := host.writes ++ [config.outputPath]} := if_neg unsealed
  simp only [run,rendered,written]

/-- A run fails and changes nothing, or there is something to write and it can be written. -/
theorem run_cases (tools : Toolchain) (config : Config) (host : MemoryHost) :
    (∃ fault, tools.run config host = (.error fault,host)) ∨
    ∃ entries source, tools.rendering .types config host = .ok (entries,source) ∧
      ¬host.readOnly.any (·.same config.outputPath) = true := by
  cases rendered : tools.rendering .types config host with
  | error fault => exact .inl ⟨fault,by simp only [run,rendered]⟩
  | ok done =>
    obtain ⟨entries,source⟩ := done
    by_cases sealed : host.readOnly.any (·.same config.outputPath) = true
    · have refused : host.write config.outputPath source = .error (.write config.outputPath "read-only file") :=
        if_pos sealed
      exact .inl ⟨.write (.write config.outputPath "read-only file"),by simp only [run,rendered,refused]⟩
    · exact .inr ⟨entries,source,rfl,sealed⟩

/-- The locales of a run are as they were before it unless it wrote something else to one of them. -/
theorem retains_run_iff : host.Retains config.localesDirectory (tools.run config host).2 ↔
    (∃ fault, (tools.run config host).1 = .error fault) ∨
    MemoryHost.isLocaleFileOf config.localesDirectory config.outputPath = false ∨
    (tools.run config host).2.files = host.files := by
  obtain ⟨fault,failed⟩ | ⟨entries,source,rendered,unsealed⟩ := run_cases tools config host
  · rw [failed]
    exact iff_of_true (MemoryHost.retains_refl host) (.inl ⟨fault,rfl⟩)
  · obtain ⟨files,-,listed,-⟩ := rendering_eq_ok rendered
    change host.list config.localesDirectory = .ok files at listed
    rw [run_writes rendered unsealed]
    constructor
    · intro retained
      by_cases locale : MemoryHost.isLocaleFileOf config.localesDirectory config.outputPath = true
      · exact .inr (.inr (MemoryHost.files_insert locale listed ⟨retained.listing,retained.contents⟩))
      · exact .inr (.inl (eq_false_of_ne_true locale))
    · rintro (⟨fault,failed⟩ | apart | same)
      · cases failed
      · obtain ⟨listing,contents⟩ : host.Retains config.localesDirectory (host.insert config.outputPath source) :=
          MemoryHost.retains_insert apart listed
        exact ⟨listing,contents⟩
      · exact MemoryHost.retains_of_files same rfl rfl

/-- Where the locales are as they were, so is the outcome of the next run. -/
theorem run_again (retained : host.Retains config.localesDirectory (tools.run config host).2) :
    (tools.run config (tools.run config host).2).1 = (tools.run config host).1 ∧
    (tools.run config (tools.run config host).2).2.files = (tools.run config host).2.files := by
  obtain ⟨fault,failed⟩ | ⟨entries,source,rendered,unsealed⟩ := run_cases tools config host
  · rw [failed]
    exact ⟨congrArg Prod.fst failed,congrArg (·.2.files) failed⟩
  · rw [run_writes rendered unsealed] at retained ⊢
    obtain ⟨listing,contents⟩ := retained
    have again : tools.rendering .types config
        {host.insert config.outputPath source with writes := host.writes ++ [config.outputPath]} =
          .ok (entries,source) := by
      refine rendering_of_list rendered fun files listed => ⟨listing.trans listed,fun file member => ?_⟩
      rw [MemoryHost.read?,MemoryHost.read?,contents listed file member]
      rfl
    rw [run_writes again unsealed]
    exact ⟨rfl,Sorted.insert_insert⟩

end Toolchain

namespace Environment

variable {env : Environment MemoryHost}

theorem save_run (tools : Toolchain) (config : Config) (h : Nat) (u : World MemoryHost) :
    ∃ saved, save h config.outputPath (tools.rendering .types config (u.host h)) u =
        ((tools.run config (u.host h)).1,saved) ∧ saved.host h = (tools.run config (u.host h)).2 := by
  unfold save Toolchain.run
  cases tools.rendering .types config (u.host h) with
  | error fault => exact ⟨u,rfl,rfl⟩
  | ok done =>
    obtain ⟨entries,source⟩ := done
    cases written : (u.host h).write config.outputPath source with
    | error fault =>
      have refused : Host.write config.outputPath source (u.host h) = .error fault := written
      exact ⟨u,by simp only [refused,written],by simp only [written]⟩
    | ok state =>
      have wrote : Host.write config.outputPath source (u.host h) = .ok state := written
      exact ⟨u.setHost h state,by simp only [wrote,written],by simp [written]⟩

theorem Quiet.produce_run (quiet : env.Quiet) (generator : Option Nat) (h : Nat) (logger : Option Nat)
    (config : Config) (w : World MemoryHost) :
    ∃ v, env.produce generator h logger config w = some ((env.toolchain.run config (w.host h)).1,v) ∧
      v.host h = (env.toolchain.run config (w.host h)).2 := by
  obtain ⟨u,result,saved,v,before,written,after,run⟩ := quiet.produce generator h logger config w
  obtain ⟨state,same,host⟩ := save_run env.toolchain config h u
  rw [before.hosts] at same host
  rw [written] at same
  cases same
  exact ⟨v,run,(after.hosts h).trans host⟩

/-- Regeneration leaves the listing of the locales directory and all listed files as they are, if it fails or its
output is no locale file of that directory; else only if the output held already what it writes. Where it
leaves them, it has the same result when it is run again, and leaves the same files. -/
theorem produce_recurs (quiet : env.Quiet) (generator : Option Nat) (h : Nat) (logger : Option Nat)
    (config : Config) (w : World MemoryHost) :
    ∃ result v, env.produce generator h logger config w = some (result,v) ∧
      ((w.host h).Retains config.localesDirectory (v.host h) ↔
        (∃ fault, result = .error fault) ∨
        MemoryHost.isLocaleFileOf config.localesDirectory config.outputPath = false ∨
        (v.host h).files = (w.host h).files) ∧
      ((w.host h).Retains config.localesDirectory (v.host h) →
        ∃ again, env.produce generator h logger config v = some (result,again) ∧
          (again.host h).files = (v.host h).files) := by
  obtain ⟨v,first,host⟩ := quiet.produce_run generator h logger config w
  obtain ⟨again,second,last⟩ := quiet.produce_run generator h logger config v
  refine ⟨_,v,first,?_,fun retained => ?_⟩
  · rw [host]
    exact Toolchain.retains_run_iff
  · rw [host] at retained second last
    obtain ⟨result,files⟩ := Toolchain.run_again retained
    rw [result] at second
    exact ⟨again,second,by rw [last,host,files]⟩

/-- The usual toolchain, and nobody who does anything. -/
def plain : Environment MemoryHost := .scripted Toolchain.standard (fun _ _ => .done) 0

theorem plain_quiet : plain.Quiet := scripted_quiet Toolchain.standard 0

end Environment

/-- A host with one locale file. -/
def World.single : World MemoryHost := {hosts := ⟨[{files := [(⟨"/p/locales/en.yaml"⟩,"a: b")]}]⟩}

def apartConfig : Config := ⟨"i18n",⟨"/p/locales"⟩,⟨"/p/src/i18n.d.ts"⟩,.normal⟩

open Environment in
theorem single_recurs : ∃ report v, plain.produce none 0 none apartConfig .single = some (.ok report,v) ∧
    (World.single.host 0).Retains ⟨"/p/locales"⟩ (v.host 0) ∧
    ∃ again, plain.produce none 0 none apartConfig v = some (.ok report,again) ∧
      (again.host 0).files = (v.host 0).files := by
  obtain ⟨result,v,first,retains,recurs⟩ := produce_recurs plain_quiet none 0 none apartConfig .single
  have retained := retains.mpr (.inr (.inl (by decide)))
  have written : (plain.produce none 0 none apartConfig .single).any (·.1.isOk) = true := by decide +kernel
  rw [first] at written
  cases result with
  | error fault => cases written
  | ok report => exact ⟨report,v,first,retained,recurs retained⟩

/-- The output is the only locale file there is. -/
def ownOptions : Json :=
  .object [("moduleName",.string "i18n"),("localesDirectory",.string "/p/locales"),
    ("outputPath",.string "/p/locales/en.yaml")]

def ownConfig : Config := ⟨"i18n",⟨"/p/locales"⟩,⟨"/p/locales/en.yaml"⟩,.normal⟩

open Environment in
/-- Nothing objects to an output that is a locale file. The first run writes its declarations there, and the
second finds no locale in them. -/
theorem own_locale_overwritten :
    Config.check ownOptions (some (World.single.host 0)) = .ok ownConfig ∧
    (World.single.host 0).list ⟨"/p/locales"⟩ = .ok [⟨"/p/locales/en.yaml"⟩] ∧
    ∃ report v fault again, plain.produce none 0 none ownConfig .single = some (.ok report,v) ∧
      (v.host 0).file? ⟨"/p/locales/en.yaml"⟩ ≠ (World.single.host 0).file? ⟨"/p/locales/en.yaml"⟩ ∧
      plain.produce none 0 none ownConfig v = some (.error fault,again) := by
  refine ⟨by decide +kernel,by decide +kernel,?_⟩
  obtain ⟨v,first,state⟩ := plain_quiet.produce_run none 0 none ownConfig .single
  obtain ⟨again,second,-⟩ := plain_quiet.produce_run none 0 none ownConfig v
  rw [state] at second
  have changed : (plain.toolchain.run ownConfig (World.single.host 0)).2.file? ⟨"/p/locales/en.yaml"⟩ ≠
      (World.single.host 0).file? ⟨"/p/locales/en.yaml"⟩ := by decide +kernel
  have written : (plain.toolchain.run ownConfig (World.single.host 0)).1.isOk = true := by decide +kernel
  have spoilt : (plain.toolchain.run ownConfig (plain.toolchain.run ownConfig (World.single.host 0)).2).1.isOk =
      false := by decide +kernel
  cases wrote : (plain.toolchain.run ownConfig (World.single.host 0)).1 with
  | error fault => rw [wrote] at written; cases written
  | ok report =>
    cases failed : (plain.toolchain.run ownConfig (plain.toolchain.run ownConfig (World.single.host 0)).2).1 with
    | ok report => rw [failed] at spoilt; cases spoilt
    | error fault =>
      rw [wrote] at first
      rw [failed] at second
      exact ⟨report,v,fault,again,first,state ▸ changed,second⟩

end Phrasebook
