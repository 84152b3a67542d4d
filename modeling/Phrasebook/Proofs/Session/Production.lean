import Mathlib.Data.List.Forall2
import Phrasebook.Proofs.Host.Files
import Phrasebook.Proofs.Session.Quiet

/-! A run from listing to writing is all or nothing. What it writes is decided before it writes, by the
host's files alone: `Toolchain.rendering`. It fails at the first step that can fail (`FirstFault`), and
then nothing has happened to the host: `produce_all_or_nothing`. -/
namespace Phrasebook

namespace Toolchain

section Loading

variable {σ : Type} [Host σ] (tools : Toolchain) (host : σ)

/-- A file holds a locale. -/
structure Holds (path : Path) (entry : Locale.Entry) : Prop where
  named : Locale.nameOf? path = some entry.name
  parsed : ∃ text, Host.read? path host = some text ∧ tools.parse text = .ok entry.tree

/-- Why a file holds no locale: it has no name for one, or it has but cannot be read, or it can be read
but makes no sense. -/
inductive Spoils (path : Path) : RunFault → Prop where
  | unnamed (unnamed : Locale.nameOf? path = none) :
      Spoils path (.illFormed path "file name has no usable stem")
  | unreadable {name : String} (named : Locale.nameOf? path = some name)
      (unreadable : Host.read? path host = none) : Spoils path (.unreadable path)
  | illFormed {name text cause : String} (named : Locale.nameOf? path = some name)
      (read : Host.read? path host = some text) (illFormed : tools.parse text = .error cause) :
      Spoils path (.illFormed path cause)

variable {tools host} {path : Path} {files : List Path} {entry : Locale.Entry} {entries : List Locale.Entry}
  {fault : RunFault}

theorem loadFile_eq_ok_iff : tools.loadFile host path = .ok entry ↔ tools.Holds host path entry := by
  constructor
  · intro loaded
    rw [loadFile] at loaded
    split at loaded
    · contradiction
    next name named =>
      split at loaded
      · contradiction
      next text read =>
        split at loaded
        · contradiction
        next tree parsed =>
          cases loaded
          exact ⟨named,text,read,parsed⟩
  · rintro ⟨named,text,read,parsed⟩
    simp [loadFile,named,read,parsed]

theorem loadFile_spoils (failed : tools.loadFile host path = .error fault) : tools.Spoils host path fault := by
  rw [loadFile] at failed
  split at failed
  next unnamed => cases failed; exact .unnamed unnamed
  next name named =>
    split at failed
    next unreadable => cases failed; exact .unreadable named unreadable
    next text read =>
      split at failed
      next cause illFormed => cases failed; exact .illFormed named read illFormed
      · contradiction

theorem loadFiles_cons (path : Path) (files : List Path) : tools.loadFiles host (path :: files) =
    match tools.loadFile host path with
    | .error fault => .error fault
    | .ok entry => (tools.loadFiles host files).map (entry :: ·) := by
  rw [loadFiles]
  cases tools.loadFile host path with
  | error fault => rfl
  | ok entry => cases tools.loadFiles host files <;> rfl

theorem loadFiles_eq_ok_iff :
    tools.loadFiles host files = .ok entries ↔ List.Forall₂ (tools.Holds host) files entries := by
  induction files generalizing entries with
  | nil => simp [loadFiles,eq_comm]
  | cons path files ih =>
    rw [loadFiles_cons,List.forall₂_cons_left_iff]
    simp only [← loadFile_eq_ok_iff,← ih]
    cases tools.loadFile host path with
    | error fault => simp
    | ok entry => cases tools.loadFiles host files <;> simp [Except.map,eq_comm]

/-- All files before the first one that holds no locale hold one. -/
theorem loadFiles_fails (failed : tools.loadFiles host files = .error fault) :
    ∃ before path after entries, files = before ++ path :: after ∧
      List.Forall₂ (tools.Holds host) before entries ∧ tools.Spoils host path fault := by
  induction files with
  | nil => cases failed
  | cons path files ih =>
    rw [loadFiles_cons] at failed
    split at failed
    next spoilt =>
      cases failed
      exact ⟨[],path,files,[],rfl,.nil,loadFile_spoils spoilt⟩
    next entry loaded =>
      cases rest : tools.loadFiles host files with
      | ok entries => simp [rest,Except.map] at failed
      | error later =>
        obtain rfl : later = fault := by simpa [rest,Except.map] using failed
        obtain ⟨before,spoilt,after,entries,split,held,spoils⟩ := ih rest
        exact ⟨path :: before,spoilt,after,entry :: entries,by simp [split],
          .cons (loadFile_eq_ok_iff.mp loaded) held,spoils⟩

theorem load_eq_ok_iff {directory : Path} : tools.load directory host = .ok entries ↔
    ∃ files, Host.list directory host = .ok files ∧ List.Forall₂ (tools.Holds host) files entries := by
  rw [load]
  cases Host.list directory host with
  | error fault => simp
  | ok files => simp [loadFiles_eq_ok_iff]

end Loading

section Rendering

variable {σ : Type} [Host σ] (tools : Toolchain) (target : Target) (config : Config) (host : σ)

/-- The locales and the text generated from them, if nobody interferes. -/
def rendering : Except RunFault (List Locale.Entry × String) :=
  match tools.load config.localesDirectory host with
  | .error fault => .error fault
  | .ok entries =>
    match tools.generate entries target config.mode with
    | .error cause => .error (.generator cause)
    | .ok artifact => .ok (entries,artifact.primary)

/-- The first step of a run that fails, and how. The steps before it have succeeded. -/
inductive FirstFault : RunFault → Prop where
  | listing {fault : HostFault} (refused : Host.list config.localesDirectory host = .error fault) :
      FirstFault (.listing fault)
  | file {before after : List Path} {path : Path} {entries : List Locale.Entry} {fault : RunFault}
      (listed : Host.list config.localesDirectory host = .ok (before ++ path :: after))
      (held : List.Forall₂ (tools.Holds host) before entries) (spoils : tools.Spoils host path fault) :
      FirstFault fault
  | generator {files : List Path} {entries : List Locale.Entry} {cause : String}
      (listed : Host.list config.localesDirectory host = .ok files)
      (held : List.Forall₂ (tools.Holds host) files entries)
      (refused : tools.generate entries target config.mode = .error cause) : FirstFault (.generator cause)
  | write {files : List Path} {entries : List Locale.Entry} {artifact : Artifact} {fault : HostFault}
      (listed : Host.list config.localesDirectory host = .ok files)
      (held : List.Forall₂ (tools.Holds host) files entries)
      (generated : tools.generate entries target config.mode = .ok artifact)
      (refused : Host.write config.outputPath artifact.primary host = .error fault) : FirstFault (.write fault)

variable {tools target config host}

theorem rendering_eq_ok {entries : List Locale.Entry} {source : String}
    (rendered : tools.rendering target config host = .ok (entries,source)) :
    ∃ files artifact, Host.list config.localesDirectory host = .ok files ∧
      List.Forall₂ (tools.Holds host) files entries ∧
      tools.generate entries target config.mode = .ok artifact ∧ source = artifact.primary := by
  rw [rendering] at rendered
  split at rendered
  · contradiction
  next loaded =>
    obtain ⟨files,listed,held⟩ := load_eq_ok_iff.mp loaded
    split at rendered
    · contradiction
    next artifact generated =>
      cases rendered
      exact ⟨files,artifact,listed,held,generated,rfl⟩

theorem rendering_fails {fault : RunFault} (failed : tools.rendering target config host = .error fault) :
    tools.FirstFault target config host fault := by
  rw [rendering] at failed
  split at failed
  next unloaded =>
    cases failed
    rw [load] at unloaded
    split at unloaded
    next refused => cases unloaded; exact .listing refused
    next listed =>
      obtain ⟨before,path,after,entries,rfl,held,spoils⟩ := loadFiles_fails unloaded
      exact .file listed held spoils
  next loaded =>
    obtain ⟨files,listed,held⟩ := load_eq_ok_iff.mp loaded
    split at failed
    next refused => cases failed; exact .generator listed held refused
    · contradiction

end Rendering

section Contents

variable {tools : Toolchain} {target : Target} {config : Config} {a b : MemoryHost}
  {rendered : List Locale.Entry × String}

/-- What is rendered depends on the listed files alone. -/
theorem rendering_of_list (done : tools.rendering target config a = .ok rendered)
    (same : ∀ files, a.list config.localesDirectory = .ok files →
      b.list config.localesDirectory = .ok files ∧ ∀ file ∈ files, b.read? file = a.read? file) :
    tools.rendering target config b = .ok rendered := by
  obtain ⟨entries,source⟩ := rendered
  obtain ⟨files,artifact,listed,held,generated,rfl⟩ := rendering_eq_ok done
  obtain ⟨still,read⟩ := same files listed
  have holds : List.Forall₂ (tools.Holds b) files entries := by
    refine List.forall₂_iff_zip.mpr ⟨held.length_eq,fun {file entry} member => ?_⟩
    obtain ⟨named,text,here,parsed⟩ := List.forall₂_zip held member
    exact ⟨named,text,(read file (List.of_mem_zip member).1).trans here,parsed⟩
  have loaded := load_eq_ok_iff.mpr ⟨files,still,holds⟩
  simp only [rendering,loaded,generated]

/-- A file that is not a locale file has no part in it. -/
theorem rendering_insert {path : Path} (content : String)
    (apart : MemoryHost.isLocaleFileOf config.localesDirectory path = false)
    (done : tools.rendering target config a = .ok rendered) :
    tools.rendering target config (a.insert path content) = .ok rendered := by
  refine rendering_of_list done fun files listed => ⟨MemoryHost.list_insert apart listed,fun file member => ?_⟩
  refine a.read?_insert content fun same => ?_
  have locale := MemoryHost.isLocaleFileOf_of_list listed member
  rw [MemoryHost.isLocaleFileOf_of_same _ same,apart] at locale
  contradiction

theorem rendering_of_store (same : b.store = a.store) (done : tools.rendering target config a = .ok rendered) :
    tools.rendering target config b = .ok rendered := by
  refine rendering_of_list done fun files listed => ?_
  rw [← MemoryHost.list_store,same]
  refine ⟨listed,fun file _ => ?_⟩
  rw [← MemoryHost.read?_store,same]
  rfl

end Contents

/-- What a host has become by a run that wrote. -/
structure Writes (tools : Toolchain) (config : Config) (before after : MemoryHost) (report : Report) : Prop where
  output : ∃ files entries artifact, before.list config.localesDirectory = .ok files ∧
    List.Forall₂ (tools.Holds before) files entries ∧
    tools.generate entries .types config.mode = .ok artifact ∧
    after.file? config.outputPath = some artifact.primary ∧
    report = ⟨config.outputPath,entries.map (·.name),Digest.ofText artifact.primary⟩
  writes : after.writes = before.writes ++ [config.outputPath]
  others : ∀ path, ¬path.same config.outputPath → after.file? path = before.file? path
  rest : after = {before with files := after.files,writes := after.writes}

end Toolchain

namespace Environment

variable {env : Environment MemoryHost}

theorem Quiet.render (quiet : env.Quiet) (generator : Option Nat) (h : Nat) (config : Config) (target : Target)
    (w : World MemoryHost) : ∃ v, w.Heard v ∧
      env.render generator h config target w = some (env.toolchain.rendering target config (w.host h),v) := by
  rw [Environment.render,Toolchain.rendering]
  cases env.toolchain.load config.localesDirectory (w.host h) with
  | error fault => exact ⟨w,.refl w,rfl⟩
  | ok entries =>
    obtain ⟨v,heard,called⟩ := quiet.announceCall w generator
    refine ⟨v,heard,?_⟩
    simp only [called,Option.bind_eq_bind,Option.bind_some]
    cases env.toolchain.generate entries target config.mode <;> rfl

/-- Between what is said before and after, a run writes what there was to be rendered at its start. -/
theorem Quiet.produce (quiet : env.Quiet) (generator : Option Nat) (h : Nat) (logger : Option Nat)
    (config : Config) (w : World MemoryHost) : ∃ u result saved v, w.Heard u ∧
      save h config.outputPath (env.toolchain.rendering .types config (w.host h)) u = (result,saved) ∧
      saved.Heard v ∧ env.produce generator h logger config w = some (result,v) := by
  obtain ⟨begun,first,log⟩ := quiet.log w logger ("write file: " ++ config.outputPath.display)
  obtain ⟨u,next,render⟩ := quiet.render generator h config .types begun
  rw [first.hosts] at render
  cases written : save h config.outputPath (env.toolchain.rendering .types config (w.host h)) u with
  | mk result saved =>
    cases result with
    | ok report =>
      obtain ⟨v,last,told⟩ := quiet.log saved logger ("write file succeed: " ++ config.outputPath.display)
      have noted : v.Heard (v.record (.noted (.regenerated report))) := .record (fun _ => rfl) rfl
      refine ⟨u,_,saved,_,first.trans next,written,last.trans noted,?_⟩
      simp [Environment.produce,log,render,written,told]
    | error fault =>
      obtain ⟨v,last,told⟩ := quiet.log saved logger ("write file failed: " ++ fault.message)
      refine ⟨u,_,saved,v,first.trans next,written,last,?_⟩
      simp [Environment.produce,log,render,written,told]

/-- What is saved is either all of what was rendered, or nothing. -/
theorem save_all_or_nothing {tools : Toolchain} {config : Config} {h : Nat} {u saved : World MemoryHost}
    {result : Except RunFault Report} (run : save h config.outputPath
      (tools.rendering .types config (u.host h)) u = (result,saved)) :
    (∀ g, g ≠ h → saved.host g = u.host g) ∧
    match result with
    | .ok report => tools.Writes config (u.host h) (saved.host h) report
    | .error fault => saved = u ∧ tools.FirstFault .types config (u.host h) fault := by
  unfold save at run
  split at run
  next failed =>
    cases run
    exact ⟨fun _ _ => rfl,rfl,Toolchain.rendering_fails failed⟩
  next entries source rendered =>
    obtain ⟨files,artifact,listed,held,generated,rfl⟩ := Toolchain.rendering_eq_ok rendered
    split at run
    next refused =>
      cases run
      exact ⟨fun _ _ => rfl,rfl,.write listed held generated refused⟩
    next state written =>
      cases run
      have same : (u.setHost h state).host h = state := by simp
      obtain rfl := MemoryHost.write_eq_ok written
      refine ⟨fun g other => by simp [Ne.symm other],?_⟩
      change tools.Writes config (u.host h) ((u.setHost h _).host h) _
      rw [same]
      exact {
        output := ⟨files,entries,artifact,listed,held,generated,
          (MemoryHost.file?_insert ..).trans (if_pos (Path.same_refl _)),rfl⟩
        writes := rfl
        others := fun path other => (MemoryHost.file?_insert ..).trans (if_neg other)
        rest := rfl}

/-- A run either writes what the generator makes of all listed files, and nothing else, or it changes
nothing and says what went wrong first. To render without writing never changes a host. -/
theorem produce_all_or_nothing (quiet : env.Quiet) (generator : Option Nat) (h : Nat) (logger : Option Nat)
    (config : Config) (w : World MemoryHost) :
    (∃ result v, env.produce generator h logger config w = some (result,v) ∧
      (∀ g, g ≠ h → v.host g = w.host g) ∧
      match result with
      | .ok report => env.toolchain.Writes config (w.host h) (v.host h) report
      | .error fault => v.host h = w.host h ∧ env.toolchain.FirstFault .types config (w.host h) fault) ∧
    ∀ target, ∃ v, env.render generator h config target w =
      some (env.toolchain.rendering target config (w.host h),v) ∧ ∀ g, v.host g = w.host g := by
  constructor
  · obtain ⟨u,result,saved,v,before,written,after,run⟩ := quiet.produce generator h logger config w
    rw [← before.hosts] at written
    obtain ⟨others,outcome⟩ := save_all_or_nothing written
    refine ⟨result,v,run,fun g other => by rw [after.hosts,others g other,before.hosts],?_⟩
    cases result with
    | ok report => simpa only [after.hosts,before.hosts] using outcome
    | error fault =>
      obtain ⟨rfl,first⟩ := outcome
      rw [before.hosts] at first
      exact ⟨by rw [after.hosts,before.hosts],first⟩
  · intro target
    obtain ⟨v,heard,run⟩ := quiet.render generator h config target w
    exact ⟨v,run,heard.hosts⟩

def sealedConfig : Config := ⟨"i18n",⟨"/p"⟩,⟨"/p/i18n.d.ts"⟩,.normal⟩

end Environment

/-- A host with one locale file, on which the output cannot be written. -/
def World.sealed : World MemoryHost :=
  {hosts := ⟨[{files := [(⟨"/p/en.yaml"⟩,"a: b")],readOnly := [⟨"/p/i18n.d.ts"⟩]}]⟩}

theorem sealed_unwritten : ∃ v, Environment.stamping.produce none 0 none Environment.sealedConfig .sealed =
    some (.error (.write (.write ⟨"/p/i18n.d.ts"⟩ "read-only file")),v) ∧ v.host 0 = World.sealed.host 0 := by
  obtain ⟨result,v,run,-,outcome⟩ :=
    (Environment.produce_all_or_nothing Environment.stamping_quiet none 0 none Environment.sealedConfig .sealed).1
  have refused : (Environment.stamping.produce none 0 none Environment.sealedConfig .sealed).map (·.1) =
      some (.error (.write (.write ⟨"/p/i18n.d.ts"⟩ "read-only file"))) := by
    decide +kernel
  rw [run] at refused ⊢
  obtain rfl := Option.some.inj refused
  exact ⟨v,rfl,outcome.1⟩

end Phrasebook
