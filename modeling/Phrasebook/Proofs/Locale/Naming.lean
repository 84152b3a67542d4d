import Phrasebook.CommandLine.Run
import Phrasebook.Proofs.Path.Joining
import Phrasebook.Proofs.Session.Editing
import Phrasebook.Proofs.Session.Production
import Phrasebook.Proofs.Text.Encoding

/-! Locale files and the locales that are named after them. A locale file has a name if its file name is a text. In one
directory there is one locale file for each name, so that a listing names every locale once, and loading it fails for
a file without a name and for no other name: `locales_named`. -/
namespace Phrasebook

namespace Path

variable {octets stem ext : Octets}

theorem lastDot_eq_none : lastDot octets = none ↔ dot ∉ octets := by
  induction octets with
  | nil => simp [lastDot]
  | cons octet rest ih =>
    rw [lastDot,List.mem_cons,not_or,← ih]
    cases lastDot rest with
    | some cut => simp
    | none => simp [eq_comm]

theorem lastDot_append (stem : Octets) (plain : dot ∉ ext) : lastDot (stem ++ dot :: ext) = some (stem,ext) := by
  induction stem with
  | nil => simp [lastDot,lastDot_eq_none.mpr plain]
  | cons octet rest ih => simp [lastDot,ih]

theorem eq_of_lastDot (cut : lastDot octets = some (stem,ext)) : octets = stem ++ dot :: ext := by
  induction octets generalizing stem with
  | nil => cases cut
  | cons octet rest ih =>
    rw [lastDot] at cut
    cases later : lastDot rest with
    | some parts =>
      rw [later] at cut
      cases cut
      rw [ih later,List.cons_append]
    | none =>
      simp only [later] at cut
      split at cut
      next found =>
        cases cut
        rw [found,List.nil_append]
      · cases cut

/-- A name with an extension is what stands before the extension, a dot and the extension. -/
theorem eq_of_splitName {name : Octets} (cut : splitName name = (stem,some ext)) :
    stem ≠ [] ∧ name = stem ++ dot :: ext := by
  rw [splitName] at cut
  split at cut
  · cases cut
  · cases cut
  next before after filled found =>
    cases cut
    exact ⟨filled,eq_of_lastDot found⟩

theorem splitName_append (filled : stem ≠ []) (plain : dot ∉ ext) : splitName (stem ++ dot :: ext) = (stem,some ext) := by
  rw [splitName,lastDot_append stem plain]
  cases stem with
  | nil => exact absurd rfl filled
  | cons octet rest => rfl

/-- The file name is a text. -/
def Titled (path : Path) : Prop := ∃ title : String, path.fileName? = some (Text.octets title)

end Path

namespace Locale

variable {path directory : Path} {stem called : Octets} {name : String} {files : List Path}

theorem nameOf?_of_fileName? (filled : stem ≠ []) (called : path.fileName? = some (stem ++ Text.octets ".yaml")) :
    isFile path = true ∧ nameOf? path = Text.ofOctets? stem := by
  have split : Path.splitName (stem ++ Text.octets ".yaml") = (stem,some (Text.octets "yaml")) :=
    Path.splitName_append filled (by decide)
  constructor
  · rw [isFile,Path.extension?,called,Option.bind_some,split]
    exact decide_eq_true rfl
  · rw [nameOf?,Path.stem?,called,Option.map_some,split,Option.bind_some]
    cases read : Text.ofOctets? stem with
    | none => rfl
    | some name =>
      refine Option.filter_some_pos ?_
      rw [Text.ofOctets?_eq_some_iff.mp read,ne_eq,Text.octets_eq_nil_iff] at filled
      simpa using filled

/-- A locale file is called after its locale. -/
theorem fileName?_of_isFile (file : isFile path = true) :
    ∃ stem, stem ≠ [] ∧ path.fileName? = some (stem ++ Text.octets ".yaml") ∧ nameOf? path = Text.ofOctets? stem := by
  obtain ⟨called,found,split⟩ := Option.bind_eq_some_iff.mp (of_decide_eq_true file)
  obtain ⟨filled,whole⟩ := Path.eq_of_splitName (Prod.ext rfl split)
  have named : path.fileName? = some ((Path.splitName called).1 ++ Text.octets ".yaml") := found.trans (congrArg some whole)
  exact ⟨_,filled,named,(nameOf?_of_fileName? filled named).2⟩

theorem fileName?_of_nameOf? (file : isFile path = true) (named : nameOf? path = some name) :
    name ≠ "" ∧ path.fileName? = some (Text.octets (name ++ ".yaml")) := by
  obtain ⟨stem,filled,called,same⟩ := fileName?_of_isFile file
  rw [same,Text.ofOctets?_eq_some_iff] at named
  subst named
  exact ⟨mt Text.octets_eq_nil_iff.mpr filled,by rw [called,Text.octets_append]⟩

/-- What stands before the extension is a text if the whole is. -/
theorem isSome_nameOf?_iff (file : isFile path = true) : (nameOf? path).isSome ↔ path.Titled := by
  constructor
  · intro named
    obtain ⟨name,named⟩ := Option.isSome_iff_exists.mp named
    exact ⟨_,(fileName?_of_nameOf? file named).2⟩
  · rintro ⟨title,entitled⟩
    obtain ⟨stem,-,called,same⟩ := fileName?_of_isFile file
    have whole := Option.some.inj (entitled.symm.trans called)
    obtain ⟨name,rfl⟩ := Text.exists_octets_of_append (by decide +kernel) whole
    rw [same,Text.ofOctets?_octets]
    rfl

theorem ofPiece?_append_extension (stem : Octets) :
    Component.ofPiece? (stem ++ Text.octets ".yaml") = some (.name (stem ++ Text.octets ".yaml")) := by
  have last : (stem ++ Text.octets ".yaml").getLast? = some 0x6c := by
    rw [List.getLast?_append]
    rfl
  have proper : ¬Component.idle (stem ++ Text.octets ".yaml") = true := by
    intro idle
    rcases Bool.or_eq_true_iff.mp idle with same | same <;> simp [of_decide_eq_true same,Path.dot] at last
  have lower : stem ++ Text.octets ".yaml" ≠ [Path.dot,Path.dot] := by
    intro same
    simp [same,Path.dot] at last
  rw [Component.ofPiece?,if_neg proper,if_neg lower]

theorem components_join_locale (directory : Path) (free : Path.slash ∉ stem) :
    (directory.join ⟨stem ++ Text.octets ".yaml"⟩).components =
      directory.components ++ [.name (stem ++ Text.octets ".yaml")] := by
  have named := ofPiece?_append_extension stem
  have proper : ¬Component.idle (stem ++ Text.octets ".yaml") = true := by
    intro idle
    rw [Component.ofPiece?_of_idle idle] at named
    cases named
  have apart : Path.slash ∉ stem ++ Text.octets ".yaml" := by
    rw [List.mem_append]
    exact fun either => either.elim free (by decide)
  rw [Path.components_join directory apart proper,named]
  rfl

/-- Each name has its file in a directory. -/
theorem isFile_join (directory : Path) (filled : name ≠ "") (free : '/' ∉ name.toList) :
    isFile (directory.join ⟨name ++ ".yaml"⟩) = true ∧ nameOf? (directory.join ⟨name ++ ".yaml"⟩) = some name ∧
      MemoryHost.isLocaleFileOf directory (directory.join ⟨name ++ ".yaml"⟩) = true := by
  have components := components_join_locale directory (Text.not_mem_octets (by decide) rfl free)
  have called : (directory.join ⟨name ++ ".yaml"⟩).fileName? = some (Text.octets name ++ Text.octets ".yaml") := by
    rw [Path.fileName?,components,List.getLast?_concat]
  obtain ⟨file,named⟩ := nameOf?_of_fileName? (mt Text.octets_eq_nil_iff.mp filled) called
  have step : Component.name (Text.octets name ++ Text.octets ".yaml") ≠ .root := by simp
  have up : (directory.join ⟨name ++ ".yaml"⟩).parent?.map Path.components = some directory.components := by
    rw [Path.parent?_components,components,Path.above_concat _ step]
  obtain ⟨parent,found,same⟩ := Option.map_eq_some_iff.mp up
  refine ⟨file,named.trans (Text.ofOctets?_octets name),?_⟩
  rw [MemoryHost.isLocaleFileOf,found,file]
  simpa using Path.same_iff.mpr same

/-- Nothing but the file name tells the locale files of a directory apart. -/
theorem components_of_isLocaleFileOf (held : MemoryHost.isLocaleFileOf directory path = true)
    (named : path.fileName? = some called) : path.components = directory.components ++ [.name called] := by
  obtain ⟨inside,-⟩ := Bool.and_eq_true_iff.mp held
  obtain ⟨before,split⟩ : ∃ before, path.components = before ++ [.name called] := by
    rw [Path.fileName?] at named
    split at named
    next last =>
      cases named
      exact List.getLast?_eq_some_iff.mp last
    · cases named
  obtain ⟨parent,found,same⟩ := (Option.any_eq_true _ _).mp inside
  have step : Component.name called ≠ .root := by simp
  have up := path.parent?_components
  rw [found,split,Path.above_concat _ step] at up
  have above : parent.components = before := Option.some.inj up
  rw [split,← above,Path.same_iff.mp same]

theorem same_of_nameOf? {other : Path} (held : MemoryHost.isLocaleFileOf directory path = true)
    (held' : MemoryHost.isLocaleFileOf directory other = true) (named : nameOf? path = some name)
    (named' : nameOf? other = some name) : path.same other = true := by
  have called := (fileName?_of_nameOf? (Bool.and_eq_true_iff.mp held).2 named).2
  have called' := (fileName?_of_nameOf? (Bool.and_eq_true_iff.mp held').2 named').2
  exact Path.same_iff.mpr (by rw [components_of_isLocaleFileOf held called,components_of_isLocaleFileOf held' called'])

theorem names_nodup (inside : ∀ file ∈ files, MemoryHost.isLocaleFileOf directory file = true)
    (apart : files.Pairwise fun a b => ¬a.same b = true) : (names files).Nodup := by
  rw [List.Nodup,names,List.pairwise_filterMap]
  refine apart.imp_of_mem fun {a b} first next differ name named name' named' same => ?_
  exact differ (same_of_nameOf? (inside a first) (inside b next) named (same ▸ named'))

/-- Every file counts. -/
theorem map_nameOf? (file : ∀ file ∈ files, isFile file = true) (titled : ∀ file ∈ files, file.Titled) :
    files.map nameOf? = (names files).map some := by
  induction files with
  | nil => rfl
  | cons path rest ih =>
    obtain ⟨here,others⟩ := List.forall_mem_cons.mp file
    obtain ⟨entitled,titles⟩ := List.forall_mem_cons.mp titled
    obtain ⟨name,called⟩ := Option.isSome_iff_exists.mp ((isSome_nameOf?_iff here).mpr entitled)
    have first : names (path :: rest) = name :: names rest := List.filterMap_cons_some called
    rw [List.map_cons,ih others titles,first,List.map_cons,called]

end Locale

theorem MemoryHost.isFile_of_list {host : MemoryHost} {directory : Path} {files : List Path}
    (listed : host.list directory = .ok files) : ∀ file ∈ files, Locale.isFile file = true :=
  fun _ member => (Bool.and_eq_true_iff.mp (isLocaleFileOf_of_list listed member)).2

theorem DiskHost.isFile_of_listFiles {host : DiskHost} {directory : Path} {files : List Path}
    (listed : host.listFiles directory = .ok files) : ∀ file ∈ files, Locale.isFile file = true := by
  intro file member
  rw [listFiles] at listed
  split at listed
  · cases listed
  · cases listed
  next place _ =>
    cases listed
    obtain ⟨⟨name,node⟩,-,kept⟩ := List.mem_filterMap.mp member
    dsimp only at kept
    split at kept
    next both =>
      cases kept
      exact (Bool.and_eq_true_iff.mp both).2
    · cases kept

namespace Toolchain

variable {σ : Type} [Host σ] {host : σ} {path : Path} {files : List Path} {tools : Toolchain}
  {entries : List Locale.Entry} {cause : String}

/-- What is loaded is named as it is listed. -/
theorem names_of_holds (held : List.Forall₂ (tools.Holds host) files entries) :
    Locale.names files = entries.map (·.name) := by
  induction held with
  | nil => rfl
  | @cons file entry files entries holds _ ih =>
    have first : Locale.names (file :: files) = entry.name :: Locale.names files :=
      List.filterMap_cons_some holds.named
    rw [first,ih,List.map_cons]

theorem isSome_of_holds (held : List.Forall₂ (tools.Holds host) files entries) :
    ∀ file ∈ files, (Locale.nameOf? file).isSome := by
  induction held with
  | nil => simp
  | cons holds _ ih => exact List.forall_mem_cons.mpr ⟨Option.isSome_iff_exists.mpr ⟨_,holds.named⟩,ih⟩

/-- Where only locale files are listed, one is ill-formed only if its file name is no text or if the parser says so. -/
theorem parse_of_illFormed {directory : Path}
    (only : ∀ files, Host.list directory host = .ok files → ∀ file ∈ files, Locale.isFile file = true)
    (failed : tools.load directory host = .error (.illFormed path cause)) :
    ∃ files, Host.list directory host = .ok files ∧ path ∈ files ∧
      (¬path.Titled ∧ cause = "file name has no usable stem" ∨
        ∃ text, Host.read? path host = some text ∧ tools.parse text = .error cause) := by
  rw [load] at failed
  split at failed
  · cases failed
  next files listed =>
    obtain ⟨before,spoilt,after,_,rfl,-,spoils⟩ := loadFiles_fails failed
    have member : spoilt ∈ before ++ spoilt :: after := List.mem_append_right _ List.mem_cons_self
    have file := only _ listed spoilt member
    cases spoils with
    | unnamed unnamed =>
      refine ⟨_,listed,member,.inl ⟨fun titled => ?_,rfl⟩⟩
      have named := (Locale.isSome_nameOf?_iff file).mpr titled
      rw [unnamed] at named
      cases named
    | illFormed _ read illFormed => exact ⟨_,listed,member,.inr ⟨_,read,illFormed⟩⟩

/-- A file without a name spoils the whole. -/
theorem load_of_untitled {directory : Path} (listed : Host.list directory host = .ok files)
    (only : ∀ file ∈ files, Locale.isFile file = true) (member : path ∈ files) (untitled : ¬path.Titled) :
    ∃ fault, tools.load directory host = .error fault := by
  cases loaded : tools.load directory host with
  | error fault => exact ⟨fault,rfl⟩
  | ok entries =>
    obtain ⟨files',listed',held⟩ := load_eq_ok_iff.mp loaded
    cases listed.symm.trans listed'
    exact absurd ((Locale.isSome_nameOf?_iff (only path member)).mp (isSome_of_holds held path member)) untitled

/-- The parser has nothing to say about names. -/
theorem parseYaml_ne (text : String) : parseYaml text ≠ .error "file name has no usable stem" := by
  intro failed
  rw [parseYaml] at failed
  split at failed
  · cases failed
  next fault _ =>
    have message := congrArg (fun text : String => text.toList.head?) (Except.error.inj failed)
    cases fault <;> simp [Locale.Fault.message] at message

theorem untitled_of_load {directory : Path}
    (only : ∀ files, Host.list directory host = .ok files → ∀ file ∈ files, Locale.isFile file = true)
    (failed : standard.load directory host = .error (.illFormed path "file name has no usable stem")) :
    ¬path.Titled ∧ ∃ files, Host.list directory host = .ok files ∧ path ∈ files := by
  obtain ⟨files,listed,member,⟨untitled,-⟩ | ⟨text,-,parsed⟩⟩ := parse_of_illFormed only failed
  · exact ⟨untitled,files,listed,member⟩
  · exact absurd parsed (parseYaml_ne text)

end Toolchain

theorem CommandLine.check_of_load {located : Located} {console : Console} {disk : Disk} {config : Config}
    {entries : List Locale.Entry} (adopted : located.check disk = .ok config)
    (loaded : environment.toolchain.load config.localesDirectory ({disk := disk} : DiskHost) = .ok entries) :
    check located console disk = .succeed [accepted located console config (entries.map (·.name))] disk := by
  obtain ⟨files,listed,held⟩ := Toolchain.load_eq_ok_iff.mp loaded
  have shown : DiskHost.listFiles config.localesDirectory {disk := disk} = .ok files := listed
  rw [check,adopted]
  simp only [shown,Toolchain.names_of_holds held]

namespace Locale

/-- Locale files whose names are texts and names of locales belong to each other one by one. So whatever happened to
a host in memory, a listing is in strict order and names no locale twice; loading it, there or from disk, fails for a
file whose name is no text and for no other name, and gives the locales that a check shows. -/
theorem locales_named :
    (∀ path, isFile path = true → ((nameOf? path).isSome ↔ path.Titled) ∧
      ∀ name, nameOf? path = some name → name ≠ "" ∧ path.fileName? = some (Text.octets (name ++ ".yaml"))) ∧
    (∀ (directory : Path) (name : String), name ≠ "" → '/' ∉ name.toList →
      isFile (directory.join ⟨name ++ ".yaml"⟩) = true ∧ nameOf? (directory.join ⟨name ++ ".yaml"⟩) = some name ∧
        MemoryHost.isLocaleFileOf directory (directory.join ⟨name ++ ".yaml"⟩) = true) ∧
    (∀ directory path other name, MemoryHost.isLocaleFileOf directory path = true →
      MemoryHost.isLocaleFileOf directory other = true → nameOf? path = some name → nameOf? other = some name →
        path.same other = true) ∧
    (∀ start w : World MemoryHost, start.Fresh → (∀ h, (start.host h).Tidy) → Leads start w →
      ∀ h directory files, (w.host h).list directory = .ok files →
        (files.Pairwise fun a b => compare a b = .lt) ∧ (names files).Nodup ∧
          ((∀ file ∈ files, file.Titled) → files.map nameOf? = (names files).map some)) ∧
    (∀ (tools : Toolchain) (host : MemoryHost) (directory path : Path) (cause : String),
      tools.load directory host = .error (.illFormed path cause) → path.Titled →
        ∃ text, host.read? path = some text ∧ tools.parse text = .error cause) ∧
    (∀ (host : MemoryHost) (directory path : Path),
      Toolchain.standard.load directory host = .error (.illFormed path "file name has no usable stem") →
        ¬path.Titled ∧ ∃ files, host.list directory = .ok files ∧ path ∈ files) ∧
    (∀ (host : DiskHost) (directory path : Path),
      Toolchain.standard.load directory host = .error (.illFormed path "file name has no usable stem") →
        ¬path.Titled ∧ ∃ files, host.listFiles directory = .ok files ∧ path ∈ files) ∧
    (∀ (tools : Toolchain) (host : MemoryHost) (directory : Path) (files : List Path),
      host.list directory = .ok files → (∃ file ∈ files, ¬file.Titled) →
        ∃ fault, tools.load directory host = .error fault) ∧
    (∀ (tools : Toolchain) (host : MemoryHost) (directory : Path) (files : List Path) (entries : List Entry),
      host.list directory = .ok files → tools.load directory host = .ok entries →
        names files = entries.map (·.name)) ∧
    ∀ (located : CommandLine.Located) (console : CommandLine.Console) (disk : Disk) (config : Config)
      (entries : List Entry), located.check disk = .ok config →
        CommandLine.environment.toolchain.load config.localesDirectory ({disk := disk} : DiskHost) = .ok entries →
          CommandLine.check located console disk =
            .succeed [CommandLine.accepted located console config (entries.map (·.name))] disk := by
  refine ⟨fun _ file => ⟨isSome_nameOf?_iff file,fun _ => fileName?_of_nameOf? file⟩,
    fun directory name => isFile_join directory,fun _ _ _ _ => same_of_nameOf?,?_,?_,
    fun _ _ _ => Toolchain.untitled_of_load fun _ => MemoryHost.isFile_of_list,
    fun _ _ _ => Toolchain.untitled_of_load fun _ => DiskHost.isFile_of_listFiles,?_,?_,
    fun _ _ _ _ _ => CommandLine.check_of_load⟩
  · intro start w fresh tidy leads h directory files listed
    have neat := (Rests.leadsBy leads.by_any).neat (fresh.neat tidy)
    exact ⟨MemoryHost.list_increasing (neat.tidy h) listed,
      names_nodup (fun _ => MemoryHost.isLocaleFileOf_of_list listed) (MemoryHost.list_apart (neat.tidy h) listed),
      map_nameOf? (MemoryHost.isFile_of_list listed)⟩
  · intro tools host directory path cause failed titled
    obtain ⟨_,-,-,⟨untitled,-⟩ | parsed⟩ := Toolchain.parse_of_illFormed (fun _ => MemoryHost.isFile_of_list) failed
    · exact absurd titled untitled
    · exact parsed
  · rintro tools host directory files listed ⟨file,member,untitled⟩
    exact Toolchain.load_of_untitled listed (MemoryHost.isFile_of_list listed) member untitled
  · intro tools host directory files entries listed loaded
    obtain ⟨_,listed',held⟩ := Toolchain.load_eq_ok_iff.mp loaded
    cases listed.symm.trans listed'
    exact Toolchain.names_of_holds held

/-- The shortest name that could be taken for a step upwards, and a host with one locale. -/
theorem dot_named : nameOf? ((⟨"/p/locales/"⟩ : Path).join ⟨"." ++ ".yaml"⟩) = some "." ∧
    World.vacant.Fresh ∧ (∀ h, (World.vacant.host h).Tidy) ∧
    (World.vacant.host 0).list ⟨"/p/locales"⟩ = .ok [⟨"/p/locales/en.yaml"⟩] ∧
    [Path.mk "/p/locales/en.yaml"].map nameOf? = (names [⟨"/p/locales/en.yaml"⟩]).map some := by
  have listed : (World.vacant.host 0).list ⟨"/p/locales"⟩ = .ok [⟨"/p/locales/en.yaml"⟩] := by decide +kernel
  have titled : ∀ file ∈ [Path.mk "/p/locales/en.yaml"], file.Titled :=
    List.forall_mem_singleton.mpr ⟨"en.yaml",by decide +kernel⟩
  obtain ⟨-,joined,-,lists,-⟩ := locales_named
  exact ⟨(joined _ _ (by decide) (by decide)).2.1,World.vacant_fresh,vacant_tidy,listed,
    (lists _ _ World.vacant_fresh vacant_tidy (.refl _) _ _ _ listed).2.2 titled⟩

/-- A file whose name is no text. -/
def stray : Path := ⟨Text.octets "/p/locales/" ++ 0xff :: Text.octets ".yaml"⟩

/-- It is a locale file, which is listed, without a name. -/
theorem stray_unnamed : isFile stray = true ∧ nameOf? stray = none ∧
    MemoryHost.list ⟨"/p/locales"⟩ {files := [(stray,"a: b")]} = .ok [stray] ∧
    Toolchain.standard.load ⟨"/p/locales"⟩ ({files := [(stray,"a: b")]} : MemoryHost) =
      .error (.illFormed stray "file name has no usable stem") := by
  decide +kernel

end Locale
end Phrasebook
