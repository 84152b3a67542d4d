import Phrasebook.Proofs.Host.Order
import Phrasebook.Proofs.Respelling.Relation

/-! A host in memory never looks at how a path is spelled, and neither does the check of options: whatever is asked
of them with another spelling has the same answer, told with another spelling. -/
namespace Phrasebook

section Lists

variable {α β : Type} {R : α → β → Prop} {as : List α} {bs : List β}

theorem any_of_forall₂ {p : α → Bool} {q : β → Bool} (related : List.Forall₂ R as bs)
    (same : ∀ a b, R a b → p a = q b) : as.any p = bs.any q := by
  induction related with
  | nil => rfl
  | cons first _ ih => rw [List.any_cons,List.any_cons,same _ _ first,ih]

theorem filter_of_forall₂ {p : α → Bool} {q : β → Bool} (related : List.Forall₂ R as bs)
    (same : ∀ a b, R a b → p a = q b) : List.Forall₂ R (as.filter p) (bs.filter q) :=
  List.rel_filter (fun {a b} first => by simp only [same a b first]) related

theorem map_of_forall₂ {γ δ : Type} {S : γ → δ → Prop} {f : α → γ} {g : β → δ} (related : List.Forall₂ R as bs)
    (next : ∀ a b, R a b → S (f a) (g b)) : List.Forall₂ S (as.map f) (bs.map g) :=
  List.rel_map (fun {a b} first => next a b first) related

theorem map_eq_of_forall₂ {γ : Type} {f : α → γ} {g : β → γ} (related : List.Forall₂ R as bs)
    (same : ∀ a b, R a b → f a = g b) : as.map f = bs.map g := by
  induction related with
  | nil => rfl
  | cons first _ ih => rw [List.map_cons,List.map_cons,same _ _ first,ih]

theorem append_of_forall₂ {more : List α} {more' : List β} (first : List.Forall₂ R as bs)
    (next : List.Forall₂ R more more') : List.Forall₂ R (as ++ more) (bs ++ more') := List.rel_append first next

theorem getLast?_of_forall₂ (related : List.Forall₂ R as bs) : Option.Rel R as.getLast? bs.getLast? := by
  induction related with
  | nil => exact .none
  | cons first related ih =>
    cases related with
    | nil => exact .some first
    | cons => simpa using ih

theorem set_of_forall₂ {a : α} {b : β} (i : Nat) (related : List.Forall₂ R as bs) (put : R a b) :
    List.Forall₂ R (as.set i a) (bs.set i b) := by
  induction related generalizing i with
  | nil => exact .nil
  | cons first rest ih =>
    cases i with
    | zero => exact .cons put rest
    | succ i => exact .cons first (ih i)

theorem dropLast_of_forall₂ (related : List.Forall₂ R as bs) : List.Forall₂ R as.dropLast bs.dropLast := by
  rw [List.dropLast_eq_take,List.dropLast_eq_take,related.length_eq]
  exact List.forall₂_take _ related

end Lists

namespace Path.Respells

variable {a b c d : Path}

theorem refl (path : Path) : path.Respells path := same_refl path

theorem components (path : a.Respells b) : a.components = b.components := same_iff.mp path

theorem same_eq (left : a.Respells b) (right : c.Respells d) : a.same c = b.same d := by
  rw [same,same,left.components,right.components]

theorem compare_eq (left : a.Respells b) (right : c.Respells d) : compare a c = compare b d := by
  change List.compareLex compare a.components c.components = List.compareLex compare b.components d.components
  rw [left.components,right.components]

theorem startsWith_eq (left : a.Respells b) (right : c.Respells d) : a.startsWith c = b.startsWith d := by
  rw [startsWith,startsWith,left.components,right.components]

theorem parent (path : a.Respells b) : Option.Rel Path.Respells a.parent? b.parent? := by
  have same := parent?_of_same path
  cases up : a.parent? <;> cases up' : b.parent? <;> rw [up,up'] at same
  · exact .none
  · cases same
  · cases same
  · exact .some (same_iff.mpr (Option.some.inj same))

theorem fileName?_eq (path : a.Respells b) : a.fileName? = b.fileName? := by rw [fileName?,fileName?,path.components]

end Path.Respells

/-- Only the empty path has no components. -/
theorem Path.octets_eq_nil_iff {path : Path} : path.octets = [] ↔ path.components = [] := by
  obtain ⟨octets⟩ := path
  constructor
  · rintro rfl
    decide
  · intro nothing
    have fits := (Path.mk octets).cut_fits
    rw [components,List.append_eq_nil_iff] at nothing
    obtain ⟨bare,idle⟩ := nothing
    have lead : (Path.mk octets).cut.1 = .bare := by
      revert bare
      cases (Path.mk octets).cut.1 <;> simp [Lead.components]
    have steps : (Path.mk octets).cut.2 = [] := by
      refine List.eq_nil_iff_forall_not_mem.mpr fun piece member => ?_
      obtain ⟨first,rest,split⟩ := List.exists_cons_of_ne_nil (List.ne_nil_of_mem member)
      have step : ¬Component.idle first = true := by simp [fits.first lead first (by simp [split])]
      obtain ⟨component,named,-⟩ := Component.ofPiece?_of_not_idle step
      simp [split,named] at idle
    have whole := Text.joined_pieces slash octets
    obtain ⟨first,rest,pieces⟩ := List.exists_cons_of_ne_nil (Text.pieces_ne_nil slash octets)
    have pieces' : Text.pieces slash (Path.mk octets).octets = first :: rest := pieces
    rw [pieces] at whole
    by_cases filled : first = []
    · subst filled
      cases rest with
      | nil => exact whole.symm
      | cons next more => simp [cut,pieces'] at lead
    · rw [cut_of_pieces pieces' filled] at lead steps
      split at steps
      next here => simp [here] at lead
      · cases steps

namespace Path.Respells

variable {a b : Path}

theorem isEmpty_eq (path : a.Respells b) : a.isEmpty = b.isEmpty := by
  rw [isEmpty,isEmpty,Bool.eq_iff_iff,List.isEmpty_iff,List.isEmpty_iff,octets_eq_nil_iff,octets_eq_nil_iff,
    path.components]

theorem isFile_eq (path : a.Respells b) : Locale.isFile a = Locale.isFile b := by
  rw [Locale.isFile,Locale.isFile,extension?_of_same path]

theorem nameOf?_eq (path : a.Respells b) : Locale.nameOf? a = Locale.nameOf? b := by
  rw [Locale.nameOf?,Locale.nameOf?,stem?,stem?,path.fileName?_eq]

end Path.Respells

namespace Sorted

variable {ν : Type} {key key' : Path} {value : ν} {entries entries' : List (Path × ν)} {keys keys' : List Path}

theorem insert_respells (path : key.Respells key')
    (related : List.Forall₂ (Both Path.Respells (· = ·)) entries entries') :
    List.Forall₂ (Both Path.Respells (· = ·)) (insert key value entries) (insert key' value entries') := by
  induction related with
  | nil => exact .cons ⟨path,rfl⟩ .nil
  | @cons entry entry' _ _ first rest ih =>
    obtain ⟨k,old⟩ := entry
    obtain ⟨k',old'⟩ := entry'
    simp only [insert,path.compare_eq first.left]
    split
    · exact .cons ⟨path,rfl⟩ (.cons first rest)
    · exact .cons ⟨first.left,rfl⟩ rest
    · exact .cons first ih

theorem add_respells (path : key.Respells key') (related : List.Forall₂ Path.Respells keys keys') :
    List.Forall₂ Path.Respells (add key keys) (add key' keys') := by
  induction related with
  | nil => exact .cons path .nil
  | cons first rest ih =>
    simp only [add,path.compare_eq first]
    split
    · exact .cons path (.cons first rest)
    · exact .cons first rest
    · exact .cons first ih

theorem get?_respells (path : key.Respells key')
    (related : List.Forall₂ (Both Path.Respells (· = ·)) entries entries') :
    get? key entries = get? key' entries' := by
  induction related with
  | nil => rfl
  | @cons entry entry' _ _ first _ ih =>
    obtain ⟨k,old⟩ := entry
    obtain ⟨k',old'⟩ := entry'
    obtain rfl : old = old' := first.right
    simp only [get?,path.compare_eq first.left,ih]

end Sorted

namespace MemoryHost

/-- What is found on a host by two spellings. -/
theorem isLocaleFileOf_respells {directory directory' file file' : Path} (inside : directory.Respells directory')
    (path : file.Respells file') : isLocaleFileOf directory file = isLocaleFileOf directory' file' := by
  rw [isLocaleFileOf,isLocaleFileOf,path.isFile_eq,path.parent.any_eq fun _ _ up => up.same_eq inside]

namespace Respells

variable {host host' : MemoryHost} {path path' : Path} {content : String} {id : WatchId}
  (hosts : host.Respells host') (paths : path.Respells path')

theorem refl (host : MemoryHost) : host.Respells host where
  files := List.forall₂_same.mpr fun _ _ => ⟨.refl _,rfl⟩
  directories := List.forall₂_same.mpr fun _ _ => .refl _
  readOnly := List.forall₂_same.mpr fun _ _ => .refl _
  slots := List.forall₂_same.mpr fun _ _ => ⟨rfl,.refl _,rfl,rfl⟩
  writes := List.forall₂_same.mpr fun _ _ => .refl _
  opened := rfl
  closed := rfl
  refusesWatches := rfl
  watchBudget := rfl
  refusesListing := rfl
  unreadable := List.forall₂_same.mpr fun _ _ => .refl _

include hosts

theorem watches : List.Forall₂ Watch.Respells host.watches host'.watches :=
  filter_of_forall₂ hosts.slots fun _ _ watch => watch.isOpen

theorem prune : host.prune.Respells host'.prune := {hosts with slots := hosts.watches}

theorem close : (host.close id).Respells (host'.close id) := by
  have known : host.watches.any (·.id = id) = host'.watches.any (·.id = id) :=
    any_of_forall₂ hosts.watches fun _ _ watch => by rw [watch.id]
  rw [MemoryHost.close,MemoryHost.close,known]
  split
  · refine {hosts with slots := map_of_forall₂ hosts.slots fun a b watch => ?_,closed := congrArg (· + 1) hosts.closed}
    rw [watch.id]
    split
    · exact ⟨rfl,watch.path,watch.subscriber,rfl⟩
    · exact watch
  · exact hosts

include paths

theorem file? : host.file? path = host'.file? path' := Sorted.get?_respells paths hosts.files

theorem insert : (host.insert path content).Respells (host'.insert path' content) :=
  {hosts with files := Sorted.insert_respells paths hosts.files}

theorem removeDirectory : (host.removeDirectory path).Respells (host'.removeDirectory path') :=
  {hosts with
    files := filter_of_forall₂ hosts.files fun _ _ file => by rw [file.left.startsWith_eq paths]
    directories := filter_of_forall₂ hosts.directories fun _ _ directory => by rw [directory.startsWith_eq paths]}

theorem removeFile : (host.removeFile path).Respells (host'.removeFile path') :=
  {hosts with files := filter_of_forall₂ hosts.files fun _ _ file => by rw [paths.compare_eq file.left]}

theorem setUnreadable {on : Bool} : (host.setUnreadable path on).Respells (host'.setUnreadable path' on) := by
  refine {hosts with unreadable := ?_}
  cases on with
  | true => exact Sorted.add_respells paths hosts.unreadable
  | false => exact filter_of_forall₂ hosts.unreadable fun _ _ other => by rw [other.same_eq paths]

theorem watchesOn : List.Forall₂ Watch.Respells (host.watchesOn path) (host'.watchesOn path') :=
  filter_of_forall₂ hosts.watches fun _ _ watch => watch.path.same_eq paths

theorem writeCount : host.writeCount path = host'.writeCount path' := by
  rw [MemoryHost.writeCount,MemoryHost.writeCount,List.countP_eq_length_filter,List.countP_eq_length_filter]
  exact (filter_of_forall₂ hosts.writes fun _ _ written => written.same_eq paths).length_eq

theorem directoryExists : host.directoryExists path = host'.directoryExists path' := by
  have directories := any_of_forall₂ hosts.directories fun _ _ directory => directory.startsWith_eq paths
  have files := any_of_forall₂ hosts.files fun _ _ file =>
    file.left.parent.any_eq fun _ _ up => up.startsWith_eq paths
  rw [MemoryHost.directoryExists,MemoryHost.directoryExists,directories,files]

/-- The same files in the same order, or the same fault. -/
theorem list : Except.Rel HostFault.Respells (List.Forall₂ Path.Respells) (host.list path) (host'.list path') := by
  rw [MemoryHost.list,MemoryHost.list,hosts.refusesListing,hosts.directoryExists paths]
  split
  · exact .error (.listing paths _)
  · split
    · refine .ok (filter_of_forall₂ ?_ fun _ _ file => isLocaleFileOf_respells paths file)
      exact map_of_forall₂ hosts.files fun _ _ file => file.left
    · exact .error (.listing paths _)

theorem read? : host.read? path = host'.read? path' := by
  rw [MemoryHost.read?,MemoryHost.read?,any_of_forall₂ hosts.unreadable fun _ _ other => other.same_eq paths,
    hosts.file? paths]

theorem write (content : String) : Except.Rel HostFault.Respells MemoryHost.Respells (host.write path content)
    (host'.write path' content) := by
  rw [MemoryHost.write,MemoryHost.write,any_of_forall₂ hosts.readOnly fun _ _ other => other.same_eq paths]
  split
  · exact .error (.write paths _)
  · exact .ok {hosts.insert paths with writes := append_of_forall₂ hosts.writes (.cons paths .nil)}

theorem watch (subscriber : Subscriber) : Except.Rel HostFault.Respells (Both (· = ·) MemoryHost.Respells)
    (host.watch path subscriber) (host'.watch path' subscriber) := by
  rw [MemoryHost.watch,MemoryHost.watch,hosts.watchBudget,hosts.refusesWatches,hosts.opened]
  split
  · exact .error (.watch paths _)
  · split
    · exact .error (.watch paths _)
    · refine .ok ⟨rfl,?_⟩
      exact {hosts with
        slots := append_of_forall₂ hosts.watches (.cons ⟨rfl,paths,rfl,rfl⟩ .nil)
        opened := rfl
        refusesWatches := rfl
        watchBudget := rfl}

omit paths in
/-- A host replies to a request with other spellings as before. -/
theorem perform {command command' : HostCommand} (commands : command.Respells command') :
    Both Reply.Respells MemoryHost.Respells (host.perform command) (host'.perform command') := by
  cases commands with
  | insert paths => exact ⟨.same _,hosts.insert paths⟩
  | createDirectory paths => exact ⟨.same _,{hosts with directories := Sorted.add_respells paths hosts.directories}⟩
  | removeDirectory paths => exact ⟨.same _,hosts.removeDirectory paths⟩
  | removeFile paths => exact ⟨.same _,hosts.removeFile paths⟩
  | setReadOnly paths => exact ⟨.same _,{hosts with readOnly := Sorted.add_respells paths hosts.readOnly}⟩
  | setUnreadable paths => exact ⟨.same _,hosts.setUnreadable paths⟩
  | refuseWatches on => exact ⟨.same _,{hosts with refusesWatches := rfl}⟩
  | limitWatches limit => exact ⟨.same _,{hosts with watchBudget := rfl}⟩
  | refuseListing on => exact ⟨.same _,{hosts with refusesListing := rfl}⟩
  | file paths =>
    simp only [MemoryHost.perform,hosts.file? paths]
    exact ⟨.same _,hosts⟩
  | read paths =>
    simp only [MemoryHost.perform,hosts.read? paths]
    exact ⟨.same _,hosts⟩
  | write paths content =>
    obtain ⟨_,_,left,right,faults⟩ | ⟨_,_,left,right,states⟩ := (hosts.write paths content).casework
    · simp only [MemoryHost.perform,left,right]
      exact ⟨.hostFault faults,hosts⟩
    · simp only [MemoryHost.perform,left,right]
      exact ⟨.same _,states⟩
  | writes => exact ⟨.paths hosts.writes,hosts⟩
  | writeCount paths =>
    simp only [MemoryHost.perform,hosts.writeCount paths]
    exact ⟨.same _,hosts⟩
  | directoryExists paths =>
    simp only [MemoryHost.perform,hosts.directoryExists paths]
    exact ⟨.same _,hosts⟩
  | list paths =>
    obtain ⟨_,_,left,right,faults⟩ | ⟨_,_,left,right,files⟩ := (hosts.list paths).casework
    · simp only [MemoryHost.perform,left,right]
      exact ⟨.hostFault faults,hosts⟩
    · simp only [MemoryHost.perform,left,right]
      exact ⟨.paths files,hosts⟩

end Respells
end MemoryHost

namespace Keyed

variable {ν : Type} {R : String × ν → String × ν → Prop} {fields fields' : List (String × ν)} {key : String}
  (keys : ∀ a b, R a b → a.1 = b.1)

include keys

theorem isSome_get?_of_forall₂ (related : List.Forall₂ R fields fields') :
    (get? key fields).isSome = (get? key fields').isSome := by
  induction related with
  | nil => rfl
  | cons first _ ih =>
    simp only [get?,keys _ _ first]
    split
    · rfl
    · exact ih

/-- Keys alone decide where a field goes. -/
theorem swapRemove_of_forall₂ (related : List.Forall₂ R fields fields') :
    List.Forall₂ R (swapRemove key fields) (swapRemove key fields') := by
  have found : fields.findIdx? (·.1 = key) = fields'.findIdx? (·.1 = key) := by
    induction related with
    | nil => rfl
    | cons first _ ih => simp only [List.findIdx?_cons,keys _ _ first,ih]
  simp only [swapRemove,found,related.length_eq]
  cases fields'.findIdx? (·.1 = key) with
  | none => exact related
  | some i =>
    obtain ⟨last,last',left,right,values⟩ | ⟨left,right⟩ := (getLast?_of_forall₂ related).casework
    · simp only [left,right]
      split
      · exact dropLast_of_forall₂ related
      · exact dropLast_of_forall₂ (set_of_forall₂ i related values)
    · simp only [left,right]
      exact related

end Keyed

namespace Options

/-- Options as they were read. -/
structure Respells (a b : Options) : Prop where
  moduleName : a.moduleName = b.moduleName
  localesDirectory : Option.Rel Path.Respells a.localesDirectory b.localesDirectory
  outputPath : Option.Rel Path.Respells a.outputPath b.outputPath
  lazy : a.lazy = b.lazy
  defaultLocale : a.defaultLocale = b.defaultLocale

variable {options options' : Options} {field : Field} {value value' : Json} {read fields : List Field}
  {items items' : List Json} {named named' : List (String × Json)}

theorem optionRel_respells_refl (path : Option Path) : Option.Rel Path.Respells path path := by
  cases path with
  | none => exact .none
  | some path => exact .some (.refl path)

theorem Respells.set (respells : options.Respells options') (values : Field.Respells (some field) value value') :
    Except.Rel (· = ·) Respells (options.set field value) (options'.set field value') := by
  cases values with
  | localesDirectory path => exact .ok {respells with localesDirectory := .some path}
  | outputPath path => exact .ok {respells with outputPath := .some path}
  | same =>
    cases field with
    | moduleName =>
      rw [Options.set,Options.set]
      cases string? value with
      | error fault => exact .error rfl
      | ok name => exact .ok {respells with moduleName := rfl}
    | localesDirectory =>
      rw [Options.set,Options.set]
      cases path? value with
      | error fault => exact .error rfl
      | ok path => exact .ok {respells with localesDirectory := optionRel_respells_refl path}
    | outputPath =>
      rw [Options.set,Options.set]
      cases path? value with
      | error fault => exact .error rfl
      | ok path => exact .ok {respells with outputPath := optionRel_respells_refl path}
    | lazy =>
      rw [Options.set,Options.set]
      cases bool? value with
      | error fault => exact .error rfl
      | ok flag => exact .ok {respells with lazy := rfl}
    | defaultLocale =>
      rw [Options.set,Options.set]
      cases string? value with
      | error fault => exact .error rfl
      | ok name => exact .ok {respells with defaultLocale := rfl}

theorem Respells.ofFields (respells : options.Respells options')
    (related : List.Forall₂ Named named named') :
    Except.Rel (· = ·) Respells (Options.ofFields read options named) (Options.ofFields read options' named') := by
  induction related generalizing read options options' with
  | nil => exact .ok respells
  | @cons a b _ _ first _ ih =>
    obtain ⟨key,value⟩ := a
    obtain ⟨key',value'⟩ := b
    obtain ⟨same,values⟩ := first
    obtain rfl : key = key' := same
    simp only [Options.ofFields]
    cases found : Field.ofKey? key with
    | none => exact ih respells
    | some field =>
      rw [found] at values
      dsimp only
      split
      · exact .error rfl
      · exact (respells.set values).bind fun _ _ set => ih set

theorem Respells.ofItems (respells : options.Respells options') (related : ItemsRespell fields items items') :
    Except.Rel (· = ·) Respells (Options.ofItems options fields items) (Options.ofItems options' fields items') := by
  induction related generalizing options options' with
  | same fields items =>
    induction fields generalizing items options options' with
    | nil => cases items <;> exact .ok respells
    | cons field fields ih =>
      cases items with
      | nil => exact .ok respells
      | cons item items => exact (respells.set (.same _ item)).bind fun _ _ set => ih _ set
  | cons value _ ih => exact (respells.set value).bind fun _ _ set => ih set

theorem length_of_itemsRespell (related : ItemsRespell fields items items') : items.length = items'.length := by
  induction related with
  | same => rfl
  | cons _ _ ih => exact congrArg (· + 1) ih

theorem Respells.refl (options : Options) : options.Respells options :=
  ⟨rfl,optionRel_respells_refl _,optionRel_respells_refl _,rfl,rfl⟩

theorem dropShort_respells
    (related : List.Forall₂ Named named named') :
    List.Forall₂ Named (dropShort named field) (dropShort named' field) := by
  unfold dropShort
  split
  · rw [Keyed.isSome_get?_of_forall₂ (fun _ _ => Named.key) related]
    split
    · exact Keyed.swapRemove_of_forall₂ (fun _ _ => Named.key) related
    · exact related
  · exact related

/-- Reading options tells no spellings apart. -/
theorem ofJson_respells (related : JsonRespells value value') :
    Except.Rel (· = ·) Respells (ofJson value) (ofJson value') := by
  have self (value : Json) : Except.Rel (· = ·) Respells (ofJson value) (ofJson value) := by
    cases ofJson value with
    | error fault => exact .error rfl
    | ok options => exact .ok (.refl options)
  cases related with
  | same => exact self value
  | object values =>
    have kept {fields : List Field} {named named' : List (String × Json)} (values : List.Forall₂ Named named named') :
        List.Forall₂ Named (fields.foldl dropShort named) (fields.foldl dropShort named') := by
      induction fields generalizing named named' with
      | nil => exact values
      | cons field fields ih => exact ih (dropShort_respells values)
    exact (Respells.refl {}).ofFields (kept values)
  | array values =>
    refine ((Respells.refl {}).ofItems values).bind fun options options' respells => ?_
    rw [length_of_itemsRespell values]
    split
    · exact .error rfl
    · exact .ok respells

end Options

namespace Config

theorem require_respells {α β : Type} {R : α → β → Prop} {value : Option α} {value' : Option β}
    (related : Option.Rel R value value') (rejection : Rejection) :
    Except.Rel Rejection.Respells R (require value rejection) (require value' rejection) := by
  cases related with
  | some values => exact .ok values
  | none => exact .error (.same rejection)

theorem self_respells {α : Type} (result : Except Rejection α) :
    Except.Rel Rejection.Respells (· = ·) result result := by
  cases result with
  | error rejection => exact .error (.same rejection)
  | ok value => exact .ok rfl

/-- Options with other spellings are adopted with those spellings, or rejected for the same reason. -/
theorem check_respells {options options' : Json} {host host' : Option MemoryHost}
    (related : Options.JsonRespells options options') (hosts : Option.Rel MemoryHost.Respells host host') :
    Except.Rel Rejection.Respells Config.Respells (check options host) (check options' host') := by
  unfold check
  refine (require_respells hosts .noHost).bind fun host host' hosts => ?_
  obtain ⟨fault,_,left,right,rfl⟩ | ⟨options,options',left,right,given⟩ := (Options.ofJson_respells related).casework
  · simp only [left,right]
    exact .error (.same _)
  simp only [left,right]
  have nonempty {path path' : Option Path} (paths : Option.Rel Path.Respells path path') :
      Option.Rel Path.Respells (path.filter (!·.isEmpty)) (path'.filter (!·.isEmpty)) :=
    paths.filter fun _ _ path => by rw [path.isEmpty_eq]
  refine (Except.Rel.ok given).bind fun options options' given => ?_
  have mode : modeOf options = modeOf options' := by rw [modeOf,modeOf,given.lazy,given.defaultLocale]
  rw [given.moduleName,mode]
  refine (self_respells _).bind fun moduleName _ same => ?_
  subst same
  refine (require_respells (nonempty given.outputPath) _).bind fun output output' outputs => ?_
  refine (require_respells (nonempty given.localesDirectory) _).bind fun directory directory' directories => ?_
  refine (self_respells _).bind fun mode _ same => ?_
  subst same
  obtain ⟨_,_,left,right,faults⟩ | ⟨files,files',left,right,files⟩ := (hosts.list directories).casework
  · simp only [Host.list,left,right]
    exact .error (.unlistable directories faults)
  · simp only [Host.list,left,right]
    cases files with
    | nil => exact .error (.noLocaleFiles directories)
    | cons => exact .ok ⟨rfl,directories,outputs,rfl⟩

end Config
end Phrasebook
