import Mathlib.Data.List.Forall2
import Phrasebook.Proofs.Path.Spelling
import Phrasebook.Session.Scripted

/-! What it means for two worlds, or two of anything that is in them, to differ in nothing but the spelling of paths.
Texts that show paths do not differ freely: they are the same words about paths, faults or options that differ in
spelling only, `Text.Respells`. -/

namespace Option.Rel

variable {α β γ δ : Type} {R : α → β → Prop} {S : γ → δ → Prop} {x : Option α} {y : Option β}

theorem bind {f : α → Option γ} {g : β → Option δ} (first : Option.Rel R x y)
    (next : ∀ a b, R a b → Option.Rel S (f a) (g b)) : Option.Rel S (x.bind f) (y.bind g) := by
  cases first with
  | some related => exact next _ _ related
  | none => exact .none

theorem map {f : α → γ} {g : β → δ} (first : Option.Rel R x y) (next : ∀ a b, R a b → S (f a) (g b)) :
    Option.Rel S (x.map f) (y.map g) := by
  cases first with
  | some related => exact .some (next _ _ related)
  | none => exact .none

theorem casework (related : Option.Rel R x y) :
    (∃ a b, x = Option.some a ∧ y = Option.some b ∧ R a b) ∨ x = Option.none ∧ y = Option.none := by
  cases related with
  | some related => exact .inl ⟨_,_,rfl,rfl,related⟩
  | none => exact .inr ⟨rfl,rfl⟩

theorem any_eq {p : α → Bool} {q : β → Bool} (related : Option.Rel R x y) (same : ∀ a b, R a b → p a = q b) :
    x.any p = y.any q := by
  cases related with
  | some related => exact same _ _ related
  | none => rfl

theorem filter {p : α → Bool} {q : β → Bool} (related : Option.Rel R x y) (same : ∀ a b, R a b → p a = q b) :
    Option.Rel R (x.filter p) (y.filter q) := by
  cases related with
  | some related =>
    simp only [Option.filter_some,same _ _ related]
    split
    · exact .some related
    · exact .none
  | none => exact .none

theorem isSome_eq (related : Option.Rel R x y) : x.isSome = y.isSome := by
  cases related <;> rfl

theorem swap (related : Option.Rel R x y) : Option.Rel (fun b a => R a b) y x := by
  cases related with
  | some related => exact .some related
  | none => exact .none

/-- Whatever the one comes to, the other comes to the like, and the other way round. -/
theorem of_both (forth : ∀ a, x = Option.some a → ∃ b, y = Option.some b ∧ R a b)
    (back : ∀ b, y = Option.some b → ∃ a, x = Option.some a ∧ R a b) : Option.Rel R x y := by
  cases x with
  | none =>
    cases y with
    | none => exact .none
    | some b => obtain ⟨_,nothing,-⟩ := back b rfl; cases nothing
  | some a =>
    obtain ⟨b,rfl,related⟩ := forth a rfl
    exact .some related

end Option.Rel

/-- Related faults, or related values. -/
inductive Except.Rel {ε ε' α α' : Type} (F : ε → ε' → Prop) (R : α → α' → Prop) : Except ε α → Except ε' α' → Prop where
  | error {fault : ε} {fault' : ε'} (faults : F fault fault') : Except.Rel F R (.error fault) (.error fault')
  | ok {a : α} {b : α'} (values : R a b) : Except.Rel F R (.ok a) (.ok b)

namespace Except.Rel

variable {ε ε' α α' β β' : Type} {F : ε → ε' → Prop} {R : α → α' → Prop} {S : β → β' → Prop} {x : Except ε α}
  {y : Except ε' α'}

theorem casework (related : Except.Rel F R x y) :
    (∃ fault fault', x = .error fault ∧ y = .error fault' ∧ F fault fault') ∨
    ∃ a b, x = .ok a ∧ y = .ok b ∧ R a b := by
  cases related with
  | error faults => exact .inl ⟨_,_,rfl,rfl,faults⟩
  | ok values => exact .inr ⟨_,_,rfl,rfl,values⟩

theorem bind {f : α → Except ε β} {g : α' → Except ε' β'} (first : Except.Rel F R x y)
    (next : ∀ a b, R a b → Except.Rel F S (f a) (g b)) : Except.Rel F S (x.bind f) (y.bind g) := by
  cases first with
  | error faults => exact .error faults
  | ok values => exact next _ _ values

theorem map {f : α → β} {g : α' → β'} (first : Except.Rel F R x y) (next : ∀ a b, R a b → S (f a) (g b)) :
    Except.Rel F S (x.map f) (y.map g) := by
  cases first with
  | error faults => exact .error faults
  | ok values => exact .ok (next _ _ values)

end Except.Rel

namespace Phrasebook

/-- Both parts are related. -/
structure Both {α α' β β' : Type} (R : α → α' → Prop) (S : β → β' → Prop) (x : α × β) (y : α' × β') : Prop where
  left : R x.1 y.1
  right : S x.2 y.2

/-- Another spelling of the path. -/
def Path.Respells (a b : Path) : Prop := a.same b = true

instance (a b : Path) : Decidable (a.Respells b) := inferInstanceAs (Decidable (_ = true))

inductive HostFault.Respells : HostFault → HostFault → Prop where
  | listing {a b : Path} (path : a.Respells b) (cause : String) : Respells (.listing a cause) (.listing b cause)
  | watch {a b : Path} (path : a.Respells b) (cause : String) : Respells (.watch a cause) (.watch b cause)
  | write {a b : Path} (path : a.Respells b) (cause : String) : Respells (.write a cause) (.write b cause)
  | resolution (cause : String) : Respells (.resolution cause) (.resolution cause)

inductive RunFault.Respells : RunFault → RunFault → Prop where
  | listing {a b : HostFault} (cause : a.Respells b) : Respells (.listing a) (.listing b)
  | unreadable {a b : Path} (path : a.Respells b) : Respells (.unreadable a) (.unreadable b)
  | illFormed {a b : Path} (path : a.Respells b) (cause : String) : Respells (.illFormed a cause) (.illFormed b cause)
  | generator (cause : String) : Respells (.generator cause) (.generator cause)
  | write {a b : HostFault} (cause : a.Respells b) : Respells (.write a) (.write b)

inductive Rejection.Respells : Rejection → Rejection → Prop where
  | same (rejection : Rejection) : Respells rejection rejection
  | noLocaleFiles {a b : Path} (directory : a.Respells b) : Respells (.noLocaleFiles a) (.noLocaleFiles b)
  | unlistable {a b : Path} {fault fault' : HostFault} (directory : a.Respells b) (cause : fault.Respells fault') :
      Respells (.unlistable a fault.message) (.unlistable b fault'.message)

/-- A value of a field, in which only a path may be spelled in another way. -/
inductive Options.Field.Respells : Option Options.Field → Json → Json → Prop where
  | same (field : Option Options.Field) (value : Json) : Respells field value value
  | localesDirectory {a b : String} (path : Path.Respells ⟨a⟩ ⟨b⟩) :
      Respells (some .localesDirectory) (.string a) (.string b)
  | outputPath {a b : String} (path : Path.Respells ⟨a⟩ ⟨b⟩) : Respells (some .outputPath) (.string a) (.string b)

/-- A field under its name, long or short. -/
structure Options.Named (a b : String × Json) : Prop where
  key : a.1 = b.1
  value : Options.Field.Respells (Options.Field.ofKey? a.1) a.2 b.2

/-- Options by position. -/
inductive Options.ItemsRespell : List Options.Field → List Json → List Json → Prop where
  | same (fields : List Options.Field) (items : List Json) : ItemsRespell fields items items
  | cons {field : Options.Field} {fields : List Options.Field} {a b : Json} {items items' : List Json}
      (value : Options.Field.Respells (some field) a b) (rest : ItemsRespell fields items items') :
      ItemsRespell (field :: fields) (a :: items) (b :: items')

/-- Options with other spellings of the paths among them. -/
inductive Options.JsonRespells : Json → Json → Prop where
  | same (options : Json) : JsonRespells options options
  | object {fields fields' : List (String × Json)} (values : List.Forall₂ Options.Named fields fields') :
      JsonRespells (.object fields) (.object fields')
  | array {items items' : List Json} (values : Options.ItemsRespell Options.Field.all items items') :
      JsonRespells (.array items) (.array items')

/-- The same words about something that is spelled in another way. -/
inductive Text.Respells : String → String → Prop where
  | same (text : String) : Respells text text
  | path (words : String) {a b : Path} (path : a.Respells b) : Respells (words ++ a.display) (words ++ b.display)
  | run (words : String) {a b : RunFault} (fault : a.Respells b) : Respells (words ++ a.message) (words ++ b.message)
  | rejection (words : String) {a b : Rejection} (rejection : a.Respells b) :
      Respells (words ++ a.message) (words ++ b.message)
  | options (words : String) {a b : Json} (options : Options.JsonRespells a b) :
      Respells (words ++ a.text) (words ++ b.text)

theorem Text.Respells.ofRun {a b : RunFault} (fault : a.Respells b) : Text.Respells a.message b.message := by
  simpa using Text.Respells.run "" fault

theorem Text.Respells.ofRejection {a b : Rejection} (rejection : a.Respells b) :
    Text.Respells a.message b.message := by simpa using Text.Respells.rejection "" rejection

inductive Event.Respells : Event → Event → Prop where
  | same (event : Event) : Respells event event
  | activationRejected {a b : String} (reason : Text.Respells a b) :
      Respells (.activationRejected a) (.activationRejected b)
  | reconfigurationRejected {a b : String} (reason : Text.Respells a b) :
      Respells (.reconfigurationRejected a) (.reconfigurationRejected b)
  | moduleIntercepted (name : String) {a b : Path} (file : a.Respells b) :
      Respells (.moduleIntercepted name a) (.moduleIntercepted name b)
  | fileChanged {a b : Path} (path : a.Respells b) : Respells (.fileChanged a) (.fileChanged b)
  | regenerated {a b : Path} (output : a.Respells b) (locales : Nat) (hash : String) :
      Respells (.regenerated a locales hash) (.regenerated b locales hash)
  | regenerationFailed {a b : String} (message : Text.Respells a b) :
      Respells (.regenerationFailed a) (.regenerationFailed b)

structure Config.Respells (a b : Config) : Prop where
  moduleName : a.moduleName = b.moduleName
  localesDirectory : a.localesDirectory.Respells b.localesDirectory
  outputPath : a.outputPath.Respells b.outputPath
  mode : a.mode = b.mode

structure Query.Respells (a b : Query) : Prop where
  names : a.names = b.names
  containingFile : a.containingFile.Respells b.containingFile
  reused : a.reused = b.reused

structure Resolution.Respells (a b : Resolution) : Prop where
  path : a.path.Respells b.path
  external : a.external = b.external

def Answers.Respells : Answers → Answers → Prop := List.Forall₂ (Option.Rel Resolution.Respells)

structure Report.Respells (a b : Report) : Prop where
  output : a.output.Respells b.output
  locales : a.locales = b.locales
  digest : a.digest = b.digest

inductive Status.Respells : Status → Status → Prop where
  | written {a b : Report} (report : a.Respells b) : Respells (.written a) (.written b)
  | failed {a b : String} (message : Text.Respells a b) : Respells (.failed a) (.failed b)

inductive Milestone.Respells : Milestone → Milestone → Prop where
  | same (milestone : Milestone) : Respells milestone milestone
  | adopted {a b : Config} (config : a.Respells b) : Respells (.adopted a) (.adopted b)
  | started {a b : Config} (config : a.Respells b) : Respells (.started a) (.started b)
  | ended {a b : Status} (status : a.Respells b) : Respells (.ended a) (.ended b)
  | watching {a b : List Path} (files : List.Forall₂ Path.Respells a b) : Respells (.watching a) (.watching b)

inductive Note.Respells : Note → Note → Prop where
  | same (note : Note) : Respells note note
  | regenerated {a b : Report} (report : a.Respells b) : Respells (.regenerated a) (.regenerated b)
  | fileChanged {a b : Path} (path : a.Respells b) : Respells (.fileChanged a) (.fileChanged b)
  | directoryMissing (name : String) {a b : Path} (directory : a.Respells b) :
      Respells (.directoryMissing name a) (.directoryMissing name b)

inductive Reply.Respells : Reply → Reply → Prop where
  | same (reply : Reply) : Respells reply reply
  | paths {a b : List Path} (paths : List.Forall₂ Path.Respells a b) : Respells (.paths a) (.paths b)
  | hostFault {a b : HostFault} (fault : a.Respells b) : Respells (.hostFault a) (.hostFault b)
  | runFault {a b : RunFault} (fault : a.Respells b) : Respells (.runFault a) (.runFault b)
  | report {a b : Report} (report : a.Respells b) : Respells (.report a) (.report b)
  | watching {a b : List Path} (paths : List.Forall₂ Path.Respells a b) : Respells (.watching a) (.watching b)
  | answers {a b : Answers} (answers : a.Respells b) : Respells (.answers a) (.answers b)

inductive Entry.Respells : Entry → Entry → Prop where
  | same (entry : Entry) : Respells entry entry
  | logged (logger : Nat) {a b : String} (line : Text.Respells a b) : Respells (.logged logger a) (.logged logger b)
  | emitted (sink : Nat) {a b : Event} (event : a.Respells b) : Respells (.emitted sink a) (.emitted sink b)
  | asked {a b : Query} (query : a.Respells b) : Respells (.asked a) (.asked b)
  | changed (recorder : Nat) {a b : Path} (path : a.Respells b) : Respells (.changed recorder a) (.changed recorder b)
  | opened {a b : Path} (path : a.Respells b) : Respells (.opened a) (.opened b)
  | closed {a b : Path} (path : a.Respells b) : Respells (.closed a) (.closed b)
  | noted {a b : Note} (note : a.Respells b) : Respells (.noted a) (.noted b)
  | reached (session : Nat) {a b : Milestone} (milestone : a.Respells b) :
      Respells (.reached session a) (.reached session b)
  | nested {a b : Reply} (reply : a.Respells b) : Respells (.nested a) (.nested b)

inductive HostCommand.Respells : HostCommand → HostCommand → Prop where
  | insert {a b : Path} (path : a.Respells b) (content : String) : Respells (.insert a content) (.insert b content)
  | createDirectory {a b : Path} (path : a.Respells b) : Respells (.createDirectory a) (.createDirectory b)
  | removeDirectory {a b : Path} (path : a.Respells b) : Respells (.removeDirectory a) (.removeDirectory b)
  | removeFile {a b : Path} (path : a.Respells b) : Respells (.removeFile a) (.removeFile b)
  | setReadOnly {a b : Path} (path : a.Respells b) : Respells (.setReadOnly a) (.setReadOnly b)
  | setUnreadable {a b : Path} (path : a.Respells b) (on : Bool) : Respells (.setUnreadable a on) (.setUnreadable b on)
  | refuseWatches (on : Bool) : Respells (.refuseWatches on) (.refuseWatches on)
  | limitWatches (limit : Option Nat) : Respells (.limitWatches limit) (.limitWatches limit)
  | refuseListing (on : Bool) : Respells (.refuseListing on) (.refuseListing on)
  | file {a b : Path} (path : a.Respells b) : Respells (.file a) (.file b)
  | read {a b : Path} (path : a.Respells b) : Respells (.read a) (.read b)
  | write {a b : Path} (path : a.Respells b) (content : String) : Respells (.write a content) (.write b content)
  | writes : Respells .writes .writes
  | writeCount {a b : Path} (path : a.Respells b) : Respells (.writeCount a) (.writeCount b)
  | directoryExists {a b : Path} (path : a.Respells b) : Respells (.directoryExists a) (.directoryExists b)
  | list {a b : Path} (path : a.Respells b) : Respells (.list a) (.list b)

inductive Command.Respells : Command → Command → Prop where
  | host (h : Nat) {a b : HostCommand} (command : a.Respells b) : Respells (.host h a) (.host h b)
  | edit (h : Nat) {a b : Path} (path : a.Respells b) (content : String) :
      Respells (.edit h a content) (.edit h b content)
  | notify (h : Nat) {a b : Path} (path : a.Respells b) : Respells (.notify h a) (.notify h b)
  | load (h : Nat) {a b : Path} (directory : a.Respells b) : Respells (.load h a) (.load h b)
  | render (h : Nat) {a b : Config} (config : a.Respells b) (target : Target) :
      Respells (.render h a target) (.render h b target)
  | generate (h logger : Nat) {a b : Config} (config : a.Respells b) :
      Respells (.generate h logger a) (.generate h logger b)
  | rewatch (recorder h : Nat) {a b : List Path} (files : List.Forall₂ Path.Respells a b) :
      Respells (.rewatch recorder h a) (.rewatch recorder h b)
  | unwatch (recorder : Nat) : Respells (.unwatch recorder) (.unwatch recorder)
  | dropRecorder (recorder : Nat) : Respells (.dropRecorder recorder) (.dropRecorder recorder)
  | watched (recorder : Nat) : Respells (.watched recorder) (.watched recorder)
  | hookState (hook : Nat) : Respells (.hookState hook) (.hookState hook)
  | resolve (hook : Nat) {a b : Query} (query : a.Respells b) : Respells (.resolve hook a) (.resolve hook b)
  | create (s : Nat) (host : Option Nat) (hook logger : Nat) {a b : Json} (options : Options.JsonRespells a b) :
      Respells (.create s host hook logger a) (.create s host hook logger b)
  | configure (s : Nat) {a b : Json} (options : Options.JsonRespells a b) : Respells (.configure s a) (.configure s b)
  | regenerate (s : Nat) : Respells (.regenerate s) (.regenerate s)
  | refresh (s : Nat) : Respells (.refresh s) (.refresh s)
  | dispose (s : Nat) : Respells (.dispose s) (.dispose s)
  | renewSink (s : Nat) : Respells (.renewSink s) (.renewSink s)
  | drop (s : Nat) : Respells (.drop s) (.drop s)

/-- Scripts that go on with other spellings as long as they are replied to with other spellings. -/
inductive Script.Respells : Script → Script → Prop where
  | done : Respells .done .done
  | issue {a b : Command} {next next' : Reply → Script} (command : a.Respells b)
      (rest : ∀ reply reply' : Reply, reply.Respells reply' → Respells (next reply) (next' reply')) :
      Respells (.issue a next) (.issue b next')

structure Watch.Respells (a b : Watch) : Prop where
  id : a.id = b.id
  path : a.path.Respells b.path
  subscriber : a.subscriber = b.subscriber
  isOpen : a.isOpen = b.isOpen

/-- The same files, directories and watches. -/
structure MemoryHost.Respells (a b : MemoryHost) : Prop where
  files : List.Forall₂ (Both Path.Respells (· = ·)) a.files b.files
  directories : List.Forall₂ Path.Respells a.directories b.directories
  readOnly : List.Forall₂ Path.Respells a.readOnly b.readOnly
  slots : List.Forall₂ Watch.Respells a.slots b.slots
  writes : List.Forall₂ Path.Respells a.writes b.writes
  opened : a.opened = b.opened
  closed : a.closed = b.closed
  refusesWatches : a.refusesWatches = b.refusesWatches
  watchBudget : a.watchBudget = b.watchBudget
  refusesListing : a.refusesListing = b.refusesListing
  unreadable : List.Forall₂ Path.Respells a.unreadable b.unreadable

structure Handle.Respells (a b : Handle) : Prop where
  host : a.host = b.host
  watch : a.watch = b.watch
  path : a.path.Respells b.path

structure Session.Respells (a b : Session) : Prop where
  phase : a.phase = b.phase
  host : a.host = b.host
  logger : a.logger = b.logger
  hook : a.hook = b.hook
  sink : a.sink = b.sink
  config : Option.Rel Config.Respells a.config b.config
  watches : List.Forall₂ Handle.Respells a.watches b.watches
  installed : a.installed = b.installed
  requested : a.requested = b.requested
  inFlight : a.inFlight = b.inFlight
  runs : a.runs = b.runs
  last : Option.Rel Status.Respells a.last b.last
  generations : a.generations = b.generations
  dropped : a.dropped = b.dropped

/-- Resolvers that tell no spellings apart. -/
def Resolver.Respells (a b : Resolver) : Prop :=
  ∀ query query' : Query, query.Respells query' → Except.Rel HostFault.Respells Answers.Respells (a query) (b query')

inductive Layer.Respells : Layer → Layer → Prop where
  | session (s : Nat) : Respells (.session s) (.session s)
  | adjust {f g : Query → Answers → Answers} (adjusts : ∀ query query' answers answers',
      Query.Respells query query' → Answers.Respells answers answers' →
      Answers.Respells (f query answers) (g query' answers')) : Respells (.adjust f) (.adjust g)

structure Hook.Respells (a b : Hook) : Prop where
  baseline : Option.Rel Resolver.Respells a.baseline b.baseline
  layers : List.Forall₂ Layer.Respells a.layers b.layers

/-- The same hosts, sessions and resolvers with the same past, told with other spellings. -/
structure World.Respells (a b : World MemoryHost) : Prop where
  host : ∀ h, (a.host h).Respells (b.host h)
  hook : ∀ i, (a.hooks.get i).Respells (b.hooks.get i)
  session : ∀ s, (a.session s).Respells (b.session s)
  recorder : ∀ r, List.Forall₂ Handle.Respells (a.recorders.get r) (b.recorders.get r)
  holds : a.holds = b.holds
  sinks : a.sinks = b.sinks
  trace : List.Forall₂ Entry.Respells a.trace b.trace

/-- Collaborators that tell no spellings apart. -/
def Behaviour.Respells (a b : Behaviour) : Prop := ∀ {entry entry' : Entry} {w w' : World MemoryHost},
  entry.Respells entry' → w.Respells w' → (a entry w).Respells (b entry' w')

end Phrasebook
