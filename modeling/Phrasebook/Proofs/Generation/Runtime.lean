import Phrasebook.CommandLine.Run
import Phrasebook.Proofs.Generation.Interface
import Phrasebook.Proofs.Generation.Recovery

/-! What is said of the locales where a module with translations is asked for. In normal mode the text is the module,
which no two lists of locales share. In lazy mode it is the declarations, whatever is asked for: they tell names and
interfaces apart, and the translations are in the loader alone. `runtime_primary_eq_iff` -/
namespace Phrasebook.Generation

def MessageType.text : MessageType → String
  | string => "string"
  | function params => "(params: \x7b " ++ Declarations.parameterList params ++ " \x7d) => string"

theorem messageType_eq (params : List String) : Declarations.messageType params = (MessageType.of params).text := by
  cases params <;> rfl

def Label.text (label : Label) : String := propertyKey label.key ++ if label.optional then "?" else ""

theorem member_eq (key : String) (count parents : Nat) :
    Declarations.member key count parents = (Label.mk key (count < parents)).text := by
  by_cases fewer : count < parents <;> simp [Declarations.member,Label.text,fewer]

def Interface.lines (depth : Nat) : Interface → List String
  | .empty => []
  | .member label type rest => Text.indent depth (label.text ++ ": " ++ type.text) :: lines depth rest
  | .group label inner rest =>
    Text.indent depth (label.text ++ ": \x7b") ::
      (lines (depth + 1) inner ++ Text.indent depth "\x7d" :: lines depth rest)

/-- Of a merged shape no more than its interface is written. -/
theorem members_eq (shape : Shape) (depth parents : Nat) :
    Declarations.members depth parents shape = (Interface.of parents shape).lines depth := by
  induction shape generalizing depth parents with
  | empty => rfl
  | message key count params rest ih =>
    rw [Declarations.members,Interface.of,Interface.lines,member_eq,messageType_eq,ih]
  | group key count inner rest ihInner ih =>
    rw [Declarations.members,Interface.of,Interface.lines,member_eq,ihInner,ih]

section Declared

variable {entries others : List Locale.Entry} {shape other : Shape} {mode otherMode : Mode}

theorem render_of_declared (same : Declared.of entries shape mode = Declared.of others other otherMode) :
    Declarations.render (entries.map (·.name)) shape mode.defaultLocale? =
      Declarations.render (others.map (·.name)) other otherMode.defaultLocale? := by
  obtain ⟨names,locale,interface⟩ := Declared.mk.inj same
  have count : entries.length = others.length := by simpa using congrArg List.length names
  have members : Declarations.members 1 others.length shape = Declarations.members 1 others.length other := by
    rw [members_eq,members_eq,← interface,count]
  simp only [Declarations.render,Declarations.lines,List.length_map,names,locale,members]

/-- Declarations have one text exactly if they say the same. -/
theorem render_eq_iff (merged : Shape.ofEntries entries = .ok shape) (merged' : Shape.ofEntries others = .ok other) :
    Declarations.render (entries.map (·.name)) shape mode.defaultLocale? =
      Declarations.render (others.map (·.name)) other otherMode.defaultLocale? ↔
    Declared.of entries shape mode = Declared.of others other otherMode := by
  refine ⟨fun same => ?_,render_of_declared⟩
  have read := Reading.declarations?_of_ofEntries merged mode
  rw [same,Reading.declarations?_of_ofEntries merged' otherMode] at read
  exact (Option.some.inj read).symm

end Declared

theorem runtime_injective : Function.Injective Modules.runtime := by
  intro a b same
  have texts : (Carrier.runtime a).text = (Carrier.runtime b).text := same
  exact Carrier.runtime.inj (Reading.text_injective texts)

theorem loader_injective (locale : String) : Function.Injective fun entries => Modules.loader entries locale := by
  intro a b same
  have texts : (Carrier.loader a locale).text = (Carrier.loader b locale).text := same
  exact (Carrier.loader.inj (Reading.text_injective texts)).1

section Request

variable {a b : List Locale.Entry} {mode : Mode} {x y : Artifact}

/-- What comes of a request for a module with translations. -/
inductive Answers (entries : List Locale.Entry) (shape : Shape) : Mode → Artifact → Prop where
  | normal : Answers entries shape .normal (.single (Modules.runtime entries))
  | lazy (locale : String) : Answers entries shape (.lazy locale)
      (.withLoader (Declarations.render (entries.map (·.name)) shape (some locale)) (Modules.loader entries locale))

/-- The target makes no difference in lazy mode. -/
theorem generate_lazy (entries : List Locale.Entry) (locale : String) :
    generate entries .runtime (.lazy locale) = generate entries .types (.lazy locale) := by
  rw [generate,generate]

theorem answers_of_generate (made : generate a .runtime mode = .ok x) :
    ∃ shape, Shape.ofEntries a = .ok shape ∧ Answers a shape mode x := by
  rw [generate] at made
  split at made
  · cases made
  next shape merged =>
    refine ⟨shape,merged,?_⟩
    cases mode with
    | normal => cases made; exact .normal
    | lazy locale =>
      dsimp only at made
      split at made
      · cases made; exact .lazy locale
      · cases made

end Request

theorem printed {located : CommandLine.Located} {console : CommandLine.Console} {disk : Disk} {config : Config}
    {entries : List Locale.Entry} {artifact : Artifact} (adopted : located.check disk = .ok config)
    (loaded : CommandLine.environment.toolchain.load config.localesDirectory ({disk := disk} : DiskHost) = .ok entries)
    (made : generate entries .runtime config.mode = .ok artifact) (toStdout : Bool) :
    CommandLine.generate located console disk .runtime toStdout = some (.succeed [.out artifact.primary] disk) := by
  have rendered : CommandLine.environment.render none 0 config .runtime (CommandLine.world console.resolver disk) =
      some (.ok (entries,artifact.primary),CommandLine.world console.resolver disk) := by
    have generated : CommandLine.environment.toolchain.generate entries .runtime config.mode = .ok artifact := by
      change Toolchain.generateTypes entries .runtime config.mode = _
      rw [Toolchain.generateTypes,made]
    have found : CommandLine.environment.toolchain.load config.localesDirectory
        ((CommandLine.world console.resolver disk).host 0) = .ok entries := loaded
    rw [Environment.render,found]
    simp [Environment.announceCall,generated]
  rw [CommandLine.generate,adopted]
  simp [rendered]

/-- Where a module with translations is asked for and something is generated. In normal mode its text is told apart by
all that the locales say. In lazy mode it is the same as where declarations are asked for, and nothing but names and
interfaces tells it apart; the loader, which tells all, is not printed. -/
theorem runtime_primary_eq_iff {a b : List Locale.Entry} {mode : Mode} {x y : Artifact}
    (made : generate a .runtime mode = .ok x) (made' : generate b .runtime mode = .ok y) :
    ∃ s t, Shape.ofEntries a = .ok s ∧ Shape.ofEntries b = .ok t ∧
      (mode = .normal → (x.primary = y.primary ↔ a = b)) ∧
      (mode.isLazy = true → generate a .types mode = .ok x ∧
        (x.primary = y.primary ↔ Declared.of a s mode = Declared.of b t mode) ∧ (x.loader? = y.loader? ↔ a = b)) ∧
      ∀ (located : CommandLine.Located) (console : CommandLine.Console) (disk : Disk) (config : Config)
        (toStdout : Bool), located.check disk = .ok config → config.mode = mode →
        CommandLine.environment.toolchain.load config.localesDirectory ({disk := disk} : DiskHost) = .ok a →
        CommandLine.generate located console disk .runtime toStdout = some (.succeed [.out x.primary] disk) := by
  obtain ⟨s,merged,answers⟩ := answers_of_generate made
  obtain ⟨t,merged',answers'⟩ := answers_of_generate made'
  refine ⟨s,t,merged,merged',?_,?_,?_⟩
  · rintro rfl
    cases answers
    cases answers'
    exact runtime_injective.eq_iff
  · intro isLazy
    cases answers with
    | normal => cases isLazy
    | lazy locale =>
      cases answers'
      have types : Declarations.render (a.map (·.name)) s (some locale) =
          Declarations.render (b.map (·.name)) t (some locale) ↔
            Declared.of a s (.lazy locale) = Declared.of b t (.lazy locale) :=
        @render_eq_iff a b s t (.lazy locale) (.lazy locale) merged merged'
      exact ⟨generate_lazy a locale ▸ made,types,Option.some_inj.trans (loader_injective locale).eq_iff⟩
  · rintro located console disk config toStdout adopted rfl loaded
    exact printed adopted loaded made toStdout

/-- One locale with one message. -/
def welcoming (text : String) : List Locale.Entry := [⟨"en",.message "welcome" text .empty⟩]

def welcome : Shape := .message "welcome" 1 [] .empty

theorem welcoming_merged {text : String} (plain : Message.parameters text = []) :
    Shape.ofEntries (welcoming text) = .ok welcome := by
  simp [Shape.ofEntries,Shape.mergeAll,welcoming,Shape.merge,Shape.addMessage?,Shape.collect,plain,welcome]

def welcomed (text : String) : Artifact :=
  .withLoader (Declarations.render ["en"] welcome (some "en")) (Modules.loader (welcoming text) "en")

theorem primary_welcomed (text : String) :
    (welcomed text).primary = Declarations.render ["en"] welcome (some "en") := by rw [welcomed,Artifact.primary]

theorem generate_welcoming {text : String} (plain : Message.parameters text = []) :
    generate (welcoming text) .runtime (.lazy "en") = .ok (welcomed text) := by
  rw [generate,welcoming_merged plain]
  rfl

/-- Two messages, one text. -/
theorem lazy_runtime_blind : generate (welcoming "Hello") .runtime (.lazy "en") = .ok (welcomed "Hello") ∧
    generate (welcoming "Hi") .runtime (.lazy "en") = .ok (welcomed "Hi") ∧
    (welcoming "Hello").map (·.tree.messages) ≠ (welcoming "Hi").map (·.tree.messages) ∧
    (welcomed "Hello").primary = (welcomed "Hi").primary :=
  ⟨generate_welcoming (by decide +kernel),generate_welcoming (by decide +kernel),by decide,
    by rw [primary_welcomed,primary_welcomed]⟩

theorem welcoming_told_by_loader :
    generate (welcoming "Hello") .runtime (.lazy "en") = .ok (welcomed "Hello") ∧
    generate (welcoming "Hi") .runtime (.lazy "en") = .ok (welcomed "Hi") ∧
    (welcomed "Hello").primary = (welcomed "Hi").primary ∧ (welcomed "Hello").loader? ≠ (welcomed "Hi").loader? := by
  have first : Message.parameters "Hello" = [] := by decide +kernel
  have next : Message.parameters "Hi" = [] := by decide +kernel
  have made := generate_welcoming first
  have made' := generate_welcoming next
  obtain ⟨s,t,merged,merged',-,told,-⟩ := runtime_primary_eq_iff made made'
  obtain ⟨-,types,loader⟩ := told rfl
  cases (welcoming_merged first).symm.trans merged
  cases (welcoming_merged next).symm.trans merged'
  have other : ¬welcoming "Hello" = welcoming "Hi" := by decide
  exact ⟨made,made',types.mpr rfl,fun same => other (loader.mp same)⟩

end Phrasebook.Generation
