import Phrasebook.Proofs.Generation.Recovery
import Phrasebook.Proofs.Text.Occurrence

/-! What an emitted message evaluates to: its text with every placeholder replaced by the argument of that name. It
is a literal if the text has none: `message_filled`. -/
namespace Phrasebook.Generation

/-- The value of an emitted message. A function has it for the arguments given, a literal for any. -/
def Reading.evaluate? (argument : String → String) (code : String) : Option String :=
  let body := (Text.after? "(params) => ".toList code.toList).getD code.toList
  (Text.separated " + ".toList operand? body).bind fun (segments,rest) =>
    if rest.isEmpty then some (String.ofList (segments.flatMap (Segment.filled argument))) else none

variable {text : String}

/-- Without parameters nothing is filled in. -/
theorem flatMap_filled_of_no_parameters (argument : String → String) (none : Message.parameters text = []) :
    (Message.segments text.toList).flatMap (Segment.filled argument) = text.toList := by
  have same : ∀ segment ∈ Message.segments text.toList, segment.filled argument = segment.source := by
    intro segment member
    cases segment with
    | literal => rfl
    | parameter name =>
      have named : String.ofList name ∈ Message.parameters text := by
        rw [Message.mem_parameters,String.toList_ofList]
        exact member
      rw [none] at named
      cases named
  rw [List.flatMap_congr same,Message.source_segments]

theorem evaluate?_message (argument : String → String) (text : String) :
    Reading.evaluate? argument (Modules.message text) =
      some (String.ofList ((Message.segments text.toList).flatMap (Segment.filled argument))) := by
  have filled : (Reading.operands text).flatMap (Segment.filled argument) =
      (Message.segments text.toList).flatMap (Segment.filled argument) := by
    rw [Reading.operands]
    split
    next none => simp [Segment.filled,flatMap_filled_of_no_parameters argument none]
    · rfl
  simp only [Reading.evaluate?,Reading.separated_message,Option.bind_some,List.isEmpty_nil,if_true,filled]

theorem message_eq_quote_iff : Modules.message text = Text.quote text ↔ Message.parameters text = [] := by
  refine ⟨fun same => ?_,Reading.message_literal⟩
  by_contra some
  have first := congrArg (fun code : String => code.toList.head?) same
  simp [Reading.message_function some,Text.toList_quote] at first

theorem parameters_eq_nil_iff :
    Message.parameters text = [] ↔ ∀ place name, ¬Message.OccursAt text.toList place name := by
  rw [Message.parameters,← Message.map_places _ 0,List.map_eq_nil_iff,List.eq_nil_iff_forall_not_mem]
  simp [Message.mem_places_iff]

/-- The segments of a message are its text, cut; literal ones are never empty, and the parameters are identifiers,
the placeholders of the text in their order, with none left out. The emitted value evaluates, for any arguments, to
the text with all placeholders filled in, and it is the literal of the text exactly if there are none. -/
theorem message_filled (text : String) :
    (.literal [] ∉ Message.segments text.toList ∧
      (∀ name, .parameter name ∈ Message.segments text.toList → Message.isIdentifier name = true) ∧
      (Message.segments text.toList).flatMap Segment.source = text.toList) ∧
    ((Message.places 0 (Message.segments text.toList)).map (fun parameter => String.ofList parameter.2) =
        Message.parameters text ∧
      (Message.places 0 (Message.segments text.toList)).Pairwise (fun first later => first.1 < later.1) ∧
      ∀ place name, (place,name) ∈ Message.places 0 (Message.segments text.toList) ↔
        Message.OccursAt text.toList place name) ∧
    (∀ argument, ∃ result, Reading.evaluate? argument (Modules.message text) = some result ∧
      ∀ filled, Message.Filled argument text.toList filled ↔ filled = result.toList) ∧
    (Modules.message text = Text.quote text ↔ ∀ place name, ¬Message.OccursAt text.toList place name) ∧
    ∀ rest, Text.Quoted.read ((Text.quote text).toList.tail ++ rest) = some (text.toList,rest) := by
  refine ⟨⟨Message.empty_literal_not_mem _,fun name => Message.isIdentifier_of_parameter,Message.source_segments _⟩,
    ⟨Message.map_places _ 0,Message.ascending_places _ 0,fun place name => ?_⟩,fun argument => ?_,
    message_eq_quote_iff.trans parameters_eq_nil_iff,fun rest => ?_⟩
  · simp [Message.mem_places_iff]
  · have filled := Message.filled_segments argument text.toList
    refine ⟨_,evaluate?_message argument text,fun other => ?_⟩
    rw [String.toList_ofList]
    exact ⟨fun another => another.unique filled,fun same => same ▸ filled⟩
  · simpa [Text.toList_quote] using Text.Quoted.read_chars text.toList rest

/-- An opening brace that is not closed hides no placeholder behind it, and a number is none. -/
theorem unclosed_brace_filled : Message.OccursAt "\x7ba \x7bx\x7d \x7b1\x7d".toList 3 ['x'] ∧
    (3,['x']) ∈ Message.places 0 (Message.segments "\x7ba \x7bx\x7d \x7b1\x7d".toList) ∧
    Modules.message "\x7ba \x7bx\x7d \x7b1\x7d" ≠ Text.quote "\x7ba \x7bx\x7d \x7b1\x7d" := by
  obtain ⟨-,⟨-,-,exact⟩,-,literal,-⟩ := message_filled "\x7ba \x7bx\x7d \x7b1\x7d"
  have occurs : Message.OccursAt "\x7ba \x7bx\x7d \x7b1\x7d".toList 3 ['x'] :=
    ⟨by decide,"\x7ba ".toList," \x7b1\x7d".toList,by decide,by decide⟩
  exact ⟨occurs,(exact 3 ['x']).mpr occurs,fun same => literal.mp same 3 ['x'] occurs⟩

end Phrasebook.Generation
