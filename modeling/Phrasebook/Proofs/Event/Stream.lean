import Phrasebook.CommandLine.Output
import Phrasebook.Proofs.Json.Reading
import Phrasebook.Proofs.Text.Encoding

/-! The stream of events that a console prints for programs, cut at its line feeds and read line by line. It has one
line for each event, which says all of it if the path that it tells of is a text. So where all are texts, it could
stand for no other events: `stream_recovered`. -/
namespace Phrasebook

namespace Event

/-- The path that an event tells of. -/
def path? : Event → Option Path
  | moduleIntercepted _ file => some file
  | fileChanged path => some path
  | regenerated output _ _ => some output
  | _ => none

/-- If there is such a path, it is a text. -/
def Textual (event : Event) : Prop := ∀ path ∈ event.path?, path.text?.isSome

theorem isSome_details?_iff {event : Event} : event.details?.isSome ↔ event.Textual := by
  cases event <;> simp [details?,Textual,path?]

instance (event : Event) : Decidable event.Textual := decidable_of_iff _ isSome_details?_iff

def textAt? (key : String) (fields : List (String × Json)) : Option String :=
  match Keyed.get? key fields with
  | some (.string text) => some text
  | _ => none

def countAt? (key : String) (fields : List (String × Json)) : Option Nat :=
  match Keyed.get? key fields with
  | some (.integer (.ofNat n)) => some n
  | _ => none

/-- The event with this label and these fields, in whatever order they stand. -/
def ofFields? (label : String) (fields : List (String × Json)) : Option Event :=
  match label with
  | "activated" => (textAt? "module_name" fields).map activated
  | "activation_rejected" => (textAt? "reason" fields).map activationRejected
  | "reconfigured" => (textAt? "module_name" fields).map reconfigured
  | "reconfiguration_rejected" => (textAt? "reason" fields).map reconfigurationRejected
  | "resolver_hooked" => some resolverHooked
  | "resolver_unavailable" => some resolverUnavailable
  | "module_intercepted" => do
    some (moduleIntercepted (← textAt? "module_name" fields) ⟨← textAt? "containing_file" fields⟩)
  | "file_changed" => do some (fileChanged ⟨← textAt? "path" fields⟩)
  | "regenerated" => do
    some (regenerated ⟨← textAt? "output" fields⟩ (← countAt? "locales" fields) (← textAt? "hash" fields))
  | "regeneration_failed" => (textAt? "message" fields).map regenerationFailed
  | "watches_refreshed" => do some (watchesRefreshed (← countAt? "opened" fields) (← countAt? "closed" fields))
  | "disposed" => (countAt? "closed" fields).map disposed
  | _ => none

/-- The command and the event that a line stands for. -/
def ofLine? (line : Octets) : Option (String × Event) :=
  match (Text.ofOctets? line).bind Json.parse? with
  | some (.object fields) => do
    let event ← ofFields? (← textAt? "event" fields) fields
    some (← textAt? "command" fields,event)
  | _ => none

/-- Numbers are counted in machine words. -/
def Fits : Event → Prop
  | regenerated _ locales _ => locales ≤ Json.wordLimit
  | watchesRefreshed opened closed => opened ≤ Json.wordLimit ∧ closed ≤ Json.wordLimit
  | disposed closed => closed ≤ Json.wordLimit
  | _ => True

variable {event : Event}

theorem fields_of_textual (textual : event.Textual) :
    ∃ details, event.details? = some details ∧ event.fields = ("event",.string event.label) :: details := by
  obtain ⟨details,told⟩ := Option.isSome_iff_exists.mp (isSome_details?_iff.mpr textual)
  exact ⟨details,told,by rw [fields,told]⟩

theorem fields_of_not_textual (stray : ¬event.Textual) : event.fields = [("event",.string "error")] := by
  rw [fields,Option.not_isSome_iff_eq_none.mp (mt isSome_details?_iff.mp stray)]

/-- The text of an event is read back as it was rendered. -/
theorem exact_render (fits : event.Fits) (command : String) : Json.Exact (event.render command) := by
  have count {n : Nat} (small : n ≤ Json.wordLimit) : Json.Exact (.integer n) :=
    ⟨by omega,Int.ofNat_le.mpr small⟩
  have last : Json.ExactFields [("command",.string command)] := ⟨trivial,trivial⟩
  by_cases textual : event.Textual
  case neg =>
    rw [render,fields_of_not_textual textual]
    exact ⟨by simp,trivial,last⟩
  obtain ⟨details,told,written⟩ := fields_of_textual textual
  rw [render,written]
  cases event with
  | activated | activationRejected | reconfigured | reconfigurationRejected | regenerationFailed =>
    cases told
    exact ⟨by simp,trivial,trivial,last⟩
  | resolverHooked | resolverUnavailable =>
    cases told
    exact ⟨by simp,trivial,last⟩
  | moduleIntercepted =>
    obtain ⟨file,-,rfl⟩ := Option.map_eq_some_iff.mp told
    exact ⟨by simp,trivial,trivial,trivial,last⟩
  | fileChanged =>
    obtain ⟨path,-,rfl⟩ := Option.map_eq_some_iff.mp told
    exact ⟨by simp,trivial,trivial,last⟩
  | regenerated =>
    obtain ⟨output,-,rfl⟩ := Option.map_eq_some_iff.mp told
    exact ⟨by simp,trivial,trivial,count fits,trivial,last⟩
  | watchesRefreshed =>
    cases told
    exact ⟨by simp,trivial,count fits.1,count fits.2,last⟩
  | disposed =>
    cases told
    exact ⟨by simp,trivial,count fits,last⟩

/-- The fields and the command say which event it is. -/
theorem ofFields?_fields (textual : event.Textual) (command : String) :
    ofFields? event.label (event.fields ++ [("command",.string command)]) = some event := by
  cases event with
  | moduleIntercepted name file =>
    obtain ⟨text,rfl⟩ := Path.isSome_text?_iff.mp (textual file rfl)
    rw [fields,details?,Path.text?_mk]
    rfl
  | fileChanged path =>
    obtain ⟨text,rfl⟩ := Path.isSome_text?_iff.mp (textual path rfl)
    rw [fields,details?,Path.text?_mk]
    rfl
  | regenerated output locales hash =>
    obtain ⟨text,rfl⟩ := Path.isSome_text?_iff.mp (textual output rfl)
    rw [fields,details?,Path.text?_mk]
    rfl
  | _ => rfl

/-- No other field is called like the last. -/
theorem get?_command (event : Event) (command : String) :
    Keyed.get? "command" (event.fields ++ [("command",.string command)]) = some (.string command) := by
  by_cases textual : event.Textual
  case neg =>
    rw [fields_of_not_textual textual]
    rfl
  obtain ⟨details,told,written⟩ := fields_of_textual textual
  rw [written]
  cases event with
  | moduleIntercepted | fileChanged | regenerated =>
    obtain ⟨_,-,rfl⟩ := Option.map_eq_some_iff.mp told
    rfl
  | _ =>
    cases told
    rfl

theorem parse?_render (fits : event.Fits) (command : String) :
    (Text.ofOctets? (Text.octets (event.render command).text)).bind Json.parse? = some (event.render command) := by
  rw [Text.ofOctets?_octets,Option.bind_some,Json.parse?_text (exact_render fits command)]

/-- The line of an event says what the event is, and for which command, unless its path is no text. -/
theorem ofLine?_render (fits : event.Fits) (command : String) :
    ofLine? (Text.octets (event.render command).text) = if event.Textual then some (command,event) else none := by
  rw [ofLine?,parse?_render fits,render]
  by_cases textual : event.Textual
  · have label : textAt? "event" (event.fields ++ [("command",.string command)]) = some event.label := by
      obtain ⟨details,-,written⟩ := fields_of_textual textual
      rw [written]
      rfl
    have last : textAt? "command" (event.fields ++ [("command",.string command)]) = some command := by
      rw [textAt?,get?_command]
    simp [label,last,ofFields?_fields textual,textual]
  · rw [fields_of_not_textual textual,if_neg textual]
    rfl

/-- Lines that stand for events with texts stand for no others. -/
theorem eq_of_lines {command other : String} {events others : List Event}
    (same : others.map (fun event => if event.Textual then some (other,event) else none) =
      events.map fun event => some (command,event)) : others = events ∧ (events ≠ [] → other = command) := by
  induction events generalizing others with
  | nil => exact ⟨List.map_eq_nil_iff.mp same,fun some => absurd rfl some⟩
  | cons event rest ih =>
    obtain ⟨first,more,rfl,here,later⟩ := List.map_eq_cons_iff.mp same
    split at here
    · cases here
      exact ⟨by rw [(ih later).1],fun _ => rfl⟩
    · cases here

end Event

namespace CommandLine.Console

/-- The octets of what is printed for some events. -/
def stream (console : Console) (command : String) (events : List Event) : Octets :=
  Text.octets (String.join (events.map fun event => (console.event command event).outText))

variable {console : Console} {events : List Event}

theorem splitOn_stream (json : console.json = true) (command : String) (fits : ∀ event ∈ events, event.Fits) :
    (console.stream command events).splitOn 10 =
      events.map (fun event => Text.octets (event.render command).text) ++ [[]] := by
  have printed : (events.map fun event => (console.event command event).outText) =
      (events.map fun event => (event.render command).text).map (· ++ "\n") := by
    rw [List.map_map]
    refine List.map_congr_left fun event _ => ?_
    rw [Console.event,if_pos json]
    rfl
  have single : ∀ line ∈ events.map (fun event => (event.render command).text), '\n' ∉ line.toList := by
    rw [List.forall_mem_map]
    exact fun event listed => Json.newline_not_mem_text _ (Event.exact_render (fits event listed) command)
  rw [stream,printed,Text.splitOn_lines single,List.map_map]
  rfl

end CommandLine.Console
end Phrasebook
