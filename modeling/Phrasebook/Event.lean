import Phrasebook.Json
import Phrasebook.Path

/-! What a session reports about itself, in words for people and as JSON for programs. -/
namespace Phrasebook

inductive Event where
  | activated (moduleName : String)
  | activationRejected (reason : String)
  | reconfigured (moduleName : String)
  /-- the previous configuration stays in force -/
  | reconfigurationRejected (reason : String)
  | resolverHooked
  | resolverUnavailable
  | moduleIntercepted (moduleName : String) (containingFile : Path)
  | fileChanged (path : Path)
  | regenerated (output : Path) (locales : Nat) (hash : String)
  /-- the previous output stays as it is -/
  | regenerationFailed (message : String)
  | watchesRefreshed (opened closed : Nat)
  | disposed (closed : Nat)
deriving DecidableEq, Repr

namespace Event

def label : Event → String
  | activated _ => "activated"
  | activationRejected _ => "activation_rejected"
  | reconfigured _ => "reconfigured"
  | reconfigurationRejected _ => "reconfiguration_rejected"
  | resolverHooked => "resolver_hooked"
  | resolverUnavailable => "resolver_unavailable"
  | moduleIntercepted _ _ => "module_intercepted"
  | fileChanged _ => "file_changed"
  | regenerated _ _ _ => "regenerated"
  | regenerationFailed _ => "regeneration_failed"
  | watchesRefreshed _ _ => "watches_refreshed"
  | disposed _ => "disposed"

/-- What an event says beyond its label, if its path is a text. -/
def details? : Event → Option (List (String × Json))
  | activated name => some [("module_name",.string name)]
  | activationRejected reason => some [("reason",.string reason)]
  | reconfigured name => some [("module_name",.string name)]
  | reconfigurationRejected reason => some [("reason",.string reason)]
  | resolverHooked => some []
  | resolverUnavailable => some []
  | moduleIntercepted name file => file.text?.map fun file =>
    [("module_name",.string name),("containing_file",.string file)]
  | fileChanged path => path.text?.map fun path => [("path",.string path)]
  | regenerated output locales hash => output.text?.map fun output =>
    [("output",.string output),("locales",.integer locales),("hash",.string hash)]
  | regenerationFailed message => some [("message",.string message)]
  | watchesRefreshed opened closed => some [("opened",.integer opened),("closed",.integer closed)]
  | disposed closed => some [("closed",.integer closed)]

/-- Of an event that has no text, it only says that there was one. -/
def fields (event : Event) : List (String × Json) :=
  match event.details? with
  | some details => ("event",.string event.label) :: details
  | none => [("event",.string "error")]

/-- One JSON object, which ends with the command that the session serves. -/
def render (command : String) (event : Event) : Json :=
  .object (event.fields ++ [("command",.string command)])

def describe : Event → String
  | activated name => "serving '" ++ name ++ "'"
  | activationRejected reason => "inactive: " ++ reason
  | reconfigured name => "configuration updated, serving '" ++ name ++ "'"
  | reconfigurationRejected reason =>
    "reconfiguration rejected, continuing with prior config: " ++ reason
  | resolverHooked => "resolver hooked"
  | resolverUnavailable => "host has no module resolver to hook"
  | moduleIntercepted name file => "resolved '" ++ name ++ "' for " ++ file.display
  | fileChanged path => "changed " ++ path.display
  | regenerated output locales hash =>
    "wrote " ++ output.display ++ " (" ++ toString locales ++ " locales, " ++ hash ++ ")"
  | regenerationFailed message => "generation failed: " ++ message
  | watchesRefreshed opened closed =>
    "watching " ++ toString opened ++ " files (closed " ++ toString closed ++ ")"
  | disposed closed => "disposed, closed " ++ toString closed ++ " watches"

end Event
end Phrasebook
