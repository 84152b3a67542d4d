import Phrasebook.Host

/-! Module resolution: one answer per requested name, none where a name leads nowhere. -/
namespace Phrasebook

structure Resolution where
  path : Path
  /-- into a dependency, not into the project's own sources -/
  external : Bool
deriving DecidableEq, Inhabited, Repr

structure Query where
  names : List String
  containingFile : Path
  reused : Option (List String) := none
deriving DecidableEq, Inhabited, Repr

abbrev Answers := List (Option Resolution)

/-- Exactly `n` answers: cut, or padded with no answer. -/
def Answers.fit (n : Nat) (answers : Answers) : Answers := (answers ++ List.replicate n none).take n

abbrev Resolver := Query → Except HostFault Answers

/-- What has been laid over a host's own resolver. -/
inductive Layer where
  | session (id : Nat)
  | adjust (f : Query → Answers → Answers)

/-- A host's place for a resolver; without one, nothing can be laid over it. -/
structure Hook where
  baseline : Option Resolver := none
  /-- the outermost first -/
  layers : List Layer := []
deriving Inhabited

namespace Hook

def hasResolver (hook : Hook) : Bool := hook.baseline.isSome

def wrapCount (hook : Hook) : Nat := hook.layers.length

def wrap? (hook : Hook) (layer : Layer) : Option Hook :=
  if hook.hasResolver then some {hook with layers := layer :: hook.layers} else none

end Hook
end Phrasebook
