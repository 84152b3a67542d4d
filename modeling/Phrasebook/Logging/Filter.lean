import Phrasebook.Text.Pieces
import Phrasebook.Text.Quoted

/-! Which log records are shown. A filter is written `warn,lib=info,lib::part=debug`: a level for
all targets, and levels for the targets that start with a name. -/
namespace Phrasebook.Logging

inductive Level where
  | error
  | warn
  | info
  | debug
  | trace
deriving DecidableEq, Inhabited, Repr

namespace Level

/-- A higher rank is of less importance. -/
def rank : Level → Nat
  | error => 1
  | warn => 2
  | info => 3
  | debug => 4
  | trace => 5

def label : Level → String
  | error => "ERROR"
  | warn => "WARN"
  | info => "INFO"
  | debug => "DEBUG"
  | trace => "TRACE"

end Level

/-- The highest rank that is shown. -/
abbrev Limit := Nat

namespace Limit

def off : Limit := 0

def everything : Limit := Level.trace.rank

def names : List (String × Limit) :=
  [("off",off),("error",1),("warn",2),("info",3),("debug",4),("trace",everything)]

def unsigned : List Char → List Char
  | '+' :: digits => digits
  | digits => digits

/-- A name in any case of ASCII letters, or a number. -/
def ofText? (text : List Char) : Option Limit :=
  match Text.natural? 10 (unsigned text) with
  | some n => if n ≤ everything then some n else none
  | none => names.lookup (String.ofList (text.map Char.toLower))

end Limit

/-- Applies to every target that starts with its own. -/
structure Rule where
  target : List Char := []
  limit : Limit
deriving DecidableEq, Repr

inductive Fault where
  | badRule
  | badLevel
deriving DecidableEq, Repr

def Fault.message : Fault → String
  | badRule => "invalid filter directive"
  | badLevel => "error parsing level filter: expected one of \"off\", \"error\", \"warn\", " ++
      "\"info\", \"debug\", \"trace\", or a number 0-5"

/-- The level given to a target; without one, everything is shown. -/
def Limit.ofLevel (level : List Char) : Except Fault Limit :=
  if level.isEmpty then .ok Limit.everything
  else
    match ofText? level with
    | some limit => .ok limit
    | none => .error .badLevel

namespace Rule

def appliesTo (rule : Rule) (target : String) : Bool := rule.target.isPrefixOf target.toList

/-- How a rule may start; beyond ASCII there is no restriction. -/
def mayStart (c : Char) : Bool := c = '-' || c = ':' || c = '_' || c.isAlphanum || 0x7f < c.toNat

/-- A lone word is a level or else a target. -/
def ofWord (word : List Char) : Rule :=
  match Limit.ofText? word with
  | some limit => ⟨[],limit⟩
  | none => ⟨word,Limit.everything⟩

def checkTail : List Char → Except Fault Unit
  | '=' :: level => (Limit.ofLevel level).map fun _ => ()
  | tail => if tail.all Char.isWhitespace then .ok () else .error .badRule

/-- What follows the bracket that opens a scope, a part of a program that is entered and left
again. No record is made in one. -/
def checkScope (text : List Char) : Except Fault Unit :=
  match text.dropWhile fun c => c ≠ ']' && c ≠ '\x7b' with
  | ']' :: tail => checkTail tail
  | '\x7b' :: rest =>
    match Text.cutAt '\x7d' rest with
    | some (_ :: _,']' :: tail) => checkTail tail
    | _ => .error .badRule
  | _ => .error .badRule

/-- Reads a piece of a filter. A blank in front counts as part of a word, and a level after it
is out of place. -/
def parse (piece : List Char) : Except Fault (Option Rule) := do
  let word := piece.dropWhile Char.isWhitespace
  let c :: _ := word | .error .badRule
  if c ≠ '[' && !mayStart c then .error .badRule
  else
    let head := word.takeWhile fun c => c ≠ '=' && c ≠ '['
    match word.drop head.length with
    | '[' :: scope => do
      checkScope scope
      .ok none
    | '=' :: level =>
      if word.length < piece.length then .error .badLevel
      else .ok (some ⟨head,← Limit.ofLevel level⟩)
    | _ => .ok (some (ofWord piece))

end Rule

structure Filter where
  rules : List Rule := []
deriving DecidableEq, Inhabited, Repr

namespace Filter

/-- Without any rule errors are shown. -/
def ofRules (rules : List Rule) : Filter :=
  if rules.isEmpty then ⟨[⟨[],Level.error.rank⟩]⟩ else ⟨rules⟩

/-- The pieces of a filter's text. -/
def pieces (text : String) : List (List Char) := (Text.pieces ',' text.toList).filter (!·.isEmpty)

/-- Pieces that are no rules are left out. -/
def ofText (text : String) : Filter :=
  ofRules ((pieces text).filterMap fun piece => (Rule.parse piece).toOption.join)

/-- What is to be said about the pieces that are no rules. -/
def complaints (text : String) : List String :=
  (pieces text).filterMap fun piece =>
    match Rule.parse piece with
    | .error fault => some ("ignoring \x60" ++ String.ofList piece ++ "\x60: " ++ fault.message)
    | .ok _ => none

/-- The rule with the longest target among those that apply, of several the last. -/
def ruleFor? (filter : Filter) (target : String) : Option Rule :=
  filter.rules.foldl (fun best rule =>
    if rule.appliesTo target && best.all (·.target.length ≤ rule.target.length) then some rule
    else best) none

def shows (filter : Filter) (level : Level) (target : String) : Bool :=
  (filter.ruleFor? target).any fun rule => level.rank ≤ rule.limit

end Filter
end Phrasebook.Logging
