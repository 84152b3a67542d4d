import Phrasebook.Generation.Basic
import Phrasebook.Path
import Phrasebook.Text.Pieces

/-! The arguments of the command line: a command, options of its own, and options that may stand
before or after it. `--name=value`, `-nvalue` and `-n=value` attach a value; without one the next
argument is the value. -/
namespace Phrasebook.CommandLine

inductive Command where
  | generate (target : Target) (toStdout : Bool)
  | check
  | resolve (specifier : String) (importer : Option Path)
  | watch
deriving DecidableEq, Repr

structure Arguments where
  command : Command
  json : Bool := false
  /-- how often more detail was asked for -/
  detail : Nat := 0
  config : Option Path := none
deriving DecidableEq, Repr

/-- Why there is nothing to carry out. -/
inductive Stop where
  | usage
  | help
  | version
deriving DecidableEq, Repr

inductive Verb where
  | generate
  | check
  | resolve
  | watch
deriving DecidableEq, Repr

def Verb.name : Verb → String
  | generate => "generate"
  | check => "check"
  | resolve => "resolve"
  | watch => "watch"

def Verb.all : List Verb := [.generate,.check,.resolve,.watch]

def Verb.ofName? (name : String) : Option Verb := all.find? (·.name = name)

inductive Switch where
  | json
  | verbose
  | config
  | help
  | version
  | target
  | stdout
  | importer
deriving DecidableEq, Repr

namespace Switch

def name : Switch → String
  | json => "json"
  | verbose => "verbose"
  | config => "config"
  | help => "help"
  | version => "version"
  | target => "target"
  | stdout => "stdout"
  | importer => "from"

def letter? : Switch → Option Char
  | verbose => some 'v'
  | config => some 'c'
  | help => some 'h'
  | version => some 'V'
  | target => some 't'
  | _ => none

def takesValue : Switch → Bool
  | config => true
  | target => true
  | importer => true
  | _ => false

/-- The switches before a command, then those after each. -/
def known : Option Verb → List Switch
  | none => [json,verbose,config,help,version]
  | some .generate => [json,verbose,config,help,target,stdout]
  | some .resolve => [json,verbose,config,help,importer]
  | some _ => [json,verbose,config,help]

end Switch

/-- What was given on one side of the command. -/
structure Given where
  json : Bool := false
  detail : Nat := 0
  config : Option Path := none
  target : Option Target := none
  toStdout : Bool := false
  importer : Option Path := none
  specifier : Option String := none
deriving DecidableEq, Inhabited, Repr

namespace Given

/-- Nothing is given twice, only detail may be asked for again. -/
def once {α : Type} (earlier : Option α) (value : α) : Except Stop (Option α) :=
  if earlier.isSome then .error .usage else .ok (some value)

def path (value : String) : Except Stop Path := if value.isEmpty then .error .usage else .ok ⟨value⟩

def raise (given : Bool) : Except Stop Bool := if given then .error .usage else .ok true

def set (given : Given) : Switch → Except Stop Given
  | .json => do .ok {given with json := ← raise given.json}
  | .stdout => do .ok {given with toStdout := ← raise given.toStdout}
  | .verbose => .ok {given with detail := given.detail + 1}
  | .help => .error .help
  | .version => .error .version
  | _ => .error .usage

def setValue (given : Given) (value : String) : Switch → Except Stop Given
  | .config => do .ok {given with config := ← once given.config (← path value)}
  | .importer => do .ok {given with importer := ← once given.importer (← path value)}
  | .target =>
    match Target.parse value with
    | .ok target => do .ok {given with target := ← once given.target target}
    | .error _ => .error .usage
  | _ => .error .usage

/-- The one argument without a dash that a command takes. -/
def addWord (given : Given) (verb : Verb) (word : String) : Except Stop Given :=
  if verb = .resolve then do .ok {given with specifier := ← once given.specifier word}
  else .error .usage

def addWords (verb : Verb) : List String → Given → Except Stop Given
  | [],given => .ok given
  | word :: rest,given => do addWords verb rest (← given.addWord verb word)

/-- What came of an argument: a switch may still lack its value. -/
abbrev Taken := Except Stop (Given × Option Switch)

def takeLong (given : Given) (switches : List Switch) (text : List Char) : Taken := do
  let (name,value) := match Text.cutAt '=' text with
    | some (name,value) => (name,some (String.ofList value))
    | none => (text,none)
  match switches.find? (·.name = String.ofList name),value with
  | some switch,some value => .ok (← given.setValue value switch,none)
  | some switch,none =>
    if switch.takesValue then .ok (given,some switch) else .ok (← given.set switch,none)
  | none,_ => .error .usage

/-- Letters may be run together; what follows one that takes a value is the value. -/
def takeShort (switches : List Switch) : List Char → Given → Taken
  | [],given => .ok (given,none)
  | letter :: rest,given =>
    match switches.find? (·.letter? = some letter) with
    | none => .error .usage
    | some switch =>
      if switch.takesValue then
        match rest with
        | [] => .ok (given,some switch)
        | '=' :: value => do .ok (← given.setValue (String.ofList value) switch,none)
        | value => do .ok (← given.setValue (String.ofList value) switch,none)
      else do takeShort switches rest (← given.set switch)

end Given

/-- How an argument is to be taken. -/
inductive Form where
  /-- only words follow -/
  | divider
  | long (text : List Char)
  | short (letters : List Char)
  | word
deriving DecidableEq, Repr

def Form.of (argument : String) : Form :=
  match argument.toList with
  | ['-','-'] => .divider
  | '-' :: '-' :: text => .long text
  | ['-'] => .word
  | '-' :: letters => .short letters
  | _ => .word

/-- Reads what follows a command; a switch that lacks its value takes the next word. -/
def readAfter (verb : Verb) (given : Given) : Option Switch → List String → Except Stop Given
  | none,[] => .ok given
  | some _,[] => .error .usage
  | some switch,argument :: rest =>
    match Form.of argument with
    | .word => do readAfter verb (← given.setValue argument switch) none rest
    | _ => .error .usage
  | none,argument :: rest =>
    match Form.of argument with
    | .divider => given.addWords verb rest
    | .long text => do
      let (given,waiting) ← given.takeLong (Switch.known (some verb)) text
      readAfter verb given waiting rest
    | .short letters => do
      let (given,waiting) ← Given.takeShort (Switch.known (some verb)) letters given
      readAfter verb given waiting rest
    | .word => do readAfter verb (← given.addWord verb argument) none rest

/-- Help may be asked for about help itself and about each command. -/
def readHelp : List String → Stop
  | [] => .help
  | [topic] => if topic = "help" || (Verb.ofName? topic).isSome then .help else .usage
  | _ => .usage

def commandOf (verb : Verb) (given : Given) : Except Stop Command :=
  match verb with
  | .generate => .ok (.generate (given.target.getD .types) given.toStdout)
  | .check => .ok .check
  | .resolve =>
    match given.specifier with
    | some specifier => .ok (.resolve specifier given.importer)
    | none => .error .usage
  | .watch => .ok .watch

/-- What is given after the command wins. -/
def combine (verb : Verb) (before after : Given) : Except Stop Arguments := do
  .ok {
    command := ← commandOf verb after
    json := before.json || after.json
    detail := if after.detail = 0 then before.detail else after.detail
    config := after.config.or before.config }

/-- Reads all arguments, of which the first word is the command. -/
def readBefore (given : Given) : Option Switch → List String → Except Stop Arguments
  | _,[] => .error .usage
  | some switch,argument :: rest =>
    match Form.of argument with
    | .word => do readBefore (← given.setValue argument switch) none rest
    | _ => .error .usage
  | none,argument :: rest =>
    match Form.of argument with
    | .divider => .error .usage
    | .long text => do
      let (given,waiting) ← given.takeLong (Switch.known none) text
      readBefore given waiting rest
    | .short letters => do
      let (given,waiting) ← Given.takeShort (Switch.known none) letters given
      readBefore given waiting rest
    | .word =>
      match Verb.ofName? argument with
      | some verb => do combine verb given (← readAfter verb {} none rest)
      | none => if argument = "help" then .error (readHelp rest) else .error .usage

def Arguments.parse (arguments : List String) : Except Stop Arguments := readBefore {} none arguments

end Phrasebook.CommandLine
