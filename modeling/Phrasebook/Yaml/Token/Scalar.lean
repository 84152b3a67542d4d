import Phrasebook.Yaml.Token.Property

/-! The text of scalars: plain, quoted, and block scalars with their folding of lines. -/
namespace Phrasebook.Yaml.Token

/-- Blanks and line breaks between two stretches of text. -/
structure Gap where
  blanks : List Char := []
  first : List Char := []
  more : List Char := []
  broken : Bool := false

/-- One line feed becomes a space, further breaks stay; blanks within a line stay. -/
def Gap.text (gap : Gap) : List Char :=
  if !gap.broken then gap.blanks
  else if gap.first = ['\n'] then (if gap.more.isEmpty then [' '] else gap.more)
  else gap.first ++ gap.more

/-- Reads a gap. Below column `margin`, a tab may not stand at the start of a line. -/
def readGap (margin : Int) : Nat → Gap → Cursor → Option (Gap × Cursor)
  | 0,_,_ => none
  | fuel + 1,gap,cursor =>
    match cursor.peek 0 with
    | some c =>
      if isBlank c then
        if gap.broken && cursor.column < margin && c = '\t' then none
        else
          let gap := if gap.broken then gap else {gap with blanks := gap.blanks ++ [c]}
          readGap margin fuel gap (cursor.skip 1)
      else if isBreak c then
        let (text,cursor) := cursor.readBreak
        let gap := if gap.broken then {gap with more := gap.more ++ text}
          else {gap with blanks := [],first := text,broken := true}
        readGap margin fuel gap cursor
      else some (gap,cursor)
    | none => some (gap,cursor)

def flowIndicators : List Char := [',','[',']','{','}']

/-- Plain characters up to a gap, a colon before a gap or, in flow, an indicator. A colon
right before a flow indicator is refused. -/
def plainWord (inFlow : Bool) : List Char → Option (List Char)
  | [] => some []
  | c :: rest =>
    if isGap (some c) then some []
    else if inFlow && c = ':' && rest.head?.any ('?' :: flowIndicators).contains then none
    else if c = ':' && isGap rest.head? then some []
    else if inFlow && flowIndicators.contains c then some []
    else (plainWord inFlow rest).map (c :: ·)

/-- The text of a plain scalar; the flag says that it ended after a line break. -/
def readPlain (inFlow : Bool) (margin : Int) :
    Nat → List Char → Gap → Cursor → Option (List Char × Bool × Cursor)
  | 0,_,_,_ => none
  | fuel + 1,text,gap,cursor => do
    if cursor.seesDocumentMarker || cursor.sees '#' then some (text,gap.broken,cursor)
    else
      let word ← plainWord inFlow cursor.rest
      let cursor := cursor.skip word.length
      let (text,gap) := if word.isEmpty then (text,gap) else (text ++ gap.text ++ word,{})
      if cursor.seesBlank || cursor.seesBreak then
        let (gap,cursor) ← readGap margin (cursor.rest.length + 1) gap cursor
        if !inFlow && cursor.column < margin then some (text,gap.broken,cursor)
        else readPlain inFlow margin fuel text gap cursor
      else some (text,gap.broken,cursor)

/-- The character that a letter after a backslash stands for. -/
def namedEscape? : Char → Option Char
  | '0' => some '\x00'
  | 'a' => some '\x07'
  | 'b' => some '\x08'
  | 't' => some '\t'
  | '\t' => some '\t'
  | 'n' => some '\n'
  | 'v' => some '\x0b'
  | 'f' => some '\x0c'
  | 'r' => some '\r'
  | 'e' => some '\x1b'
  | ' ' => some ' '
  | '"' => some '"'
  | '/' => some '/'
  | '\\' => some '\\'
  | 'N' => some '\u0085'
  | '_' => some '\u00a0'
  | 'L' => some '\u2028'
  | 'P' => some '\u2029'
  | _ => none

def numericEscape? : Char → Option Nat
  | 'x' => some 2
  | 'u' => some 4
  | 'U' => some 8
  | _ => none

/-- The escape sequence at the cursor. -/
def readEscape (cursor : Cursor) : Option (Char × Cursor) := do
  let letter ← cursor.peek 1
  match numericEscape? letter with
  | some count => (Text.hexScalar? count (cursor.rest.drop 2)).map fun (c,_) => (c,cursor.skip (2 + count))
  | none => (namedEscape? letter).map fun c => (c,cursor.skip 2)

/-- Quoted characters up to a gap or the closing quote; the flag says that an escaped line
break ended them. -/
def quotedWord (quote : Char) : Nat → Cursor → Option (List Char × Bool × Cursor)
  | 0,_ => none
  | fuel + 1,cursor =>
    match cursor.peek 0 with
    | none => some ([],false,cursor)
    | some c => do
      if isGap (some c) then some ([],false,cursor)
      else if c = quote then
        if quote = '\'' && cursor.peek 1 = some '\'' then
          let (word,broken,cursor) ← quotedWord quote fuel (cursor.skip 2)
          some ('\'' :: word,broken,cursor)
        else some ([],false,cursor)
      else if quote = '"' && c = '\\' then
        if (cursor.peek 1).any isBreak then some ([],true,(cursor.skip 1).readBreak.2)
        else
          let (c,cursor) ← readEscape cursor
          let (word,broken,cursor) ← quotedWord quote fuel cursor
          some (c :: word,broken,cursor)
      else
        let (word,broken,cursor) ← quotedWord quote fuel (cursor.skip 1)
        some (c :: word,broken,cursor)

/-- The text up to the closing quote, which is consumed. -/
def readQuoted (quote : Char) : Nat → List Char → Cursor → Option (List Char × Cursor)
  | 0,_,_ => none
  | fuel + 1,text,cursor => do
    if cursor.seesDocumentMarker || cursor.rest.isEmpty then none
    else
      let (word,broken,cursor) ← quotedWord quote (cursor.rest.length + 1) cursor
      let text := text ++ word
      if cursor.sees quote then some (text,cursor.skip 1)
      else
        let (gap,cursor) ← readGap (-1) (cursor.rest.length + 1) {broken := broken} cursor
        readQuoted quote fuel (text ++ gap.text) cursor

inductive Chomp where
  | strip
  | clip
  | keep

def chomp? : Char → Option Chomp
  | '+' => some .keep
  | '-' => some .strip
  | _ => none

/-- An indentation indicator from 1 to 9, or 0 where there is none. -/
def readIncrement (cursor : Cursor) : Option (Nat × Cursor) :=
  match cursor.peek 0 with
  | some c =>
    if c = '0' then none
    else if c.isDigit then some (c.toNat - '0'.toNat,cursor.skip 1)
    else some (0,cursor)
  | none => some (0,cursor)

/-- The indicators after `|` or `>`, in either order. -/
def readBlockHeader (cursor : Cursor) : Option (Chomp × Nat × Cursor) := do
  match (cursor.peek 0).bind chomp? with
  | some chomp =>
    let (increment,cursor) ← readIncrement (cursor.skip 1)
    some (chomp,increment,cursor)
  | none =>
    let (increment,cursor) ← readIncrement cursor
    match (if increment = 0 then none else (cursor.peek 0).bind chomp?) with
    | some chomp => some (chomp,increment,cursor.skip 1)
    | none => some (.clip,increment,cursor)

/-- Empty lines before a line of a block scalar, and the deepest column seen. With
`indent = 0` the indentation is still to be found. -/
def readEmptyLines (indent : Nat) : Nat → List Char → Nat → Cursor → Option (List Char × Nat × Cursor)
  | 0,_,_,_ => none
  | fuel + 1,breaks,deepest,cursor =>
    let free := indent - cursor.column
    let spaces := (cursor.rest.takeWhile (· = ' ')).length
    let cursor := cursor.skip (if indent = 0 then spaces else min free spaces)
    let deepest := max deepest cursor.column
    if (indent = 0 || cursor.column < indent) && cursor.sees '\t' then none
    else if cursor.seesBreak then
      let (text,cursor) := cursor.readBreak
      readEmptyLines indent fuel (breaks ++ text) deepest cursor
    else some (breaks,deepest,cursor)

/-- The lines of a block scalar at column `indent`: the text so far, the break after the
last line, and the empty lines after it. -/
def readBlockLines (literal : Bool) (indent : Nat) :
    Nat → (text lastBreak breaks : List Char) → (afterBlank : Bool) → Cursor →
    Option (List Char × List Char × List Char × Cursor)
  | 0,_,_,_,_,_ => none
  | fuel + 1,text,lastBreak,breaks,afterBlank,cursor =>
    if cursor.column = indent && !cursor.rest.isEmpty then do
      let onBlank := cursor.seesBlank
      let joint :=
        if !literal && lastBreak.head? = some '\n' && !afterBlank && !onBlank then
          if breaks.isEmpty then [' '] else []
        else lastBreak
      let (line,cursor) := cursor.readLine
      let (newBreak,cursor) := cursor.readBreak
      let (newBreaks,_,cursor) ← readEmptyLines indent (cursor.rest.length + 1) [] 0 cursor
      readBlockLines literal indent fuel (text ++ joint ++ breaks ++ line) newBreak newBreaks onBlank cursor
    else some (text,lastBreak,breaks,cursor)

/-- A block scalar below the column `parent`, which is -1 at the top. -/
def readBlock (literal : Bool) (parent : Int) (cursor : Cursor) : Option (List Char × Cursor) := do
  let (chomp,increment,cursor) ← readBlockHeader (cursor.skip 1)
  let cursor ← cursor.finishLine
  let given := if increment = 0 then 0 else if 0 ≤ parent then parent.toNat + increment else increment
  let (breaks,deepest,cursor) ← readEmptyLines given (cursor.rest.length + 1) [] 0 cursor
  let indent := if given = 0 then max deepest (max (parent + 1).toNat 1) else given
  let (text,lastBreak,breaks,cursor) ←
    readBlockLines literal indent (cursor.rest.length + 1) [] [] breaks false cursor
  match chomp with
  | .strip => some (text,cursor)
  | .clip => some (text ++ lastBreak,cursor)
  | .keep => some (text ++ lastBreak ++ breaks,cursor)

end Phrasebook.Yaml.Token
