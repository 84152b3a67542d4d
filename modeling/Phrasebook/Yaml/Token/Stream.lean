import Phrasebook.Yaml.Token.Scalar

/-! The token stream of a text. Indentation opens and closes block collections, and a colon
turns what was read before it on its line into a key. -/
namespace Phrasebook.Yaml

/-- A place where a key may have started: `token` tokens came before it. -/
structure Candidate where
  required : Bool
  token : Nat
  index : Nat
  line : Nat
  column : Nat

/-- `indent` is the column of the innermost block collection, -1 outside of all; `keys`
holds a candidate for each flow level, the innermost first. -/
structure Scanner where
  cursor : Cursor
  flow : Nat := 0
  indent : Int := -1
  indents : List Int := []
  allowKey : Bool := true
  keys : List (Option Candidate) := [none]
  tokens : Array Token := #[]

namespace Scanner

def emit (s : Scanner) (token : Token) : Scanner := {s with tokens := s.tokens.push token}

def insert (s : Scanner) (place : Nat) (token : Token) : Scanner :=
  {s with tokens := s.tokens.insertIdxIfInBounds place token}

/-- Steps over blanks, comments and line breaks. -/
def skipGaps (inFlow : Bool) : List Char → (comment allowKey : Bool) → (index line column : Nat) →
    Bool × Cursor
  | '\r' :: '\n' :: rest,_,allowKey,index,line,_ =>
    skipGaps inFlow rest false (allowKey || !inFlow) (index + 2) (line + 1) 0
  | c :: rest,comment,allowKey,index,line,column =>
    if isBreak c then skipGaps inFlow rest false (allowKey || !inFlow) (index + 1) (line + 1) 0
    else if comment || c = ' ' || (c = '\t' && (inFlow || !allowKey)) || (c = '\ufeff' && column = 0) then
      skipGaps inFlow rest comment allowKey (index + 1) line (column + 1)
    else if c = '#' then skipGaps inFlow rest true allowKey (index + 1) line (column + 1)
    else (allowKey,⟨c :: rest,index,line,column⟩)
  | [],_,allowKey,index,line,column => (allowKey,⟨[],index,line,column⟩)

/-- A key ends on its line and within 1024 characters. -/
def Candidate.isStale (cursor : Cursor) (k : Candidate) : Bool :=
  k.line < cursor.line || k.index + 1024 < cursor.index

def dropStale (s : Scanner) : Option Scanner := do
  let keys ← s.keys.mapM fun
    | some k => if Candidate.isStale s.cursor k then (if k.required then none else some none) else some (some k)
    | none => some none
  some {s with keys := keys}

/-- Closes block collections deeper than a column. -/
def unroll (column : Int) : Nat → Scanner → Scanner
  | 0,s => s
  | fuel + 1,s =>
    if s.flow = 0 && column < s.indent then
      unroll column fuel {s.emit .blockEnd with indent := s.indents.headD (-1),indents := s.indents.tail}
    else s

def unrollTo (s : Scanner) (column : Int) : Scanner := unroll column (s.indents.length + 1) s

/-- Opens a block collection at a column deeper than the innermost one. -/
def roll (s : Scanner) (column : Nat) (place : Nat) (token : Token) : Scanner :=
  if s.flow = 0 && s.indent < column then
    {s.insert place token with indent := column,indents := s.indent :: s.indents}
  else s

/-- Forgets the innermost candidate, unless a key is required there. -/
def dropKey (s : Scanner) : Option Scanner :=
  match s.keys with
  | some k :: rest => if k.required then none else some {s with keys := none :: rest}
  | _ => some s

def saveKey (s : Scanner) : Option Scanner :=
  if s.allowKey then do
    let s ← s.dropKey
    let required := s.flow = 0 && s.indent = s.cursor.column
    let k : Candidate := ⟨required,s.tokens.size,s.cursor.index,s.cursor.line,s.cursor.column⟩
    some {s with keys := some k :: s.keys.tail}
  else some s

/-- A one-character token. -/
def step (s : Scanner) (token : Token) : Scanner := {s.emit token with cursor := s.cursor.skip 1}

def documentMarker (s : Scanner) (token : Token) : Option Scanner := do
  let s ← (s.unrollTo (-1)).dropKey
  some {s.emit token with cursor := s.cursor.skip 3,allowKey := false}

def directive (s : Scanner) : Option Scanner := do
  let s ← (s.unrollTo (-1)).dropKey
  let (token,cursor) ← Token.readDirective s.cursor
  some {s.emit token with cursor := cursor,allowKey := false}

def openFlow (s : Scanner) (token : Token) : Option Scanner := do
  let s ← s.saveKey
  some {s.step token with flow := s.flow + 1,keys := none :: s.keys,allowKey := true}

def closeFlow (s : Scanner) (token : Token) : Option Scanner := do
  let s ← s.dropKey
  let keys := if s.flow = 0 then s.keys else s.keys.tail
  some {s.step token with flow := s.flow - 1,keys := keys,allowKey := false}

def flowEntry (s : Scanner) : Option Scanner := do
  let s ← s.dropKey
  some {s.step .flowEntry with allowKey := true}

/-- In flow the entry is left for the grammar to refuse. -/
def blockEntry (s : Scanner) : Option Scanner := do
  if s.flow = 0 && !s.allowKey then none
  else
    let s ← (s.roll s.cursor.column s.tokens.size .blockSequence).dropKey
    some {s.step .blockEntry with allowKey := true}

def explicitKey (s : Scanner) : Option Scanner := do
  if s.flow = 0 && !s.allowKey then none
  else
    let s ← (s.roll s.cursor.column s.tokens.size .blockMapping).dropKey
    some {s.step .key with allowKey := s.flow = 0}

def value (s : Scanner) : Option Scanner :=
  match s.keys with
  | some k :: rest =>
    let s := (s.insert k.token .key).roll k.column k.token .blockMapping
    some {s.step .value with keys := none :: rest,allowKey := false}
  | _ =>
    if s.flow = 0 && !s.allowKey then none
    else
      let s := s.roll s.cursor.column s.tokens.size .blockMapping
      some {s.step .value with allowKey := s.flow = 0}

/-- A token that may start a key. -/
def keyToken (s : Scanner) (read : Cursor → Option (Token × Cursor)) : Option Scanner := do
  let s ← s.saveKey
  let (token,cursor) ← read s.cursor
  some {s.emit token with cursor := cursor,allowKey := false}

def blockScalar (s : Scanner) (literal : Bool) : Option Scanner := do
  let s ← s.dropKey
  let (text,cursor) ← Token.readBlock literal s.indent s.cursor
  some {s.emit (.scalar false text) with cursor := cursor,allowKey := true}

def quotedScalar (s : Scanner) (quote : Char) : Option Scanner :=
  s.keyToken fun cursor => do
    let (text,cursor) ← Token.readQuoted quote (cursor.rest.length + 1) [] (cursor.skip 1)
    some (.scalar false text,cursor)

def plainScalar (s : Scanner) : Option Scanner := do
  let s ← s.saveKey
  let (text,broken,cursor) ←
    Token.readPlain (0 < s.flow) (s.indent + 1) (s.cursor.rest.length + 1) [] {} s.cursor
  some {s.emit (.scalar true text) with cursor := cursor,allowKey := broken}

def indicators : List Char :=
  ['-','?',':',',','[',']','{','}','#','&','*','!','|','>','\'','"','%','@','\x60']

/-- Whether a plain scalar may start here. -/
def startsPlain (inFlow : Bool) (c : Char) (next : Option Char) : Bool :=
  (!isGap (some c) && !indicators.contains c) || (c = '-' && !next.any isBlank) ||
  (!inFlow && (c = '?' || c = ':') && !isGap next)

/-- The next token, at a cursor behind gaps. -/
def token (s : Scanner) (c : Char) : Option Scanner :=
  let next := s.cursor.peek 1
  let inFlow : Bool := 0 < s.flow
  if s.cursor.column = 0 && c = '%' then s.directive
  else if s.cursor.seesMarker '-' then s.documentMarker .documentStart
  else if s.cursor.seesMarker '.' then s.documentMarker .documentEnd
  else if c = '[' then s.openFlow .flowSequence
  else if c = '{' then s.openFlow .flowMapping
  else if c = ']' then s.closeFlow .flowSequenceEnd
  else if c = '}' then s.closeFlow .flowMappingEnd
  else if c = ',' then s.flowEntry
  else if c = '-' && isGap next then s.blockEntry
  else if c = '?' && (inFlow || isGap next) then s.explicitKey
  else if c = ':' && (inFlow || isGap next) then s.value
  else if c = '*' then s.keyToken fun cursor =>
    (Token.anchorName cursor).map fun (name,cursor) => (.alias name,cursor)
  else if c = '&' then s.keyToken fun cursor =>
    (Token.anchorName cursor).map fun (name,cursor) => (.anchor name,cursor)
  else if c = '!' then s.keyToken (Token.readTag inFlow)
  else if c = '|' && !inFlow then s.blockScalar true
  else if c = '>' && !inFlow then s.blockScalar false
  else if c = '\'' || c = '"' then s.quotedScalar c
  else if startsPlain inFlow c next then s.plainScalar
  else none

/-- Reads tokens to the end of the text. Each one takes at least a character. -/
def run : Nat → Scanner → Option Scanner
  | 0,_ => none
  | fuel + 1,s => do
    let (allowKey,cursor) :=
      skipGaps (0 < s.flow) s.cursor.rest false s.allowKey s.cursor.index s.cursor.line s.cursor.column
    let s ← {s with cursor := cursor,allowKey := allowKey}.dropStale
    let s := s.unrollTo s.cursor.column
    match cursor.peek 0 with
    | some c => do run fuel (← s.token c)
    | none => (s.unrollTo (-1)).dropKey

end Scanner

/-- The tokens of a text; none where it breaks the rules of the stream. -/
def Token.ofText? (text : String) : Option (List Token) :=
  if text.toList.all isPermitted then
    let cursor := Cursor.ofText text
    (Scanner.run (cursor.rest.length + 1) {cursor := cursor}).map fun s => s.tokens.toList
  else none

end Phrasebook.Yaml
