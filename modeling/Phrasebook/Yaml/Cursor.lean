/-! A position in a YAML text, and the characters that matter to its grammar. -/
namespace Phrasebook.Yaml

/-- Characters that a YAML stream may hold. -/
def isPermitted (c : Char) : Bool :=
  let n := c.toNat
  c = '\t' || c = '\n' || c = '\r' || (0x20 ≤ n && n ≤ 0x7e) || n = 0x85 ||
  (0xa0 ≤ n && n ≤ 0xfffd) || 0x10000 ≤ n

def isBlank (c : Char) : Bool := c = ' ' || c = '\t'

/-- Line feed, carriage return, next line, line separator, paragraph separator. -/
def isBreak (c : Char) : Bool :=
  c = '\n' || c = '\r' || c = '\u0085' || c = '\u2028' || c = '\u2029'

/-- A blank, a line break or the end of the text. -/
def isGap : Option Char → Bool
  | none => true
  | some c => isBlank c || isBreak c

def isWord (c : Char) : Bool := c.isAlphanum || c = '_' || c = '-'

structure Cursor where
  rest : List Char
  index : Nat
  line : Nat
  column : Nat

namespace Cursor

def ofText (text : String) : Cursor := ⟨text.toList,0,0,0⟩

def peek (cursor : Cursor) (ahead : Nat) : Option Char := cursor.rest[ahead]?

def sees (cursor : Cursor) (c : Char) : Bool := cursor.peek 0 = some c

def seesBreak (cursor : Cursor) : Bool := (cursor.peek 0).any isBreak

def seesBlank (cursor : Cursor) : Bool := (cursor.peek 0).any isBlank

/-- `---` or `...` at the start of a line, followed by a gap. -/
def seesMarker (cursor : Cursor) (mark : Char) : Bool :=
  cursor.column = 0 && cursor.rest.take 3 = [mark,mark,mark] && isGap (cursor.peek 3)

def seesDocumentMarker (cursor : Cursor) : Bool := cursor.seesMarker '-' || cursor.seesMarker '.'

/-- Steps over characters of one line. -/
def skip (cursor : Cursor) (n : Nat) : Cursor :=
  ⟨cursor.rest.drop n,cursor.index + n,cursor.line,cursor.column + n⟩

/-- Steps over a line break, which is read as a line feed unless it is a separator of
lines or paragraphs; elsewhere nothing happens. -/
def readBreak (cursor : Cursor) : List Char × Cursor :=
  match cursor.rest with
  | '\r' :: '\n' :: rest => (['\n'],⟨rest,cursor.index + 2,cursor.line + 1,0⟩)
  | c :: rest =>
    if isBreak c then
      ([if c = '\u2028' || c = '\u2029' then c else '\n'],⟨rest,cursor.index + 1,cursor.line + 1,0⟩)
    else ([],cursor)
  | [] => ([],cursor)

/-- The longest stretch of characters of a class, none of them a line break. -/
def span (cursor : Cursor) (inClass : Char → Bool) : List Char × Cursor :=
  let taken := cursor.rest.takeWhile inClass
  (taken,cursor.skip taken.length)

def skipBlanks (cursor : Cursor) : Cursor := (cursor.span isBlank).2

/-- The rest of a line, without its break. -/
def readLine (cursor : Cursor) : List Char × Cursor := cursor.span (!isBreak ·)

/-- After blanks and a comment only a line break or the end may follow. -/
def finishLine (cursor : Cursor) : Option Cursor :=
  let cursor := cursor.skipBlanks
  let cursor := if cursor.sees '#' then cursor.readLine.2 else cursor
  if cursor.seesBreak || cursor.rest.isEmpty then some cursor.readBreak.2 else none

end Cursor
end Phrasebook.Yaml
