import Phrasebook.Text.Quoted
import Phrasebook.Yaml.Token

/-! Directives, anchors and tags. -/
namespace Phrasebook.Yaml.Token

def word (cursor : Cursor) : List Char × Cursor := cursor.span isWord

/-- One to nine decimal digits. -/
def versionNumber (cursor : Cursor) : Option (Nat × Cursor) :=
  let (digits,cursor) := cursor.span Char.isDigit
  if 9 < digits.length then none else (Text.natural? 10 digits).map (·,cursor)

def escapedOctet? (cursor : Cursor) : Option (Nat × Cursor) :=
  match cursor.rest with
  | '%' :: high :: low :: _ => (Text.natural? 16 [high,low]).map fun n => (n,cursor.skip 3)
  | _ => none

/-- How many octets a character takes whose first octet this is. -/
def octetCount? (first : Nat) : Option Nat :=
  if first < 0x80 then some 1
  else if 0xc0 ≤ first && first < 0xe0 then some 2
  else if 0xe0 ≤ first && first < 0xf0 then some 3
  else if 0xf0 ≤ first && first < 0xf8 then some 4
  else none

def trailingOctets : Nat → Nat → Cursor → Option (Nat × Cursor)
  | 0,n,cursor => some (n,cursor)
  | more + 1,n,cursor => do
    let (octet,cursor) ← escapedOctet? cursor
    if 0x80 ≤ octet && octet < 0xc0 then trailingOctets more (64 * n + (octet - 0x80)) cursor else none

/-- One character written as escaped octets. -/
def escapedChar? (cursor : Cursor) : Option (Char × Cursor) := do
  let (first,cursor) ← escapedOctet? cursor
  let count ← octetCount? first
  let lead := if count = 1 then first else first % Nat.pow 2 (7 - count)
  let (n,cursor) ← trailingOctets (count - 1) lead cursor
  some (Char.ofNat n,cursor)

def uriMarks : List Char :=
  [';','/','?',':','@','&','=','+','$','.','%','!','~','*','\'','(',')']

def isUriChar (verbatim : Bool) (c : Char) : Bool :=
  isWord c || uriMarks.contains c || (verbatim && [',','[',']'].contains c)

/-- The characters of a tag, as far as they go. -/
def uri (verbatim : Bool) : Nat → Cursor → Option (List Char × Cursor)
  | 0,_ => none
  | fuel + 1,cursor =>
    match cursor.peek 0 with
    | some c =>
      if !isUriChar verbatim c then some ([],cursor)
      else do
        let (c,cursor) ← if c = '%' then escapedChar? cursor else some (c,cursor.skip 1)
        let (more,cursor) ← uri verbatim fuel cursor
        some (c :: more,cursor)
    | none => some ([],cursor)

def nonemptyUri (verbatim : Bool) (cursor : Cursor) : Option (List Char × Cursor) :=
  (uri verbatim (cursor.rest.length + 1) cursor).filter fun found => !found.1.isEmpty

/-- `!`, a word and perhaps a second `!`. -/
def tagHandle (cursor : Cursor) : Option (List Char × Cursor) :=
  if cursor.sees '!' then
    let (name,cursor) := word (cursor.skip 1)
    if cursor.sees '!' then some ('!' :: name ++ ['!'],cursor.skip 1) else some ('!' :: name,cursor)
  else none

def isNamedHandle (handle : List Char) : Bool := 1 < handle.length && handle.getLast? = some '!'

/-- `!<uri>`, `!handle!suffix`, `!suffix` or a lone `!`. -/
def readTag (inFlow : Bool) (cursor : Cursor) : Option (Token × Cursor) := do
  let (token,cursor) ←
    if cursor.peek 1 = some '<' then do
      let (suffix,cursor) ← nonemptyUri true (cursor.skip 2)
      if cursor.sees '>' then some (Token.tag [] suffix,cursor.skip 1) else none
    else do
      let (handle,cursor) ← tagHandle cursor
      if isNamedHandle handle then do
        let (suffix,cursor) ← nonemptyUri false cursor
        some (Token.tag handle suffix,cursor)
      else do
        let (more,cursor) ← uri false (cursor.rest.length + 1) cursor
        let suffix := handle.tail ++ more
        some (if suffix.isEmpty then Token.tag [] ['!'] else Token.tag ['!'] suffix,cursor)
  if isGap (cursor.peek 0) || (inFlow && cursor.sees ',') then some (token,cursor) else none

/-- What may stand right behind the name of an anchor. -/
def anchorEnds : List Char := ['?',':',',',']','}','%','@','\x60']

/-- The name of an anchor or alias, without the sign before it. -/
def anchorName (cursor : Cursor) : Option (List Char × Cursor) :=
  let (name,cursor) := word (cursor.skip 1)
  if name.isEmpty then none
  else if isGap (cursor.peek 0) || (cursor.peek 0).any anchorEnds.contains then some (name,cursor)
  else none

def readVersion (cursor : Cursor) : Option (Token × Cursor) := do
  let (major,cursor) ← versionNumber cursor.skipBlanks
  if cursor.sees '.' then do
    let (minor,cursor) ← versionNumber (cursor.skip 1)
    some (.version major minor,cursor)
  else none

def readTagDirective (cursor : Cursor) : Option (Token × Cursor) := do
  let (handle,cursor) ← tagHandle cursor.skipBlanks
  if (isNamedHandle handle || handle = ['!']) && cursor.seesBlank then do
    let (tagPrefix,cursor) ← nonemptyUri true cursor.skipBlanks
    if isGap (cursor.peek 0) then some (.tagDirective handle tagPrefix,cursor) else none
  else none

/-- A line that starts with `%`. -/
def readDirective (cursor : Cursor) : Option (Token × Cursor) := do
  let (name,cursor) := word (cursor.skip 1)
  let (token,cursor) ←
    if !isGap (cursor.peek 0) then none
    else if name = "YAML".toList then readVersion cursor
    else if name = "TAG".toList then readTagDirective cursor
    else none
  let cursor ← cursor.finishLine
  some (token,cursor)

end Phrasebook.Yaml.Token
