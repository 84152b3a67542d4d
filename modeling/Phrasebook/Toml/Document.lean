import Phrasebook.Toml.Scalar

/-! Reading TOML documents. -/
namespace Phrasebook.Toml

/-- How deep arrays and braces may nest, and how many keys a dotted key may have. -/
def depthLimit : Nat := 79

def isBareKey (c : Char) : Bool := c.isAlphanum || c = '_' || c = '-'

/-- The text after a comment, which ends before a line break. -/
def skipComment : List Char → List Char
  | '#' :: rest => rest.dropWhile isPlain
  | text => text

/-- Blanks and a comment up to the end of the line. -/
def finishLine? (text : List Char) : Option (List Char) :=
  match skipComment (text.dropWhile isBlank) with
  | [] => some []
  | text => afterBreak? text

/-- Skips blanks, line breaks and comments. -/
def skipFill : Nat → List Char → List Char
  | 0,text => text
  | fuel + 1,text =>
    let text := skipComment (Quoted.skipGap text)
    match afterBreak? text with
    | some rest => skipFill fuel rest
    | none => text

def fill (text : List Char) : List Char := skipFill (text.length + 1) text

def key? (text : List Char) : Option (String × List Char) :=
  match text with
  | '"' :: rest => Quoted.readLine '"' rest
  | '\'' :: rest => Quoted.readLine '\'' rest
  | text =>
    let key := text.takeWhile isBareKey
    if key.isEmpty then none else some (String.ofList key,text.drop key.length)

/-- A key and the keys before it on the path; blanks may stand around each. -/
def path? : Nat → List String → List Char → Option (List String × String × List Char)
  | 0,_,_ => none
  | fuel + 1,path,text => do
    let (key,rest) ← key? (text.dropWhile isBlank)
    match rest.dropWhile isBlank with
    | '.' :: rest => path? fuel (path ++ [key]) rest
    | rest => some (path,key,rest)

mutual

def value? : Nat → Nat → List Char → Option (Value × List Char)
  | 0,_,_ => none
  | fuel + 1,depth,text =>
    match text,depth with
    | '"' :: '"' :: '"' :: rest,_ => (Quoted.readLines '"' rest).map fun (s,rest) => (.string s,rest)
    | '\'' :: '\'' :: '\'' :: rest,_ => (Quoted.readLines '\'' rest).map fun (s,rest) => (.string s,rest)
    | '"' :: rest,_ => (Quoted.readLine '"' rest).map fun (s,rest) => (.string s,rest)
    | '\'' :: rest,_ => (Quoted.readLine '\'' rest).map fun (s,rest) => (.string s,rest)
    | '[' :: rest,depth + 1 => items? fuel depth [] rest
    | '{' :: rest,depth + 1 =>
      match rest.dropWhile isBlank with
      | '}' :: rest => some (.table .braced [],rest)
      | rest => members? fuel depth [] rest
    | text,_ =>
      let (word,rest) := Word.read text
      (Word.value? word).map (·,rest)

def items? : Nat → Nat → List Value → List Char → Option (Value × List Char)
  | 0,_,_,_ => none
  | fuel + 1,depth,read,text =>
    match fill text with
    | ']' :: rest => some (.array read.reverse,rest)
    | text => do
      let (item,rest) ← value? fuel depth text
      match fill rest with
      | ',' :: rest => items? fuel depth (item :: read) rest
      | ']' :: rest => some (.array (item :: read).reverse,rest)
      | _ => none

def members? : Nat → Nat → List (String × Value) → List Char → Option (Value × List Char)
  | 0,_,_,_ => none
  | fuel + 1,depth,fields,text => do
    let (path,key,rest) ← path? depthLimit [] text
    match rest with
    | '=' :: rest =>
      let (item,rest) ← value? fuel depth (rest.dropWhile isBlank)
      let fields ← assign path key item .braced fields
      match rest.dropWhile isBlank with
      | ',' :: rest => members? fuel depth fields rest
      | '}' :: rest => some (.table .braced fields,rest)
      | _ => none
    | _ => none

end

/-- The path of the last header, and the fields read so far. -/
structure Draft where
  path : List String := []
  fields : List (String × Value) := []

/-- A header and what it opens. -/
def header? (draft : Draft) (text : List Char) : Option (Draft × List Char) := do
  match text with
  | '[' :: text =>
    let (path,key,rest) ← path? depthLimit [] text
    match rest with
    | ']' :: ']' :: rest => some (⟨path ++ [key],← openElement path key draft.fields⟩,rest)
    | _ => none
  | text =>
    let (path,key,rest) ← path? depthLimit [] text
    match rest with
    | ']' :: rest => some (⟨path ++ [key],← openTable path key draft.fields⟩,rest)
    | _ => none

/-- A key and its value, in the table of the last header. -/
def assignment? (draft : Draft) (text : List Char) : Option (Draft × List Char) := do
  let (path,key,rest) ← path? depthLimit [] text
  match rest with
  | '=' :: rest =>
    let (value,rest) ← value? (2 * rest.length + 2) depthLimit (rest.dropWhile isBlank)
    let fields ← update false (assign path key value) draft.path .header draft.fields
    some ({draft with fields := fields},rest)
  | _ => none

def document? : Nat → Draft → List Char → Option Draft
  | 0,_,_ => none
  | fuel + 1,draft,text =>
    match text.dropWhile isBlank with
    | [] => some draft
    | '[' :: rest => do
      let (draft,rest) ← header? draft rest
      document? fuel draft (← finishLine? rest)
    | text =>
      match finishLine? text with
      | some rest => document? fuel draft rest
      | none => do
        let (draft,rest) ← assignment? draft text
        document? fuel draft (← finishLine? rest)

/-- The fields of a document, in the order in which their keys first appear. -/
def parse? (text : String) : Option (List (String × Value)) :=
  let text := match text.toList with
    | '\ufeff' :: rest => rest
    | text => text
  (document? (text.length + 1) {} text).map (·.fields)

end Phrasebook.Toml
