import Phrasebook.Proofs.Generation.Reading
import Phrasebook.Proofs.Text.Separated

/-! Members in groups, laid out in nested lines, are read back from the last line to the first: what follows a
line is there by then, for each group that is open. `build_rows` says that nothing is lost. -/
namespace Phrasebook.Generation.Reading

variable {κ ν : Type}

/-- Labelled members, each with a value or with members of its own. -/
inductive Layout (κ ν : Type) where
  | empty
  | member (label : κ) (value : ν) (rest : Layout κ ν)
  | group (label : κ) (inner rest : Layout κ ν)
deriving DecidableEq

/-- What one line stands for. -/
inductive Row (κ ν : Type) where
  | member (label : κ) (value : ν)
  | opening (label : κ)
  | closing
  | other
deriving DecidableEq

namespace Layout

def rows : Layout κ ν → List (Row κ ν)
  | .empty => []
  | .member label value rest => .member label value :: rows rest
  | .group label inner rest => .opening label :: (rows inner ++ .closing :: rows rest)

/-- One more row in front. The levels are what follows it, from the innermost open group outwards. -/
def prepend : Row κ ν → List (Layout κ ν) → Option (List (Layout κ ν))
  | .member label value,level :: outer => some (.member label value level :: outer)
  | .opening label,inner :: level :: outer => some (.group label inner level :: outer)
  | .closing,levels => some (.empty :: levels)
  | _,_ => none

/-- The layout of some rows, if all groups are opened and closed. -/
def build (rows : List (Row κ ν)) : Option (Layout κ ν) :=
  match rows.foldrM prepend [.empty] with
  | some [layout] => some layout
  | _ => none

/-- Rows fill the level that they stand on, whatever the outer ones hold. -/
theorem foldrM_prepend (layout : Layout κ ν) (outer : List (Layout κ ν)) :
    layout.rows.foldrM prepend (.empty :: outer) = some (layout :: outer) := by
  induction layout generalizing outer with
  | empty => rfl
  | member label value rest ih =>
    rw [rows,List.foldrM_cons,ih]
    rfl
  | group label inner rest ihInner ih =>
    have closed : (Row.closing :: rest.rows).foldrM prepend (.empty :: outer) =
        some (.empty :: rest :: outer) := by
      rw [List.foldrM_cons,ih]
      rfl
    rw [rows,List.foldrM_cons,List.foldrM_append,closed]
    change (inner.rows.foldrM prepend (.empty :: rest :: outer) >>= _) = _
    rw [ihInner]
    rfl

theorem build_rows (layout : Layout κ ν) : build layout.rows = some layout := by
  rw [build,foldrM_prepend]

end Layout

/-- The row of a line, once its label and its value are understood. -/
def Token.row (label : String → κ) (value : String → Option ν) : Token → Row κ ν
  | .member key text => (value text).elim .other (.member (label key))
  | .opening key => .opening (label key)
  | .closing => .closing
  | .other => .other

/-- What follows the given start, on the first line that has it. -/
def headed? (start : String) (lines : List (List Char)) : Option (List Char) :=
  lines.findSome? (Text.after? start.toList)

/-- Nothing inside a block has a start that is not indented. -/
theorem Inner.unheaded {line start : String} (inner : Inner line) {c : Char} (first : start.toList.head? = some c)
    (outer : c ≠ ' ') : Text.after? start.toList line.toList = none :=
  Text.after?_of_head first inner.indented outer

variable {start rest : String} {lines before after : List String}

theorem headed?_unlines (single : ∀ line ∈ before ++ (start ++ rest) :: after, OneLine line)
    (unheaded : ∀ line ∈ before, Text.after? start.toList line.toList = none) :
    headed? start (Text.pieces '\n' (Text.unlines (before ++ (start ++ rest) :: after)).toList) =
      some rest.toList := by
  have skipped : (before.map String.toList).findSome? (Text.after? start.toList) = none := by
    rw [List.findSome?_eq_none_iff,List.forall_mem_map]
    exact unheaded
  rw [headed?,Text.pieces_unlines single,List.map_append,List.append_assoc,List.findSome?_append,skipped,
    List.map_cons,List.cons_append,List.findSome?_cons,String.toList_append,Text.after?_append]
  rfl

theorem headed?_eq_none (single : ∀ line ∈ lines, OneLine line) (wide : start.toList ≠ [])
    (unheaded : ∀ line ∈ lines, Text.after? start.toList line.toList = none) :
    headed? start (Text.pieces '\n' (Text.unlines lines).toList) = none := by
  have blank : Text.after? start.toList [] = none := by
    apply Text.after?_eq_none
    intro begins
    exact wide (List.prefix_nil.mp begins)
  rw [headed?,Text.pieces_unlines single,List.findSome?_eq_none_iff,List.forall_mem_append,List.forall_mem_map,
    List.forall_mem_singleton]
  exact ⟨unheaded,blank⟩

end Phrasebook.Generation.Reading
