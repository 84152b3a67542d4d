import Phrasebook.Text.Pieces

/-! Messages with placeholders. A placeholder is an identifier between braces; every other
brace is literal text. -/
namespace Phrasebook

inductive Segment where
  | literal (text : List Char)
  | parameter (name : List Char)
deriving DecidableEq, Repr

namespace Message

def isIdentifierStart (c : Char) : Bool := c.isAlpha || c = '_' || c = '$'

def isIdentifierPart (c : Char) : Bool := c.isAlphanum || c = '_' || c = '$'

def isIdentifier : List Char → Bool
  | [] => false
  | c :: rest => isIdentifierStart c && rest.all isIdentifierPart

theorem isIdentifierPart_of_isIdentifier {text : List Char} (identifier : isIdentifier text = true) :
    ∀ c ∈ text, isIdentifierPart c = true := by
  cases text with
  | nil => cases identifier
  | cons c rest =>
    obtain ⟨start,parts⟩ := Bool.and_eq_true_iff.mp identifier
    refine List.forall_mem_cons.mpr ⟨?_,List.all_eq_true.mp parts⟩
    simp only [isIdentifierStart,isIdentifierPart,Char.isAlphanum,Bool.or_eq_true] at start ⊢
    exact start.imp_left (·.imp_left .inl)

theorem not_mem_of_isIdentifier {text : List Char} (identifier : isIdentifier text = true) {mark : Char}
    (other : isIdentifierPart mark = false) : mark ∉ text := by
  intro member
  have part := isIdentifierPart_of_isIdentifier identifier mark member
  rw [other] at part
  cases part

/-- A nonempty stretch of literal text. -/
def literals (text : List Char) : List Segment := if text.isEmpty then [] else [.literal text]

/-- After an opening brace: the placeholder that ends at the first closing one, and the rest. -/
def placeholder? (after : List Char) : Option (List Char × List Char) :=
  (Text.cutAt '}' after).filter fun found => isIdentifier found.1

theorem length_of_placeholder? {after name rest : List Char}
    (h : placeholder? after = some (name,rest)) : rest.length < after.length :=
  Text.length_of_cutAt (Option.filter_eq_some_iff.mp h).1

/-- A text cut at its placeholders. A brace that opens none stays literal, and the search
goes on right behind it. -/
def segments (text : List Char) : List Segment :=
  match opened : Text.cutAt '{' text with
  | none => literals text
  | some (before,after) =>
    have := Text.length_of_cutAt opened
    match closed : placeholder? after with
    | none => .literal (before ++ ['{']) :: segments after
    | some (name,rest) =>
      have := length_of_placeholder? closed
      literals before ++ .parameter name :: segments rest
termination_by text.length

theorem segments_of_none {text : List Char} (opened : Text.cutAt '{' text = none) :
    segments text = literals text := by
  rw [segments]
  split
  · rfl
  next found => rw [opened] at found; cases found

theorem segments_of_open {text before after : List Char} (opened : Text.cutAt '{' text = some (before,after))
    (closed : placeholder? after = none) : segments text = .literal (before ++ ['{']) :: segments after := by
  rw [segments]
  split
  next missing => rw [opened] at missing; cases missing
  next found =>
    rw [opened] at found
    cases found
    split
    · rfl
    next other => rw [closed] at other; cases other

theorem segments_of_placeholder {text before after name rest : List Char}
    (opened : Text.cutAt '{' text = some (before,after)) (closed : placeholder? after = some (name,rest)) :
    segments text = literals before ++ .parameter name :: segments rest := by
  rw [segments]
  split
  next missing => rw [opened] at missing; cases missing
  next found =>
    rw [opened] at found
    cases found
    split
    next missing => rw [closed] at missing; cases missing
    next other =>
      rw [closed] at other
      cases other
      rfl

theorem parameter_not_mem_literals {name text : List Char} : .parameter name ∉ literals text := by
  rw [literals]
  split <;> simp

theorem isIdentifier_of_parameter {name text : List Char} (member : .parameter name ∈ segments text) :
    isIdentifier name = true := by
  induction text using segments.induct with
  | case1 text opened =>
    rw [segments_of_none opened] at member
    exact absurd member parameter_not_mem_literals
  | case2 text before after opened shorter closed ih =>
    rw [segments_of_open opened closed] at member
    exact ih (by simpa using member)
  | case3 text before after opened shorter found rest closed shorter' ih =>
    rw [segments_of_placeholder opened closed,List.mem_append,List.mem_cons] at member
    obtain literal | here | later := member
    · exact absurd literal parameter_not_mem_literals
    · cases here
      exact (Option.filter_eq_some_iff.mp closed).2
    · exact ih later

def Segment.parameter? : Segment → Option String
  | .parameter name => some (String.ofList name)
  | .literal _ => none

/-- The placeholders of a text in order of occurrence. -/
def parameters (text : String) : List String := (segments text.toList).filterMap Segment.parameter?

theorem mem_parameters {name text : String} :
    name ∈ parameters text ↔ .parameter name.toList ∈ segments text.toList := by
  rw [parameters,List.mem_filterMap]
  constructor
  · rintro ⟨segment,member,named⟩
    cases segment with
    | literal => cases named
    | parameter found =>
      cases named
      rwa [String.toList_ofList]
  · intro member
    exact ⟨_,member,congrArg some String.ofList_toList⟩

end Message
end Phrasebook
