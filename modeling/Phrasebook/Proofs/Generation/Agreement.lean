import Phrasebook.Proofs.Generation.Reading

/-! What a module says of a message against what the declarations say of it. A translation may drop a
placeholder that another one has: `generated_agree_iff` says when that parts the value from its type. -/
namespace Phrasebook.Generation

namespace Reading

/-- Where a character of an expression stands. -/
inductive Place where
  | code
  | literal
  | escaped

/-- The expression with every literal cut down to one quote. -/
def outside : Place → List Char → List Char
  | _,[] => []
  | .code,c :: rest => c :: outside (if c = '"' then .literal else .code) rest
  | .literal,c :: rest => outside (if c = '"' then .code else if c = '\\' then .escaped else .literal) rest
  | .escaped,_ :: rest => outside .literal rest

/-- The name after the dot of a word that reads a parameter. -/
def read? : List Char → Option String
  | 'p' :: 'a' :: 'r' :: 'a' :: 'm' :: 's' :: '.' :: name => some (String.ofList name)
  | _ => none

/-- The parameters that an emitted value reads. -/
def reads (value : String) : List String := (Text.pieces ' ' (outside .code value.toList)).filterMap read?

/-- The name before the colon of a word that declares a parameter. -/
def declared? (word : List Char) : Option String :=
  if word.getLast? = some ':' ∧ Message.isIdentifier word.dropLast then some (String.ofList word.dropLast)
  else none

/-- The parameters that a type declares. -/
def declares (type : String) : List String := (Text.pieces ' ' type.toList).filterMap declared?

def isFunction (value : String) : Bool := "(params) => ".toList.isPrefixOf value.toList

def isFunctionType (type : String) : Bool :=
  "(params: \x7b ".toList.isPrefixOf type.toList && " \x7d) => string".toList.isSuffixOf type.toList

/-- One literal and nothing else. -/
def isLiteral (value : String) : Bool :=
  match value.toList with
  | '"' :: rest => (Text.Quoted.read rest).any fun found => found.2.isEmpty
  | _ => false

theorem outside_hexDigit {n : Nat} (small : n < 16) (rest : List Char) :
    outside .literal (Text.Quoted.hexDigit n :: rest) = outside .literal rest := by
  have quote : Text.Quoted.hexDigit n ≠ '"' := Text.Quoted.hexDigit_ne (by decide) small
  have backslash : Text.Quoted.hexDigit n ≠ '\\' := Text.Quoted.hexDigit_ne (by decide) small
  rw [outside,if_neg quote,if_neg backslash]

theorem outside_escape (c : Char) (rest : List Char) :
    outside .literal (Text.Quoted.escape c ++ rest) = outside .literal rest := by
  rcases Text.Quoted.escape_cases c with ⟨mark,-,written⟩ | ⟨control,written⟩ | ⟨-,quote,backslash,written⟩
  · rw [written]
    rfl
  · have start (tail : List Char) : outside .literal ('\\' :: 'u' :: '0' :: '0' :: tail) = outside .literal tail := rfl
    rw [written]
    change outside .literal ('\\' :: 'u' :: '0' :: '0' :: _ :: _ :: rest) = _
    rw [start,outside_hexDigit (by omega),outside_hexDigit (by omega)]
  · rw [written,List.singleton_append,outside,if_neg quote,if_neg backslash]

theorem outside_quote (text : String) (rest : List Char) :
    outside .code ((Text.quote text).toList ++ rest) = '"' :: outside .code rest := by
  have inside (chars : List Char) :
      outside .literal (chars.flatMap Text.Quoted.escape ++ '"' :: rest) = outside .code rest := by
    induction chars with
    | nil => simp [outside]
    | cons c more ih => rw [List.flatMap_cons,List.append_assoc,outside_escape,ih]
  rw [Text.toList_quote,List.cons_append,List.append_assoc,List.singleton_append,outside,if_pos rfl,inside]

/-- Code without literals is left as it is. -/
theorem outside_plain {code : List Char} (plain : '"' ∉ code) (rest : List Char) :
    outside .code (code ++ rest) = code ++ outside .code rest := by
  induction code with
  | nil => rfl
  | cons c more ih =>
    rw [List.mem_cons,not_or] at plain
    rw [List.cons_append,outside,if_neg (Ne.symm plain.1),ih plain.2,List.cons_append]

/-- What is left of an operand. -/
def word : Segment → List Char
  | .literal _ => ['"']
  | .parameter name => ['p','a','r','a','m','s','.'] ++ name

/-- Parameters are named by identifiers. -/
def Named (segments : List Segment) : Prop :=
  ∀ name, .parameter name ∈ segments → Message.isIdentifier name = true

theorem not_mem_word {name : List Char} (identifier : Message.isIdentifier name = true) {mark : Char}
    (other : Message.isIdentifierPart mark = false) (dot : mark ≠ '.') : mark ∉ word (.parameter name) := by
  have parts : (['p','a','r','a','m','s','.'].all fun c => c = '.' || Message.isIdentifierPart c) = true := by
    decide
  rw [word,List.mem_append,not_or]
  constructor
  · intro member
    have part := List.all_eq_true.mp parts mark member
    simp [dot,other] at part
  · exact Message.not_mem_of_isIdentifier identifier other

theorem space_not_mem_word {segment : Segment} (named : Named [segment]) : ' ' ∉ word segment := by
  cases segment with
  | literal => simp [word]
  | parameter name => exact not_mem_word (named name (by simp)) (by decide) (by decide)

theorem outside_segment {segment : Segment} (named : Named [segment]) (rest : List Char) :
    outside .code ((Modules.segment segment).toList ++ rest) = word segment ++ outside .code rest := by
  cases segment with
  | literal text => exact outside_quote _ rest
  | parameter name =>
    have plain : '"' ∉ word (.parameter name) := not_mem_word (named name (by simp)) (by decide) (by decide)
    have written : (Modules.segment (.parameter name)).toList = word (.parameter name) := by
      simp [Modules.segment,word]
    rw [written,outside_plain plain]

theorem read?_word (segment : Segment) : read? (word segment) = Message.Segment.parameter? segment := by
  cases segment <;> rfl

theorem reads_operands {segments : List Segment} (named : Named segments) :
    (Text.pieces ' ' (outside .code
      (String.intercalate " + " (segments.map Modules.segment)).toList)).filterMap read? =
      segments.filterMap Message.Segment.parameter? := by
  induction segments with
  | nil => decide
  | cons segment rest ih =>
    have here : Named [segment] := fun name member => named name (by simp_all)
    have others : Named rest := fun name member => named name (by simp [member])
    have whole := space_not_mem_word here
    cases rest with
    | nil =>
      have alone := outside_segment here []
      rw [List.append_nil,outside,List.append_nil] at alone
      simp [alone,Text.pieces_eq_self whole,List.filterMap_cons,read?_word]
    | cons next more =>
      have plus : " + ".toList = [' ','+',' '] := rfl
      have between (tail : List Char) :
          outside .code (" + ".toList ++ tail) = ' ' :: (['+'] ++ ' ' :: outside .code tail) := by
        rw [plus,outside_plain (by decide)]
        rfl
      rw [List.map_cons,List.map_cons,String.intercalate_cons_cons,← List.map_cons,String.append_assoc,
        String.toList_append,outside_segment here,String.toList_append,between,Text.pieces_append _ whole,
        Text.pieces_append _ (by decide),List.filterMap_cons,List.filterMap_cons,read?_word,ih others,
        List.filterMap_cons (l := next :: more)]
      rfl

theorem any_isParameter (segments : List Segment) :
    segments.any Modules.isParameter = true ↔ segments.filterMap Message.Segment.parameter? ≠ [] := by
  induction segments with
  | nil => simp
  | cons segment rest ih =>
    cases segment with
    | literal text =>
      rw [List.any_cons,List.filterMap_cons]
      simpa [Modules.isParameter,Message.Segment.parameter?] using ih
    | parameter name => simp [Modules.isParameter,Message.Segment.parameter?]

theorem message_function {text : String} (some : Message.parameters text ≠ []) : Modules.message text =
    "(params) => " ++ String.intercalate " + " ((Message.segments text.toList).map Modules.segment) :=
  if_pos ((any_isParameter _).mpr some)

theorem message_literal {text : String} (none : Message.parameters text = []) :
    Modules.message text = Text.quote text :=
  if_neg fun some => (any_isParameter _).mp some none

/-- A value reads the placeholders of its message, in their order. -/
theorem reads_message (text : String) : reads (Modules.message text) = Message.parameters text := by
  by_cases none : Message.parameters text = []
  · have alone := outside_quote text []
    rw [List.append_nil,outside] at alone
    rw [message_literal none,none,reads,alone]
    decide
  · have named : Named (Message.segments text.toList) := by
      intro name member
      exact Message.isIdentifier_of_parameter member
    have arrow (tail : List Char) : outside .code ("(params) => ".toList ++ tail) =
        ['(','p','a','r','a','m','s',')'] ++ ' ' :: (['=','>'] ++ ' ' :: outside .code tail) := by
      have letters : "(params) => ".toList = ['(','p','a','r','a','m','s',')',' ','=','>',' '] := rfl
      rw [letters,outside_plain (by decide)]
      rfl
    rw [message_function none,reads,String.toList_append,arrow,Text.pieces_append _ (by decide),
      Text.pieces_append _ (by decide),List.filterMap_cons,List.filterMap_cons,reads_operands named]
    rfl

theorem isFunction_message (text : String) :
    isFunction (Modules.message text) = true ↔ Message.parameters text ≠ [] := by
  by_cases none : Message.parameters text = []
  · simp [message_literal none,none,isFunction,Text.toList_quote]
  · simp [message_function none,none,isFunction]

theorem isLiteral_quote (text : String) : isLiteral (Text.quote text) = true := by
  simp [isLiteral,Text.toList_quote,Text.Quoted.read_chars]

theorem isLiteral_message (text : String) :
    isLiteral (Modules.message text) = true ↔ Message.parameters text = [] := by
  by_cases none : Message.parameters text = []
  · simp [message_literal none,none,isLiteral_quote]
  · simp [message_function none,none,isLiteral]

theorem messageType_function {params : List String} (some : params ≠ []) : Declarations.messageType params =
    "(params: \x7b " ++ Declarations.parameterList params ++ " \x7d) => string" :=
  if_neg fun empty => some (List.isEmpty_iff.mp empty)

theorem isFunctionType_messageType (params : List String) :
    isFunctionType (Declarations.messageType params) = true ↔ params ≠ [] := by
  by_cases none : params = []
  · subst none
    decide
  · have starts : "(params: \x7b ".toList <+: (Declarations.messageType params).toList := by
      rw [messageType_function none,String.append_assoc,String.toList_append]
      exact List.prefix_append _ _
    have ends : " \x7d) => string".toList <:+ (Declarations.messageType params).toList := by
      rw [messageType_function none,String.toList_append]
      exact List.suffix_append _ _
    simp only [isFunctionType,Bool.and_eq_true,List.isPrefixOf_iff_prefix,List.isSuffixOf_iff_suffix,starts,ends,
      true_and,true_iff]
    exact none

theorem messageType_eq_string (params : List String) :
    Declarations.messageType params = "string" ↔ params = [] := by
  constructor
  · intro same
    apply Decidable.byContradiction
    intro some
    have isFunction := (isFunctionType_messageType params).mpr some
    rw [same] at isFunction
    exact absurd isFunction (by decide)
  · rintro rfl
    rfl

theorem declared?_identifier {param : String} (identifier : Message.isIdentifier param.toList = true) :
    declared? (param.toList ++ [':']) = some param := by
  simp [declared?,identifier]

theorem declares_parameterList {params : List String} (some : params ≠ []) (identifiers : Identifiers params) :
    (Text.pieces ' ' ((Declarations.parameterList params).toList ++ " \x7d) => string".toList)).filterMap declared? =
      params := by
  induction params with
  | nil => exact absurd rfl some
  | cons param rest ih =>
    obtain ⟨identifier,others⟩ := List.forall_mem_cons.mp identifiers
    have whole : ' ' ∉ param.toList ++ [':'] := by
      rw [List.mem_append,not_or]
      exact ⟨Message.not_mem_of_isIdentifier identifier (by decide),by decide⟩
    cases rest with
    | nil =>
      have letters : (Declarations.parameterList [param]).toList ++ " \x7d) => string".toList =
          (param.toList ++ [':']) ++ ' ' :: "string \x7d) => string".toList := by
        simp [Declarations.parameterList]
      have closing : (Text.pieces ' ' "string \x7d) => string".toList).filterMap declared? = [] := by decide
      rw [letters,Text.pieces_append _ whole,List.filterMap_cons,declared?_identifier identifier,closing]
    | cons next more =>
      have letters (tail : List Char) : (Declarations.parameterList (param :: next :: more)).toList ++ tail =
          (param.toList ++ [':']) ++ ' ' :: ("string;".toList ++
            ' ' :: ((Declarations.parameterList (next :: more)).toList ++ tail)) := by
        simp [Declarations.parameterList,String.intercalate_cons_cons]
      have separator : declared? "string;".toList = none := by decide
      rw [letters,Text.pieces_append _ whole,Text.pieces_append _ (by decide),List.filterMap_cons,
        List.filterMap_cons,declared?_identifier identifier,separator,ih (by simp) others]

/-- A type declares the placeholders it was made of, in their order. -/
theorem declares_messageType {params : List String} (identifiers : Identifiers params) :
    declares (Declarations.messageType params) = params := by
  by_cases none : params = []
  · subst none
    decide
  · have opening (tail : List Char) : "(params: \x7b ".toList ++ tail =
        "(params:".toList ++ ' ' :: ("\x7b".toList ++ ' ' :: tail) := rfl
    have first : declared? "(params:".toList = Option.none := by decide
    have second : declared? "\x7b".toList = Option.none := by decide
    rw [messageType_function none,declares,String.append_assoc,String.toList_append,opening,
      Text.pieces_append _ (by decide),Text.pieces_append _ (by decide),List.filterMap_cons,
      List.filterMap_cons,first,second,String.toList_append,declares_parameterList none identifiers]

end Reading

/-- Both texts are generated from these locales, by one call in lazy mode and by two otherwise. -/
inductive Emits (entries : List Locale.Entry) : String → String → Prop where
  | normal {types module : String} (declared : generate entries .types .normal = .ok (.single types))
      (carried : generate entries .runtime .normal = .ok (.single module)) : Emits entries types module
  | lazy {target : Target} {locale types loader : String}
      (both : generate entries target (.lazy locale) = .ok (.withLoader types loader)) : Emits entries types loader

variable {entries : List Locale.Entry} {types module : String}

/-- Whatever is generated, its counterpart is generated too. -/
theorem exists_emits {target : Target} {mode : Mode} {artifact : Artifact}
    (generated : generate entries target mode = .ok artifact) :
    ∃ types module, Emits entries types module ∧
      artifact ∈ [.single types,.single module,.withLoader types module] := by
  cases merged : Shape.ofEntries entries with
  | error clash => rw [generate,merged] at generated; cases generated
  | ok shape =>
    have counterpart : Emits entries (Declarations.render (entries.map (·.name)) shape none)
        (Modules.runtime entries) :=
      .normal (by rw [generate,merged]) (by rw [generate,merged])
    cases mode with
    | normal =>
      cases target with
      | types =>
        rw [generate,merged] at generated
        cases generated
        exact ⟨_,_,counterpart,by simp⟩
      | runtime =>
        rw [generate,merged] at generated
        cases generated
        exact ⟨_,_,counterpart,by simp⟩
    | lazy locale =>
      have both := generated
      rw [generate,merged] at generated
      dsimp only at generated
      split at generated
      · cases generated
        exact ⟨_,_,.lazy both,by simp⟩
      · cases generated

/-- Declarations of the merged shape, and a module of either kind. -/
theorem Emits.texts (emits : Emits entries types module) : ∃ shape, Shape.ofEntries entries = .ok shape ∧
    (∃ locale, types = Declarations.render (entries.map (·.name)) shape locale) ∧
    (module = Modules.runtime entries ∨ ∃ locale, module = Modules.loader entries locale) := by
  cases merged : Shape.ofEntries entries with
  | error clash =>
    cases emits with
    | normal declared => rw [generate,merged] at declared; cases declared
    | lazy both => rw [generate,merged] at both; cases both
  | ok shape =>
    refine ⟨shape,rfl,?_⟩
    cases emits with
    | normal declared carried =>
      rw [generate,merged] at declared carried
      cases declared
      cases carried
      exact ⟨⟨none,rfl⟩,.inl rfl⟩
    | lazy both =>
      rw [generate,merged] at both
      dsimp only at both
      split at both
      · cases both
        exact ⟨⟨some _,rfl⟩,.inr ⟨_,rfl⟩⟩
      · cases both

theorem identifiers_of_ofEntries {shape : Shape} (merged : Shape.ofEntries entries = .ok shape) :
    ∀ field ∈ shape.messages, Reading.Identifiers field.2 := by
  rintro ⟨path,params⟩ member param declared
  obtain ⟨entry,-,text,-,used⟩ := (Shape.mem_params_of_ofEntries merged member).mp declared
  exact Message.isIdentifier_of_parameter (Message.mem_parameters.mp used)

/-- The module has the messages of all locales. -/
theorem Emits.values_eq (emits : Emits entries types module) : Reading.values module = Reading.listed entries := by
  obtain ⟨_,_,_,rfl | ⟨locale,rfl⟩⟩ := emits.texts
  · exact Reading.values_runtime entries
  · exact Reading.values_loader entries locale

/-- The declarations have the messages of the merged shape. -/
theorem Emits.types_eq (emits : Emits entries types module) : ∃ shape, Shape.ofEntries entries = .ok shape ∧
    Reading.types types = shape.messages.map fun (path,params) => (path,Declarations.messageType params) := by
  obtain ⟨shape,merged,⟨locale,rfl⟩,_⟩ := emits.texts
  exact ⟨shape,merged,Reading.types_render _ locale (identifiers_of_ofEntries merged)⟩

/-- The value is a function where the type is one and a literal where it is not, and reads what is declared. -/
structure Agree (type value : String) : Prop where
  function : Reading.isFunction value = true ↔ Reading.isFunctionType type = true
  literal : Reading.isLiteral value = true ↔ type = "string"
  reads : ∀ x ∈ Reading.reads value, x ∈ Reading.declares type

/-- A placeholder stands in some translation of the message at this path. -/
def Parameterized (entries : List Locale.Entry) (path : List String) : Prop :=
  ∃ entry ∈ entries, ∃ text, (path,text) ∈ entry.tree.messages ∧ Message.parameters text ≠ []

theorem parameterized_iff {shape : Shape} {path params : List String} (merged : Shape.ofEntries entries = .ok shape)
    (member : (path,params) ∈ shape.messages) : Parameterized entries path ↔ params ≠ [] := by
  have placeholder (x : String) := Shape.mem_params_of_ofEntries merged member (x := x)
  constructor
  · rintro ⟨entry,listed,text,message,some⟩ rfl
    obtain ⟨x,used⟩ := List.exists_mem_of_ne_nil _ some
    exact absurd ((placeholder x).mpr ⟨entry,listed,text,message,used⟩) (by simp)
  · intro some
    obtain ⟨x,declared⟩ := List.exists_mem_of_ne_nil _ some
    obtain ⟨entry,listed,text,message,used⟩ := (placeholder x).mp declared
    exact ⟨entry,listed,text,message,List.ne_nil_of_mem used⟩

theorem agree_iff {text : String} {params : List String} (identifiers : Reading.Identifiers params)
    (used : ∀ x ∈ Message.parameters text, x ∈ params) :
    Agree (Declarations.messageType params) (Modules.message text) ↔
      (Message.parameters text ≠ [] ∨ params = []) := by
  constructor
  · rintro ⟨function,-,-⟩
    rw [Reading.isFunction_message,Reading.isFunctionType_messageType] at function
    by_cases none : params = []
    · exact .inr none
    · exact .inl (function.mpr none)
  · intro fits
    have same : Message.parameters text = [] ↔ params = [] := by
      refine ⟨fun none => fits.resolve_left (not_not_intro none),?_⟩
      rintro rfl
      exact List.eq_nil_iff_forall_not_mem.mpr fun x member => absurd (used x member) (by simp)
    constructor
    · rw [Reading.isFunction_message,Reading.isFunctionType_messageType,ne_eq,ne_eq,same]
    · rw [Reading.isLiteral_message,Reading.messageType_eq_string,same]
    · rw [Reading.reads_message,Reading.declares_messageType identifiers]
      exact used

/-- A message is emitted once for each locale that has it and is typed once. The value reads only what its type
declares, and it agrees with its type unless it has no placeholder where another translation has one. -/
theorem generated_agree_iff {path : List String} {text : String} {entry : Locale.Entry}
    (emits : Emits entries types module) (listed : entry ∈ entries) (message : (path,text) ∈ entry.tree.messages) :
    (entry.name :: path,Modules.message text) ∈ Reading.values module ∧
    ∃ type, (∀ other, (path,other) ∈ Reading.types types ↔ other = type) ∧
      (Reading.isFunctionType type = true ∨ type = "string") ∧
      (Reading.isFunction (Modules.message text) = true ∨ Reading.isLiteral (Modules.message text) = true) ∧
      (∀ x ∈ Reading.reads (Modules.message text), x ∈ Reading.declares type) ∧
      (Agree type (Modules.message text) ↔ (Message.parameters text ≠ [] ∨ ¬Parameterized entries path)) := by
  obtain ⟨shape,merged,declared⟩ := emits.types_eq
  obtain ⟨params,member⟩ := Shape.exists_message_of_ofEntries merged listed message
  have identifiers : Reading.Identifiers params := identifiers_of_ofEntries merged _ member
  have used : ∀ x ∈ Message.parameters text, x ∈ params := fun x placeholder =>
    (Shape.mem_params_of_ofEntries merged member).mpr ⟨entry,listed,text,message,placeholder⟩
  refine ⟨?_,Declarations.messageType params,fun other => ?_,?_,?_,?_,?_⟩
  · rw [emits.values_eq,Reading.listed,List.mem_flatMap]
    exact ⟨entry,listed,List.mem_map.mpr ⟨_,message,rfl⟩⟩
  · rw [declared,List.mem_map]
    constructor
    · rintro ⟨⟨_,others⟩,again,same⟩
      obtain ⟨rfl,rfl⟩ := Prod.mk.inj same
      rw [Shape.params_unique_of_ofEntries merged member again]
    · rintro rfl
      exact ⟨_,member,rfl⟩
  · rw [Reading.isFunctionType_messageType,Reading.messageType_eq_string]
    exact (Decidable.em (params = [])).symm
  · rw [Reading.isFunction_message,Reading.isLiteral_message]
    exact (Decidable.em (Message.parameters text = [])).symm
  · rw [Reading.reads_message,Reading.declares_messageType identifiers]
    exact used
  · rw [agree_iff identifiers used,parameterized_iff merged member,ne_eq,Decidable.not_not]

namespace Greeting

def english : Locale.Entry := ⟨"en",.message "welcome" "Hello \x7bname\x7d" .empty⟩

def french : Locale.Entry := ⟨"fr",.message "welcome" "Bonjour" .empty⟩

def shape : Shape := .message "welcome" 2 ["name"] .empty

theorem merged : Shape.ofEntries [english,french] = .ok shape := by
  have evaluated : (Shape.ofEntries [english,french]).toOption = some shape := by decide +kernel
  cases result : Shape.ofEntries [english,french] with
  | error clash =>
    rw [result] at evaluated
    cases evaluated
  | ok found =>
    rw [result] at evaluated
    exact congrArg Except.ok (Option.some.inj evaluated)

theorem emits_runtime : Emits [english,french] (Declarations.render ["en","fr"] shape none)
    (Modules.runtime [english,french]) := by
  refine .normal ?_ ?_
  · rw [generate,merged]
    rfl
  · rw [generate,merged]

theorem emits_loader : Emits [english,french] (Declarations.render ["en","fr"] shape (some "en"))
    (Modules.loader [english,french] "en") := by
  have both : generate [english,french] .types (.lazy "en") = .ok (.withLoader
      (Declarations.render ["en","fr"] shape (some "en")) (Modules.loader [english,french] "en")) := by
    rw [generate,merged]
    rfl
  exact .lazy both

end Greeting

open Greeting in
/-- In lazy mode the English message agrees with its type. -/
theorem english_welcome_agrees : ∃ types loader, Emits [english,french] types loader ∧
    (["welcome"],"Hello \x7bname\x7d") ∈ english.tree.messages ∧
    (["en","welcome"],Modules.message "Hello \x7bname\x7d") ∈ Reading.values loader ∧
    ∃ type, (["welcome"],type) ∈ Reading.types types ∧ Agree type (Modules.message "Hello \x7bname\x7d") := by
  have message : (["welcome"],"Hello \x7bname\x7d") ∈ english.tree.messages := by decide
  have some : Message.parameters "Hello \x7bname\x7d" ≠ [] := by decide +kernel
  obtain ⟨emitted,type,typed,-,-,-,agrees⟩ := generated_agree_iff emits_loader (List.mem_cons_self ..) message
  exact ⟨_,_,emits_loader,message,emitted,type,(typed type).mpr rfl,agrees.mpr (.inl some)⟩

open Greeting in
/-- The French value is a literal where the type is a function for the sake of the English one. -/
theorem french_welcome_disagrees : ∃ types module, Emits [english,french] types module ∧
    (["fr","welcome"],"\"Bonjour\"") ∈ Reading.values module ∧
    (["welcome"],"(params: \x7b name: string \x7d) => string") ∈ Reading.types types ∧
    ¬Agree "(params: \x7b name: string \x7d) => string" "\"Bonjour\"" := by
  refine ⟨_,_,emits_runtime,?_,?_,?_⟩
  · rw [Reading.values_runtime]
    decide +kernel
  · rw [Reading.types_render _ none (identifiers_of_ofEntries merged)]
    decide
  · rintro ⟨function,-,-⟩
    exact absurd (function.mpr (by decide)) (by decide)

end Phrasebook.Generation
