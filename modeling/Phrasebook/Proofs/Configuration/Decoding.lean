import Mathlib.Data.List.Perm.Basic
import Phrasebook.Proofs.Configuration.Options

/-! What decides about options in an object. For each field one value counts: the one under the long name if that is
there, even if it is null, and else the one under the short name. Nothing else has a part in it, neither the order of
the fields nor what they are mixed with: `ofJson_winning`. -/
namespace Phrasebook

namespace Keyed

variable {ν : Type} {key : String} {value : ν} {fields front back : List (String × ν)}

theorem get?_eq_some_iff (distinct : (fields.map (·.1)).Nodup) : get? key fields = some value ↔ (key,value) ∈ fields := by
  induction fields with
  | nil => simp [get?]
  | cons field rest ih =>
    obtain ⟨k,v⟩ := field
    obtain ⟨new,others⟩ := List.nodup_cons.mp distinct
    by_cases here : k = key
    · subst here
      have absent : (k,value) ∉ rest := fun member => new (List.mem_map.mpr ⟨_,member,rfl⟩)
      simp [get?,absent,eq_comm]
    · simp [get?,here,ih others,Ne.symm here]

theorem isSome_get?_iff : (get? key fields).isSome ↔ key ∈ fields.map (·.1) := by
  induction fields with
  | nil => simp [get?]
  | cons field rest ih =>
    obtain ⟨k,v⟩ := field
    by_cases here : k = key
    · simp [get?,here]
    · simp [get?,here,Ne.symm here,ih]

theorem get?_of_perm {others : List (String × ν)} (distinct : (fields.map (·.1)).Nodup) (perm : fields.Perm others) :
    get? key others = get? key fields := by
  have distinct' : (others.map (·.1)).Nodup := (perm.map _).nodup_iff.mp distinct
  apply Option.ext
  intro value
  rw [get?_eq_some_iff distinct,get?_eq_some_iff distinct',perm.mem_iff]

theorem get?_middle {other : String} (differs : key ≠ other) :
    get? other (front ++ (key,value) :: back) = get? other (front ++ back) := by
  induction front with
  | nil => simp [get?,differs]
  | cons entry front ih =>
    simp only [List.cons_append,get?]
    split
    · rfl
    · exact ih

/-- All fields but the removed one are left, in some order. -/
theorem swapRemove_perm (first : ∀ field ∈ front, field.1 ≠ key) :
    (swapRemove key (front ++ (key,value) :: back)).Perm (front ++ back) := by
  have place : (front ++ (key,value) :: back).findIdx? (·.1 = key) = some front.length := by
    have nowhere : front.findIdx? (·.1 = key) = none := by
      rw [List.findIdx?_eq_none_iff]
      intro field member
      exact decide_eq_false (first field member)
    rw [List.findIdx?_append,nowhere,List.findIdx?_cons]
    simp
  rcases List.eq_nil_or_concat back with rfl | ⟨middle,last,rfl⟩
  · simp [swapRemove,place]
  · rw [List.concat_eq_append] at place ⊢
    have final : (front ++ (key,value) :: (middle ++ [last])).getLast? = some last := by
      rw [← List.cons_append,← List.append_assoc,List.getLast?_concat]
    have more : ¬front.length + 1 = (front ++ (key,value) :: (middle ++ [last])).length := by
      simp only [List.length_append,List.length_cons]
      omega
    have moved : ((front ++ (key,value) :: (middle ++ [last])).set front.length last).dropLast =
        front ++ last :: middle := by
      rw [List.set_append_right _ _ (Nat.le_refl _),Nat.sub_self,List.set_cons_zero,← List.cons_append,
        ← List.append_assoc,List.dropLast_concat]
    rw [swapRemove,place,final]
    simp only [if_neg more,moved]
    exact List.Perm.append_left front (List.perm_append_singleton last middle).symm

theorem exists_split_of_mem (member : key ∈ fields.map (·.1)) :
    ∃ front value back, fields = front ++ (key,value) :: back ∧ ∀ field ∈ front, field.1 ≠ key := by
  induction fields with
  | nil => simp at member
  | cons field rest ih =>
    by_cases here : field.1 = key
    · exact ⟨[],field.2,rest,by rw [← here]; rfl,by simp⟩
    · obtain ⟨front,value,back,rfl,first⟩ := ih ((List.mem_cons.mp member).resolve_left (Ne.symm here))
      refine ⟨field :: front,value,back,rfl,?_⟩
      rintro other (_ | ⟨_,inside⟩)
      · exact here
      · exact first other inside

/-- Removing a key leaves all fields under other keys. -/
theorem swapRemove_perm_filter (distinct : (fields.map (·.1)).Nodup) :
    (swapRemove key fields).Perm (fields.filter (·.1 ≠ key)) := by
  by_cases member : key ∈ fields.map (·.1)
  · obtain ⟨front,value,back,rfl,first⟩ := exists_split_of_mem member
    rw [List.map_append,List.map_cons,List.nodup_middle] at distinct
    have later : ∀ field ∈ back, field.1 ≠ key := by
      rintro field inside rfl
      exact (List.nodup_cons.mp distinct).1 (List.mem_append_right _ (List.mem_map.mpr ⟨field,inside,rfl⟩))
    refine (swapRemove_perm first).trans (.of_eq ?_)
    rw [List.filter_append,List.filter_cons_of_neg (by simp),List.filter_eq_self.mpr (by simpa using first),
      List.filter_eq_self.mpr (by simpa using later)]
  · have absent : ∀ field ∈ fields, field.1 ≠ key := by
      rintro field inside rfl
      exact member (List.mem_map_of_mem inside)
    rw [swapRemove_of_absent absent,List.filter_eq_self.mpr (by simpa using absent)]

end Keyed

namespace Options

variable {options : Options} {fields : List (String × Json)} {field : Field} {key : String} {json : Json}

/-- A field takes null and the values of its type. -/
def Field.accepts : Field → Json → Bool
  | _,.null => true
  | .lazy,.bool _ => true
  | .lazy,_ => false
  | _,.string _ => true
  | _,_ => false

/-- Null counts as no value. -/
def noNull : Json → Option Json
  | .null => none
  | json => some json

/-- What stands under the long name of a field if that is there, and else what stands under its short name. -/
def winning? (fields : List (String × Json)) (field : Field) : Option Json :=
  (Keyed.get? field.name fields).or (field.shortName?.bind (Keyed.get? · fields))

theorem eq_of_pathValue {a b : Option Path} (textual : ∀ path ∈ a, path.text?.isSome)
    (same : a.map pathValue = b.map pathValue) : a = b := by
  obtain ⟨text,read⟩ := exists_mapM_text? textual
  rw [map_pathValue read] at same
  rw [mapM_text?_eq_some_iff] at read
  subst read
  cases b with
  | none =>
    rw [Option.map_none,Option.map_eq_none_iff] at same
    rw [same,Option.map_none]
  | some path =>
    obtain ⟨text,rfl,value⟩ := Option.map_eq_some_iff.mp same
    cases other : path.text? with
    | none => simp [pathValue,other] at value
    | some text' =>
      obtain rfl : text = text' := by simpa [pathValue,other] using value
      rw [Path.text?_eq_some_iff.mp other,Option.map_some]

/-- Options whose paths are texts are known by the values of their fields. -/
theorem eq_of_value? {a b : Options} (textual : a.Textual) (same : ∀ field, a.value? field = b.value? field) :
    a = b := by
  have text : Function.Injective Json.string := fun _ _ => Json.string.inj
  have bool : Function.Injective Json.bool := fun _ _ => Json.bool.inj
  have moduleName := Option.map_injective text (same .moduleName)
  have localesDirectory := eq_of_pathValue textual.localesDirectory (same .localesDirectory)
  have outputPath := eq_of_pathValue textual.outputPath (same .outputPath)
  have isLazy := Option.map_injective bool (same .lazy)
  have defaultLocale := Option.map_injective text (same .defaultLocale)
  cases a
  cases b
  simp_all

theorem set_of_accepts (options : Options) (accepted : field.accepts json = true) :
    ∃ after, options.set field json = .ok after ∧ after.value? field = noNull json ∧
      ∀ other, other ≠ field → after.value? other = options.value? other := by
  cases field <;> cases json <;> first
    | contradiction
    | exact ⟨_,rfl,rfl,fun other differs => by cases other <;> first | rfl | contradiction⟩
    | exact ⟨_,rfl,congrArg some (pathValue_mk _),fun other differs => by cases other <;> first | rfl | contradiction⟩

theorem set_of_refuses (options : Options) (refused : ¬field.accepts json = true) :
    ∃ found expected, options.set field json = .error (.wrongType found expected) := by
  cases field <;> cases json <;> first
    | exact absurd rfl refused
    | exact ⟨_,_,rfl⟩

theorem setAll_cons (options : Options) (field : Field) (json : Json) (rest : List (Field × Json)) :
    options.setAll ((field,json) :: rest) = (options.set field json >>= fun middle => middle.setAll rest) :=
  List.foldlM_cons

/-- Setting fields in order, none of them twice, comes to an end if each takes its value. -/
theorem setAll_of_accepts {entries : List (Field × Json)} (options : Options) (apart : (entries.map (·.1)).Nodup)
    (accepted : ∀ entry ∈ entries, entry.1.accepts entry.2 = true) :
    ∃ after, options.setAll entries = .ok after ∧ (∀ entry ∈ entries, after.value? entry.1 = noNull entry.2) ∧
      ∀ field, field ∉ entries.map (·.1) → after.value? field = options.value? field := by
  induction entries generalizing options with
  | nil => exact ⟨options,rfl,by simp,fun _ _ => rfl⟩
  | cons entry rest ih =>
    obtain ⟨field,json⟩ := entry
    obtain ⟨new,others⟩ := List.nodup_cons.mp apart
    obtain ⟨middle,set,own,frame⟩ := set_of_accepts options (accepted _ List.mem_cons_self)
    obtain ⟨after,run,given,kept⟩ := ih middle others fun entry member => accepted entry (List.mem_cons_of_mem _ member)
    refine ⟨after,?_,?_,fun other absent => ?_⟩
    · rw [setAll_cons,set]
      exact run
    · rintro later (_ | ⟨_,member⟩)
      · exact (kept field new).trans own
      · exact given later member
    · rw [List.map_cons,List.mem_cons,not_or] at absent
      exact (kept other absent.2).trans (frame other absent.1)

/-- The first field that does not take its value is what is reported. -/
theorem setAll_of_refuses {entries : List (Field × Json)} (options : Options)
    (refused : ¬∀ entry ∈ entries, entry.1.accepts entry.2 = true) :
    ∃ found expected, options.setAll entries = .error (.wrongType found expected) := by
  induction entries generalizing options with
  | nil => exact absurd (by simp) refused
  | cons entry rest ih =>
    obtain ⟨field,json⟩ := entry
    rw [setAll_cons]
    by_cases takes : field.accepts json = true
    · obtain ⟨middle,set,-⟩ := set_of_accepts options takes
      rw [set]
      apply ih middle
      intro later
      apply refused
      rintro entry (_ | ⟨_,member⟩)
      · exact takes
      · exact later entry member
    · obtain ⟨found,expected,set⟩ := set_of_refuses options takes
      exact ⟨found,expected,by rw [set]; rfl⟩

/-- The fields of an object that mean anything, each with its value. -/
def known (fields : List (String × Json)) : List (Field × Json) :=
  fields.filterMap fun (key,json) => (Field.ofKey? key).map (·,json)

theorem Field.ofKey?_eq_some_iff : ofKey? key = some field ↔ key = field.name ∨ field.shortName? = some key := by
  constructor
  · intro found
    have chosen := List.find?_some found
    simp only [Bool.or_eq_true,decide_eq_true_eq] at chosen
    exact chosen.imp Eq.symm id
  · rintro (rfl | short)
    · exact ofKey?_name field
    · cases field <;> cases short <;> rfl

theorem Field.eq_of_shortName? {a b : Field} (first : a.shortName? = some key) (next : b.shortName? = some key) :
    a = b := by
  have same := first.trans next.symm
  cases a <;> cases b <;> first
    | rfl
    | exact absurd same (by decide)
    | cases first

theorem mem_known : (field,json) ∈ known fields ↔
    ∃ key, (key,json) ∈ fields ∧ (key = field.name ∨ field.shortName? = some key) := by
  simp only [known,List.mem_filterMap,Option.map_eq_some_iff,Prod.mk.injEq,Prod.exists]
  constructor
  · rintro ⟨key,_,member,_,found,rfl,rfl⟩
    exact ⟨key,member,Field.ofKey?_eq_some_iff.mp found⟩
  · rintro ⟨key,member,named⟩
    exact ⟨key,json,member,field,Field.ofKey?_eq_some_iff.mpr named,rfl,rfl⟩

/-- Unknown fields are passed over; with no known field twice, reading is setting. -/
theorem ofFields_known (read : List Field) (apart : (read ++ (known fields).map (·.1)).Nodup) (options : Options) :
    ofFields read options fields = options.setAll (known fields) := by
  induction fields generalizing read options with
  | nil => rfl
  | cons entry rest ih =>
    obtain ⟨key,json⟩ := entry
    rw [ofFields]
    cases found : Field.ofKey? key with
    | none =>
      have same : known ((key,json) :: rest) = known rest := by simp [known,found]
      rw [same] at apart ⊢
      exact ih read apart options
    | some field =>
      have one : known ((key,json) :: rest) = (field,json) :: known rest := by simp [known,found]
      rw [one] at apart ⊢
      obtain ⟨new,others⟩ := List.nodup_cons.mp (List.nodup_middle.mp apart)
      have unread : ¬read.contains field = true := by
        intro again
        exact new (List.mem_append_left _ (List.contains_iff_mem.mp again))
      have later : (field :: read ++ (known rest).map (·.1)).Nodup := List.nodup_cons.mpr ⟨new,others⟩
      simp only [if_neg unread]
      rw [setAll_cons]
      cases set : options.set field json with
      | error fault => rfl
      | ok middle => exact ih _ later middle

section Overriding

variable (distinct : (fields.map (·.1)).Nodup)

include distinct

theorem nodup_dropShort (field : Field) : ((dropShort fields field).map (·.1)).Nodup := by
  unfold dropShort
  split
  · split
    · rw [((Keyed.swapRemove_perm_filter distinct).map _).nodup_iff]
      exact distinct.sublist (List.filter_sublist.map _)
    · exact distinct
  · exact distinct

/-- What is dropped is the short name of a field whose long name is there. -/
theorem mem_dropShort (field : Field) : (key,json) ∈ dropShort fields field ↔
    (key,json) ∈ fields ∧ ¬(field.shortName? = some key ∧ (Keyed.get? field.name fields).isSome) := by
  unfold dropShort
  split
  next short named =>
    rw [named]
    split
    next there =>
      rw [(Keyed.swapRemove_perm_filter distinct).mem_iff,List.mem_filter]
      refine and_congr_right fun _ => ?_
      simp only [decide_eq_true_eq,Option.some.injEq,there,and_true]
      exact ne_comm
    next absent => simp [absent]
  next unnamed => simp [unnamed]

/-- Long names stay. -/
theorem get?_name_dropShort (field other : Field) :
    Keyed.get? other.name (dropShort fields field) = Keyed.get? other.name fields := by
  apply Option.ext
  intro json
  rw [Keyed.get?_eq_some_iff (nodup_dropShort distinct field),Keyed.get?_eq_some_iff distinct,
    mem_dropShort distinct]
  have long : field.shortName? ≠ some other.name := Field.shortName?_ne other field
  simp [long]

/-- Dropping for one field after the other drops no more and no less. -/
theorem mem_foldl_dropShort (order : List Field) : ((order.foldl dropShort fields).map (·.1)).Nodup ∧
    ∀ key json, (key,json) ∈ order.foldl dropShort fields ↔ (key,json) ∈ fields ∧
      ∀ field ∈ order, ¬(field.shortName? = some key ∧ (Keyed.get? field.name fields).isSome) := by
  induction order generalizing fields with
  | nil => exact ⟨distinct,by simp⟩
  | cons field rest ih =>
    obtain ⟨nodup,members⟩ := ih (nodup_dropShort distinct field)
    refine ⟨nodup,fun key json => ?_⟩
    rw [List.foldl_cons,members key json,mem_dropShort distinct]
    simp only [get?_name_dropShort distinct,List.forall_mem_cons,and_assoc]

/-- For each field one value is left to be read, the winning one. -/
theorem known_foldl_dropShort : ((known (Field.all.foldl dropShort fields)).map (·.1)).Nodup ∧
    ∀ field json, (field,json) ∈ known (Field.all.foldl dropShort fields) ↔ winning? fields field = some json := by
  obtain ⟨nodup,members⟩ := mem_foldl_dropShort distinct Field.all
  have every : ∀ field, field ∈ Field.all := by intro field; cases field <;> decide
  -- A short name that is left has no long name beside it.
  have alone {field : Field} {short : String} {json : Json} (left : (short,json) ∈ Field.all.foldl dropShort fields)
      (named : field.shortName? = some short) : Keyed.get? field.name fields = none := by
    have kept := ((members short json).mp left).2 field (every field)
    simpa [named] using kept
  constructor
  · rw [known,List.map_filterMap,List.Nodup,List.pairwise_filterMap]
    refine (List.pairwise_map.mp nodup).imp_of_mem fun {a b} left left' differ => ?_
    simp only [Option.map_map,Option.map_eq_some_iff,Function.comp_apply]
    rintro field ⟨_,found,rfl⟩ other ⟨_,found',rfl⟩ rfl
    rcases Field.ofKey?_eq_some_iff.mp found with long | short
    · rcases Field.ofKey?_eq_some_iff.mp found' with long' | short'
      · exact differ (long.trans long'.symm)
      · have there := ((members a.1 a.2).mp left).1
        have none := alone left' short'
        rw [← long,(Keyed.get?_eq_some_iff distinct).mpr there] at none
        cases none
    · rcases Field.ofKey?_eq_some_iff.mp found' with long' | short'
      · have there := ((members b.1 b.2).mp left').1
        have none := alone left short
        rw [← long',(Keyed.get?_eq_some_iff distinct).mpr there] at none
        cases none
      · exact differ (Option.some.inj (short.symm.trans short'))
  · intro field json
    have long : ∀ json, (field.name,json) ∈ Field.all.foldl dropShort fields ↔ (field.name,json) ∈ fields := by
      intro json
      rw [members]
      exact and_iff_left fun other _ dropped => Field.shortName?_ne field other dropped.1
    rw [mem_known,winning?]
    cases first : Keyed.get? field.name fields with
    | some top =>
      have there := (Keyed.get?_eq_some_iff distinct).mp first
      simp only [Option.some_or,Option.some.injEq]
      constructor
      · rintro ⟨key,left,rfl | short⟩
        · rw [(Keyed.get?_eq_some_iff distinct).mpr ((long json).mp left)] at first
          exact (Option.some.inj first).symm
        · rw [alone left short] at first
          cases first
      · rintro rfl
        exact ⟨field.name,(long _).mpr there,.inl rfl⟩
    | none =>
      rw [Option.none_or,Option.bind_eq_some_iff]
      constructor
      · rintro ⟨key,left,rfl | short⟩
        · rw [(Keyed.get?_eq_some_iff distinct).mpr ((long json).mp left)] at first
          cases first
        · exact ⟨key,short,(Keyed.get?_eq_some_iff distinct).mpr ((members key json).mp left).1⟩
      · rintro ⟨short,named,found⟩
        refine ⟨short,(members short json).mpr ⟨(Keyed.get?_eq_some_iff distinct).mp found,fun other _ dropped => ?_⟩,
          .inr named⟩
        rw [Field.eq_of_shortName? dropped.1 named,first] at dropped
        cases dropped.2

end Overriding

/-- What a field takes: no value, null, or a value of its type. -/
def Field.Takes (field : Field) (value : Option Json) : Prop := ∀ json, value = some json → field.accepts json = true

/-- Objects with the same winning values decode to the same options, or neither decodes. The type of a value may be
wrong, but no field is there twice. -/
theorem ofJson_of_winning (distinct : (fields.map (·.1)).Nodup) :
    (∃ options, ofJson (.object fields) = .ok options ∧ (∀ field : Field, field.Takes (winning? fields field)) ∧
      ∀ field, options.value? field = (winning? fields field).bind noNull) ∨
    (∃ found expected, ofJson (.object fields) = .error (.wrongType found expected)) ∧
      ¬∀ field : Field, field.Takes (winning? fields field) := by
  obtain ⟨apart,wins⟩ := known_foldl_dropShort distinct
  have reads : ofJson (.object fields) = setAll {} (known (Field.all.foldl dropShort fields)) :=
    ofFields_known [] apart {}
  rw [reads]
  have each : (∀ entry ∈ known (Field.all.foldl dropShort fields), entry.1.accepts entry.2 = true) ↔
      ∀ field : Field, field.Takes (winning? fields field) := by
    simp only [Prod.forall,wins,Field.Takes]
  by_cases accepted : ∀ entry ∈ known (Field.all.foldl dropShort fields), entry.1.accepts entry.2 = true
  · obtain ⟨options,run,given,kept⟩ := setAll_of_accepts {} apart accepted
    refine .inl ⟨options,run,each.mp accepted,fun field => ?_⟩
    cases won : winning? fields field with
    | some json => exact given _ ((wins field json).mpr won)
    | none =>
      have absent : field ∉ (known (Field.all.foldl dropShort fields)).map (·.1) := by
        intro member
        obtain ⟨⟨_,json⟩,there,rfl⟩ := List.mem_map.mp member
        rw [(wins _ json).mp there] at won
        cases won
      rw [kept field absent]
      cases field <;> rfl
  · exact .inr ⟨setAll_of_refuses {} accepted,fun takes => accepted (each.mpr takes)⟩

theorem toOption_ofJson_congr {others : List (String × Json)} (distinct : (fields.map (·.1)).Nodup)
    (distinct' : (others.map (·.1)).Nodup) (same : ∀ field, winning? others field = winning? fields field) :
    (ofJson (.object others)).toOption = (ofJson (.object fields)).toOption := by
  have alike : winning? others = winning? fields := funext same
  rcases ofJson_of_winning distinct with ⟨options,run,takes,given⟩ | ⟨⟨_,_,failed⟩,refused⟩
  · rcases ofJson_of_winning distinct' with ⟨options',run',-,given'⟩ | ⟨-,refused'⟩
    · have equal : options' = options :=
        eq_of_value? (textual_of_ofJson run') fun field => by rw [given,given',alike]
      rw [run,run',equal]
    · exact absurd (alike ▸ takes) refused'
  · rcases ofJson_of_winning distinct' with ⟨_,_,takes',-⟩ | ⟨⟨_,_,failed'⟩,-⟩
    · exact absurd (alike ▸ takes') refused
    · rw [failed,failed']
      rfl

theorem winning?_of_perm {others : List (String × Json)} (distinct : (fields.map (·.1)).Nodup)
    (perm : fields.Perm others) (field : Field) : winning? others field = winning? fields field := by
  simp only [winning?,Keyed.get?_of_perm distinct perm]

/-- A key that is neither the long name nor the short name that counts has no part in it. -/
theorem winning?_middle {front back : List (String × Json)} (long : field.name ≠ key)
    (short : field.shortName? = some key → field.name ∈ (front ++ back).map (·.1)) :
    winning? (front ++ (key,json) :: back) field = winning? (front ++ back) field := by
  rw [winning?,winning?,Keyed.get?_middle (Ne.symm long)]
  by_cases overridden : field.shortName? = some key
  · obtain ⟨value,found⟩ := Option.isSome_iff_exists.mp (Keyed.isSome_get?_iff.mpr (short overridden))
    rw [found]
    rfl
  · cases named : field.shortName? with
    | none => rfl
    | some other =>
      have differs : key ≠ other := fun same => overridden (same ▸ named)
      simp only [Option.bind_some,Keyed.get?_middle differs]

/-- Decoding an object depends on the winning values and on nothing else. -/
structure Decodes (fields : List (String × Json)) : Prop where
  success : (∃ options, ofJson (.object fields) = .ok options) ↔ ∀ field : Field, field.Takes (winning? fields field)
  result : ∀ options, ofJson (.object fields) = .ok options →
    ∀ field, options.value? field = (winning? fields field).bind noNull
  unrepeated : ∀ name, ofJson (.object fields) ≠ .error (.duplicate name)
  permuted : ∀ others, fields.Perm others →
    (ofJson (.object others)).toOption = (ofJson (.object fields)).toOption
  unknown : ∀ front key json back, fields = front ++ (key,json) :: back → Field.ofKey? key = none →
    (ofJson (.object (front ++ back))).toOption = (ofJson (.object fields)).toOption
  overridden : ∀ front (field : Field) short json back, fields = front ++ (short,json) :: back →
    field.shortName? = some short → field.name ∈ (front ++ back).map (·.1) →
    (ofJson (.object (front ++ back))).toOption = (ofJson (.object fields)).toOption ∧
    ∀ other, (ofJson (.object (front ++ (short,other) :: back))).toOption = (ofJson (.object fields)).toOption

/-- Of an object, in which no key is there twice, the winning values alone decide whether it is read and what comes of
it. So it may be permuted, get unknown fields or lose them, and short names beside their long names may come, go or
change; and no field counts as repeated. -/
theorem ofJson_winning (distinct : (fields.map (·.1)).Nodup) : Decodes fields := by
  -- A field in the middle that never wins may go, or hold something else.
  have without {front back : List (String × Json)} {key : String} {json : Json}
      (split : fields = front ++ (key,json) :: back) (idle : ∀ other field,
        winning? (front ++ (key,other) :: back) field = winning? (front ++ back) field) :
      (ofJson (.object (front ++ back))).toOption = (ofJson (.object fields)).toOption ∧
      ∀ other, (ofJson (.object (front ++ (key,other) :: back))).toOption = (ofJson (.object fields)).toOption := by
    subst split
    have fewer : ((front ++ back).map (·.1)).Nodup :=
      distinct.sublist ((List.Sublist.append_left (List.sublist_cons_self _ _) front).map _)
    refine ⟨toOption_ofJson_congr distinct fewer fun field => (idle json field).symm,fun other => ?_⟩
    have renewed : ((front ++ (key,other) :: back).map (·.1)).Nodup := by
      rw [List.map_append] at distinct ⊢
      exact distinct
    exact toOption_ofJson_congr distinct renewed fun field => (idle other field).trans (idle json field).symm
  refine ⟨⟨?_,fun takes => ?_⟩,fun options run => ?_,fun name repeated => ?_,fun others perm => ?_,
    fun front key json back split unknown => ?_,fun front field short json back split named there => ?_⟩
  · rintro ⟨options,run⟩
    rcases ofJson_of_winning distinct with ⟨_,_,takes,-⟩ | ⟨⟨_,_,failed⟩,-⟩
    · exact takes
    · rw [failed] at run
      cases run
  · rcases ofJson_of_winning distinct with ⟨options,run,-⟩ | ⟨-,refused⟩
    · exact ⟨options,run⟩
    · exact absurd takes refused
  · rcases ofJson_of_winning distinct with ⟨_,run',-,given⟩ | ⟨⟨_,_,failed⟩,-⟩
    · cases run.symm.trans run'
      exact given
    · rw [failed] at run
      cases run
  · rcases ofJson_of_winning distinct with ⟨_,run,-⟩ | ⟨⟨_,_,failed⟩,-⟩
    · rw [run] at repeated
      cases repeated
    · rw [failed] at repeated
      cases repeated
  · have distinct' : (others.map (·.1)).Nodup := (perm.map _).nodup_iff.mp distinct
    exact toOption_ofJson_congr distinct distinct' (winning?_of_perm distinct perm)
  · have unlike : ∀ field : Field, field.name ≠ key ∧ field.shortName? ≠ some key := by
      intro field
      constructor
      · rintro rfl
        rw [Field.ofKey?_name] at unknown
        cases unknown
      · intro named
        rw [Field.ofKey?_eq_some_iff.mpr (.inr named)] at unknown
        cases unknown
    exact (without split fun other field => winning?_middle (unlike field).1 fun named =>
      absurd named (unlike field).2).1
  · refine without split fun value other => winning?_middle (fun long => ?_) fun named' => ?_
    · exact Field.shortName?_ne other field (long ▸ named)
    · rwa [Field.eq_of_shortName? named' named]

/-- The long name wins although its value is null, and the value under the short name is of the wrong type. -/
def contested : List (String × Json) :=
  [("locales",.integer 1),("moduleName",.string "i18n"),("x",.array []),("localesDirectory",.null),("filePath",.string "a")]

theorem contested_decodes : Decodes contested ∧
    ofJson (.object contested) = .ok {moduleName := some "i18n",outputPath := some ⟨"a"⟩} := by
  have distinct : (contested.map (·.1)).Nodup := by decide
  have decodes := ofJson_winning distinct
  refine ⟨decodes,?_⟩
  have takes : ∀ field : Field, field.Takes (winning? contested field) := by
    intro field json found
    cases field <;> cases found <;> rfl
  obtain ⟨options,run⟩ := decodes.success.mpr takes
  rw [run]
  refine congrArg Except.ok (eq_of_value? (textual_of_ofJson run) fun field => ?_)
  rw [decodes.result options run field]
  cases field <;> rfl

end Options
end Phrasebook
