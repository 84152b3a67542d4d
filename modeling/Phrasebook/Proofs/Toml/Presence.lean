import Phrasebook.Proofs.Toml.Site

/-! Every key of a document that is read is written in it: `shown_sites`. A change of the fields brings in no path
but those of the keys that it names and of the fields in its value. -/
namespace Phrasebook

namespace Keyed

variable {ν : Type} {key other : String} {value found : ν} {fields : List (String × ν)}

theorem mem_set (member : (other,found) ∈ set key value fields) :
    other = key ∧ found = value ∨ (other,found) ∈ fields := by
  induction fields with
  | nil => exact .inl (by simpa [set] using member)
  | cons field rest ih =>
    obtain ⟨k,v⟩ := field
    rw [set] at member
    split at member
    next same =>
      rcases List.mem_cons.mp member with here | later
      · cases here
        exact .inl ⟨same,rfl⟩
      · exact .inr (List.mem_cons_of_mem _ later)
    next =>
      rcases List.mem_cons.mp member with here | later
      · exact .inr (here ▸ List.mem_cons_self)
      · exact (ih later).imp_right (List.mem_cons_of_mem _)

theorem mem_of_get? (present : get? key fields = some value) : (key,value) ∈ fields := by
  induction fields with
  | nil => cases present
  | cons field rest ih =>
    obtain ⟨k,v⟩ := field
    rw [get?] at present
    split at present
    next same =>
      cases present
      exact same ▸ List.mem_cons_self
    · exact List.mem_cons_of_mem _ (ih present)

end Keyed

namespace Toml

/-- The fields have a key at this path, each key on the way holding a table. -/
inductive Has : List (String × Value) → List String → Prop where
  | here {fields : List (String × Value)} {key : String} {value : Value} (member : (key,value) ∈ fields) :
      Has fields [key]
  | inside {fields inner : List (String × Value)} {key : String} {origin : Origin} {path : List String}
      (member : (key,.table origin inner) ∈ fields) (further : Has inner path) : Has fields (key :: path)

/-- A table has a key at this path. -/
def Value.Has (value : Value) (path : List String) : Prop :=
  ∃ origin fields, value = .table origin fields ∧ Toml.Has fields path

/-- A key that is met on the way along a path. -/
def OnWay (path route : List String) : Prop := path ≠ [] ∧ path <+: route

variable {fields result : List (String × Value)} {key : String} {value : Value} {path route : List String}

theorem not_has_nil : ¬Has [] path := by
  intro has
  cases has with
  | here member => cases member
  | inside member => cases member

theorem OnWay.cons (way : OnWay path route) : OnWay (key :: path) (key :: route) :=
  ⟨List.cons_ne_nil key path,(List.prefix_cons_inj key).mpr way.2⟩

theorem onWay_head (key : String) (route : List String) : OnWay [key] (key :: route) :=
  ⟨List.cons_ne_nil key [],⟨route,rfl⟩⟩

/-- A field that is set is the only one that may be new, with what its value has. -/
theorem has_of_set (has : Has (Keyed.set key value fields) path) :
    Has fields path ∨ path = [key] ∨ ∃ rest, path = key :: rest ∧ value.Has rest := by
  cases has with
  | here member =>
    rcases Keyed.mem_set member with ⟨rfl,-⟩ | old
    · exact .inr (.inl rfl)
    · exact .inl (.here old)
  | inside member further =>
    rcases Keyed.mem_set member with ⟨rfl,same⟩ | old
    · exact .inr (.inr ⟨_,rfl,_,_,same.symm,further⟩)
    · exact .inl (.inside old further)

/-- Nothing but the field is new if what its value has was there before. -/
theorem has_of_set_of_kept (kept : ∀ {rest}, value.Has rest → Has fields (key :: rest))
    (has : Has (Keyed.set key value fields) path) : Has fields path ∨ path = [key] := by
  rcases has_of_set has with old | new | ⟨rest,rfl,below⟩
  · exact .inl old
  · exact .inr new
  · exact .inl (kept below)

/-- Only a table has a path of keys below it; an array of tables has none. -/
theorem not_has_of_ne_table (other : ∀ origin fields, value ≠ .table origin fields) : ¬value.Has path := by
  rintro ⟨origin,fields,same,-⟩
  exact other origin fields same

/-- An update changes the fields at the end of its route only, and makes the tables on the way. -/
theorem has_of_update {dotted : Bool} {change : Origin → List (String × Value) → Option (List (String × Value))}
    {P : List String → Prop} (changed : ∀ {origin fields result path}, change origin fields = some result →
      Has result path → Has fields path ∨ P path) {origin : Origin}
    (updated : update dotted change route origin fields = some result) (has : Has result path) :
    Has fields path ∨ OnWay path route ∨ ∃ rest, path = route ++ rest ∧ P rest := by
  induction route generalizing origin fields result path with
  | nil => exact (changed updated has).imp_right fun new => .inr ⟨path,rfl,new⟩
  | cons key route ih =>
    -- the table on the way, made new or found
    have entered {origin : Origin} {old inner : List (String × Value)} (kept : ∀ {rest}, Has old rest → Has fields (key :: rest))
        (below : update dotted change route origin old = some inner)
        (has : Has (Keyed.set key (.table origin inner) fields) path) :
        Has fields path ∨ OnWay path (key :: route) ∨ ∃ rest, path = key :: route ++ rest ∧ P rest := by
      rcases has_of_set has with old | rfl | ⟨rest,rfl,origin,fields,same,has⟩
      · exact .inl old
      · exact .inr (.inl (onWay_head key route))
      · cases same
        rcases ih below has with old | way | ⟨rest,rfl,new⟩
        · exact .inl (kept old)
        · exact .inr (.inl way.cons)
        · exact .inr (.inr ⟨rest,rfl,new⟩)
    rw [update] at updated
    split at updated
    · obtain ⟨inner,below,same⟩ := Option.bind_eq_some_iff.mp updated
      cases same
      exact entered (fun old => absurd old not_has_nil) below has
    next found =>
      split at updated
      · cases updated
      · obtain ⟨inner,below,same⟩ := Option.bind_eq_some_iff.mp updated
        cases same
        exact entered (.inside (Keyed.mem_of_get? found)) below has
    next elements found =>
      split at updated
      · obtain ⟨inner,below,same⟩ := Option.bind_eq_some_iff.mp updated
        cases same
        rcases has_of_set_of_kept (fun has => absurd has (not_has_of_ne_table (by simp))) has with old | rfl
        · exact .inl old
        · exact .inr (.inl (onWay_head key route))
      · cases updated
    · cases updated

/-- What an assignment brings in: the keys of its path, and the keys in its value. -/
def Assigned (route : List String) (value : Value) (path : List String) : Prop :=
  OnWay path route ∨ ∃ rest, path = route ++ rest ∧ value.Has rest

theorem has_of_assign {origin : Origin} (assigned : assign route key value origin fields = some result)
    (has : Has result path) : Has fields path ∨ Assigned (route ++ [key]) value path := by
  have changed {origin : Origin} {fields result : List (String × Value)} {path : List String}
      (change : (if !route.isEmpty && origin ≠ .dotted then none
        else if (Keyed.get? key fields).isSome then none
        else some (Keyed.set key value fields)) = some result) (has : Has result path) :
      Has fields path ∨ path = [key] ∨ ∃ rest, path = key :: rest ∧ value.Has rest := by
    split at change
    · cases change
    · split at change
      · cases change
      · cases change
        exact has_of_set has
  rcases has_of_update changed assigned has with old | way | ⟨_,rfl,rfl | ⟨rest,rfl,inner⟩⟩
  · exact .inl old
  · exact .inr (.inl ⟨way.1,way.2.trans (List.prefix_append _ _)⟩)
  · exact .inr (.inl ⟨by simp,List.prefix_rfl⟩)
  · exact .inr (.inr ⟨rest,by simp,inner⟩)

/-- A header brings in the keys of its path at most. -/
theorem has_of_open {change : Origin → List (String × Value) → Option (List (String × Value))}
    (changed : ∀ {origin fields result path}, change origin fields = some result → Has result path →
      Has fields path ∨ path = [key])
    (opened : update false change route .header fields = some result) (has : Has result path) :
    Has fields path ∨ OnWay path (route ++ [key]) := by
  rcases has_of_update changed opened has with old | way | ⟨_,rfl,rfl⟩
  · exact .inl old
  · exact .inr ⟨way.1,way.2.trans (List.prefix_append _ _)⟩
  · exact .inr ⟨by simp,List.prefix_rfl⟩

theorem has_of_openTable (opened : openTable route key fields = some result) (has : Has result path) :
    Has fields path ∨ OnWay path (route ++ [key]) := by
  refine has_of_open (fun changed has => ?_) opened has
  split at changed
  · cases changed
    refine has_of_set_of_kept (fun below => ?_) has
    obtain ⟨_,_,same,none⟩ := below
    cases same
    exact absurd none not_has_nil
  next found =>
    cases changed
    refine has_of_set_of_kept (fun below => ?_) has
    obtain ⟨_,_,same,further⟩ := below
    cases same
    exact .inside (Keyed.mem_of_get? found) further
  · cases changed

theorem has_of_openElement (opened : openElement route key fields = some result) (has : Has result path) :
    Has fields path ∨ OnWay path (route ++ [key]) := by
  refine has_of_open (fun changed has => ?_) opened has
  split at changed
  · cases changed
    exact has_of_set_of_kept (fun below => absurd below (not_has_of_ne_table (by simp))) has
  · cases changed
    exact has_of_set_of_kept (fun below => absurd below (not_has_of_ne_table (by simp))) has
  · cases changed

/-- Some sites have a path, if one of them does. -/
def Shown (sites : List Site) (path : List String) : Prop := ∃ site ∈ sites, site.path = path

section Shown

variable {one two : List Site}

theorem Shown.left (shown : Shown one path) : Shown (one ++ two) path := by
  obtain ⟨site,member,same⟩ := shown
  exact ⟨site,List.mem_append_left _ member,same⟩

theorem Shown.right (shown : Shown two path) : Shown (one ++ two) path := by
  obtain ⟨site,member,same⟩ := shown
  exact ⟨site,List.mem_append_right _ member,same⟩

end Shown

/-- Every key of a dotted key is a site. -/
theorem shown_keySites {fuel : Nat} {above : List String} {text rest : List Char} (base : List String)
    (read : path? fuel above text = some (route,key,rest)) :
    ∃ tail, route = above ++ tail ∧ ∀ path, OnWay path (tail ++ [key]) → Shown (keySites fuel base text) (base ++ path) := by
  induction fuel generalizing above base text with
  | zero => cases read
  | succ fuel ih =>
    rw [path?] at read
    obtain ⟨⟨first,after⟩,found,read⟩ := Option.bind_eq_some_iff.mp read
    have head (more : List Site) : Shown (⟨base ++ [first],text.dropWhile isBlank⟩ :: more) (base ++ [first]) :=
      ⟨_,List.mem_cons_self,rfl⟩
    simp only [keySites,found]
    dsimp only at read
    split at read
    next more dotted =>
      obtain ⟨tail,rfl,later⟩ := ih (base ++ [first]) read
      refine ⟨first :: tail,by simp,?_⟩
      rintro path ⟨some,front⟩
      obtain ⟨_,path,rfl⟩ := List.exists_cons_of_ne_nil some
      obtain ⟨rfl,further⟩ := List.cons_prefix_cons.mp front
      by_cases last : path = []
      · subst last
        exact head _
      · obtain ⟨site,member,same⟩ := later path ⟨last,further⟩
        exact ⟨site,List.mem_cons_of_mem _ (by simpa only [dotted] using member),by rw [same]; simp⟩
    · cases read
      refine ⟨[],by simp,?_⟩
      rintro path ⟨some,front⟩
      obtain rfl : path = [key] := by
        rcases List.prefix_cons_iff.mp front with none | ⟨tail,rfl,nothing⟩
        · exact absurd none some
        · rw [List.prefix_nil.mp nothing]
      exact head _

theorem not_has_of_word {word : List Char} (read : Word.value? word = some value) : ¬value.Has path := by
  refine not_has_of_ne_table fun origin fields same => ?_
  subst same
  unfold Word.value? at read
  iterate 3
    split at read
    · cases read
  obtain ⟨moment,-,same⟩ := Option.map_eq_some_iff.mp read
  cases same

theorem not_has_of_items {fuel depth : Nat} {items : List Value} {text rest : List Char}
    (read : items? fuel depth items text = some (value,rest)) : ¬value.Has path := by
  induction fuel generalizing items text with
  | zero => cases read
  | succ fuel ih =>
    rw [items?] at read
    split at read
    · cases read
      exact not_has_of_ne_table (by simp)
    · obtain ⟨⟨item,after⟩,-,read⟩ := Option.bind_eq_some_iff.mp read
      dsimp only at read
      split at read
      · exact ih read
      · cases read
        exact not_has_of_ne_table (by simp)
      · cases read

mutual

/-- Every key of a value is a site in it. -/
theorem shown_valueSites {fuel depth : Nat} {path : List String} {text rest : List Char} {value : Value}
    (base : List String) (read : value? fuel depth text = some (value,rest)) (has : value.Has path) :
    Shown (valueSites fuel depth base text) (base ++ path) := by
  cases fuel with
  | zero => cases read
  | succ fuel =>
    have string {found : Option (String × List Char)}
        (read : (found.map fun (s,rest) => (Value.string s,rest)) = some (value,rest)) : False := by
      obtain ⟨_,-,same⟩ := Option.map_eq_some_iff.mp read
      cases same
      exact not_has_of_ne_table (by simp) has
    unfold value? at read
    split at read
    · exact (string read).elim
    · exact (string read).elim
    · exact (string read).elim
    · exact (string read).elim
    · exact absurd has (not_has_of_items read)
    · split at read
      · cases read
        obtain ⟨origin,fields,same,has⟩ := has
        cases same
        exact absurd has not_has_nil
      · rw [valueSites]
        rcases shown_memberSites base read has with none | shown
        · exact absurd none not_has_nil
        · exact shown
    · change (Word.value? (Word.read text).1).map (·,(Word.read text).2) = some (value,rest) at read
      obtain ⟨_,found,same⟩ := Option.map_eq_some_iff.mp read
      cases same
      exact absurd has (not_has_of_word found)

theorem shown_memberSites {fuel depth : Nat} {path : List String} {text rest : List Char} {value : Value}
    {fields : List (String × Value)} (base : List String) (read : members? fuel depth fields text = some (value,rest))
    (has : value.Has path) : Has fields path ∨ Shown (memberSites fuel depth base text) (base ++ path) := by
  cases fuel with
  | zero => cases read
  | succ fuel =>
    rw [members?] at read
    obtain ⟨⟨route,key,after⟩,found,read⟩ := Option.bind_eq_some_iff.mp read
    dsimp only at read
    split at read
    next after =>
      obtain ⟨⟨item,after⟩,valueRead,read⟩ := Option.bind_eq_some_iff.mp read
      obtain ⟨assigned,assignment,read⟩ := Option.bind_eq_some_iff.mp read
      obtain ⟨_,rfl,keys⟩ := shown_keySites base found
      -- what the first member brings in
      have first (has : Has assigned path) : Has fields path ∨ Shown (memberSites (fuel + 1) depth base text) (base ++ path) := by
        rw [memberSites,found]
        rcases has_of_assign assignment has with old | way | ⟨rest,rfl,inner⟩
        · exact .inl old
        · exact .inr (keys path way).left
        · refine .inr (.right (.left ?_))
          have shown := shown_valueSites (base ++ (route ++ [key])) valueRead inner
          simpa using shown
      dsimp only at read
      split at read
      next comma =>
        rcases shown_memberSites base read has with old | shown
        · exact first old
        · right
          rw [memberSites,found]
          simp only [valueRead,comma]
          exact shown.right.right
      next =>
        cases read
        obtain ⟨origin,fields,same,has⟩ := has
        cases same
        exact first has
      · cases read
    · cases read

end

/-- A header leaves the fields as they are but for the keys of its path, which are sites in it. -/
theorem shown_headerSites {draft next : Draft} {text rest : List Char} (read : header? draft text = some (next,rest)) :
    (∀ path, OnWay path next.path → Shown (headerSites text) path) ∧
    ∀ path, Has next.fields path → Has draft.fields path ∨ Shown (headerSites text) path := by
  unfold header? at read
  split at read
  next inner =>
    obtain ⟨⟨route,key,after⟩,found,read⟩ := Option.bind_eq_some_iff.mp read
    obtain ⟨_,rfl,keys⟩ := shown_keySites [] found
    dsimp only at read
    split at read
    · obtain ⟨fields,opened,same⟩ := Option.bind_eq_some_iff.mp read
      cases same
      exact ⟨keys,fun path has => (has_of_openElement opened has).imp_right (keys path)⟩
    · cases read
  next plain =>
    obtain ⟨⟨route,key,after⟩,found,read⟩ := Option.bind_eq_some_iff.mp read
    obtain ⟨_,rfl,keys⟩ := shown_keySites [] found
    have sites : headerSites text = keySites depthLimit [] text := by
      unfold headerSites
      split
      next inner => exact absurd rfl (plain inner)
      · rfl
    rw [sites]
    dsimp only at read
    split at read
    · obtain ⟨fields,opened,same⟩ := Option.bind_eq_some_iff.mp read
      cases same
      exact ⟨keys,fun path has => (has_of_openTable opened has).imp_right (keys path)⟩
    · cases read

/-- An assignment brings in the keys that are sites in it, below the last header. -/
theorem shown_assignmentSites {draft next : Draft} {text rest : List Char}
    (read : assignment? draft text = some (next,rest)) : next.path = draft.path ∧
    ∀ path, Has next.fields path →
      Has draft.fields path ∨ OnWay path draft.path ∨ Shown (assignmentSites draft.path text) path := by
  unfold assignment? at read
  obtain ⟨⟨route,key,after⟩,found,read⟩ := Option.bind_eq_some_iff.mp read
  obtain ⟨_,rfl,keys⟩ := shown_keySites draft.path found
  dsimp only at read
  split at read
  next after =>
    obtain ⟨⟨value,after⟩,valueRead,read⟩ := Option.bind_eq_some_iff.mp read
    obtain ⟨fields,updated,same⟩ := Option.bind_eq_some_iff.mp read
    cases same
    refine ⟨rfl,fun path has => ?_⟩
    rw [assignmentSites,found]
    rcases has_of_update has_of_assign updated has with old | way | ⟨path,rfl,way | ⟨rest,rfl,inner⟩⟩
    · exact .inl old
    · exact .inr (.inl way)
    · exact .inr (.inr (keys path way).left)
    · refine .inr (.inr (.right ?_))
      have shown := shown_valueSites (draft.path ++ (route ++ [key])) valueRead inner
      simpa using shown
  · cases read

/-- Every key that reading a document brings in is a site in it, or on the way of the last header before. -/
theorem shown_documentSites {fuel : Nat} {draft last : Draft} {text : List Char}
    (read : document? fuel draft text = some last) (has : Has last.fields path) :
    Has draft.fields path ∨ OnWay path draft.path ∨ Shown (documentSites fuel draft text) path := by
  induction fuel generalizing draft text with
  | zero => cases read
  | succ fuel ih =>
    unfold document? at read
    unfold documentSites
    generalize text.dropWhile isBlank = line at read ⊢
    split at read
    · cases read
      exact .inl has
    next inner =>
      obtain ⟨⟨next,after⟩,header,read⟩ := Option.bind_eq_some_iff.mp read
      obtain ⟨more,finished,read⟩ := Option.bind_eq_some_iff.mp read
      obtain ⟨way,new⟩ := shown_headerSites header
      simp only [header,finished,Option.elim_some]
      rcases ih read with old | back | later
      · exact (new path old).imp_right fun shown => .inr shown.left
      · exact .inr (.inr (way path back).left)
      · exact .inr (.inr later.right)
    · cases ended : finishLine? line with
      | some rest =>
        simp only [ended] at read ⊢
        exact ih read
      | none =>
        simp only [ended] at read ⊢
        obtain ⟨⟨next,after⟩,assignment,read⟩ := Option.bind_eq_some_iff.mp read
        obtain ⟨more,finished,read⟩ := Option.bind_eq_some_iff.mp read
        obtain ⟨same,new⟩ := shown_assignmentSites assignment
        simp only [assignment,finished,Option.elim_some]
        rcases ih read with old | back | later
        · rcases new path old with old | back | shown
          · exact .inl old
          · exact .inr (.inl back)
          · exact .inr (.inr shown.left)
        · exact .inr (.inl (same ▸ back))
        · exact .inr (.inr later.right)

/-- Every key of a document is written in it. -/
theorem shown_sites {text : String} {fields : List (String × Value)} (read : parse? text = some fields)
    (has : Has fields path) : Shown (sites text) path := by
  rw [parse?_eq] at read
  obtain ⟨last,document,rfl⟩ := Option.map_eq_some_iff.mp read
  rcases shown_documentSites document has with none | ⟨some,way⟩ | shown
  · exact absurd none not_has_nil
  · exact absurd (List.prefix_nil.mp way) some
  · exact shown

end Toml
end Phrasebook
