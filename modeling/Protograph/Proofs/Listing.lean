/-
  Protograph.Proofs.Listing — when the list messages of an entity are built, and what the
  filter is then made of.

  A filter has a slot for each mode that a field of the entity offers, and one for each further
  filter: a name and a type (`slots`). A field is pushed if and only if its name is new
  (`push_eq_ok`); so, slot by slot, a filter is built if and only if every mode offered has a
  type, every further filter a wrapper, and no two slots one name (`filter_eq_ok`). Its fields
  then fill the slots in order, numbered from 1 on.

  From it: the fields of a filter are numbered in the order in which they come, with distinct
  names, each of a scalar type, a well-known message or an enumeration nested in the message
  of the entity (`filter_ok`). The request and the response name the filter, the message of the
  entity and well-known messages (`named_of_page`).
-/

import Protograph.Compile.EntityService
import Protograph.Compile.References
import Protograph.Proofs.EntityMessage

namespace Protograph

/-- What the filters that a field offers ask of its kind. -/
structure FieldSpec.Filterable (f : FieldSpec) : Prop where
  contains : ∀ o, f.annotations.filter = some o → o.mode.has .contains = true → f.kind = .string
  typed : ∀ o, f.annotations.filter = some o → o.mode.has .eq = true ∨ o.mode.has .member = true →
    f.kind ≠ .json ∧ f.kind ≠ .other

namespace Listing

/-! ## Slots -/

/-- The type of a filter for one value of a field. -/
def valueType? (entity : String) (f : FieldSpec) : Option MappedType :=
  if f.kind = .enumeration then some (.enumeration (entity ++ "." ++ enumTypeName f.name))
  else f.kind.wrapper?.map .message

/-- The type of a filter for members of a list of values of a field. -/
def memberType? (entity : String) (f : FieldSpec) : Option MappedType :=
  if f.kind = .enumeration then some (.enumeration (entity ++ "." ++ enumTypeName f.name))
  else if f.kind = .time then some (.message WellKnown.timestamp)
  else f.kind.scalar?.map .scalar

/-- The filters for one value, a part of a value and members of a list, as far as a mode has
    them. -/
def valueSlots (entity : String) (mode : FilterModes) (f : FieldSpec) : List (String × MappedType) :=
  if mode.has .eq then (valueType? entity f).toList.map fun t => (Text.snake f.name, t) else []

def partSlots (mode : FilterModes) (f : FieldSpec) : List (String × MappedType) :=
  if mode.has .contains then [(Text.snake f.name ++ "_contains", .message WellKnown.stringValue)] else []

def memberSlots (entity : String) (mode : FilterModes) (f : FieldSpec) : List (String × MappedType) :=
  if mode.has .member then (memberType? entity f).toList.map fun t => (Text.snake f.name ++ "_in", t.asRepeated) else []

/-- The filters that a field of the entity offers. -/
def fieldSlots (entity : String) (f : FieldSpec) : List (String × MappedType) :=
  f.annotations.filter.toList.flatMap fun o =>
    valueSlots entity o.mode f ++ (partSlots o.mode f ++ memberSlots entity o.mode f)

/-- A filter that no field of the entity stands behind. -/
def extraSlots (extra : String × Kind) : List (String × MappedType) :=
  extra.2.wrapper?.toList.map fun name => (Text.snake extra.1, .message name)

def extras (e : Entity) : List (String × Kind) := (e.annotations.extraFilter.map (·.fields)).getD []

/-- The slots of an entity's filter. -/
def slots (e : Entity) : List (String × MappedType) :=
  (candidates e).flatMap (fieldSlots e.name) ++ (extras e).flatMap extraSlots

/-- The fields that fill some slots, behind a number of others. -/
def fill (n : Nat) (slots : List (String × MappedType)) : List Field :=
  slots.mapIdx fun k s => s.2.toField s.1 (n + k + 1 : Nat)

theorem filterType_value {entity : String} {f : FieldSpec} {t : MappedType} :
    filterType entity f true = .ok t ↔ valueType? entity f = some t := by
  unfold filterType valueType? mapKind
  cases f.kind <;> simp [Kind.wrapper?]

theorem filterType_member {entity : String} {f : FieldSpec} {t : MappedType} :
    filterType entity f false = .ok t ↔ memberType? entity f = some t := by
  unfold filterType memberType? mapKind
  cases f.kind <;> simp [Kind.scalar?]

theorem valueType?_isSome {entity : String} {f : FieldSpec} :
    (valueType? entity f).isSome = true ↔ f.kind ≠ .json ∧ f.kind ≠ .other := by
  unfold valueType?
  cases f.kind <;> simp [Kind.wrapper?]

theorem memberType?_isSome {entity : String} {f : FieldSpec} :
    (memberType? entity f).isSome = true ↔ f.kind ≠ .json ∧ f.kind ≠ .other := by
  unfold memberType?
  cases f.kind <;> simp [Kind.scalar?]

/-! ## The filter as it grows -/

section Pushed

variable {entity : String} {fields fields' : List Field}

def pushSlot (entity : String) (fields : List Field) (s : String × MappedType) : Except EntityError (List Field) :=
  push entity fields s.1 s.2

theorem push_eq_ok {name : String} {t : MappedType} :
    push entity fields name t = .ok fields' ↔
      name ∉ fields.map (·.name) ∧ fields' = fields ++ [t.toField name (fields.length + 1)] := by
  unfold push
  split
  · rename_i htaken
    have htaken : name ∈ fields.map (·.name) := by simpa using htaken
    simp only [reduceCtorEq, false_iff]
    exact fun h => h.1 htaken
  · rename_i hnew
    have hnew : name ∉ fields.map (·.name) := by simpa using hnew
    rw [Except.ok.injEq, and_iff_right hnew, eq_comm]

theorem fill_cons (n : Nat) (s : String × MappedType) (slots : List (String × MappedType)) :
    fill n (s :: slots) = s.2.toField s.1 (n + 1 : Nat) :: fill (n + 1) slots := by
  simp only [fill, List.mapIdx_cons, Nat.add_assoc, Nat.add_comm 1]

/-- Slots are filled if and only if their names are new. -/
theorem foldlM_pushSlot_eq_ok {slots : List (String × MappedType)} :
    slots.foldlM (pushSlot entity) fields = .ok fields' ↔
      Fresh (fields.map (·.name)) (slots.map (·.1)) ∧ fields' = fields ++ fill fields.length slots := by
  induction slots generalizing fields with
  | nil =>
    rw [foldlM_nil_eq_ok, List.map_nil, and_iff_right fresh_nil, eq_comm]
    simp [fill]
  | cons s slots ih =>
    have hseen : ∀ x, x ∈ (fields ++ [s.2.toField s.1 (fields.length + 1)]).map (·.name) ↔
        x ∈ s.1 :: fields.map (·.name) := by
      intro x
      simp [MappedType.toField, or_comm]
    rw [foldlM_cons_eq_ok, List.map_cons, fresh_cons, fill_cons, and_assoc]
    simp only [pushSlot, push_eq_ok]
    constructor
    · intro hpushed
      obtain ⟨_, ⟨hnew, rfl⟩, hrest⟩ := hpushed
      obtain ⟨hfresh, rfl⟩ := ih.mp hrest
      exact ⟨hnew, (fresh_congr hseen).mp hfresh, by simp⟩
    · intro hparts
      obtain ⟨hnew, hfresh, rfl⟩ := hparts
      exact ⟨_, ⟨hnew, rfl⟩, ih.mpr ⟨(fresh_congr hseen).mpr hfresh, by simp⟩⟩

/-- Something of a type that there may not be is pushed if and only if there is one and its
    slot can be filled. -/
theorem bind_push_eq_ok {x : Except EntityError MappedType} {type? : Option MappedType}
    (h : ∀ t, x = .ok t ↔ type? = some t) (name : String) (change : MappedType → MappedType) :
    (x >>= fun t => push entity fields name (change t)) = .ok fields' ↔
      type?.isSome = true ∧ (type?.toList.map fun t => (name, change t)).foldlM (pushSlot entity) fields = .ok fields' := by
  simp only [bind_eq_ok, h]
  cases type? with
  | none => simp
  | some t => simp [pushSlot]

theorem pushEq_eq_ok {mode : FilterModes} {f : FieldSpec} :
    pushEq entity mode f fields = .ok fields' ↔
      (mode.has .eq = true → f.kind ≠ .json ∧ f.kind ≠ .other) ∧
        (valueSlots entity mode f).foldlM (pushSlot entity) fields = .ok fields' := by
  unfold pushEq valueSlots
  split
  · rename_i hmode
    rw [← valueType?_isSome, imp_iff_right hmode]
    exact bind_push_eq_ok (fun _ => filterType_value) _ id
  · rename_i hmode
    rw [and_iff_right fun h => absurd h hmode]
    rfl

theorem pushContains_eq_ok {mode : FilterModes} {f : FieldSpec} :
    pushContains entity mode f fields = .ok fields' ↔
      (mode.has .contains = true → f.kind = .string) ∧
        (partSlots mode f).foldlM (pushSlot entity) fields = .ok fields' := by
  unfold pushContains partSlots
  split
  · rename_i hmode
    rw [imp_iff_right hmode]
    split
    · rename_i hkind
      simp [hkind]
    · rename_i hkind
      rw [and_iff_right (not_not.mp hkind), foldlM_cons_eq_ok]
      simp [pushSlot, pure_eq_ok]
  · rename_i hmode
    rw [and_iff_right fun h => absurd h hmode]
    rfl

theorem pushMember_eq_ok {mode : FilterModes} {f : FieldSpec} :
    pushMember entity mode f fields = .ok fields' ↔
      (mode.has .member = true → f.kind ≠ .json ∧ f.kind ≠ .other) ∧
        (memberSlots entity mode f).foldlM (pushSlot entity) fields = .ok fields' := by
  unfold pushMember memberSlots
  split
  · rename_i hmode
    rw [← memberType?_isSome, imp_iff_right hmode]
    exact bind_push_eq_ok (fun _ => filterType_member) _ _
  · rename_i hmode
    rw [and_iff_right fun h => absurd h hmode]
    rfl

theorem pushField_eq_ok {f : FieldSpec} :
    pushField entity fields f = .ok fields' ↔
      f.Filterable ∧ (fieldSlots entity f).foldlM (pushSlot entity) fields = .ok fields' := by
  unfold pushField fieldSlots
  cases hfilter : f.annotations.filter with
  | none =>
    have hf : f.Filterable := ⟨by simp [hfilter], by simp [hfilter]⟩
    rw [and_iff_right hf]
    rfl
  | some o =>
    have hf : f.Filterable ↔ (o.mode.has .eq = true → f.kind ≠ .json ∧ f.kind ≠ .other) ∧
        (o.mode.has .contains = true → f.kind = .string) ∧
        (o.mode.has .member = true → f.kind ≠ .json ∧ f.kind ≠ .other) := by
      constructor
      · intro h
        exact ⟨fun hmode => h.typed o hfilter (.inl hmode), h.contains o hfilter,
          fun hmode => h.typed o hfilter (.inr hmode)⟩
      · intro hparts
        obtain ⟨hvalue, hpart, hmember⟩ := hparts
        constructor
        · rintro _ ho
          cases hfilter.symm.trans ho
          exact hpart
        · rintro _ ho hmode
          cases hfilter.symm.trans ho
          exact hmode.elim hvalue hmember
    simp only [Option.toList_some, List.flatMap_singleton, foldlM_append_eq_ok, bind_eq_ok, pushEq_eq_ok,
      pushContains_eq_ok, pushMember_eq_ok, hf]
    constructor
    · intro hpushed
      obtain ⟨_, ⟨hvalue, hfirst⟩, _, ⟨hpart, hsecond⟩, hmember, hthird⟩ := hpushed
      exact ⟨⟨hvalue, hpart, hmember⟩, _, hfirst, _, hsecond, hthird⟩
    · intro hparts
      obtain ⟨⟨hvalue, hpart, hmember⟩, _, hfirst, _, hsecond, hthird⟩ := hparts
      exact ⟨_, ⟨hvalue, hfirst⟩, _, ⟨hpart, hsecond⟩, hmember, hthird⟩

theorem pushExtra_eq_ok {extra : String × Kind} :
    pushExtra entity fields extra = .ok fields' ↔
      extra.2.wrapper?.isSome = true ∧ (extraSlots extra).foldlM (pushSlot entity) fields = .ok fields' := by
  unfold pushExtra extraSlots
  cases extra.2.wrapper? with
  | none => simp
  | some name => simp [pushSlot]

end Pushed

/-! ## Whole messages -/

/-- A filter is built if and only if all that is offered has a type, and the names are
    distinct; its fields then fill the slots. -/
theorem filter_eq_ok {e : Entity} {m : Message} :
    filter e = .ok m ↔
      ((∀ f ∈ candidates e, f.Filterable) ∧ (∀ x ∈ extras e, x.2.wrapper?.isSome = true) ∧
        ((slots e).map (·.1)).Nodup) ∧ m = { name := filterName e.name, fields := fill 0 (slots e) } := by
  have hfields : ∀ own, (candidates e).foldlM (pushField e.name) [] = .ok own ↔
      (∀ f ∈ candidates e, f.Filterable) ∧
        ((candidates e).flatMap (fieldSlots e.name)).foldlM (pushSlot e.name) [] = .ok own :=
    fun _ => foldlM_eq_ok_flatMap FieldSpec.Filterable (fieldSlots e.name) fun _ _ _ => pushField_eq_ok
  have hextras : ∀ own all, (extras e).foldlM (pushExtra e.name) own = .ok all ↔
      (∀ x ∈ extras e, x.2.wrapper?.isSome = true) ∧
        ((extras e).flatMap extraSlots).foldlM (pushSlot e.name) own = .ok all :=
    fun _ _ => foldlM_eq_ok_flatMap (fun x => x.2.wrapper?.isSome = true) extraSlots fun _ _ _ => pushExtra_eq_ok
  have hslots : ∀ all, (slots e).foldlM (pushSlot e.name) [] = .ok all ↔
      ((slots e).map (·.1)).Nodup ∧ all = fill 0 (slots e) := by
    intro all
    rw [foldlM_pushSlot_eq_ok, List.map_nil, fresh_of_none_seen]
    rfl
  have hfilter : filter e = .ok m ↔ ∃ own, (candidates e).foldlM (pushField e.name) [] = .ok own ∧
      ∃ all, (extras e).foldlM (pushExtra e.name) own = .ok all ∧ { name := filterName e.name, fields := all } = m := by
    unfold filter extras
    simp only [bind_eq_ok, pure_eq_ok]
  rw [hfilter]
  simp only [hfields, hextras]
  constructor
  · intro hbuilt
    obtain ⟨own, ⟨hfilterable, hown⟩, all, ⟨hwrapped, hall⟩, rfl⟩ := hbuilt
    obtain ⟨hnames, rfl⟩ := (hslots all).mp (foldlM_append_eq_ok.mpr ⟨own, hown, hall⟩)
    exact ⟨⟨hfilterable, hwrapped, hnames⟩, rfl⟩
  · intro hparts
    obtain ⟨⟨hfilterable, hwrapped, hnames⟩, rfl⟩ := hparts
    obtain ⟨own, hown, hall⟩ := foldlM_append_eq_ok.mp ((hslots _).mpr ⟨hnames, rfl⟩)
    exact ⟨own, ⟨hfilterable, hown⟩, _, ⟨hwrapped, hall⟩, rfl⟩

/-! ## Fields that fill slots -/

theorem length_fill (n : Nat) (slots : List (String × MappedType)) : (fill n slots).length = slots.length := by
  simp [fill]

theorem names_fill (n : Nat) (slots : List (String × MappedType)) : (fill n slots).map (·.name) = slots.map (·.1) := by
  refine List.ext_getElem (by simp [fill]) fun k _ _ => ?_
  simp [fill, MappedType.toField]

theorem numbers_fill (n : Nat) (slots : List (String × MappedType)) :
    (fill n slots).map (·.number) = (List.range slots.length).map fun k => ((n + k + 1 : Nat) : Int) := by
  refine List.ext_getElem (by simp [fill]) fun k _ _ => ?_
  simp [fill, MappedType.toField]

theorem slot_of_fill {n : Nat} {slots : List (String × MappedType)} {f : Field} (h : f ∈ fill n slots) :
    ∃ s ∈ slots, ∃ k, f = s.2.toField s.1 k := by
  obtain ⟨k, hk, rfl⟩ := List.mem_mapIdx.mp h
  exact ⟨slots[k], List.getElem_mem hk, _, rfl⟩

/-! ## Types -/

/-- The types that a field of a filter may have where some fields of an entity are offered. -/
structure Filters (entity : String) (offered : List FieldSpec) (t : MappedType) : Prop where
  proper : t.Proper
  wellKnown : t.type = .message → ∃ name, t.typeName = some name ∧ name ∈ WellKnown.types.keys
  nested : t.type = .enumeration →
    ∃ f ∈ offered, f.kind = .enumeration ∧ t.typeName = some (entity ++ "." ++ enumTypeName f.name)

theorem wrapper_wellKnown {k : Kind} {name : String} (h : k.wrapper? = some name) : name ∈ WellKnown.types.keys := by
  cases k <;> cases h <;> decide

theorem filters_message {entity name : String} {offered : List FieldSpec} (h : name ∈ WellKnown.types.keys) :
    Filters entity offered (.message name) :=
  ⟨MappedType.proper_message name, fun _ => ⟨name, rfl, h⟩, fun he => by cases he⟩

theorem scalar_unnamed {k : Kind} {t : FieldType} (h : k.scalar? = some t) : t ≠ .message ∧ t ≠ .enumeration := by
  cases k <;> cases h <;> decide

theorem filters_of_mapKind {entity field : String} {offered : List FieldSpec} {kind : Kind} {optional : Bool}
    {t : MappedType} (h : mapKind field kind optional = .ok t) : Filters entity offered t := by
  have hproper := proper_of_mapKind h
  unfold mapKind at h
  split at h
  · cases h; exact filters_message (by decide)
  split at h
  · split at h
    · rename_i hw; cases h; exact filters_message (wrapper_wellKnown hw)
    · cases h
  · split at h
    · rename_i hs
      cases h
      obtain ⟨hm, he⟩ := scalar_unnamed hs
      exact ⟨hproper, fun ht => absurd ht hm, fun ht => absurd ht he⟩
    · cases h

theorem filters_of_filterType {entity : String} {offered : List FieldSpec} {field : FieldSpec} {optional : Bool}
    {t : MappedType} (hfield : field ∈ offered) (h : filterType entity field optional = .ok t) :
    Filters entity offered t := by
  unfold filterType at h
  split at h
  · rename_i hkind
    cases h
    exact ⟨MappedType.proper_enumeration _, fun hm => (by cases hm), fun _ => ⟨field, hfield, hkind, rfl⟩⟩
  · cases h
  · cases h
  · exact filters_of_mapKind h

theorem filters_of_fieldSlots {entity : String} {offered : List FieldSpec} {f : FieldSpec} {s : String × MappedType}
    (hf : f ∈ offered) (hs : s ∈ fieldSlots entity f) : Filters entity offered s.2 := by
  obtain ⟨o, _, hs⟩ := List.mem_flatMap.mp hs
  rcases List.mem_append.mp hs with hs | hs
  · unfold valueSlots at hs
    split at hs
    · obtain ⟨t, ht, rfl⟩ := List.mem_map.mp hs
      exact filters_of_filterType hf (filterType_value.mpr (Option.mem_toList.mp ht))
    · cases hs
  rcases List.mem_append.mp hs with hs | hs
  · unfold partSlots at hs
    split at hs
    · rw [List.mem_singleton.mp hs]
      exact filters_message (by decide)
    · cases hs
  · unfold memberSlots at hs
    split at hs
    · obtain ⟨t, ht, rfl⟩ := List.mem_map.mp hs
      have hmember := filters_of_filterType hf (filterType_member.mpr (Option.mem_toList.mp ht))
      exact ⟨hmember.proper, hmember.wellKnown, hmember.nested⟩
    · cases hs

theorem filters_of_slots {e : Entity} {s : String × MappedType} (hs : s ∈ slots e) :
    Filters e.name (candidates e) s.2 := by
  rcases List.mem_append.mp hs with hs | hs
  · obtain ⟨f, hf, hs⟩ := List.mem_flatMap.mp hs
    exact filters_of_fieldSlots hf hs
  · obtain ⟨x, _, hs⟩ := List.mem_flatMap.mp hs
    obtain ⟨name, hname, rfl⟩ := List.mem_map.mp hs
    exact filters_message (wrapper_wellKnown (Option.mem_toList.mp hname))

/-! ## What is built -/

/-- Fields numbered in order from 1 on, of distinct names and of types that filter. -/
structure Pushed (entity : String) (offered : List FieldSpec) (fields : List Field) : Prop where
  numbers : fields.map (·.number) = (List.range fields.length).map fun i : Nat => (i : Int) + 1
  names : (fields.map (·.name)).Nodup
  types : ∀ f ∈ fields, ∃ t n, Filters entity offered t ∧ f = t.toField f.name n

theorem filter_ok {e : Entity} {m : Message} (h : filter e = .ok m) :
    ∃ fields, m = { name := filterName e.name, fields } ∧ Pushed e.name (candidates e) fields := by
  obtain ⟨⟨_, _, hnames⟩, rfl⟩ := filter_eq_ok.mp h
  refine ⟨_, rfl, ?_, ?_, ?_⟩
  · simp [numbers_fill, length_fill]
  · rwa [names_fill]
  · intro f hf
    obtain ⟨s, hs, n, rfl⟩ := slot_of_fill hf
    exact ⟨s.2, n, filters_of_slots hs, rfl⟩

/-- A field of the request or the response names a well-known message, the filter, the message
    of the entity, or nothing. -/
theorem named_of_page {entity : String} {m : Message} (hm : m ∈ [request entity, response entity]) {x : Field}
    (hx : x ∈ m.fields) : x.type.isNamed = false ∧ x.typeName = none ∨ x.type = .message ∧
      ∃ name, x.typeName = some name ∧ (name ∈ WellKnown.types.keys ∨ name = filterName entity ∨ name = entity) := by
  rcases List.mem_cons.mp hm with rfl | hm
  · simp only [request, List.mem_cons, List.not_mem_nil, or_false] at hx
    rcases hx with rfl | rfl | rfl | rfl | rfl | rfl
    · exact .inr ⟨rfl, _, rfl, .inl (by decide)⟩
    · exact .inr ⟨rfl, _, rfl, .inl (by decide)⟩
    · exact .inr ⟨rfl, _, rfl, .inl (by decide)⟩
    · exact .inl ⟨rfl, rfl⟩
    · exact .inr ⟨rfl, _, rfl, .inr (.inl rfl)⟩
    · exact .inl ⟨rfl, rfl⟩
  · obtain rfl := List.mem_singleton.mp hm
    simp only [response, List.mem_cons, List.not_mem_nil, or_false] at hx
    rcases hx with rfl | rfl
    · exact .inr ⟨rfl, _, rfl, .inr (.inr rfl)⟩
    · exact .inl ⟨rfl, rfl⟩

theorem build_ok {e : Entity} {messages : List Message} (h : build e = .ok messages) :
    ∃ f, filter e = .ok f ∧ messages = [f, request e.name, response e.name] := by
  unfold build at h
  split at h
  · cases h
  obtain ⟨f, hf, h⟩ := bind_eq_ok.mp h
  cases h
  exact ⟨f, hf, rfl⟩

end Listing

end Protograph
