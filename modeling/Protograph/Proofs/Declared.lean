/-
  Protograph.Proofs.Declared — the names that are declared in the scope of an entity's message.

  They are of three kinds: names of fields, of nested enumerations, and of the values of these,
  which protobuf puts in the scope around the enumeration (`Message.scopeNames`). While the
  message is built each kind is kept apart by itself. What is not looked at is a name of two
  kinds (`Entity.Unmixed`).

  Proved, for every entity:
  - `decides_buildMessages`: where nothing else is wrong with an entity, a message comes of it
    if no two names of one kind are the same, and otherwise a conflict of names. From there
    `exists_messages_iff`: of which entities messages come.
  - `Message.LaidOut.scopeNames_eq`: the names in the scope of the message are those that the
    entity declares.
  - `scope_distinct_iff`: so they are distinct if and only if no name is of two kinds; units
    that hold a message where one is cannot be put together.
  - `scope_mixed`: a field may have the name of its own enumeration.
-/

import Protograph.Proofs.Consistency
import Protograph.Proofs.Layout

namespace Protograph

/-! ## Names -/

/-- The names declared in the scope of a message: of its fields, its enumerations and their
    values. -/
def Message.scopeNames (m : Message) : List String :=
  m.fields.map (·.name) ++ (m.enums.map (·.name) ++ m.enums.flatMap fun e => e.values.map (·.name))

namespace FieldSpec

/-- The name of the enumeration that a field brings, if it does. -/
def typeNames (f : FieldSpec) : List String := if f.isEnum then [enumTypeName f.name] else []

/-- The names of the values of the enumeration that a field brings. -/
def valueNames (f : FieldSpec) : List String :=
  if f.isEnum then f.annotations.enumeration.toList.flatMap fun o => (Enumeration.values f o).map (·.name) else []

end FieldSpec

namespace Entity

def memberNames (e : Entity) : List String := e.ownFields.map (·.name) ++ e.keptEdges.map (·.name)

def typeNames (e : Entity) : List String := e.ownFields.flatMap (·.typeNames)

def valueNames (e : Entity) : List String := e.ownFields.flatMap (·.valueNames)

/-- No two names of one kind are the same. -/
structure KindsDistinct (e : Entity) : Prop where
  members : e.memberNames.Nodup
  types : e.typeNames.Nodup
  values : e.valueNames.Nodup

/-- No name is of two kinds. -/
structure Unmixed (e : Entity) : Prop where
  types : ∀ n ∈ e.memberNames, n ∉ e.typeNames
  values : ∀ n ∈ e.memberNames, n ∉ e.valueNames
  apart : ∀ n ∈ e.typeNames, n ∉ e.valueNames

end Entity

/-! ## Conflicts -/

/-- A step goes through under a condition and to a result of some kind, and is otherwise
    refused for a name that is taken. -/
inductive Decides {α : Type} (scope : String) (C : Prop) (Q : α → Prop) : Except EntityError α → Prop
  | ok {a : α} : C → Q a → Decides scope C Q (.ok a)
  | clash {name : String} : ¬ C → Decides scope C Q (.error (.nameConflict scope name))

namespace Decides

variable {α β : Type} {scope : String} {C C' : Prop} {Q : α → Prop} {Q' : β → Prop} {x : Except EntityError α}
  {f : α → Except EntityError β}

theorem congr (h : Decides scope C Q x) (hC : C ↔ C') : Decides scope C' Q x := by
  cases h with
  | ok hc hq => exact .ok (hC.mp hc) hq
  | clash hc => exact .clash (mt hC.mpr hc)

theorem bind (hx : Decides scope C Q x) (hf : ∀ a, x = .ok a → Q a → Decides scope C' Q' (f a)) :
    Decides scope (C ∧ C') Q' (x >>= f) := by
  cases hx with
  | clash hC => exact .clash fun h => hC h.1
  | ok hC hQ => exact (hf _ rfl hQ).congr (and_iff_right hC).symm

theorem imp {Q₂ : α → Prop} (h : Decides scope C Q x) (hQ : ∀ a, x = .ok a → Q a → Q₂ a) : Decides scope C Q₂ x := by
  cases h with
  | ok hc hq => exact .ok hc (hQ _ rfl hq)
  | clash hc => exact .clash hc

theorem conflict_iff (h : Decides scope C Q x) : (∃ name, x = .error (.nameConflict scope name)) ↔ ¬ C := by
  cases h with
  | ok hc _ => simp [hc]
  | clash hc => simp [hc]

theorem exists_ok_iff (h : Decides scope C Q x) : (∃ a, x = .ok a) ↔ C := by
  cases h with
  | ok hc _ => simp [hc]
  | clash hc => simp [hc]

end Decides

/-! ## Fields under way -/

def MessageDraft.typeNames (d : MessageDraft) : List String := d.enums.map (·.name)

/-- A draft that declares what another does and some further names. -/
structure MessageDraft.Declares (d d' : MessageDraft) (types values : List String) : Prop where
  types : d'.typeNames = d.typeNames ++ types
  values : d'.valueNames = d.valueNames ++ values

/-- An enumeration whose values have distinct names is nested if and only if its name and
    theirs are new. -/
theorem decides_nest {e : Enum} (hnodup : (e.values.map (·.name)).Nodup) (d : MessageDraft) (entity : String) :
    Decides entity (Fresh d.typeNames [e.name] ∧ Fresh d.valueNames (e.values.map (·.name)))
      (fun d' => d.Declares d' [e.name] (e.values.map (·.name))) (d.nest entity e) := by
  unfold MessageDraft.nest
  split
  · rename_i htaken
    refine .clash fun h => h.1.2 e.name List.mem_cons_self ?_
    simpa [MessageDraft.typeNames] using htaken
  rename_i hnew
  have hnew : Fresh d.typeNames [e.name] := by
    simpa [Fresh, MessageDraft.typeNames] using hnew
  split
  · rename_i v hv
    refine .clash fun h => h.2.2 v.name (List.mem_map.mpr ⟨v, List.mem_of_find?_eq_some hv, rfl⟩) ?_
    simpa using List.find?_some hv
  · rename_i hnone
    refine .ok ⟨hnew, hnodup, List.forall_mem_map.mpr fun v hv => ?_⟩ ⟨?_, ?_⟩
    · simpa using List.find?_eq_none.mp hnone v hv
    · simp [MessageDraft.typeNames]
    · simp [MessageDraft.valueNames]

/-- What a field must have to be added, apart from names that are new. -/
structure FieldSpec.Ready (entity : String) (f : FieldSpec) : Prop where
  typed : ∃ t, mapField entity f = .ok t
  enumerated : f.isEnum = true → ∃ e, Enumeration.build entity f = .ok e

theorem valueNames_of_build {entity : String} {f : FieldSpec} {e : Enum} (h : Enumeration.build entity f = .ok e)
    (hf : f.isEnum = true) : e.values.map (·.name) = f.valueNames ∧ f.valueNames.Nodup := by
  obtain ⟨options, hoptions, _, rfl, hnames⟩ := Enumeration.build_ok h
  have hvalues : f.valueNames = (Enumeration.values f options).map (·.name) := by
    simp [FieldSpec.valueNames, hf, hoptions]
  rw [hvalues]
  exact ⟨rfl, hnames⟩

theorem addField_of_enum {entity : String} {f : FieldSpec} {t : MappedType} {e : Enum} (ht : mapField entity f = .ok t)
    (henum : f.kind = .enumeration) (he : Enumeration.build entity f = .ok e) (d : MessageDraft) (n : Int) :
    d.addField entity f n = d.nest entity e >>= fun d' =>
      .ok { d' with fields := d'.fields ++ [t.toField f.name n], wrappers := d'.wrappers ++ [Enumeration.wrapper entity f] } := by
  unfold MessageDraft.addField
  simp only [ht, henum, if_true, he]
  rfl

theorem addField_of_plain {entity : String} {f : FieldSpec} {t : MappedType} (ht : mapField entity f = .ok t)
    (hplain : f.kind ≠ .enumeration) (d : MessageDraft) (n : Int) :
    d.addField entity f n = .ok { d with fields := d.fields ++ [t.toField f.name n] } := by
  unfold MessageDraft.addField
  simp only [ht, hplain, if_false]
  rfl

/-- A field is added if and only if the names that it brings are new. -/
theorem decides_addField {entity : String} {f : FieldSpec} (hf : f.Ready entity) (d : MessageDraft) (n : Int) :
    Decides entity (Fresh d.typeNames f.typeNames ∧ Fresh d.valueNames f.valueNames)
      (fun d' => d.Declares d' f.typeNames f.valueNames) (d.addField entity f n) := by
  obtain ⟨t, ht⟩ := hf.typed
  by_cases henum : f.isEnum = true
  · have hkind : f.kind = .enumeration := by simpa [FieldSpec.isEnum] using henum
    obtain ⟨e, he⟩ := hf.enumerated henum
    obtain ⟨hvalues, hnodup⟩ := valueNames_of_build he henum
    have htypes : f.typeNames = [e.name] := by
      rw [FieldSpec.typeNames, if_pos henum, Enumeration.name_of_build he]
    rw [addField_of_enum ht hkind he, htypes, ← hvalues]
    rw [← hvalues] at hnodup
    have hnest := decides_nest hnodup d entity
    exact (hnest.bind fun d' _ hd => .ok trivial ⟨hd.types, hd.values⟩).congr (and_iff_left trivial)
  · have hkind : f.kind ≠ .enumeration := by simpa [FieldSpec.isEnum] using henum
    rw [addField_of_plain ht hkind, FieldSpec.typeNames, FieldSpec.valueNames, if_neg henum, if_neg henum]
    exact .ok ⟨fresh_nil, fresh_nil⟩ ⟨(List.append_nil _).symm, (List.append_nil _).symm⟩

/-- What a field that is not the identifier must state: a number that it may have. -/
def FieldSpec.Numbered (f : FieldSpec) : Prop := ∃ n, f.number? = some n ∧ Pool.isFieldNumber n = true ∧ n ≠ 1

theorem decides_addDeclared {entity : String} {f : FieldSpec} (hf : f.Ready entity) (hn : f.Numbered) (d : MessageDraft) :
    Decides entity (Fresh d.typeNames f.typeNames ∧ Fresh d.valueNames f.valueNames)
      (fun d' => d.Declares d' f.typeNames f.valueNames) (MessageDraft.addDeclared entity d f) := by
  obtain ⟨n, hn, hallowed, hone⟩ := hn
  obtain ⟨options, hoptions, rfl⟩ := Option.map_eq_some_iff.mp hn
  have hcheck : checkNumber entity f.name options.number false = .ok options.number :=
    checkNumber_eq_ok.mpr ⟨rfl, hallowed, fun h => absurd h hone⟩
  unfold MessageDraft.addDeclared
  simp only [hoptions, hcheck]
  exact decides_addField hf d options.number

theorem MessageDraft.Declares.trans {d d' d'' : MessageDraft} {types values types' values' : List String}
    (h : d.Declares d' types values) (h' : d'.Declares d'' types' values') :
    d.Declares d'' (types ++ types') (values ++ values') := by
  constructor
  · rw [h'.types, h.types, List.append_assoc]
  · rw [h'.values, h.values, List.append_assoc]

/-- Fields are added if and only if all the names that they bring are new. -/
theorem decides_fields {entity : String} {fields : List FieldSpec} (hready : ∀ f ∈ fields, f.Ready entity)
    (hnumbered : ∀ f ∈ fields, f.Numbered) (d : MessageDraft) :
    Decides entity (Fresh d.typeNames (fields.flatMap (·.typeNames)) ∧ Fresh d.valueNames (fields.flatMap (·.valueNames)))
      (fun d' => d.Declares d' (fields.flatMap (·.typeNames)) (fields.flatMap (·.valueNames)))
      (fields.foldlM (MessageDraft.addDeclared entity) d) := by
  induction fields generalizing d with
  | nil => exact .ok ⟨fresh_nil, fresh_nil⟩ ⟨(List.append_nil _).symm, (List.append_nil _).symm⟩
  | cons f fields ih =>
    have hfirst := decides_addDeclared (hready f List.mem_cons_self) (hnumbered f List.mem_cons_self) d
    have hrest := fun next => ih (fun g hg => hready g (List.mem_cons_of_mem _ hg))
      (fun g hg => hnumbered g (List.mem_cons_of_mem _ hg)) next
    rw [List.foldlM_cons]
    simp only [List.flatMap_cons, fresh_append]
    refine (hfirst.bind fun next _ hnext => ?_).congr and_and_and_comm
    rw [← hnext.types, ← hnext.values]
    exact (hrest next).imp fun _ _ hd => hnext.trans hd

theorem decides_checkDistinct {scope : String} {seen fields : List Field}
    (hnumbers : Fresh (seen.map (·.number)) (fields.map (·.number))) :
    Decides scope (Fresh (seen.map (·.name)) (fields.map (·.name))) (fun _ => True) (checkDistinct scope seen fields) := by
  induction fields generalizing seen with
  | nil => exact .ok fresh_nil trivial
  | cons f fields ih =>
    rw [List.map_cons, fresh_cons] at hnumbers
    have hnew : seen.any (·.number = f.number) = false := by simpa using hnumbers.1
    unfold checkDistinct
    rw [hnew, List.map_cons, fresh_cons]
    by_cases hname : f.name ∈ seen.map (·.name)
    · have htaken : seen.any (·.name = f.name) = true := by simpa using hname
      simp only [htaken]
      exact .clash fun h => h.1 hname
    · have hfree : seen.any (·.name = f.name) = false := by simpa using hname
      simp only [hfree]
      have hrest : Decides scope (Fresh ((f :: seen).map (·.name)) (fields.map (·.name))) (fun _ => True)
          (checkDistinct scope (f :: seen) fields) := ih hnumbers.2
      exact hrest.congr (and_iff_right hname).symm

theorem decides_checkFields {m : Message} (hnumbers : (m.fields.map (·.number)).Nodup) :
    Decides m.name (m.fields.map (·.name)).Nodup (fun _ => True) m.checkFields := by
  have hall : Decides m.name (Fresh (([] : List Field).map (·.name)) (m.fields.map (·.name))) (fun _ => True)
      m.checkFields := decides_checkDistinct (fresh_of_none_seen.mpr hnumbers)
  exact hall.congr fresh_of_none_seen

/-! ## Whole messages -/

/-- Everything that a message asks of its entity, apart from names that are distinct. -/
structure Entity.Ready (e : Entity) (package : String) (graph : Graph) (packages : Table String) : Prop where
  kept : e.id.isSkipped = false
  identifier : ∃ n, e.idNumber = .ok n
  fields : ∀ f ∈ e.ownFields, f.Ready e.name
  numbered : ∀ f ∈ e.keptFields, f.Numbered
  edges : ∀ x ∈ e.keptEdges, ∃ f, resolveEdge e.name package x graph packages = .ok f
  numbers : (e.slots.map (·.2)).Nodup

theorem memberNames_eq (e : Entity) : e.memberNames = e.slots.map (·.1) := by
  simp [Entity.memberNames, Entity.slots, Entity.ownFields, Function.comp_def]

theorem names_of_slots {e : Entity} {fields : List Field} (h : fields.map Field.slot = e.slots) :
    fields.map (·.name) = e.memberNames := by
  rw [memberNames_eq, ← h, List.map_map]
  rfl

theorem numbers_of_slots {e : Entity} {fields : List Field} (h : fields.map Field.slot = e.slots) :
    (e.slots.map (·.2)).Nodup ↔ (fields.map (·.number)).Nodup := by
  have hmap : e.slots.map (·.2) = (fields.map (·.number)).map some := by
    rw [← h, List.map_map, List.map_map]
    rfl
  rw [hmap, List.nodup_map_iff fun _ _ heq => Option.some.inj heq]

/-- What the fields of an entity bring is distinct if the identifier brings it first, and then
    the others what is new. -/
theorem nodup_ownFields_iff {e : Entity} (names : FieldSpec → List String) :
    (e.ownFields.flatMap names).Nodup ↔
      Fresh [] (names e.id) ∧ Fresh (names e.id) (e.keptFields.flatMap names) := by
  rw [← fresh_of_none_seen, Entity.ownFields, List.flatMap_cons, fresh_append, List.nil_append]

theorem kindsDistinct_iff {e : Entity} :
    e.KindsDistinct ↔ (Fresh [] e.id.typeNames ∧ Fresh [] e.id.valueNames) ∧
      (Fresh e.id.typeNames (e.keptFields.flatMap (·.typeNames)) ∧
        Fresh e.id.valueNames (e.keptFields.flatMap (·.valueNames))) ∧ e.memberNames.Nodup := by
  constructor
  · intro h
    obtain ⟨hid, hkept⟩ := (nodup_ownFields_iff _).mp h.types
    obtain ⟨hid', hkept'⟩ := (nodup_ownFields_iff _).mp h.values
    exact ⟨⟨hid, hid'⟩, ⟨hkept, hkept'⟩, h.members⟩
  · intro hparts
    obtain ⟨⟨hid, hid'⟩, ⟨hkept, hkept'⟩, hmembers⟩ := hparts
    exact ⟨hmembers, (nodup_ownFields_iff _).mpr ⟨hid, hkept⟩, (nodup_ownFields_iff _).mpr ⟨hid', hkept'⟩⟩

/-- A message comes of an entity with which nothing else is wrong if no two names of one kind
    are the same, and a conflict of names otherwise. -/
theorem decides_buildMessages {e : Entity} {package : String} {graph : Graph} {packages : Table String}
    (h : e.Ready package graph packages) :
    Decides e.name e.KindsDistinct (fun _ => True) (buildMessages e package graph packages) := by
  obtain ⟨n, hn⟩ := h.identifier
  obtain ⟨edges, hedges⟩ := exists_mapM_iff.mpr h.edges
  have hid := decides_addField (h.fields e.id List.mem_cons_self) {} n
  unfold buildMessages
  rw [h.kept, hn]
  refine ((hid.bind fun d0 hd0 hdeclares => ?_).congr kindsDistinct_iff.symm)
  have htypes : d0.typeNames = e.id.typeNames := hdeclares.types
  have hvalues : d0.valueNames = e.id.valueNames := hdeclares.values
  have hkept := decides_fields (fun f hf => h.fields f (List.mem_cons_of_mem _ hf)) h.numbered d0
  rw [htypes, hvalues] at hkept
  refine hkept.bind fun d hd _ => ?_
  rw [hedges]
  have hslots := (slots_of_draft hn hd0 hd (mapM_eq_ok.mp hedges)).1
  have hnumbers := (numbers_of_slots hslots).mp h.numbers
  rw [← names_of_slots hslots]
  have hcheck := decides_checkFields (m := { name := e.name, fields := d.fields ++ edges, enums := d.enums }) hnumbers
  exact (hcheck.bind fun _ _ _ => .ok trivial trivial).congr (and_iff_left trivial)

theorem isFieldNumber_of_slot {m : Message} {e : Entity} (h : m.LaidOut e) {name : String} {number : Option Int}
    (hslot : (name, number) ∈ e.slots.tail) : ∃ n, number = some n ∧ Pool.isFieldNumber n = true ∧ n ≠ 1 := by
  rw [← h.slots, ← List.map_tail] at hslot
  obtain ⟨f, hf, hslot⟩ := List.mem_map.mp hslot
  cases hslot
  exact ⟨f.number, rfl, isFieldNumber_iff_allowed.mpr (h.allowed f (List.mem_of_mem_tail hf)), h.identifier f hf⟩

/-- An entity of which a message comes is ready for it. -/
theorem ready_of_buildMessages {e : Entity} {package : String} {graph : Graph} {packages : Table String}
    {messages : List Message} (h : buildMessages e package graph packages = .ok messages) :
    e.Ready package graph packages := by
  obtain ⟨fields, edges, enums, _, hfields, hedges, henums, _⟩ := buildMessages_ok h
  obtain ⟨m, _, hlaid⟩ := buildMessages_layout h
  obtain ⟨hkept, n, _, _, _, hn, _⟩ := steps_of_buildMessages h
  refine ⟨hkept, ⟨n, hn⟩, fun f hf => ⟨?_, fun henum => ?_⟩, fun f hf => ?_, fun x hx => ?_,
    (numbers_of_slots hlaid.slots).mpr hlaid.numbers⟩
  · obtain ⟨_, _, t, _, ht, _⟩ := exists_of_forall₂_left hfields hf
    exact ⟨t, ht⟩
  · obtain ⟨en, _, hbuild⟩ := exists_of_forall₂_left henums (List.mem_filter.mpr ⟨hf, henum⟩)
    exact ⟨en, hbuild⟩
  · have hslot : (f.name, f.number?) ∈ e.slots.tail := List.mem_append_left _ (List.mem_map.mpr ⟨f, hf, rfl⟩)
    exact isFieldNumber_of_slot hlaid hslot
  · obtain ⟨field, _, hedge⟩ := exists_of_forall₂_left hedges hx
    exact ⟨field, hedge⟩

/-- A message comes of an entity exactly if the entity is ready for it and no two names of one
    kind are the same. -/
theorem exists_messages_iff {e : Entity} {package : String} {graph : Graph} {packages : Table String} :
    (∃ messages, buildMessages e package graph packages = .ok messages) ↔
      e.Ready package graph packages ∧ e.KindsDistinct := by
  constructor
  · rintro ⟨messages, h⟩
    have hready := ready_of_buildMessages h
    exact ⟨hready, (decides_buildMessages hready).exists_ok_iff.mp ⟨messages, h⟩⟩
  · rintro ⟨hready, hkinds⟩
    exact (decides_buildMessages hready).exists_ok_iff.mpr hkinds

/-! ## Scopes -/

/-- What only the kept of some things bring. -/
theorem flatMap_filter {α β : Type} {p : α → Bool} {f g : α → List β} (hkept : ∀ x, p x = true → f x = g x)
    (hnone : ∀ x, p x = false → g x = []) (xs : List α) : (xs.filter p).flatMap f = xs.flatMap g := by
  induction xs with
  | nil => rfl
  | cons x xs ih =>
    cases hx : p x with
    | true => rw [List.filter_cons_of_pos hx, List.flatMap_cons, List.flatMap_cons, ih, hkept x hx]
    | false => rw [List.filter_cons_of_neg (by simp [hx]), List.flatMap_cons, ih, hnone x hx, List.nil_append]

namespace Message.LaidOut

variable {m : Message} {e : Entity}

theorem typeNames (h : m.LaidOut e) : m.enums.map (·.name) = e.typeNames := by
  rw [map_eq_of_forall₂ (h.enums.imp fun _ _ hbuild => hbuild.2), List.map_eq_flatMap]
  refine flatMap_filter (fun f hf => ?_) (fun f hf => ?_) e.ownFields
  · rw [FieldSpec.typeNames, if_pos hf]
  · rw [FieldSpec.typeNames, if_neg (by simp [hf])]

theorem valueNames (h : m.LaidOut e) : (m.enums.flatMap fun en => en.values.map (·.name)) = e.valueNames := by
  have hvalues : m.enums.map (fun en => en.values.map (·.name)) = e.enumFields.map (·.valueNames) := by
    refine map_eq_of_forall₂ ((forall₂_mem h.enums).imp ?_)
    rintro f en ⟨hf, _, hbuild, _⟩
    exact (valueNames_of_build hbuild (List.mem_filter.mp hf).2).1
  rw [List.flatMap_def, hvalues, ← List.flatMap_def]
  refine flatMap_filter (fun _ _ => rfl) (fun f hf => ?_) e.ownFields
  rw [FieldSpec.valueNames, if_neg (by simp [hf])]

/-- The names in the scope of the message are those that the entity declares. -/
theorem scopeNames_eq (h : m.LaidOut e) : m.scopeNames = e.memberNames ++ (e.typeNames ++ e.valueNames) := by
  rw [Message.scopeNames, names_of_slots h.slots, h.typeNames, h.valueNames]

end Message.LaidOut

theorem Entity.nodup_iff_unmixed {e : Entity} (h : e.KindsDistinct) :
    (e.memberNames ++ (e.typeNames ++ e.valueNames)).Nodup ↔ e.Unmixed := by
  rw [List.nodup_append', List.nodup_append', List.disjoint_append_right]
  constructor
  · rintro ⟨_, ⟨_, _, hapart⟩, htypes, hvalues⟩
    exact ⟨fun n hn hn' => htypes hn hn', fun n hn hn' => hvalues hn hn', fun n hn hn' => hapart hn hn'⟩
  · intro hunmixed
    exact ⟨h.members, ⟨h.types, h.values, fun n hn hn' => hunmixed.apart n hn hn'⟩,
      fun n hn hn' => hunmixed.types n hn hn', fun n hn hn' => hunmixed.values n hn hn'⟩

/-- The names of a message's fields, of its enumerations and of their values are declared in
    its scope. -/
theorem Message.scopeNames_subperm (m : Message) (scope : String) :
    List.Subperm (m.scopeNames.map (qualify (qualify scope m.name))) (m.declared scope) := by
  obtain ⟨name, fields, enums, nested⟩ := m
  have hdeclared : ∀ en ∈ enums, (en.name :: en.values.map (·.name)).map (qualify (qualify scope name)) =
      en.declared (qualify scope name) := by
    simp [Enum.declared, Function.comp_def]
  -- An enumeration declares its name and then its values; the scope has all values last.
  have henums := (List.map_append_flatMap_perm enums (·.name) fun en => en.values.map (·.name)).map
    (qualify (qualify scope name))
  rw [List.map_flatMap, List.flatMap_congr hdeclared] at henums
  unfold Message.declared Message.scopeNames
  rw [List.map_append, List.map_map]
  have hall := (List.Perm.refl (fields.map fun f => qualify (qualify scope name) f.name)).append henums
  refine hall.subperm.trans (List.Sublist.subperm (List.Sublist.cons _ ?_))
  exact (List.Sublist.refl _).append (List.sublist_append_right _ _)

namespace Assembly

/-- In units that can be put together, all names in the scope of a message are distinct. -/
theorem nodup_scopeNames {units : List PackageUnit} {set : DescriptorSet} (hpaths : (units.map (·.path)).Nodup)
    (h : assemble units = .ok set) {u : PackageUnit} (hu : u ∈ units) {m : Message} (hm : m ∈ u.messages) :
    m.scopeNames.Nodup := by
  obtain ⟨_, _, hfits⟩ := exists_assembled_iff.mp ⟨set, h⟩
  rw [filesOf_eq hpaths] at hfits
  have hfile : u.toFile ∈ WellKnown.files ++ units.map (·.toFile) :=
    List.mem_append_right _ (List.mem_map.mpr ⟨u, hu, rfl⟩)
  have hdeclared : (m.declared u.package).Nodup := nodup_message (Pool.nodup_declared hfits.accepted hfile) hm
  obtain ⟨names, hperm, hsublist⟩ := m.scopeNames_subperm u.package
  exact (hperm.nodup_iff.mp (hdeclared.sublist hsublist)).of_map

end Assembly

/-- The names in the scope of a message that is built are distinct if and only if no name is of
    two kinds. Otherwise nothing keeps the message from being built, and units that hold it
    cannot be put together. Names of one kind that are the same keep the message from being
    built, and where nothing else does they are the entity's own conflict. -/
theorem scope_distinct_iff (e : Entity) (package : String) (graph : Graph) (packages : Table String) :
    (∀ m wrappers, buildMessages e package graph packages = .ok (m :: wrappers) →
      (m.scopeNames.Nodup ↔ e.Unmixed) ∧
      (¬ e.Unmixed → ∀ units : List PackageUnit, (units.map (·.path)).Nodup → ∀ u ∈ units, m ∈ u.messages →
        ∃ err, assemble units = .error err)) ∧
    ((∃ messages, buildMessages e package graph packages = .ok messages) ↔
      e.Ready package graph packages ∧ e.KindsDistinct) ∧
    (e.Ready package graph packages →
      ((∃ name, buildMessages e package graph packages = .error (.nameConflict e.name name)) ↔ ¬ e.KindsDistinct)) := by
  refine ⟨fun m wrappers h => ?_, exists_messages_iff, fun hready => (decides_buildMessages hready).conflict_iff⟩
  obtain ⟨_, hkinds⟩ := exists_messages_iff.mp ⟨_, h⟩
  obtain ⟨_, heq, hlaid⟩ := buildMessages_layout h
  obtain ⟨rfl, -⟩ := List.cons.inj heq
  have hdistinct : m.scopeNames.Nodup ↔ e.Unmixed := by
    rw [hlaid.scopeNames_eq]
    exact Entity.nodup_iff_unmixed hkinds
  refine ⟨hdistinct, fun hmixed units hpaths u hu hm => ?_⟩
  cases hset : assemble units with
  | error err => exact ⟨err, rfl⟩
  | ok set => exact absurd (hdistinct.mp (Assembly.nodup_scopeNames hpaths hset hu hm)) hmixed

/-- An enumeration of one value, which comes after the unspecified one. -/
def statusField (name : String) (number : Int) : FieldSpec :=
  { name, kind := .enumeration, values := ["open"]
    annotations := { field := some { number }, enumeration := some { numbers := [("open", 1)] } } }

/-- An entity with a field that has the name of its enumeration. -/
def orderEntity : Entity := { name := "Order", fields := [statusField "Status" 2] }

def orderGraph : Graph := ⟨[orderEntity], by decide⟩

/-- An entity with two enumerations of one name. -/
def doubledEntity : Entity := { name := "Order", fields := [statusField "status" 2, statusField "Status" 3] }

def doubledGraph : Graph := ⟨[doubledEntity], by decide⟩

theorem ready_doubledEntity : doubledEntity.Ready "app" doubledGraph [("Order", "app")] := by
  have hready : ∀ name n, (mapField "Order" (statusField name n)).toOption.any (fun _ => true) = true →
      (Enumeration.build "Order" (statusField name n)).toOption.any (fun _ => true) = true →
        (statusField name n).Ready "Order" := by
    intro name n htyped henumerated
    obtain ⟨t, ht, _⟩ := exists_ok_of_any htyped
    obtain ⟨e, he, _⟩ := exists_ok_of_any henumerated
    exact ⟨⟨t, ht⟩, fun _ => ⟨e, he⟩⟩
  have hid : doubledEntity.id.Ready "Order" := ⟨⟨_, rfl⟩, fun henum => by cases henum⟩
  have hlower := hready "status" 2 (by decide +kernel) (by decide +kernel)
  have hupper := hready "Status" 3 (by decide +kernel) (by decide +kernel)
  refine ⟨rfl, ⟨1, rfl⟩, ?_, ?_, by simp [doubledEntity, Entity.keptEdges], by decide +kernel⟩
  · show ∀ f ∈ [doubledEntity.id, statusField "status" 2, statusField "Status" 3], f.Ready "Order"
    simp only [List.forall_mem_cons]
    exact ⟨hid, hlower, hupper, by simp⟩
  · show ∀ f ∈ [statusField "status" 2, statusField "Status" 3], f.Numbered
    simp only [List.forall_mem_cons]
    exact ⟨⟨2, rfl, by decide⟩, ⟨3, rfl, by decide⟩, by simp⟩

theorem buildMessages_orderEntity :
    ∃ m wrappers, buildMessages orderEntity "app" orderGraph [("Order", "app")] = .ok (m :: wrappers) := by
  have hbuild : (buildMessages orderEntity "app" orderGraph [("Order", "app")]).toOption.any (fun _ => true) = true := by
    decide +kernel
  obtain ⟨messages, h, _⟩ := exists_ok_of_any hbuild
  obtain ⟨m, rfl, _⟩ := buildMessages_layout h
  exact ⟨m, _, h⟩

theorem mixed_orderEntity : ¬ orderEntity.Unmixed := by
  intro h
  exact h.types "Status" (by decide +kernel) (by decide +kernel)

theorem scope_distinct_iff_orderEntity :
    (∃ m wrappers, buildMessages orderEntity "app" orderGraph [("Order", "app")] = .ok (m :: wrappers) ∧
      ¬ m.scopeNames.Nodup ∧ ∃ err, assemble [{ package := "app", messages := m :: wrappers }] = .error err) ∧
    ∃ name, buildMessages doubledEntity "app" doubledGraph [("Order", "app")] = .error (.nameConflict "Order" name) := by
  constructor
  · obtain ⟨m, wrappers, h⟩ := buildMessages_orderEntity
    obtain ⟨hdistinct, hfails⟩ := (scope_distinct_iff orderEntity "app" orderGraph [("Order", "app")]).1 m wrappers h
    refine ⟨m, wrappers, h, mt hdistinct.mp mixed_orderEntity, ?_⟩
    exact hfails mixed_orderEntity [_] (List.nodup_singleton _) _ (List.mem_singleton_self _) List.mem_cons_self
  · have hsame : ¬ doubledEntity.typeNames.Nodup := by decide +kernel
    have hconflict := (scope_distinct_iff doubledEntity "app" doubledGraph [("Order", "app")]).2.2 ready_doubledEntity
    exact hconflict.mpr fun hkinds => hsame hkinds.types

/-- The names in the scope of a message that is built need not be distinct. -/
theorem scope_mixed : ¬ ∀ (e : Entity) (package : String) (graph : Graph) (packages : Table String) (m : Message)
    (wrappers : List Message), buildMessages e package graph packages = .ok (m :: wrappers) → m.scopeNames.Nodup := by
  intro hall
  obtain ⟨m, wrappers, h⟩ := buildMessages_orderEntity
  obtain ⟨_, heq, hlaid⟩ := buildMessages_layout h
  obtain ⟨rfl, -⟩ := List.cons.inj heq
  have hscope : ¬ (orderEntity.memberNames ++ (orderEntity.typeNames ++ orderEntity.valueNames)).Nodup := by decide +kernel
  exact hscope (hlaid.scopeNames_eq ▸ hall _ _ _ _ _ _ h)

end Protograph
