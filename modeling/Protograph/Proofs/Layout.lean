/-
  Protograph.Proofs.Layout — where the fields, enumerations and wrappers of an entity's
  message stand.

  The message of an entity has a slot for its identifier, for each kept field and for each
  kept edge, in this order (`Entity.slots`): a name and the number that the schema states. An
  identifier that states none has number 1.

  Proved, for all entities whose messages are built:
  - `addField_fields`, `addDeclared_fields`: what a field adds to the fields under way; from
    there, by induction over the kept fields, `fields_of_declared`.
  - `buildMessages_layout`: the fields of the message fill the slots, with distinct names and
    with distinct numbers that protobuf allows, of which the identifier alone may have
    number 1. Each field that is an enumeration gives one nested enumeration and one wrapper
    after the message, in the order of the fields.
-/

import Protograph.Proofs.EntityMessage

namespace Protograph

/-! ## Slots -/

/-- The number that a field states. -/
def FieldSpec.number? (f : FieldSpec) : Option Int := f.annotations.field.map (·.number)

/-- The number that an edge states. -/
def EdgeSpec.number? (x : EdgeSpec) : Option Int := x.annotations.field.map (·.number)

namespace Entity

/-- The names and numbers of the identifier, the kept fields and the kept edges. -/
def slots (e : Entity) : List (String × Option Int) :=
  (e.id.name, some (e.id.number?.getD identifierNumber)) ::
    (e.keptFields.map (fun f => (f.name, f.number?)) ++ e.keptEdges.map (fun x => (x.name, x.number?)))

/-- The fields of the message that are enumerations. -/
def enumFields (e : Entity) : List FieldSpec := e.ownFields.filter (·.isEnum)

end Entity

/-- The slot that a field fills. -/
def Field.slot (f : Field) : String × Option Int := (f.name, some f.number)

/-! ## Fields -/

theorem idNumber_eq_ok {e : Entity} {n : Int} (h : e.idNumber = .ok n) : n = e.id.number?.getD identifierNumber := by
  unfold Entity.idNumber at h
  unfold FieldSpec.number?
  split at h
  · rename_i options hoptions
    obtain ⟨rfl, _, _⟩ := checkNumber_eq_ok.mp h
    rw [hoptions]
    rfl
  · rename_i hnone
    cases h
    rw [hnone]
    rfl

theorem addField_fields {d d' : MessageDraft} {entity : String} {spec : FieldSpec} {n : Int}
    (h : d.addField entity spec n = .ok d') : ∃ f, d'.fields = d.fields ++ [f] ∧ f.slot = (spec.name, some n) := by
  unfold MessageDraft.addField at h
  obtain ⟨t, _, h⟩ := bind_eq_ok.mp h
  dsimp only at h
  split at h
  · obtain ⟨_, _, h⟩ := bind_eq_ok.mp h
    obtain ⟨_, hnest, h⟩ := bind_eq_ok.mp h
    cases h
    rw [nest_ok hnest]
    exact ⟨_, rfl, rfl⟩
  · cases h
    exact ⟨_, rfl, rfl⟩

/-- A field that is not the identifier has the number that it states, and not number 1. -/
theorem addDeclared_fields {d d' : MessageDraft} {entity : String} {spec : FieldSpec}
    (h : MessageDraft.addDeclared entity d spec = .ok d') :
    ∃ f, d'.fields = d.fields ++ [f] ∧ f.slot = (spec.name, spec.number?) ∧ f.number ≠ 1 := by
  unfold MessageDraft.addDeclared at h
  split at h
  · cases h
  rename_i options hoptions
  obtain ⟨n, hn, h⟩ := bind_eq_ok.mp h
  obtain ⟨rfl, _, hid⟩ := checkNumber_eq_ok.mp hn
  obtain ⟨f, hfields, hslot⟩ := addField_fields h
  refine ⟨f, hfields, ?_, fun h1 => ?_⟩
  · rw [hslot, FieldSpec.number?, hoptions]
    rfl
  · have hnumber : f.number = options.number := Option.some.inj (congrArg Prod.snd hslot)
    simpa using hid (hnumber ▸ h1)

/-- Fields under way after some declared ones: those before, and one for each of these. -/
theorem fields_of_declared {d d' : MessageDraft} {entity : String} {specs : List FieldSpec}
    (h : specs.foldlM (MessageDraft.addDeclared entity) d = .ok d') :
    ∃ fields, d'.fields = d.fields ++ fields ∧ fields.map Field.slot = specs.map (fun s => (s.name, s.number?)) ∧
      ∀ f ∈ fields, f.number ≠ 1 := by
  induction specs generalizing d with
  | nil =>
    rw [foldlM_nil_eq_ok] at h
    subst h
    exact ⟨[], (List.append_nil _).symm, rfl, by simp⟩
  | cons spec specs ih =>
    obtain ⟨next, hnext, hrest⟩ := foldlM_cons_eq_ok.mp h
    obtain ⟨f, hf, hslot, hone⟩ := addDeclared_fields hnext
    obtain ⟨fields, hfields, hslots, hones⟩ := ih hrest
    refine ⟨f :: fields, ?_, ?_, List.forall_mem_cons.mpr ⟨hone, hones⟩⟩
    · rw [hfields, hf, List.append_assoc, List.singleton_append]
    · rw [List.map_cons, List.map_cons, hslot, hslots]

theorem slots_of_edges {entity package : String} {graph : Graph} {packages : Table String} {specs : List EdgeSpec}
    {edges : List Field} (h : List.Forall₂ (fun x f => resolveEdge entity package x graph packages = .ok f) specs edges) :
    edges.map Field.slot = specs.map (fun x => (x.name, x.number?)) := by
  refine map_eq_of_forall₂ (h.imp fun x f hedge => ?_)
  obtain ⟨options, q, hoptions, _, _, _, rfl⟩ := resolveEdge_ok hedge
  simp only [Field.slot, EdgeSpec.number?, hoptions, Option.map_some]

theorem ne_one_of_edges {entity package : String} {graph : Graph} {packages : Table String} {specs : List EdgeSpec}
    {edges : List Field} (h : List.Forall₂ (fun x f => resolveEdge entity package x graph packages = .ok f) specs edges) :
    ∀ f ∈ edges, f.number ≠ 1 := by
  intro f hf
  obtain ⟨x, _, hedge⟩ := exists_of_forall₂_right h hf
  obtain ⟨options, q, _, _, hone, _, rfl⟩ := resolveEdge_ok hedge
  exact hone

/-- The fields under way, and those of the edges after them, fill the slots of the entity. -/
theorem slots_of_draft {e : Entity} {package : String} {graph : Graph} {packages : Table String} {n : Int}
    {d0 d : MessageDraft} {edges : List Field} (hn : e.idNumber = .ok n)
    (hd0 : MessageDraft.addField {} e.name e.id n = .ok d0)
    (hd : e.keptFields.foldlM (MessageDraft.addDeclared e.name) d0 = .ok d)
    (hedges : List.Forall₂ (fun x f => resolveEdge e.name package x graph packages = .ok f) e.keptEdges edges) :
    (d.fields ++ edges).map Field.slot = e.slots ∧ ∀ f ∈ (d.fields ++ edges).tail, f.number ≠ 1 := by
  obtain ⟨id, hid, hidslot⟩ := addField_fields hd0
  obtain ⟨fields, hfields, hslots, hones⟩ := fields_of_declared hd
  have hall : d.fields ++ edges = id :: (fields ++ edges) := by
    rw [hfields, hid]
    rfl
  rw [hall]
  constructor
  · rw [List.map_cons, List.map_append, hidslot, hslots, slots_of_edges hedges, idNumber_eq_ok hn]
    rfl
  · exact List.forall_mem_append.mpr ⟨hones, ne_one_of_edges hedges⟩

/-- The fields of a message that is built fill the slots of the entity. -/
theorem fields_of_buildMessages {e : Entity} {package : String} {graph : Graph} {packages : Table String}
    {m : Message} {wrappers : List Message} (h : buildMessages e package graph packages = .ok (m :: wrappers)) :
    m.fields.map Field.slot = e.slots ∧ ∀ f ∈ m.fields.tail, f.number ≠ 1 := by
  obtain ⟨_, n, d0, d, edges, hn, hd0, hd, hedges, _, hmessages⟩ := steps_of_buildMessages h
  cases hmessages
  exact slots_of_draft hn hd0 hd hedges

/-! ## Messages -/

theorem Enumeration.name_of_build {entity : String} {field : FieldSpec} {e : Enum} (h : build entity field = .ok e) :
    e.name = enumTypeName field.name := by
  obtain ⟨_, _, _, rfl, _⟩ := build_ok h
  rfl

/-- A message has what its entity has, in the same order. -/
structure Message.LaidOut (m : Message) (e : Entity) : Prop where
  name : m.name = e.name
  flat : m.nested = []
  slots : m.fields.map Field.slot = e.slots
  enums : List.Forall₂ (fun spec en => Enumeration.build e.name spec = .ok en ∧ en.name = enumTypeName spec.name)
    e.enumFields m.enums
  names : (m.fields.map (·.name)).Nodup
  numbers : (m.fields.map (·.number)).Nodup
  allowed : ∀ f ∈ m.fields, (1 ≤ f.number ∧ f.number ≤ 536870911) ∧ ¬ (19000 ≤ f.number ∧ f.number ≤ 19999)
  /-- The identifier stands first. -/
  identifier : ∀ f ∈ m.fields.tail, f.number ≠ 1

theorem isFieldNumber_iff_allowed {n : Int} :
    Pool.isFieldNumber n = true ↔ (1 ≤ n ∧ n ≤ 536870911) ∧ ¬ (19000 ≤ n ∧ n ≤ 19999) := by
  rw [isFieldNumber_iff]
  simp [isReservedNumber, maxFieldNumber]

/-- The messages of an entity are the one that is laid out as the entity is, and after it one
    wrapper for each of its fields that are enumerations. -/
theorem buildMessages_layout {e : Entity} {package : String} {graph : Graph} {packages : Table String}
    {messages : List Message} (h : buildMessages e package graph packages = .ok messages) :
    ∃ m, messages = m :: e.enumFields.map (Enumeration.wrapper e.name) ∧ m.LaidOut e := by
  obtain ⟨fields, edges, enums, rfl, hfields, hedges, henums, hnumbers, hnames⟩ := buildMessages_ok h
  obtain ⟨hslots, hidentifier⟩ := fields_of_buildMessages h
  have hnamed := henums.imp fun _ _ hbuild => And.intro hbuild (Enumeration.name_of_build hbuild)
  refine ⟨_, rfl, rfl, rfl, hslots, hnamed, hnames, hnumbers, ?_, hidentifier⟩
  intro f hf
  refine isFieldNumber_iff_allowed.mp ?_
  rcases List.mem_append.mp hf with hf | hf
  · obtain ⟨_, _, t, n, _, hn, rfl⟩ := exists_of_forall₂_right hfields hf
    exact hn
  · obtain ⟨_, _, hedge⟩ := exists_of_forall₂_right hedges hf
    obtain ⟨_, _, _, hn, _, _, rfl⟩ := resolveEdge_ok hedge
    exact hn

/-- An entity whose identifier has another number than 1, with a skipped field, two
    enumerations and an edge. -/
def memberEntity : Entity :=
  { name := "Member"
    id := { name := "id", kind := .int64, annotations := { field := some { number := 7 } } }
    fields :=
      [{ name := "state", kind := .enumeration, values := ["active"]
         annotations := { field := some { number := 3 }, enumeration := some { numbers := [("active", 1)] } } },
       { name := "secret", kind := .other, annotations := { skip := true } },
       { name := "role", kind := .enumeration, optional := true, values := ["owner"], default := some "owner"
         annotations := { field := some { number := 2 }, enumeration := some { numbers := [("owner", 0)] } } }]
    edges := [{ name := "team", target := "Team", unique := true, annotations := { field := some { number := 5 } } }] }

def memberGraph : Graph := ⟨[memberEntity, { name := "Team" }], by decide⟩

theorem buildMessages_layout_memberEntity : ∃ m,
    buildMessages memberEntity "app" memberGraph [("Member", "app"), ("Team", "app")] =
      .ok [m, Enumeration.wrapper "Member" (memberEntity.fields.getD 0 memberEntity.id),
        Enumeration.wrapper "Member" (memberEntity.fields.getD 2 memberEntity.id)] ∧
    m.fields.map Field.slot = [("id", some 7), ("state", some 3), ("role", some 2), ("team", some 5)] ∧
    m.LaidOut memberEntity := by
  have hbuild : (buildMessages memberEntity "app" memberGraph [("Member", "app"), ("Team", "app")]).toOption.any
      (fun _ => true) = true := by decide +kernel
  obtain ⟨messages, h, _⟩ := exists_ok_of_any hbuild
  obtain ⟨m, rfl, hlaid⟩ := buildMessages_layout h
  exact ⟨m, h, hlaid.slots, hlaid⟩

end Protograph
