/-
  Protograph.Proofs.EntityMessage — what a successful build of an entity's message goes
  through (`buildMessages_ok`).

  The fields of the message are those of the identifier, of the kept fields and of the kept
  edges, in this order, each with a number that protobuf allows (`checkNumber_eq_ok`). The
  fields that are enumerations give the nested enumerations and, one for each, the wrappers
  after the message. While fields are added a draft stays in step with what was added
  (`Drafted`).
-/

import Protograph.Compile.EntityMessage
import Protograph.Descriptor.Pool
import Protograph.Proofs.Enumeration
import Protograph.Proofs.Steps

namespace Protograph

/-! ## Types and numbers -/

/-- A field type that a descriptor may have: no group, and named exactly where a message or
    an enumeration is meant. -/
def MappedType.Proper (t : MappedType) : Prop := t.type ≠ .group ∧ (t.type.isNamed = true ↔ t.typeName.isSome = true)

theorem MappedType.proper_message (name : String) : (MappedType.message name).Proper :=
  ⟨fun h => (by cases h), fun _ => rfl, fun _ => rfl⟩

theorem MappedType.proper_enumeration (name : String) : (MappedType.enumeration name).Proper :=
  ⟨fun h => (by cases h), fun _ => rfl, fun _ => rfl⟩

theorem MappedType.proper_asRepeated {t : MappedType} (h : t.Proper) : t.asRepeated.Proper := h

theorem proper_scalar {k : Kind} {t : FieldType} (h : k.scalar? = some t) : (MappedType.scalar t).Proper := by
  cases k <;> cases h <;> exact ⟨by decide, by decide⟩

theorem proper_mapShape (s : Shape) : (mapShape s).Proper := by cases s <;> exact ⟨by decide, by decide⟩

theorem proper_of_mapKind {field : String} {kind : Kind} {optional : Bool} {t : MappedType}
    (h : mapKind field kind optional = .ok t) : t.Proper := by
  unfold mapKind at h
  split at h
  · cases h; exact MappedType.proper_message _
  split at h
  · split at h
    · cases h; exact MappedType.proper_message _
    · cases h
  · split at h
    · rename_i hs; cases h; exact proper_scalar hs
    · cases h

theorem proper_of_checkOverride {element : String} {type : FieldType} {name : Option String} {t : MappedType}
    (h : checkOverride element type name = .ok t) : t.Proper := by
  by_cases hg : type = .group
  · subst hg; cases h
  unfold checkOverride at h
  split at h
  · exact absurd rfl hg
  · split at h
    · rename_i hn; cases h; exact ⟨hg, by simp [hn]⟩
    · cases h
  · split at h
    · cases h
    · rename_i hn; cases h; exact ⟨hg, by simp [MappedType.scalar, hn]⟩

theorem proper_of_mapField {entity : String} {field : FieldSpec} {t : MappedType} (h : mapField entity field = .ok t) :
    t.Proper := by
  unfold mapField at h
  split at h
  · exact proper_of_checkOverride h
  split at h
  · split at h
    · cases h; exact MappedType.proper_message _
    · cases h; exact MappedType.proper_enumeration _
  · cases h; exact proper_mapShape _
  · exact proper_of_mapKind h

theorem isFieldNumber_iff {n : Int} :
    Pool.isFieldNumber n = true ↔ (1 ≤ n ∧ n ≤ maxFieldNumber) ∧ ¬ isReservedNumber n = true := by
  unfold Pool.isFieldNumber isReservedNumber
  rw [Bool.and_eq_true, Bool.and_eq_true, decide_eq_true_eq, decide_eq_true_eq, Bool.not_eq_true',
    Bool.not_eq_true]

theorem checkNumber_eq_ok {message field : String} {number n : Int} {isIdentifier : Bool} :
    checkNumber message field number isIdentifier = .ok n ↔
      n = number ∧ Pool.isFieldNumber number = true ∧ (number = 1 → isIdentifier = true) := by
  unfold checkNumber
  rw [isFieldNumber_iff]
  split
  · rename_i hr
    simp only [reduceCtorEq, false_iff]
    intro hparts
    obtain ⟨_, ⟨hin, _⟩, _⟩ := hparts
    simp [hin] at hr
  rename_i hr
  split
  · rename_i hres
    simp only [reduceCtorEq, false_iff]
    intro hparts
    obtain ⟨_, ⟨_, hn⟩, _⟩ := hparts
    exact hn hres
  rename_i hres
  split
  · rename_i hid
    simp only [reduceCtorEq, false_iff]
    intro hparts
    obtain ⟨_, _, h1⟩ := hparts
    simp only [Bool.and_eq_true, decide_eq_true_eq, Bool.not_eq_true'] at hid
    simp [h1 hid.1] at hid
  rename_i hid
  have hin : 1 ≤ number ∧ number ≤ maxFieldNumber := by simpa using hr
  constructor
  · intro h
    cases h
    refine ⟨rfl, ⟨hin, hres⟩, fun h1 => ?_⟩
    simpa [h1] using hid
  · intro hparts
    obtain ⟨rfl, _, _⟩ := hparts
    rfl

/-! ## Distinct fields -/

theorem checkDistinct_eq_ok {message : String} {seen fs : List Field} {u : PUnit} :
    checkDistinct message seen fs = .ok u ↔
      Fresh (seen.map (·.number)) (fs.map (·.number)) ∧ Fresh (seen.map (·.name)) (fs.map (·.name)) := by
  induction fs generalizing seen with
  | nil => simp [checkDistinct, fresh_nil]
  | cons f fs ih =>
    unfold checkDistinct
    simp only [List.map_cons, fresh_cons]
    split
    · rename_i hn
      have hmem : f.number ∈ seen.map (·.number) := by simpa using hn
      simp [hmem]
    rename_i hn
    have hnumber : f.number ∉ seen.map (·.number) := by simpa using hn
    split
    · rename_i hn
      have hmem : f.name ∈ seen.map (·.name) := by simpa using hn
      simp [hmem]
    rename_i hn
    have hname : f.name ∉ seen.map (·.name) := by simpa using hn
    rw [ih, List.map_cons, List.map_cons]
    exact ⟨fun ⟨h, h'⟩ => ⟨⟨hnumber, h⟩, hname, h'⟩, fun ⟨⟨_, h⟩, _, h'⟩ => ⟨h, h'⟩⟩

theorem checkFields_eq_ok {m : Message} {u : PUnit} :
    m.checkFields = .ok u ↔ (m.fields.map (·.number)).Nodup ∧ (m.fields.map (·.name)).Nodup := by
  unfold Message.checkFields
  rw [checkDistinct_eq_ok, List.map_nil, List.map_nil, fresh_of_none_seen, fresh_of_none_seen]

/-! ## Edges -/

theorem resolveEdge_ok {entity package : String} {edge : EdgeSpec} {graph : Graph} {packages : Table String}
    {f : Field} (h : resolveEdge entity package edge graph packages = .ok f) :
    ∃ options q, edge.annotations.field = some options ∧ Pool.isFieldNumber options.number = true ∧
      options.number ≠ 1 ∧ packages.get? edge.target = some q ∧
      f = { name := edge.name, number := options.number, repeated := !edge.unique, type := .message
            typeName := some (qualifiedTypeName package edge.target q) } := by
  unfold resolveEdge at h
  simp only at h
  split at h
  · cases h
  rename_i options hoptions
  obtain ⟨n, hn, h⟩ := bind_eq_ok.mp h
  obtain ⟨rfl, hnum, hid⟩ := checkNumber_eq_ok.mp hn
  split at h
  · cases h
  split at h
  · cases h
  rename_i q hq
  cases h
  refine ⟨options, q, hoptions, hnum, fun h1 => by simpa using hid h1, hq, ?_⟩
  cases edge.unique <;> rfl

/-! ## Fields under way -/

/-- A field that a declared one becomes. -/
def FieldOf (entity : String) (spec : FieldSpec) (f : Field) : Prop :=
  ∃ t n, mapField entity spec = .ok t ∧ Pool.isFieldNumber n = true ∧ f = t.toField spec.name n

/-- Whether the field brings an enumeration. -/
def FieldSpec.isEnum (spec : FieldSpec) : Bool := spec.kind = .enumeration

/-- A draft to which the fields of some declared ones have been added. -/
structure Drafted (entity : String) (specs : List FieldSpec) (d : MessageDraft) : Prop where
  fields : List.Forall₂ (FieldOf entity) specs d.fields
  enums : List.Forall₂ (fun spec e => Enumeration.build entity spec = .ok e) (specs.filter (·.isEnum)) d.enums
  wrappers : d.wrappers = (specs.filter (·.isEnum)).map (Enumeration.wrapper entity)

theorem nest_ok {d d' : MessageDraft} {entity : String} {e : Enum} (h : d.nest entity e = .ok d') :
    d' = { d with enums := d.enums ++ [e] } := by
  unfold MessageDraft.nest at h
  split at h
  · cases h
  split at h
  · cases h
  · cases h; rfl

theorem drafted_addField {entity : String} {specs : List FieldSpec} {d d' : MessageDraft} {spec : FieldSpec} {n : Int}
    (hd : Drafted entity specs d) (hn : Pool.isFieldNumber n = true) (h : d.addField entity spec n = .ok d') :
    Drafted entity (specs ++ [spec]) d' := by
  unfold MessageDraft.addField at h
  obtain ⟨t, ht, h⟩ := bind_eq_ok.mp h
  have hf : FieldOf entity spec (t.toField spec.name n) := ⟨t, n, ht, hn, rfl⟩
  dsimp only at h
  split at h
  · rename_i hk
    have he : spec.isEnum = true := by simpa [FieldSpec.isEnum] using hk
    obtain ⟨e, hbuild, h⟩ := bind_eq_ok.mp h
    obtain ⟨d2, hnest, h⟩ := bind_eq_ok.mp h
    cases h
    rw [nest_ok hnest]
    refine ⟨List.rel_append hd.fields (.cons hf .nil), ?_, ?_⟩
    · rw [List.filter_append, List.filter_cons_of_pos he]
      exact List.rel_append hd.enums (.cons hbuild .nil)
    · rw [List.filter_append, List.filter_cons_of_pos he, List.map_append]
      exact congrArg (· ++ _) hd.wrappers
  · rename_i hk
    have he : spec.isEnum = false := by simpa [FieldSpec.isEnum] using hk
    cases h
    refine ⟨List.rel_append hd.fields (.cons hf .nil), ?_, ?_⟩
    · rw [List.filter_append, List.filter_cons_of_neg (by simp [he]), List.filter_nil, List.append_nil]
      exact hd.enums
    · rw [List.filter_append, List.filter_cons_of_neg (by simp [he]), List.filter_nil, List.append_nil]
      exact hd.wrappers

theorem drafted_addDeclared {entity : String} {specs : List FieldSpec} {d d' : MessageDraft} {spec : FieldSpec}
    (hd : Drafted entity specs d) (h : MessageDraft.addDeclared entity d spec = .ok d') :
    Drafted entity (specs ++ [spec]) d' := by
  unfold MessageDraft.addDeclared at h
  split at h
  · cases h
  obtain ⟨n, hn, h⟩ := bind_eq_ok.mp h
  obtain ⟨rfl, hnum, _⟩ := checkNumber_eq_ok.mp hn
  exact drafted_addField hd hnum h

theorem isFieldNumber_of_idNumber {e : Entity} {n : Int} (h : e.idNumber = .ok n) : Pool.isFieldNumber n = true := by
  unfold Entity.idNumber at h
  split at h
  · obtain ⟨rfl, hnum, _⟩ := checkNumber_eq_ok.mp h
    exact hnum
  · cases h; decide

/-! ## Whole messages -/

/-- The fields that the message of an entity has, before its edges. -/
def Entity.ownFields (e : Entity) : List FieldSpec := e.id :: e.keptFields

/-- The steps that a successful build of an entity's message takes. -/
theorem steps_of_buildMessages {e : Entity} {package : String} {graph : Graph} {packages : Table String}
    {messages : List Message} (h : buildMessages e package graph packages = .ok messages) :
    e.id.isSkipped = false ∧ ∃ n d0 d edges,
      e.idNumber = .ok n ∧ MessageDraft.addField {} e.name e.id n = .ok d0 ∧
      e.keptFields.foldlM (MessageDraft.addDeclared e.name) d0 = .ok d ∧
      List.Forall₂ (fun x f => resolveEdge e.name package x graph packages = .ok f) e.keptEdges edges ∧
      Message.checkFields { name := e.name, fields := d.fields ++ edges, enums := d.enums } = .ok () ∧
      messages = { name := e.name, fields := d.fields ++ edges, enums := d.enums } :: d.wrappers := by
  unfold buildMessages at h
  split at h
  · cases h
  rename_i hkept
  obtain ⟨n, hn, h⟩ := bind_eq_ok.mp h
  obtain ⟨d0, hd0, h⟩ := bind_eq_ok.mp h
  obtain ⟨d, hd, h⟩ := bind_eq_ok.mp h
  obtain ⟨edges, hedges, h⟩ := bind_eq_ok.mp h
  obtain ⟨_, hcheck, h⟩ := bind_eq_ok.mp h
  cases h
  exact ⟨by simpa using hkept, n, d0, d, edges, hn, hd0, hd, mapM_eq_ok.mp hedges, hcheck, rfl⟩

/-- What a successful build of an entity's message goes through. -/
theorem buildMessages_ok {e : Entity} {package : String} {graph : Graph} {packages : Table String}
    {messages : List Message} (h : buildMessages e package graph packages = .ok messages) :
    ∃ fields edges enums,
      messages = { name := e.name, fields := fields ++ edges, enums } ::
        (e.ownFields.filter (·.isEnum)).map (Enumeration.wrapper e.name) ∧
      List.Forall₂ (FieldOf e.name) e.ownFields fields ∧
      List.Forall₂ (fun x f => resolveEdge e.name package x graph packages = .ok f) e.keptEdges edges ∧
      List.Forall₂ (fun spec en => Enumeration.build e.name spec = .ok en) (e.ownFields.filter (·.isEnum)) enums ∧
      ((fields ++ edges).map (·.number)).Nodup ∧ ((fields ++ edges).map (·.name)).Nodup := by
  obtain ⟨_, n, d0, d, edges, hn, hd0, hd, hedges, hcheck, rfl⟩ := steps_of_buildMessages h
  have hnone : Drafted e.name [] {} := ⟨.nil, .nil, rfl⟩
  have hid : Drafted e.name [e.id] d0 := drafted_addField hnone (isFieldNumber_of_idNumber hn) hd0
  have hall : Drafted e.name ([e.id] ++ e.keptFields) d :=
    foldlM_invariant (P := Drafted e.name) hd hid fun _ _ _ _ hs hstep => drafted_addDeclared hs hstep
  obtain ⟨hnums, hnames⟩ := checkFields_eq_ok.mp hcheck
  exact ⟨d.fields, edges, d.enums, by rw [hall.wrappers]; rfl, hall.fields, hedges, hall.enums,
    hnums, hnames⟩

end Protograph
