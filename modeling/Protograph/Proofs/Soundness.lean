/-
  Protograph.Proofs.Soundness — what a pool asks of a message and every built message has.

  Names of fields and of what else is in a file can clash, and a filter can have more fields
  than there are numbers below the reserved ones. Everything else that a pool asks of the
  inside of a message is there by the way messages are built (`sound_of_buildEntity`). Every
  field is made of a type that a descriptor may have (`made_of_buildEntity`).
-/

import Protograph.Proofs.EntityOutput
import Protograph.Proofs.Pool

namespace Protograph

/-- A field names a type where its own type asks for a name. -/
def Field.Typed (f : Field) : Prop := f.type.isNamed = true ∨ f.type = .group → f.typeName.isSome = true

/-- A message that nests enumerations only, each beginning with 0 and with distinct numbers,
    and whose fields have types and distinct numbers. -/
structure Message.Sound (m : Message) : Prop where
  flat : m.nested = []
  begins : ∀ e ∈ m.enums, e.Begins
  values : ∀ e ∈ m.enums, e.Numbered
  typed : ∀ f ∈ m.fields, f.Typed
  distinct : (m.fields.map (·.number)).Nodup

/-- A field made of a type that a descriptor may have. -/
def Field.Made (f : Field) : Prop := ∃ (t : MappedType) (name : String) (number : Int), t.Proper ∧ f = t.toField name number

theorem Field.Made.typed {f : Field} (h : f.Made) : f.Typed := by
  obtain ⟨t, name, number, ht, rfl⟩ := h
  rintro (hnamed | hgroup)
  · exact ht.2.mp hnamed
  · exact absurd hgroup ht.1

/-- Such a field names a type if and only if it is a message or an enumeration. -/
theorem Field.Made.isNamed_iff {f : Field} (h : f.Made) : f.type.isNamed = true ↔ f.typeName.isSome = true := by
  obtain ⟨t, name, number, ht, rfl⟩ := h
  exact ht.2

theorem made_toField {t : MappedType} (h : t.Proper) (name : String) (number : Int) : (t.toField name number).Made :=
  ⟨t, name, number, h, rfl⟩

namespace Compilation

/-! ## Fields -/

theorem made_primary {e : Entity} {package : String} {graph : Graph} {packages : Table String} {fields edges : List Field}
    (hfields : List.Forall₂ (FieldOf e.name) e.ownFields fields)
    (hedges : List.Forall₂ (fun x f => resolveEdge e.name package x graph packages = .ok f) e.keptEdges edges) :
    ∀ f ∈ fields ++ edges, f.Made := by
  intro f hf
  rcases List.mem_append.mp hf with hf | hf
  · obtain ⟨_, _, t, n, ht, _, rfl⟩ := exists_of_forall₂_right hfields hf
    exact made_toField (proper_of_mapField ht) _ _
  · obtain ⟨x, _, hx⟩ := exists_of_forall₂_right hedges hf
    obtain ⟨options, q, _, _, _, _, rfl⟩ := resolveEdge_ok hx
    exact ⟨⟨.message, some (qualifiedTypeName package x.target q), !x.unique⟩, x.name, options.number,
      MappedType.proper_message _, rfl⟩

theorem made_wrapper (entity : String) (field : FieldSpec) : ∀ f ∈ (Enumeration.wrapper entity field).fields, f.Made := by
  intro f hf
  rw [List.mem_singleton.mp hf]
  exact made_toField (MappedType.proper_enumeration _) _ _

theorem proper_scalar_of_not_named {t : FieldType} (h : t ≠ .group ∧ t.isNamed = false) : (MappedType.scalar t).Proper :=
  ⟨h.1, by simp [MappedType.scalar, h.2]⟩

theorem made_request (entity : String) : ∀ f ∈ (Listing.request entity).fields, f.Made := by
  intro f hf
  have hbool : (MappedType.scalar .bool).Proper := proper_scalar_of_not_named (by decide)
  simp only [Listing.request, List.mem_cons, List.not_mem_nil, or_false] at hf
  rcases hf with rfl | rfl | rfl | rfl | rfl | rfl
  · exact made_toField (MappedType.proper_message _) _ _
  · exact made_toField (MappedType.proper_message _) _ _
  · exact made_toField (MappedType.proper_message _) _ _
  · exact made_toField hbool _ _
  · exact made_toField (MappedType.proper_message _) _ _
  · exact made_toField hbool _ _

theorem made_response (entity : String) : ∀ f ∈ (Listing.response entity).fields, f.Made := by
  intro f hf
  simp only [Listing.response, List.mem_cons, List.not_mem_nil, or_false] at hf
  rcases hf with rfl | rfl
  · exact made_toField (MappedType.proper_asRepeated (MappedType.proper_message _)) _ _
  · exact made_toField (proper_scalar_of_not_named (by decide)) _ _

theorem made_of_pushed {entity : String} {offered : List FieldSpec} {fields : List Field}
    (h : Listing.Pushed entity offered fields) : ∀ f ∈ fields, f.Made := by
  intro f hf
  obtain ⟨t, n, ht, he⟩ := h.types f hf
  exact ⟨t, f.name, n, ht.proper, he⟩

theorem made_listing {e : Entity} {messages : List Message} (h : Listing.build e = .ok messages) {m : Message}
    (hm : m ∈ messages) : ∀ f ∈ m.fields, f.Made := by
  obtain ⟨f, hf, rfl⟩ := Listing.build_ok h
  obtain ⟨fields, rfl, hpushed⟩ := Listing.filter_ok hf
  rcases List.mem_cons.mp hm with rfl | hm
  · exact made_of_pushed hpushed
  rcases List.mem_cons.mp hm with rfl | hm
  · exact made_request _
  · rw [List.mem_singleton.mp hm]
    exact made_response _

/-- Every field that is built is made of a type that a descriptor may have. -/
theorem made_of_buildEntity {e : Entity} {package : String} {graph : Graph} {packages : Table String} {o : EntityOutput}
    (h : buildEntity e package graph packages = .ok o) {m : Message} (hm : m ∈ o.messages) : ∀ f ∈ m.fields, f.Made := by
  obtain ⟨messages, more, hmessages, hservice, _, ho, _⟩ := buildEntity_ok h
  obtain ⟨fields, edges, enums, rfl, hfields, hedges, _⟩ := buildMessages_ok hmessages
  rw [ho] at hm
  rcases List.mem_append.mp hm with hm | hm
  · rcases List.mem_cons.mp hm with rfl | hm
    · exact made_primary hfields hedges
    · obtain ⟨field, _, rfl⟩ := List.mem_map.mp hm
      exact made_wrapper _ _
  · obtain ⟨_, listed, hlisted, hmem⟩ := listed_of_serviceOf hservice hm
    exact made_listing hlisted hmem

/-! ## Messages -/

theorem sound_primary {e : Entity} {package : String} {graph : Graph} {packages : Table String} {fields edges : List Field}
    {enums : List Enum} (hfields : List.Forall₂ (FieldOf e.name) e.ownFields fields)
    (hedges : List.Forall₂ (fun x f => resolveEdge e.name package x graph packages = .ok f) e.keptEdges edges)
    (henums : List.Forall₂ (fun spec en => Enumeration.build e.name spec = .ok en) (e.ownFields.filter (·.isEnum)) enums)
    (hnumbers : ((fields ++ edges).map (·.number)).Nodup) :
    Message.Sound { name := e.name, fields := fields ++ edges, enums } := by
  refine ⟨rfl, ?_, ?_, ?_, hnumbers⟩
  · intro en hen
    obtain ⟨_, _, hbuild⟩ := exists_of_forall₂_right henums hen
    exact Enumeration.head_number_of_build hbuild
  · intro en hen
    obtain ⟨_, _, hbuild⟩ := exists_of_forall₂_right henums hen
    exact Enumeration.numbers_nodup_of_build hbuild
  · exact fun f hf => (made_primary hfields hedges f hf).typed

theorem sound_wrapper (entity : String) (field : FieldSpec) : (Enumeration.wrapper entity field).Sound := by
  refine ⟨rfl, by simp [Enumeration.wrapper], by simp [Enumeration.wrapper], ?_, by simp [Enumeration.wrapper]⟩
  exact fun f hf => (made_wrapper entity field f hf).typed

/-- Fields numbered in order have distinct numbers. -/
theorem numbers_nodup_of_pushed {entity : String} {offered : List FieldSpec} {fields : List Field}
    (h : Listing.Pushed entity offered fields) :
    (fields.map (·.number)).Nodup := by
  rw [h.numbers]
  refine List.Nodup.map ?_ List.nodup_range
  intro a b hab
  have : (a : Int) + 1 = b + 1 := hab
  omega

theorem sound_request (entity : String) : (Listing.request entity).Sound := by
  refine ⟨rfl, by simp [Listing.request], by simp [Listing.request], ?_, ?_⟩
  · exact fun f hf => (made_request entity f hf).typed
  · show ([1, 2, 3, 4, 5, 6] : List Int).Nodup
    decide

theorem sound_response (entity : String) : (Listing.response entity).Sound := by
  refine ⟨rfl, by simp [Listing.response], by simp [Listing.response], ?_, ?_⟩
  · exact fun f hf => (made_response entity f hf).typed
  · show ([1, 2] : List Int).Nodup
    decide

theorem sound_listing {e : Entity} {messages : List Message} (h : Listing.build e = .ok messages) {m : Message}
    (hm : m ∈ messages) : m.Sound := by
  obtain ⟨f, hf, rfl⟩ := Listing.build_ok h
  obtain ⟨fields, rfl, hpushed⟩ := Listing.filter_ok hf
  rcases List.mem_cons.mp hm with rfl | hm
  · exact ⟨rfl, by simp, by simp, fun f hf => (made_of_pushed hpushed f hf).typed, numbers_nodup_of_pushed hpushed⟩
  rcases List.mem_cons.mp hm with rfl | hm
  · exact sound_request _
  · rw [List.mem_singleton.mp hm]
    exact sound_response _

theorem sound_of_buildEntity {e : Entity} {package : String} {graph : Graph} {packages : Table String} {o : EntityOutput}
    (h : buildEntity e package graph packages = .ok o) {m : Message} (hm : m ∈ o.messages) : m.Sound := by
  obtain ⟨messages, more, hmessages, hservice, _, ho, _⟩ := buildEntity_ok h
  obtain ⟨fields, edges, enums, rfl, hfields, hedges, henums, hnumbers, _⟩ := buildMessages_ok hmessages
  rw [ho] at hm
  rcases List.mem_append.mp hm with hm | hm
  · rcases List.mem_cons.mp hm with rfl | hm
    · exact sound_primary hfields hedges henums hnumbers
    · obtain ⟨field, _, rfl⟩ := List.mem_map.mp hm
      exact sound_wrapper _ _
  · obtain ⟨_, listed, hlisted, hmem⟩ := listed_of_serviceOf hservice hm
    exact sound_listing hlisted hmem

end Compilation

/-! ## Flat messages -/

theorem treeAll_of_flat {ms : List Message} (h : ∀ m ∈ ms, m.nested = []) : Message.treeAll ms = ms := by
  induction ms with
  | nil => rfl
  | cons m ms ih =>
    obtain ⟨name, fields, enums, nested⟩ := m
    obtain rfl : nested = [] := h _ List.mem_cons_self
    simp only [Message.treeAll, Message.tree, List.singleton_append, ih fun x hx => h x (List.mem_cons_of_mem _ hx)]

theorem Message.Sound.wellNamed_iff {m : Message} (h : m.Sound) :
    m.WellNamed ↔ (m.fields.map fun f => Pool.foldedName f.name).Nodup :=
  ⟨fun hw => hw.camel, fun hc => ⟨hc, h.begins⟩⟩

theorem Message.Sound.wellNumbered_iff {m : Message} (h : m.Sound) :
    m.WellNumbered ↔ ∀ f ∈ m.fields, Pool.isFieldNumber f.number = true :=
  ⟨fun hw => hw.allowed, fun ha => ⟨ha, h.typed, h.distinct, h.values⟩⟩

end Protograph
