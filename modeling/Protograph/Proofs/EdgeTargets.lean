/-
  Protograph.Proofs.EdgeTargets — what becomes of the entities that edges lead to.

  An edge is recorded as a reference to its target only when its written name is read as
  that target. A well-known message or another message of the entity itself can stand in
  its way (`Shadows`), and then the failure of the target does not reach the entity.

  Proved, for every compilation that succeeds and every kept edge of a generated entity:
  - `generated_target_iff`: the target asks for a message, and it is generated unless its
    name is shadowed and it is doomed.
  - `edge_to_failed_target`: both can be. The wrapper of an enumeration takes the name of
    another entity, and an edge to that entity takes the wrapper for it.
-/

import Protograph.Proofs.Evaluation
import Protograph.Proofs.Outputs

namespace Protograph

/-- The written name of an entity's message, without its leading dots, is read otherwise:
    as a well-known message, as a message of the output itself, or with its last dot not
    between the package and the name. -/
def NameScope.Shadows (s : NameScope) (written package target : String) : Prop :=
  let name := Text.withoutLeadingDots written
  name ∈ WellKnown.types.keys ∨ name ∈ s.messages ∨ s.splitName name ≠ (package, target)

namespace Compilation

variable {graph : Graph} {standard : String} {e : Entity} {o : EntityOutput} {x : EdgeSpec}

/-- A kept edge of an entity is mentioned in its output, under the name of its target as
    written in the package. -/
theorem mentioned_edge {package : String} {packages : Table String}
    (h : buildEntity e package graph packages = .ok o) (hx : x ∈ e.keptEdges) :
    ∃ q, packages.get? x.target = some q ∧
      (⟨e.name ++ "." ++ x.name, qualifiedTypeName package x.target q, false⟩ : Mention) ∈
        mentionsOf o.messages o.services := by
  obtain ⟨fields, edges, enums, hprimary, _, hedges, _⟩ := primary_of_buildEntity h
  obtain ⟨f, hf, hedge⟩ := exists_of_forall₂_left hedges hx
  obtain ⟨options, q, _, _, _, hq, rfl⟩ := resolveEdge_ok hedge
  exact ⟨q, hq, mem_mentions_of_field o.services hprimary (List.mem_append_right _ hf) rfl⟩

/-- A name that is not shadowed is recorded as a reference to the target, unless the target
    is the entity itself. -/
theorem refers_of_not_shadows {package written target : String} {packages : Table String}
    (h : buildEntity e package graph packages = .ok o) {element : String}
    (hmention : (⟨element, written, false⟩ : Mention) ∈ mentionsOf o.messages o.services) {q : String}
    (hs : ¬ (o.scope e.name packages).Shadows written q target) (hne : target ≠ e.name) :
    target ∈ o.references.entities := by
  have hrecords := records_of_buildEntity h
  obtain ⟨hwell, hown, hsplit⟩ : Text.withoutLeadingDots written ∉ WellKnown.types.keys ∧
      Text.withoutLeadingDots written ∉ (o.scope e.name packages).messages ∧
      (o.scope e.name packages).splitName (Text.withoutLeadingDots written) = (q, target) := by
    simpa only [NameScope.Shadows, not_or, not_not] using hs
  obtain ⟨m, hm⟩ := hrecords.reads _ hmention
  refine (hrecords.entities target).mpr ⟨_, hmention, m, hm, ?_⟩
  cases hm with
  | wellKnown _ hw => exact absurd (Table.mem_keys (Table.mem_of_get? hw)) hwell
  | own _ _ hm => exact absurd hm hown
  | entity _ _ _ hs _ =>
    obtain ⟨rfl, rfl⟩ : _ = q ∧ _ = target := Prod.mk.inj (hs.symm.trans hsplit)
    exact if_pos hne

theorem not_doomed_of_settled_refers (h : (e.name, .ok o) ∈ settled graph standard) {target : String}
    (ht : target ∈ o.references.entities) : ¬ Doomed (claimed graph standard) target := by
  rw [settled_eq] at h
  have hrun := settles_propagate (claimed graph standard)
  intro hd
  obtain ⟨_, hentry, hout⟩ := exists_of_forall₂_right (outcome_of_settles hrun) h
  cases hout
  exact not_doomed_of_ok (keys_claimed_nodup graph standard) hrun h (doomed_of_refers ⟨o, hentry, ht⟩ hd)

/-- The target of a generated entity's edge asks for a message. It is generated too,
    unless the name written for it is shadowed and the target is doomed by itself. -/
theorem generated_target_iff {c : Compiled} (h : compile graph standard = .ok c) (he : e ∈ graph.entities)
    (hgen : c.Generated e.name) (hx : x ∈ e.keptEdges) :
    ∃ o q, (e.name, .ok o) ∈ settled graph standard ∧ (packagesOf graph standard).get? x.target = some q ∧
      (c.Generated x.target ↔
        ¬ ((o.scope e.name (packagesOf graph standard)).Shadows (qualifiedTypeName o.package x.target q) q x.target ∧
          Doomed (claimed graph standard) x.target)) := by
  obtain ⟨o, ho⟩ := (generated_iff h).mp hgen
  have hbuilt := buildEntity_of_settled he ho
  obtain ⟨q, hq, hmention⟩ := mentioned_edge hbuilt hx
  refine ⟨o, q, ho, hq, ?_⟩
  have hasks : x.target ∈ (packagesOf graph standard).keys := Table.mem_keys (Table.mem_of_get? hq)
  rw [generated_iff h, settled_iff_not_doomed hasks]
  constructor
  · rintro hfine ⟨_, hd⟩
    exact hfine hd
  · intro hboth hd
    have hs : ¬ (o.scope e.name _).Shadows _ q x.target := fun hs => hboth ⟨hs, hd⟩
    by_cases hself : x.target = e.name
    · rw [hself] at hasks hd
      exact (settled_iff_not_doomed hasks).mp ⟨o, ho⟩ hd
    · exact not_doomed_of_settled_refers ho (refers_of_not_shadows hbuilt hmention hs hself) hd

/-! ## A wrapper in the place of an entity -/

/-- An entity whose enumeration has a wrapper, and its edge to an entity of the same name. -/
def shadowingEdge : EdgeSpec :=
  { name := "x", target := "UserStatusEnumValue", unique := true, annotations := { field := some { number := 3 } } }

def shadowingEntity : Entity :=
  { name := "User"
    fields := [{ name := "status", kind := .enumeration, values := ["a", "b"]
                 annotations := { field := some { number := 2 }
                                  enumeration := some { numbers := [("a", 1), ("b", 2)] } } }]
    edges := [shadowingEdge]
    annotations := { message := some {} } }

def shadowedGraph : Graph :=
  ⟨[shadowingEntity, { name := "UserStatusEnumValue", annotations := { message := some {} } }], by decide⟩

theorem compile_shadowedGraph : ∃ c, compile shadowedGraph standardPackage = .ok c ∧
    c.Generated "User" ∧ ¬ c.Generated "UserStatusEnumValue" := by
  have h : (compileApart shadowedGraph standardPackage).toOption.any (fun c => Assembly.namesApart c.set &&
      decide (c.Generated "User" ∧ ¬ c.Generated "UserStatusEnumValue")) = true := by decide +kernel
  obtain ⟨c, hc, houtcomes⟩ := exists_compiled_of_apart h
  exact ⟨c, hc, by simpa using houtcomes⟩

theorem generated_target_iff_shadowed : ∃ c, compile shadowedGraph standardPackage = .ok c ∧
    shadowingEntity ∈ shadowedGraph.entities ∧ c.Generated shadowingEntity.name ∧
    shadowingEdge ∈ shadowingEntity.keptEdges ∧
    ∃ o q, (shadowingEntity.name, .ok o) ∈ settled shadowedGraph standardPackage ∧
      (packagesOf shadowedGraph standardPackage).get? shadowingEdge.target = some q ∧
      (c.Generated shadowingEdge.target ↔
        ¬ ((o.scope shadowingEntity.name (packagesOf shadowedGraph standardPackage)).Shadows
            (qualifiedTypeName o.package shadowingEdge.target q) q shadowingEdge.target ∧
          Doomed (claimed shadowedGraph standardPackage) shadowingEdge.target)) := by
  obtain ⟨c, hc, hgen, _⟩ := compile_shadowedGraph
  exact ⟨c, hc, by decide, hgen, by decide, generated_target_iff hc (by decide) hgen (by decide)⟩

/-- Not every kept edge of a generated entity leads to a generated one. -/
theorem edge_to_failed_target : ¬ ∀ (graph : Graph) (standard : String) (c : Compiled),
    compile graph standard = .ok c → ∀ e ∈ graph.entities, c.Generated e.name →
      ∀ x ∈ e.keptEdges, c.Generated x.target := by
  intro hall
  obtain ⟨c, hc, hgen, hlost⟩ := compile_shadowedGraph
  exact hlost (hall _ _ c hc shadowingEntity (by decide) hgen shadowingEdge (by decide))

end Compilation

end Protograph
