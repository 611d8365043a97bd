/-
  Protograph.Proofs.Skipping — skipped fields and edges are as good as not declared.

  The fields and edges of an entity are read where its message is built, and the fields once
  more where those are chosen that a listing can filter. Both leave out what is skipped before
  they look at anything else of it, so that an entity without its skipped fields and edges
  (`withoutSkipped`) is built into the same. What is known of it elsewhere in a graph, its
  name and its package, does not come from its fields.

  Proved:
  - `buildEntity_withoutSkipped`: an entity is built into the same without what is skipped,
    or fails with the same error.
  - `compile_withoutSkipped`: a graph compiles to the same without what is skipped, or fails
    with the same error.
  - `ofEntities_withoutSkipped`: entities make a graph without what is skipped if and only if
    they make one with it.
-/

import Protograph.Proofs.Dependence

namespace Protograph

/-- The entity without its skipped fields and edges. The identifier stays, skipped or not. -/
def Entity.withoutSkipped (e : Entity) : Entity := { e with fields := e.keptFields, edges := e.keptEdges }

theorem names_withoutSkipped (entities : List Entity) :
    (entities.map Entity.withoutSkipped).map (·.name) = entities.map (·.name) := by
  rw [List.map_map]
  rfl

def Graph.withoutSkipped (graph : Graph) : Graph :=
  ⟨graph.entities.map Entity.withoutSkipped, (names_withoutSkipped graph.entities).symm ▸ graph.names_nodup⟩

/-! ## One entity -/

variable (e : Entity)

theorem keptFields_withoutSkipped : e.withoutSkipped.keptFields = e.keptFields := by
  show (e.fields.filter fun f => !f.isSkipped).filter (fun f => !f.isSkipped) = e.fields.filter fun f => !f.isSkipped
  rw [List.filter_filter]
  simp only [Bool.and_self]

theorem keptEdges_withoutSkipped : e.withoutSkipped.keptEdges = e.keptEdges := by
  show (e.edges.filter fun x => !x.isSkipped).filter (fun x => !x.isSkipped) = e.edges.filter fun x => !x.isSkipped
  rw [List.filter_filter]
  simp only [Bool.and_self]

theorem candidates_eq : Listing.candidates e = [e.id].filter (fun f => !f.isSkipped) ++ e.keptFields :=
  List.filter_append [e.id] e.fields

theorem candidates_withoutSkipped : Listing.candidates e.withoutSkipped = Listing.candidates e := by
  rw [candidates_eq, candidates_eq, keptFields_withoutSkipped]
  rfl

theorem listing_withoutSkipped : Listing.build e.withoutSkipped = Listing.build e := by
  have hfilter : Listing.filter e.withoutSkipped = Listing.filter e := by
    unfold Listing.filter
    rw [candidates_withoutSkipped]
    rfl
  unfold Listing.build
  rw [hfilter]
  rfl

/-- Of the methods only the listing reads fields. -/
theorem method_withoutSkipped (m : Method) : EntityService.method e.withoutSkipped m = EntityService.method e m := by
  cases m with
  | list =>
    unfold EntityService.method
    rw [listing_withoutSkipped]
    rfl
  | create => rfl
  | get => rfl
  | update => rfl
  | delete => rfl

theorem buildMessages_withoutSkipped (package : String) (graph : Graph) (packages : Table String) :
    buildMessages e.withoutSkipped package graph packages = buildMessages e package graph packages := by
  unfold buildMessages
  rw [keptFields_withoutSkipped, keptEdges_withoutSkipped]
  rfl

namespace Compilation

theorem serviceOf_withoutSkipped : serviceOf e.withoutSkipped = serviceOf e := by
  have hbuild : ∀ options, buildService e.withoutSkipped options = buildService e options := by
    intro options
    unfold buildService
    rw [funext (method_withoutSkipped e)]
    rfl
  unfold serviceOf
  simp only [hbuild]
  rfl

/-- Without what is skipped, an entity is built into the same, or fails with the same error. -/
theorem buildEntity_withoutSkipped (package : String) (graph : Graph) (packages : Table String) :
    buildEntity e.withoutSkipped package graph packages = buildEntity e package graph packages := by
  unfold buildEntity
  rw [buildMessages_withoutSkipped, serviceOf_withoutSkipped]
  rfl

/-! ## A graph -/

variable (graph : Graph) (standard : String)

theorem packagesOf_withoutSkipped : packagesOf graph.withoutSkipped standard = packagesOf graph standard := by
  unfold packagesOf Graph.withoutSkipped
  rw [List.filterMap_map]
  rfl

/-- A graph and the same without what is skipped say the same of every name. -/
theorem alike_withoutSkipped (packages : Table String) (name : String) :
    Alike graph.withoutSkipped graph packages packages name := by
  refine ⟨?_, rfl⟩
  rw [Bool.eq_iff_iff, isNone_entity?, isNone_entity?]
  unfold Graph.withoutSkipped
  rw [names_withoutSkipped]

theorem buildAll_withoutSkipped (packages : Table String) :
    buildAll graph.withoutSkipped packages = buildAll graph packages := by
  have hbuild : ∀ (e : Entity) (package : String),
      buildEntity e.withoutSkipped package graph.withoutSkipped packages = buildEntity e package graph packages :=
    fun e package => (buildEntity_congr (alike_withoutSkipped graph packages) e.withoutSkipped package).trans
      (buildEntity_withoutSkipped e package graph packages)
  unfold buildAll
  show (graph.entities.map Entity.withoutSkipped).filterMap _ = _
  rw [List.filterMap_map]
  refine List.filterMap_congr fun e _ => ?_
  simp only [Function.comp_apply, hbuild]
  rfl

theorem settled_withoutSkipped : settled graph.withoutSkipped standard = settled graph standard := by
  unfold settled
  rw [packagesOf_withoutSkipped, buildAll_withoutSkipped]

/-- Without what is skipped, a graph compiles to the same, or fails with the same error. -/
theorem compile_withoutSkipped : compile graph.withoutSkipped standard = compile graph standard := by
  have hstatuses : ∀ outputs : Outputs,
      (graph.withoutSkipped.entities.map fun e => (e.name, statusOf outputs e)) =
        graph.entities.map fun e => (e.name, statusOf outputs e) := by
    intro outputs
    unfold Graph.withoutSkipped
    rw [List.map_map]
    rfl
  unfold compile
  rw [settled_withoutSkipped]
  simp only [hstatuses]

/-- A name is declared twice without what is skipped if and only if it is with it. -/
theorem ofEntities_withoutSkipped (entities : List Entity) :
    Graph.ofEntities (entities.map Entity.withoutSkipped) = (Graph.ofEntities entities).map Graph.withoutSkipped := by
  unfold Graph.ofEntities
  split
  · rename_i name h
    rw [names_withoutSkipped] at h
    split
    · rename_i name' h'
      cases h.symm.trans h'
      rfl
    · rename_i h'
      cases h.symm.trans h'
  · rename_i h
    rw [names_withoutSkipped] at h
    split
    · rename_i h'
      cases h.symm.trans h'
    · rfl

end Compilation

end Protograph
