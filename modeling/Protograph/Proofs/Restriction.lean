/-
  Protograph.Proofs.Restriction — the generated entities of a graph by themselves.

  Generated entities refer to generated entities only. If their edges lead to generated
  entities only too, a graph without the others gives the same answer wherever it is asked
  anything, so that everything comes out as it did.

  Proved, where the edges of generated entities lead to generated entities:
  - `buildEntity_of_generated`: a generated entity is built into the same by itself.
  - `settled_generatedOf`: what settles is what had survived.
  - `compile_generatedOf`: the generated entities compile by themselves, every one of them is
    generated, and the units and the descriptor set are the same.
-/

import Mathlib.Data.List.Flatten
import Protograph.Proofs.Claiming
import Protograph.Proofs.Dependence
import Protograph.Proofs.Fatal
import Protograph.Proofs.Grouping

namespace Protograph

/-- The generated entities of a graph, in their order. -/
def Compiled.generatedOf (c : Compiled) (graph : Graph) : Graph :=
  ⟨graph.entities.filter fun e => c.Generated e.name, graph.names_nodup.sublist (List.filter_sublist.map _)⟩

/-- The edges of generated entities lead to generated entities. -/
def Compiled.EdgesGenerated (c : Compiled) (graph : Graph) : Prop :=
  ∀ e ∈ graph.entities, c.Generated e.name → ∀ x ∈ e.keptEdges, c.Generated x.target

instance (c : Compiled) (graph : Graph) : Decidable (c.EdgesGenerated graph) :=
  inferInstanceAs (Decidable (∀ e ∈ graph.entities, c.Generated e.name → ∀ x ∈ e.keptEdges, c.Generated x.target))

namespace Compilation

variable {graph : Graph} {standard : String} {c : Compiled} {e : Entity} {o : EntityOutput}

/-! ## What is built -/

theorem package_of_generated {name q : String} (hgen : c.Generated name)
    (h : (packagesOf graph standard).get? name = some q) :
    (packagesOf (c.generatedOf graph) standard).get? name = some q := by
  obtain ⟨e, he, rfl, hpackage⟩ := packagesOf_get?_eq_some.mp h
  exact packagesOf_get?_eq_some.mpr ⟨e, List.mem_filter.mpr ⟨he, decide_eq_true hgen⟩, rfl, hpackage⟩

/-- A generated entity is built into the same by itself: whatever it refers to is generated. -/
theorem buildEntity_of_generated (h : compile graph standard = .ok c) (hedges : c.EdgesGenerated graph)
    (he : e ∈ graph.entities) (ho : (e.name, .ok o) ∈ settled graph standard) :
    buildEntity e o.package (c.generatedOf graph) (packagesOf (c.generatedOf graph) standard) = .ok o := by
  refine buildEntity_transfer (buildEntity_of_settled he ho) ?_ ?_
  · intro x hx q hq
    exact package_of_generated (hedges e he ((generated_iff h).mpr ⟨o, ho⟩) x hx) hq
  · intro x hx q t hread
    obtain ⟨o', ho', _⟩ := settled_of_reads_entity ho he hx hread
    exact package_of_generated ((generated_iff h).mpr ⟨o', ho'⟩) hread.package_of_entity

/-- Some survivors as outputs. -/
def outputsOf (outs : Table EntityOutput) : Outputs := outs.map fun (name, o) => (name, .ok o)

theorem survivors_outputsOf (outs : Table EntityOutput) : survivors (outputsOf outs) = outs := by
  unfold survivors outputsOf
  rw [List.filterMap_map]
  exact List.filterMap_some

theorem names_generatedOf (h : compile graph standard = .ok c) :
    (c.generatedOf graph).entities.map (·.name) = (survivors (settled graph standard)).keys := by
  have hsame : (c.generatedOf graph).entities =
      graph.entities.filter (·.name ∈ (survivors (settled graph standard)).keys) := by
    refine List.filter_congr fun e _ => ?_
    rw [decide_eq_decide, generated_iff h]
    constructor
    · intro hparts
      obtain ⟨o, ho⟩ := hparts
      exact Table.mem_keys (mem_survivors.mpr ho)
    · intro hkey
      obtain ⟨⟨name, o⟩, hin, rfl⟩ := List.mem_map.mp hkey
      exact ⟨o, mem_survivors.mp hin⟩
  rw [hsame]
  exact names_of_filter ((keys_survivors_sublist _).trans (keys_settled_sublist graph standard))

/-- The generated entities by themselves are built into what had survived. -/
theorem buildAll_generatedOf (h : compile graph standard = .ok c) (hedges : c.EdgesGenerated graph) :
    buildAll (c.generatedOf graph) (packagesOf (c.generatedOf graph) standard) =
      outputsOf (survivors (settled graph standard)) := by
  rw [buildAll_eq, outputsOf, ← List.filterMap_eq_map]
  refine (filterMap_eq_of_forall₂ (forall₂_of_keys_eq (names_generatedOf h) ?_)).symm
  rintro e he ⟨name, o⟩ hentry hname
  obtain rfl : e.name = name := hname
  have hin : e ∈ graph.entities := List.mem_of_mem_filter he
  have ho : (e.name, .ok o) ∈ settled graph standard := mem_survivors.mp hentry
  have hpackage : e.package? standard = some o.package := by
    rw [← packagesOf_get?_of_mem hin]
    exact package_of_settled ho
  rw [hpackage, Option.map_some, buildEntity_of_generated h hedges hin ho]
  rfl

/-! ## What settles -/

/-- What settles is among what was claimed. -/
theorem survivors_sublist {outputs all now : Outputs} (h : List.Forall₂ (Outcome outputs) all now) :
    (survivors now).Sublist (survivors all) := by
  induction h with
  | nil => exact List.Sublist.slnil
  | cons hab _ ih =>
    cases hab with
    | failed => exact ih
    | kept => exact ih.cons_cons _
    | blamed _ _ => exact ih.cons _

/-- Survivors have their names to themselves. -/
theorem nodup_namesIn_settled (graph : Graph) (standard package : String) :
    (namesIn (settled graph standard) package).Nodup := by
  have hsub : (survivors (settled graph standard)).Sublist (survivors (claimed graph standard)) :=
    survivors_sublist (outcome_of_settles (settles_propagate _))
  exact (nodup_namesIn_claimNames _ package).sublist ((hsub.filter _).flatMap _)

/-- What had survived settles by itself. -/
theorem settled_generatedOf (h : compile graph standard = .ok c) (hedges : c.EdgesGenerated graph) :
    settled (c.generatedOf graph) standard = outputsOf (survivors (settled graph standard)) := by
  have hnodup : ∀ package, (namesIn (outputsOf (survivors (settled graph standard))) package).Nodup := by
    intro package
    rw [namesIn, survivors_outputsOf]
    exact nodup_namesIn_settled graph standard package
  have hnone : failedNames (outputsOf (survivors (settled graph standard))) = [] := by
    rw [failedNames, outputsOf, List.filterMap_map, List.filterMap_eq_nil_iff]
    rintro ⟨name, o⟩ _
    rfl
  rw [settled, buildAll_generatedOf h hedges, claimNames_of_nodup hnodup, propagate_of_none_failed hnone]

/-! ## Whole graphs -/

/-- The survivors of a compilation do not depend on what failed or was skipped: where their
    edges lead to one another, they compile by themselves, all of them, in the packages they had,
    into the same units, files and descriptor set. -/
theorem compile_generatedOf (h : compile graph standard = .ok c) (hedges : c.EdgesGenerated graph) :
    ∃ c', compile (c.generatedOf graph) standard = .ok c' ∧
      (∀ e ∈ (c.generatedOf graph).entities, c'.Generated e.name ∧ c'.status? e.name = c.status? e.name) ∧
      c'.units = c.units ∧ c'.files = c.files ∧ c'.set = c.set := by
  obtain ⟨hunits, hset, _⟩ := compile_ok h
  have hsettled := settled_generatedOf h hedges
  have hgroup : group (settled (c.generatedOf graph) standard) = c.units := by
    rw [hsettled, hunits, group_eq, group_eq, survivors_outputsOf]
  obtain ⟨c', hc'⟩ := exists_compiled_iff.mpr ⟨c.set, (congrArg assemble hgroup).trans hset⟩
  obtain ⟨hunits', hset', _⟩ := compile_ok hc'
  have hsame : c'.units = c.units := hunits'.trans hgroup
  refine ⟨c', hc', ?_, hsame, congrArg Assembly.paths hsame, ?_⟩
  · intro e he
    obtain ⟨p, hp⟩ : c.Generated e.name := of_decide_eq_true (List.mem_filter.mp he).2
    obtain ⟨o, ho, hpackage⟩ := (status_generated_iff h).mp hp
    have ho' : (e.name, .ok o) ∈ settled (c.generatedOf graph) standard := by
      rw [hsettled]
      exact List.mem_map_of_mem (mem_survivors.mpr ho)
    have hp' := (status_generated_iff hc').mpr ⟨o, ho', hpackage⟩
    exact ⟨⟨p, hp'⟩, hp'.trans hp.symm⟩
  · rw [hsame, hset] at hset'
    exact (Except.ok.inj hset').symm

theorem compile_generatedOf_mixedGraph : ∃ c, compile mixedGraph standardPackage = .ok c ∧ c.EdgesGenerated mixedGraph ∧
    (c.generatedOf mixedGraph).entities.map (·.name) = ["User", "Team", "Note"] ∧
    ∃ c', compile (c.generatedOf mixedGraph) standardPackage = .ok c' ∧
      (∀ e ∈ (c.generatedOf mixedGraph).entities, c'.Generated e.name ∧ c'.status? e.name = c.status? e.name) ∧
      c'.units = c.units ∧ c'.files = c.files ∧ c'.set = c.set := by
  have h : (compileApart mixedGraph standardPackage).toOption.any (fun c => Assembly.namesApart c.set &&
      decide (c.EdgesGenerated mixedGraph ∧ (c.generatedOf mixedGraph).entities.map (·.name) = ["User", "Team", "Note"])) =
        true := by decide +kernel
  obtain ⟨c, hc, hboth⟩ := exists_compiled_of_apart h
  obtain ⟨hedges, hnames⟩ := of_decide_eq_true hboth
  exact ⟨c, hc, hedges, hnames, compile_generatedOf hc hedges⟩

end Compilation

end Protograph
