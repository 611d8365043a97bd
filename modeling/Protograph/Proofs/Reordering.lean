/-
  Protograph.Proofs.Reordering — the entities of a graph in another order.

  What an entity is built into does not depend on where it stands. Names go to whoever comes
  first, and of two packages with one path the first has the file; where no two outputs of a
  package have a name in common and no two packages have a path in common, nothing is left
  that could depend on the order: who fails, and for what, is the same after every round.

  Proved, for every graph and every order of its entities:
  - `buildAll_perm`, `claimed_perm`, `propagate_perm`: each pass gives the same, in the other
    order.
  - `rearranged_group`: units hold the same, in another order.
  - `compile_perm`: the graph compiles in one order if and only if it does in the other, and
    then with the same outcome for every entity and the same contents for every unit.
-/

import Protograph.Proofs.Arrangement
import Protograph.Proofs.Claiming
import Protograph.Proofs.Dependence
import Protograph.Proofs.Fatal
import Protograph.Proofs.Grouping

namespace Protograph

open Compilation in
/-- No two packages of a graph have one path. -/
def Graph.PathsApart (graph : Graph) (standard : String) : Prop :=
  ∀ p ∈ (packagesOf graph standard).map (·.2), ∀ q ∈ (packagesOf graph standard).map (·.2), pathOf p = pathOf q → p = q

instance (graph : Graph) (standard : String) : Decidable (graph.PathsApart standard) :=
  inferInstanceAs (Decidable (∀ p ∈ _, ∀ q ∈ _, pathOf p = pathOf q → p = q))

/-- The same came of two graphs: of every entity, and in every unit but for the order. -/
structure Compiled.Matches (c c' : Compiled) : Prop where
  outcomes : ∀ name, c.status? name = c'.status? name
  units : Rearranged c.units c'.units

namespace Compilation

variable {graph graph' : Graph} {standard : String} {outputs outputs' : Outputs}

/-! ## What is built -/

theorem packagesOf_perm (h : graph.entities.Perm graph'.entities) :
    (packagesOf graph standard).Perm (packagesOf graph' standard) :=
  h.filterMap _

theorem alike_of_perm (h : graph.entities.Perm graph'.entities) (name : String) :
    Alike graph graph' (packagesOf graph standard) (packagesOf graph' standard) name where
  known := by
    rw [Bool.eq_iff_iff, isNone_entity?, isNone_entity?, (h.map _).mem_iff]
  package := Table.get?_perm (keys_packagesOf_nodup graph standard) (packagesOf_perm h) name

/-- Every entity is built into the same, whatever the order. -/
theorem buildAll_perm (h : graph.entities.Perm graph'.entities) :
    (buildAll graph (packagesOf graph standard)).Perm (buildAll graph' (packagesOf graph' standard)) := by
  rw [buildAll_eq, buildAll_eq]
  simp only [buildEntity_congr (alike_of_perm h)]
  exact h.filterMap _

/-! ## Names -/

theorem survivors_perm (h : outputs.Perm outputs') : (survivors outputs).Perm (survivors outputs') := h.filterMap _

theorem namesApart_perm (h : outputs.Perm outputs') (hapart : NamesApart outputs) : NamesApart outputs' := by
  refine (survivors_perm h).pairwise hapart ?_
  intro a b hab hpackage name hb ha
  exact hab hpackage.symm name ha hb

theorem claimed_perm (h : graph.entities.Perm graph'.entities)
    (hapart : NamesApart (buildAll graph (packagesOf graph standard))) :
    (claimed graph standard).Perm (claimed graph' standard) := by
  have hbuilt : (buildAll graph (packagesOf graph standard)).Perm (buildAll graph' (packagesOf graph' standard)) :=
    buildAll_perm h
  unfold claimed
  rw [claimNames_of_apart hapart, claimNames_of_apart (namesApart_perm hbuilt hapart)]
  exact hbuilt.map _

/-! ## Failure -/

theorem spreadTo_congr {failed failed' : List String} (h : ∀ t, t ∈ failed ↔ t ∈ failed') :
    spreadTo failed = spreadTo failed' := by
  have hcontains : (fun t => failed.contains t) = fun t => failed'.contains t := by
    funext t
    rw [Bool.eq_iff_iff, List.contains_iff_mem, List.contains_iff_mem, h t]
  funext e r
  unfold spreadTo
  rw [hcontains]

theorem mem_failedNames_perm (h : outputs.Perm outputs') (t : String) :
    t ∈ failedNames outputs ↔ t ∈ failedNames outputs' :=
  (h.filterMap _).mem_iff

theorem spread_perm (h : outputs.Perm outputs') : (spread outputs).Perm (spread outputs') := by
  unfold spread
  rw [spreadTo_congr (mem_failedNames_perm h)]
  exact h.map _

theorem spread_fixed_perm (h : outputs.Perm outputs') (hfixed : spread outputs = outputs) :
    spread outputs' = outputs' := by
  rw [spread_eq_self_iff] at hfixed ⊢
  intro entry hentry
  rw [← spreadTo_congr (mem_failedNames_perm h)]
  exact hfixed entry (h.mem_iff.mpr hentry)

/-- Round after round, the order of the entries makes no difference to what becomes of them. -/
theorem settles_perm {now : Outputs} (hrun : Settles outputs now) (h : outputs.Perm outputs') :
    ∃ now', Settles outputs' now' ∧ now.Perm now' := by
  induction hrun generalizing outputs' with
  | done hfixed => exact ⟨outputs', .done (spread_fixed_perm h hfixed), h⟩
  | round hmoves _ ih =>
    obtain ⟨now', hrun', hnow⟩ := ih (spread_perm h)
    exact ⟨now', .round (fun hfixed => hmoves (spread_fixed_perm h.symm hfixed)) hrun', hnow⟩

theorem propagate_perm (h : outputs.Perm outputs') : (propagate outputs).Perm (propagate outputs') := by
  obtain ⟨now', hrun', hnow⟩ := settles_perm (settles_propagate outputs) h
  rwa [(settles_propagate outputs').unique hrun']

theorem settled_perm (h : graph.entities.Perm graph'.entities)
    (hapart : NamesApart (buildAll graph (packagesOf graph standard))) :
    (settled graph standard).Perm (settled graph' standard) :=
  propagate_perm (claimed_perm h hapart)

/-! ## Units -/

theorem sameContents_unitOf {outs outs' : Table EntityOutput} (h : outs.Perm outs') (package : String) :
    (unitOf outs package).SameContents (unitOf outs' package) := by
  have hwithin : (within outs package).Perm (within outs' package) := h.filter _
  refine ⟨rfl, hwithin.flatMap_right _, hwithin.flatMap_right _, fun i => ?_, hwithin.map _⟩
  unfold unitOf
  rw [mem_addAll, mem_addAll, (hwithin.flatMap_right _).mem_iff]

theorem packagesIn_perm {outs outs' : Table EntityOutput} (h : outs.Perm outs') :
    (packagesIn outs).Perm (packagesIn outs') := by
  refine (List.perm_ext_iff_of_nodup (nodup_addAll List.nodup_nil _) (nodup_addAll List.nodup_nil _)).mpr fun p => ?_
  rw [mem_addAll, mem_addAll, (h.map _).mem_iff]

/-- The units of outputs in another order hold the same, in another order. -/
theorem rearranged_group (h : outputs.Perm outputs') : Rearranged (group outputs) (group outputs') := by
  rw [group_eq, group_eq]
  refine ⟨(packagesIn (survivors outputs)).map (unitOf (survivors outputs')), ?_, (packagesIn_perm (survivors_perm h)).map _⟩
  rw [List.forall₂_map_left_iff, List.forall₂_map_right_iff, List.forall₂_same]
  exact fun package _ => sameContents_unitOf (survivors_perm h) package

/-- Every unit is of a package of the graph. -/
theorem package_of_unit {u : PackageUnit} (hu : u ∈ unitsOf graph standard) :
    u.package ∈ (packagesOf graph standard).map (·.2) := by
  obtain ⟨p, hp, rfl⟩ := mem_unitsOf.mp hu
  obtain ⟨name, o, ho, rfl⟩ := mem_packagesIn.mp hp
  exact List.mem_map_of_mem (Table.mem_of_get? (package_of_settled (mem_survivors.mp ho)))

theorem paths_unitsOf_nodup (h : graph.PathsApart standard) : ((unitsOf graph standard).map (·.path)).Nodup := by
  have hpackages : ((unitsOf graph standard).map (·.package)).Nodup := packages_group_nodup _
  have hpaths : (unitsOf graph standard).map (·.path) = ((unitsOf graph standard).map (·.package)).map pathOf := by
    rw [List.map_map]
    rfl
  rw [hpaths]
  refine hpackages.map_on fun p hp q hq => ?_
  obtain ⟨u, hu, rfl⟩ := List.mem_map.mp hp
  obtain ⟨v, hv, rfl⟩ := List.mem_map.mp hq
  exact h _ (package_of_unit hu) _ (package_of_unit hv)

/-! ## Whole graphs -/

theorem exists_compiled_of_perm (h : graph.entities.Perm graph'.entities)
    (hapart : NamesApart (buildAll graph (packagesOf graph standard))) (hpaths : graph.PathsApart standard)
    (hok : ∃ c, compile graph standard = .ok c) : ∃ c', compile graph' standard = .ok c' := by
  rw [exists_compiled_iff] at hok ⊢
  exact Assembly.exists_assembled_of_rearranged (paths_unitsOf_nodup hpaths) (rearranged_group (settled_perm h hapart)) hok

theorem statusOf_perm (hkeys : outputs.keys.Nodup) (h : outputs.Perm outputs') (e : Entity) :
    statusOf outputs e = statusOf outputs' e := by
  unfold statusOf
  rw [Table.get?_perm hkeys h]

/-- Where no two outputs of a package have a name in common, and no two packages a path, the
    order of the entities of a graph makes no difference to whether it compiles, to what comes
    of each entity, and to what is in each unit. -/
theorem compile_perm (h : graph.entities.Perm graph'.entities)
    (hapart : NamesApart (buildAll graph (packagesOf graph standard))) (hpaths : graph.PathsApart standard) :
    ((∃ c, compile graph standard = .ok c) ↔ ∃ c', compile graph' standard = .ok c') ∧
      ∀ c c', compile graph standard = .ok c → compile graph' standard = .ok c' → c.Matches c' := by
  have hapart' := namesApart_perm (buildAll_perm h) hapart
  have hpaths' : graph'.PathsApart standard := by
    intro p hp q hq
    rw [← ((packagesOf_perm h).map _).mem_iff] at hp hq
    exact hpaths p hp q hq
  refine ⟨⟨exists_compiled_of_perm h hapart hpaths, exists_compiled_of_perm h.symm hapart' hpaths'⟩, ?_⟩
  intro c c' hc hc'
  obtain ⟨hunits, _, hstatuses⟩ := compile_ok hc
  obtain ⟨hunits', _, hstatuses'⟩ := compile_ok hc'
  have hsettled : (settled graph standard).Perm (settled graph' standard) := settled_perm h hapart
  refine ⟨?_, ?_⟩
  · have hperm : c.statuses.Perm c'.statuses := by
      rw [hstatuses, hstatuses']
      simp only [← statusOf_perm (keys_settled_nodup graph standard) hsettled]
      exact h.map _
    exact fun name => Table.get?_perm (nodup_statuses hc) hperm name
  · rw [hunits, hunits']
    exact rearranged_group hsettled

/-- The entities of the mixed graph, the second half first. -/
def turnedGraph : Graph := ⟨mixedGraph.entities.drop 3 ++ mixedGraph.entities.take 3, by decide⟩

theorem compile_perm_turnedGraph :
    mixedGraph.entities.Perm turnedGraph.entities ∧
    NamesApart (buildAll mixedGraph (packagesOf mixedGraph standardPackage)) ∧ mixedGraph.PathsApart standardPackage ∧
    ∃ c c', compile mixedGraph standardPackage = .ok c ∧ compile turnedGraph standardPackage = .ok c' ∧
      c.units.map (·.entities) = [["User", "Note"], ["Team"]] ∧
      c'.units.map (·.entities) = [["Team"], ["Note", "User"]] ∧ c.Matches c' := by
  have hperm : mixedGraph.entities.Perm turnedGraph.entities := by
    show (mixedGraph.entities.take 3 ++ mixedGraph.entities.drop 3).Perm _
    exact List.perm_append_comm
  have hapart : NamesApart (buildAll mixedGraph (packagesOf mixedGraph standardPackage)) := by decide +kernel
  have hpaths : mixedGraph.PathsApart standardPackage := by decide +kernel
  have h : (compileApart mixedGraph standardPackage).toOption.any (fun c => Assembly.namesApart c.set &&
      decide (c.units.map (·.entities) = [["User", "Note"], ["Team"]])) = true := by decide +kernel
  have h' : (compileApart turnedGraph standardPackage).toOption.any (fun c => Assembly.namesApart c.set &&
      decide (c.units.map (·.entities) = [["Team"], ["Note", "User"]])) = true := by decide +kernel
  obtain ⟨c, hc, hentities⟩ := exists_compiled_of_apart h
  obtain ⟨c', hc', hentities'⟩ := exists_compiled_of_apart h'
  obtain ⟨_, hmatches⟩ := compile_perm hperm hapart hpaths
  exact ⟨hperm, hapart, hpaths, c, c', hc, hc', of_decide_eq_true hentities, of_decide_eq_true hentities',
    hmatches c c' hc hc'⟩

end Compilation

end Protograph
