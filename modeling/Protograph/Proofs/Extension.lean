/-
  Protograph.Proofs.Extension — more entities at the end of a graph.

  Entities that come later can claim no name before those that are there, and those that are
  there refer to one another only, if none of them has failed. So nothing that comes later is
  noticed by them, whatever it is, whether it fails, and whatever names it brings.

  Proved, where nothing of the shorter graph has failed:
  - `buildAll_append`: what was built is built again, and what is new comes after it.
  - `settled_append`: claiming names and failing keep it so.
  - `continues_unitOf`: a unit goes on where it ended.
  - `compile_append`: if the longer graph compiles, every entity of the shorter one has the
    outcome that it had, and the units that were there come first and go on where they ended.
-/

import Protograph.Proofs.Claiming
import Protograph.Proofs.Dependence
import Protograph.Proofs.Fatal
import Protograph.Proofs.Grouping

namespace Protograph

/-- A unit of the same package in which all that is in the first comes first. -/
structure PackageUnit.Continues (u v : PackageUnit) : Prop where
  package : v.package = u.package
  messages : u.messages <+: v.messages
  services : u.services <+: v.services
  imports : u.imports <+: v.imports
  entities : u.entities <+: v.entities

/-- What came of a graph comes first in what came of another one. -/
structure Compiled.Continues (c c' : Compiled) : Prop where
  outcomes : c.statuses <+: c'.statuses
  units : ∃ units more, c'.units = units ++ more ∧ List.Forall₂ PackageUnit.Continues c.units units

namespace Compilation

variable {graph graph' : Graph} {standard : String} {more : List Entity} {c : Compiled}

/-! ## Nothing has failed -/

/-- Where no entity has failed, everything has settled with output. -/
theorem ok_of_no_errors (h : compile graph standard = .ok c) (hnone : c.errors = [])
    {entry : String × Except EntityError EntityOutput} (hentry : entry ∈ settled graph standard) :
    ∃ o, entry = (entry.1, .ok o) := by
  obtain ⟨name, r⟩ := entry
  cases r with
  | ok o => exact ⟨o, rfl⟩
  | error x =>
    have hkey : name ∈ graph.entities.map (·.name) := (keys_settled_sublist graph standard).subset (Table.mem_keys hentry)
    obtain ⟨e, he, rfl⟩ := List.mem_map.mp hkey
    have hstatus : statusOf (settled graph standard) e = .failed x := by
      rw [statusOf, (Table.get?_eq_some (keys_settled_nodup graph standard)).mpr hentry]
    obtain ⟨_, _, hstatuses⟩ := compile_ok h
    have hin : (e.name, x) ∈ c.errors := by
      refine List.mem_filterMap.mpr ⟨(e.name, .failed x), ?_, rfl⟩
      rw [hstatuses, ← hstatus]
      exact List.mem_map_of_mem he
    rw [hnone] at hin
    cases hin

/-- Where no entity has failed, no name was lost and no failure has spread. -/
theorem settled_eq_built (h : compile graph standard = .ok c) (hnone : c.errors = []) :
    settled graph standard = buildAll graph (packagesOf graph standard) ∧
      claimed graph standard = buildAll graph (packagesOf graph standard) := by
  have hclaimed : claimed graph standard = settled graph standard := by
    refine eq_of_forall₂ (outcome_of_settles (settles_propagate _)) fun a _ b hb hab => ?_
    obtain ⟨o, he⟩ := ok_of_no_errors h hnone hb
    rw [he] at hab ⊢
    cases hab
    rfl
  have hbuilt : buildAll graph (packagesOf graph standard) = claimed graph standard := by
    refine eq_of_forall₂ (claimed_claimNames _) fun a _ b hb hab => ?_
    obtain ⟨o, he⟩ := ok_of_no_errors h hnone (hclaimed ▸ hb)
    rw [he] at hab ⊢
    cases hab
    rfl
  exact ⟨(hbuilt.trans hclaimed).symm, hbuilt.symm⟩

/-- What has settled refers to what has settled only. -/
theorem settled_of_references {name : String} {o : EntityOutput} (ho : (name, .ok o) ∈ settled graph standard) {t : String}
    (ht : t ∈ o.references.entities) : ∃ o', (t, .ok o') ∈ settled graph standard := by
  obtain ⟨e, he, rfl, _, hbuilt⟩ := built_of_settled ho
  obtain ⟨x, hx, m, hread, hentity⟩ := ((records_of_buildEntity hbuilt).entities t).mp ht
  cases m with
  | entity q t' =>
    rw [NameScope.entityOf_entity] at hentity
    split at hentity
    · obtain rfl := Option.some.inj hentity
      obtain ⟨o', ho', _⟩ := settled_of_reads_entity ho he hx hread
      exact ⟨o', ho'⟩
    · cases hentity
  | _ => cases hentity

/-! ## More entities -/

theorem packagesOf_append (hmore : graph'.entities = graph.entities ++ more) {name package : String}
    (h : (packagesOf graph standard).get? name = some package) :
    (packagesOf graph' standard).get? name = some package := by
  obtain ⟨e, he, hname, hpackage⟩ := packagesOf_get?_eq_some.mp h
  exact packagesOf_get?_eq_some.mpr ⟨e, hmore ▸ List.mem_append_left _ he, hname, hpackage⟩

/-- What was built without fail is built again, ahead of what is new. -/
theorem buildAll_append (hmore : graph'.entities = graph.entities ++ more)
    (hok : ∀ entry ∈ buildAll graph (packagesOf graph standard), ∃ o, entry = (entry.1, .ok o)) :
    ∃ rest, buildAll graph' (packagesOf graph' standard) = buildAll graph (packagesOf graph standard) ++ rest := by
  rw [buildAll_eq, buildAll_eq, hmore, List.filterMap_append]
  refine ⟨_, congrArg (· ++ _) (List.filterMap_congr fun e he => ?_)⟩
  cases hpackage : e.package? standard with
  | none => rfl
  | some p =>
    have hget : (packagesOf graph standard).get? e.name = some p := by rw [packagesOf_get?_of_mem he, hpackage]
    obtain ⟨o, ho⟩ := hok _ (mem_buildAll.mpr ⟨e, he, rfl, p, hget, rfl⟩)
    have hbuilt : buildEntity e p graph (packagesOf graph standard) = .ok o := congrArg Prod.snd ho
    have hagain : buildEntity e p graph' (packagesOf graph' standard) = .ok o :=
      buildEntity_transfer hbuilt (fun _ _ _ hq => packagesOf_append hmore hq)
        (fun _ _ _ _ hread => packagesOf_append hmore hread.package_of_entity)
    rw [Option.map_some, Option.map_some, hbuilt, hagain]

/-- What had settled settles again, ahead of what is new. -/
theorem settled_append (hmore : graph'.entities = graph.entities ++ more) (h : compile graph standard = .ok c)
    (hnone : c.errors = []) : ∃ rest, settled graph' standard = settled graph standard ++ rest := by
  obtain ⟨hsettled, hclaimed⟩ := settled_eq_built h hnone
  have hok : ∀ entry ∈ buildAll graph (packagesOf graph standard), ∃ o, entry = (entry.1, .ok o) :=
    fun entry hentry => ok_of_no_errors h hnone (hsettled ▸ hentry)
  obtain ⟨back, hbuilt⟩ := buildAll_append hmore hok
  obtain ⟨rest, hrest⟩ : ∃ rest, claimed graph' standard = settled graph standard ++ rest := by
    refine ⟨claimFrom ((claimFrom [] (buildAll graph (packagesOf graph standard))).flatMap namesOf) back, ?_⟩
    have hfront : claimFrom [] (buildAll graph (packagesOf graph standard)) = settled graph standard :=
      hclaimed.trans hsettled.symm
    rw [claimed, hbuilt, claimNames, claimFrom_append, List.nil_append, hfront]
  have hkeys := keys_claimed_nodup graph' standard
  rw [hrest] at hkeys
  rw [settled_eq, hrest]
  refine propagate_append hkeys fun entry hentry => ?_
  obtain ⟨o, he⟩ := ok_of_no_errors h hnone hentry
  refine ⟨o, he, fun t ht => ?_⟩
  obtain ⟨o', ho'⟩ := settled_of_references (he ▸ hentry) ht
  exact Table.mem_keys ho'

/-! ## Units and outcomes -/

/-- A unit goes on where it ended. -/
theorem continues_unitOf (outs rest : Table EntityOutput) (package : String) :
    (unitOf outs package).Continues (unitOf (outs ++ rest) package) := by
  have hwithin : within (outs ++ rest) package = within outs package ++ within rest package := List.filter_append ..
  unfold unitOf
  rw [hwithin]
  simp only [List.flatMap_append, List.map_append, addAll_append]
  exact ⟨rfl, List.prefix_append _ _, List.prefix_append _ _, prefix_addAll _ _, List.prefix_append _ _⟩

/-- The units that were there come first, in their order. -/
theorem group_append (outputs rest : Outputs) :
    ∃ units more, group (outputs ++ rest) = units ++ more ∧ List.Forall₂ PackageUnit.Continues (group outputs) units := by
  have hsurvivors : survivors (outputs ++ rest) = survivors outputs ++ survivors rest := List.filterMap_append
  obtain ⟨packages, hpackages⟩ : packagesIn (survivors outputs) <+: packagesIn (survivors (outputs ++ rest)) := by
    rw [hsurvivors]
    unfold packagesIn
    rw [List.map_append, addAll_append]
    exact prefix_addAll _ _
  rw [group_eq, group_eq, ← hpackages, List.map_append]
  refine ⟨_, _, rfl, ?_⟩
  rw [List.forall₂_map_left_iff, List.forall₂_map_right_iff, List.forall₂_same, hsurvivors]
  exact fun package _ => continues_unitOf _ _ package

/-- What has settled once and settles again comes out the same. -/
theorem statusOf_append (hmore : graph'.entities = graph.entities ++ more) {rest : Outputs}
    (hrest : settled graph' standard = settled graph standard ++ rest) {e : Entity} (he : e ∈ graph.entities) :
    statusOf (settled graph' standard) e = statusOf (settled graph standard) e := by
  unfold statusOf
  cases hget : (settled graph standard).get? e.name with
  | some r =>
    have hin : (e.name, r) ∈ settled graph' standard := hrest ▸ List.mem_append_left _ (Table.mem_of_get? hget)
    rw [(Table.get?_eq_some (keys_settled_nodup graph' standard)).mpr hin]
  | none =>
    have hno : e.name ∉ (settled graph' standard).keys := by
      rw [mem_keys_settled (hmore ▸ List.mem_append_left _ he), ← mem_keys_settled he]
      exact Table.get?_eq_none.mp hget
    rw [Table.get?_eq_none.mpr hno]

/-- Where nothing of a graph has failed, more entities at its end disturb nothing that came of
    it: if the longer graph compiles, every entity has the outcome that it had, and the units
    that were there come first and go on where they ended. -/
theorem compile_append (hmore : graph'.entities = graph.entities ++ more) (h : compile graph standard = .ok c)
    (hnone : c.errors = []) {c' : Compiled} (h' : compile graph' standard = .ok c') : c.Continues c' := by
  obtain ⟨rest, hrest⟩ := settled_append hmore h hnone
  obtain ⟨hunits, _, hstatuses⟩ := compile_ok h
  obtain ⟨hunits', _, hstatuses'⟩ := compile_ok h'
  refine ⟨?_, ?_⟩
  · rw [hstatuses, hstatuses', hmore, List.map_append]
    have hsame : (graph.entities.map fun e => (e.name, statusOf (settled graph' standard) e)) =
        graph.entities.map fun e => (e.name, statusOf (settled graph standard) e) :=
      List.map_congr_left fun e he => by rw [statusOf_append hmore hrest he]
    rw [hsame]
    exact List.prefix_append _ _
  · rw [hunits, hunits', hrest]
    exact group_append _ _

/-- Entities of two packages, one of which refers to the other. -/
def steadyGraph : Graph :=
  ⟨[{ name := "User"
      edges := [{ name := "team", target := "Team", unique := true, annotations := { field := some { number := 2 } } }]
      annotations := { message := some {}, service := some {} } },
    { name := "Team", annotations := { message := some { package := some "corp.teams" } } },
    { name := "Audit" }], by decide⟩

/-- Two entities more: one joins a unit, and one wants the name that a service has. -/
def grownGraph : Graph :=
  ⟨steadyGraph.entities ++
    [{ name := "Badge"
       edges := [{ name := "user", target := "User", annotations := { field := some { number := 2 } } }]
       annotations := { message := some {} } },
     { name := "UserService", annotations := { message := some {} } }], by decide⟩

theorem compile_append_grownGraph : ∃ more c c', grownGraph.entities = steadyGraph.entities ++ more ∧
    compile steadyGraph standardPackage = .ok c ∧ c.errors = [] ∧ compile grownGraph standardPackage = .ok c' ∧
    c'.units.map (·.entities) = [["User", "Badge"], ["Team"]] ∧ c'.errors.keys = ["UserService"] ∧ c.Continues c' := by
  have h : (compileApart steadyGraph standardPackage).toOption.any (fun c => Assembly.namesApart c.set &&
      c.errors.isEmpty) = true := by decide +kernel
  have h' : (compileApart grownGraph standardPackage).toOption.any (fun c => Assembly.namesApart c.set &&
      decide (c.units.map (·.entities) = [["User", "Badge"], ["Team"]] ∧ c.errors.keys = ["UserService"])) = true := by
    decide +kernel
  obtain ⟨c, hc, hnone⟩ := exists_compiled_of_apart h
  obtain ⟨c', hc', hboth⟩ := exists_compiled_of_apart h'
  obtain ⟨hentities, herrors⟩ := of_decide_eq_true hboth
  exact ⟨_, c, c', rfl, hc, List.isEmpty_iff.mp hnone, hc', hentities, herrors,
    compile_append rfl hc (List.isEmpty_iff.mp hnone) hc'⟩

end Compilation

end Protograph
