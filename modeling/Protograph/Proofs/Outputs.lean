/-
  Protograph.Proofs.Outputs — the outputs of a graph, from what is built to what comes out.

  Every entity that asks for a message has one entry, under its own name, and keeps it:
  names are claimed (`Claimed`) and failure spreads (`Outcome`) entry by entry. So an output
  that settles is one that was built (`built_of_settled`), and an entity is generated if and
  only if it has one (`generated_iff`).
-/

import Protograph.Compile.Query
import Protograph.Proofs.EntityOutput
import Protograph.Proofs.Failure

namespace Protograph

/-- Some things have keys, and some of them values: the table of these has no other keys. -/
theorem Table.keys_filterMap_sublist {α β : Type} (key : β → String) (value : β → Option α) (xs : List β) :
    (Table.keys (xs.filterMap fun x => (value x).map (key x, ·))).Sublist (xs.map key) := by
  rw [Table.keys, List.map_filterMap]
  refine filterMap_sublist_map (fun x k hk => ?_) xs
  obtain ⟨_, hentry, rfl⟩ := Option.map_eq_some_iff.mp hk
  obtain ⟨_, _, rfl⟩ := Option.map_eq_some_iff.mp hentry
  rfl

namespace Compilation

variable {graph : Graph} {standard : String}

/-! ## Packages -/

theorem mem_packagesOf {name package : String} :
    (name, package) ∈ packagesOf graph standard ↔
      ∃ e ∈ graph.entities, e.name = name ∧ e.package? standard = some package := by
  unfold packagesOf
  simp only [List.mem_filterMap, Option.map_eq_some_iff, Prod.mk.injEq]
  constructor
  · intro h
    obtain ⟨e, he, p, hp, rfl, rfl⟩ := h
    exact ⟨e, he, rfl, hp⟩
  · intro h
    obtain ⟨e, he, rfl, hp⟩ := h
    exact ⟨e, he, package, hp, rfl, rfl⟩

theorem keys_packagesOf_nodup (graph : Graph) (standard : String) : (packagesOf graph standard).keys.Nodup :=
  (Table.keys_filterMap_sublist Entity.name (Entity.package? · standard) graph.entities).nodup graph.names_nodup

theorem packagesOf_get?_eq_some {name package : String} :
    (packagesOf graph standard).get? name = some package ↔
      ∃ e ∈ graph.entities, e.name = name ∧ e.package? standard = some package := by
  rw [Table.get?_eq_some (keys_packagesOf_nodup graph standard), mem_packagesOf]

/-- The package of an entity of the graph is the one it asks for, if it does. -/
theorem packagesOf_get?_of_mem {e : Entity} (he : e ∈ graph.entities) :
    (packagesOf graph standard).get? e.name = e.package? standard := by
  ext package
  rw [packagesOf_get?_eq_some]
  constructor
  · intro h
    obtain ⟨e', he', hname, hpackage⟩ := h
    obtain rfl : e' = e := List.inj_on_of_nodup_map graph.names_nodup he' he hname
    exact hpackage
  · intro hpackage
    exact ⟨e, he, rfl, hpackage⟩

/-! ## What is built -/

theorem buildAll_eq (graph : Graph) (standard : String) :
    buildAll graph (packagesOf graph standard) = graph.entities.filterMap fun e =>
      (e.package? standard).map fun p => (e.name, buildEntity e p graph (packagesOf graph standard)) := by
  refine List.filterMap_congr fun e he => ?_
  rw [packagesOf_get?_of_mem he]

theorem mem_buildAll {packages : Table String} {name : String} {r : Except EntityError EntityOutput} :
    (name, r) ∈ buildAll graph packages ↔
      ∃ e ∈ graph.entities, e.name = name ∧
        ∃ package, packages.get? name = some package ∧ r = buildEntity e package graph packages := by
  unfold buildAll
  simp only [List.mem_filterMap, Option.map_eq_some_iff, Prod.mk.injEq]
  constructor
  · intro h
    obtain ⟨e, he, p, hp, rfl, rfl⟩ := h
    exact ⟨e, he, rfl, p, hp, rfl⟩
  · intro h
    obtain ⟨e, he, rfl, p, hp, rfl⟩ := h
    exact ⟨e, he, p, hp, rfl, rfl⟩

/-- What is built comes in the order of the graph. -/
theorem keys_buildAll_sublist (graph : Graph) (packages : Table String) :
    (buildAll graph packages).keys.Sublist (graph.entities.map (·.name)) := by
  have hmap : buildAll graph packages = graph.entities.filterMap fun e =>
      ((packages.get? e.name).map fun p => buildEntity e p graph packages).map (e.name, ·) := by
    unfold buildAll
    simp only [Option.map_map, Function.comp_def]
  rw [hmap]
  exact Table.keys_filterMap_sublist _ _ graph.entities

theorem keys_buildAll_nodup (graph : Graph) (packages : Table String) : (buildAll graph packages).keys.Nodup :=
  (keys_buildAll_sublist graph packages).nodup graph.names_nodup

/-! ## Names -/

/-- What claiming names may make of an entry: nothing else, or the loss of a name. -/
inductive Claimed : String × Except EntityError EntityOutput → String × Except EntityError EntityOutput → Prop
  | failed {e : String} {x : EntityError} : Claimed (e, .error x) (e, .error x)
  | kept {e : String} {o : EntityOutput} : Claimed (e, .ok o) (e, .ok o)
  | taken {e name : String} {o : EntityOutput} : Claimed (e, .ok o) (e, .error (.nameConflict o.package name))

theorem claimed_claimFrom (claimed : List (String × String)) (outputs : Outputs) :
    List.Forall₂ Claimed outputs (claimFrom claimed outputs) := by
  induction outputs generalizing claimed with
  | nil => exact .nil
  | cons entry rest ih =>
    obtain ⟨e, r⟩ := entry
    cases r with
    | error x => exact .cons .failed (ih claimed)
    | ok o =>
      unfold claimFrom
      dsimp only
      split
      · exact .cons .taken (ih _)
      · exact .cons .kept (ih _)

theorem claimed_claimNames (outputs : Outputs) : List.Forall₂ Claimed outputs (claimNames outputs) :=
  claimed_claimFrom [] outputs

theorem keys_claimNames (outputs : Outputs) : (claimNames outputs).keys = Table.keys outputs := by
  have h := claimed_claimNames outputs
  generalize claimNames outputs = now at h
  induction h with
  | nil => rfl
  | cons hab _ ih =>
    simp only [Table.keys, List.map_cons] at ih ⊢
    rw [ih]
    cases hab <;> rfl

/-! ## What settles -/

/-- What every entity that asks for a message has once names are claimed. -/
def claimed (graph : Graph) (standard : String) : Outputs :=
  claimNames (buildAll graph (packagesOf graph standard))

theorem settled_eq (graph : Graph) (standard : String) :
    settled graph standard = propagate (claimed graph standard) := rfl

theorem keys_claimed_nodup (graph : Graph) (standard : String) : (claimed graph standard).keys.Nodup := by
  unfold claimed
  rw [keys_claimNames]
  exact keys_buildAll_nodup _ _

theorem keys_settled (graph : Graph) (standard : String) :
    (settled graph standard).keys = (claimed graph standard).keys :=
  keys_eq_of_outcome (outcome_of_settles (settles_propagate _))

theorem keys_settled_nodup (graph : Graph) (standard : String) : (settled graph standard).keys.Nodup := by
  rw [keys_settled]
  exact keys_claimed_nodup graph standard

/-- Something settles for an entity of the graph if and only if it asks for a message. -/
theorem mem_keys_settled {e : Entity} (he : e ∈ graph.entities) :
    e.name ∈ (settled graph standard).keys ↔ (e.package? standard).isSome = true := by
  rw [keys_settled, claimed, keys_claimNames, ← packagesOf_get?_of_mem he]
  constructor
  · intro hkey
    obtain ⟨⟨_, r⟩, hr, rfl⟩ := List.mem_map.mp hkey
    obtain ⟨_, _, _, p, hp, _⟩ := mem_buildAll.mp hr
    rw [hp]
    rfl
  · intro hsome
    obtain ⟨p, hp⟩ := Option.isSome_iff_exists.mp hsome
    exact Table.mem_keys (mem_buildAll.mpr ⟨e, he, rfl, p, hp, rfl⟩)

/-- An output that settles is one that was built. -/
theorem built_of_settled {name : String} {o : EntityOutput} (h : (name, .ok o) ∈ settled graph standard) :
    ∃ e ∈ graph.entities, e.name = name ∧ e.package? standard = some o.package ∧
      buildEntity e o.package graph (packagesOf graph standard) = .ok o := by
  rw [settled_eq] at h
  obtain ⟨_, hclaimed, hout⟩ := exists_of_forall₂_right (outcome_of_settles (settles_propagate _)) h
  cases hout
  obtain ⟨_, hbuilt, hclaim⟩ := exists_of_forall₂_right (claimed_claimNames _) hclaimed
  cases hclaim
  obtain ⟨e, he, rfl, p, hp, hbuild⟩ := mem_buildAll.mp hbuilt
  obtain ⟨_, _, _, _, hpackage, _, _⟩ := buildEntity_ok hbuild.symm
  obtain ⟨e', he', hname, hp'⟩ := packagesOf_get?_eq_some.mp hp
  have hsame : e' = e := List.inj_on_of_nodup_map graph.names_nodup he' he hname
  subst hsame
  rw [hpackage]
  exact ⟨e', he, rfl, hp', hbuild.symm⟩

theorem package_of_settled {name : String} {o : EntityOutput} (h : (name, .ok o) ∈ settled graph standard) :
    (packagesOf graph standard).get? name = some o.package := by
  obtain ⟨e, he, hname, hpackage, _⟩ := built_of_settled h
  exact packagesOf_get?_eq_some.mpr ⟨e, he, hname, hpackage⟩

/-- The output that an entity of the graph settles with is its own. -/
theorem buildEntity_of_settled {e : Entity} {o : EntityOutput} (he : e ∈ graph.entities)
    (h : (e.name, .ok o) ∈ settled graph standard) :
    buildEntity e o.package graph (packagesOf graph standard) = .ok o := by
  obtain ⟨e', he', hname, _, hbuilt⟩ := built_of_settled h
  obtain rfl : e' = e := List.inj_on_of_nodup_map graph.names_nodup he' he hname
  exact hbuilt

/-- Of the entities that ask for a message exactly those that are not doomed have an output
    in the end. -/
theorem settled_iff_not_doomed {name : String} (h : name ∈ (packagesOf graph standard).keys) :
    (∃ o, (name, .ok o) ∈ settled graph standard) ↔ ¬ Doomed (claimed graph standard) name := by
  have hrun := settles_propagate (claimed graph standard)
  rw [settled_eq]
  constructor
  · intro hparts
    obtain ⟨o, ho⟩ := hparts
    exact not_doomed_of_ok (keys_claimed_nodup graph standard) hrun ho
  · intro hd
    obtain ⟨⟨n, p⟩, hnp, rfl⟩ := List.mem_map.mp h
    obtain ⟨e, he, rfl, hp⟩ := mem_packagesOf.mp hnp
    have hkey : e.name ∈ (settled graph standard).keys := (mem_keys_settled he).mpr (Option.isSome_of_eq_some hp)
    obtain ⟨⟨_, r⟩, hr, rfl⟩ := List.mem_map.mp hkey
    cases r with
    | ok o => exact ⟨o, hr⟩
    | error x => exact absurd ((failed_iff_doomed hrun _).mp (mem_failedNames.mpr ⟨x, hr⟩)) hd

end Compilation

/-! ## Outcomes -/

/-- The entity has come out of the compilation with its output. -/
def Compiled.Generated (c : Compiled) (entity : String) : Prop :=
  ∃ package, c.status? entity = some (.generated package)

instance (c : Compiled) (entity : String) : Decidable (c.Generated entity) :=
  match h : c.status? entity with
  | some (.generated package) => isTrue ⟨package, h⟩
  | some .skipped | some (.failed _) | none => isFalse fun ⟨_, hp⟩ => by rw [h] at hp; cases hp

open Compilation in
theorem compile_ok {graph : Graph} {standard : String} {c : Compiled} (h : compile graph standard = .ok c) :
    c.units = group (settled graph standard) ∧ assemble c.units = .ok c.set ∧
      c.statuses = graph.entities.map fun e => (e.name, statusOf (settled graph standard) e) := by
  unfold compile at h
  obtain ⟨set, hset, h⟩ := bind_eq_ok.mp h
  cases h
  exact ⟨rfl, hset, rfl⟩

theorem keys_statuses {graph : Graph} {standard : String} {c : Compiled} (h : compile graph standard = .ok c) :
    c.statuses.keys = graph.entities.map (·.name) := by
  obtain ⟨_, _, hstatuses⟩ := compile_ok h
  rw [hstatuses, Table.keys, List.map_map]
  rfl

theorem nodup_statuses {graph : Graph} {standard : String} {c : Compiled} (h : compile graph standard = .ok c) :
    c.statuses.keys.Nodup :=
  keys_statuses h ▸ graph.names_nodup

/-- What has an outcome is an entity of the graph. -/
theorem entity_of_status {graph : Graph} {standard : String} {c : Compiled} (h : compile graph standard = .ok c)
    {name : String} {s : Status} (hs : c.status? name = some s) : ∃ e ∈ graph.entities, e.name = name := by
  have hkey : name ∈ graph.entities.map (·.name) := keys_statuses h ▸ Table.mem_keys (Table.mem_of_get? hs)
  exact List.mem_map.mp hkey

open Compilation in
theorem status?_eq {graph : Graph} {standard : String} {c : Compiled} (h : compile graph standard = .ok c) {e : Entity}
    (he : e ∈ graph.entities) : c.status? e.name = some (statusOf (settled graph standard) e) := by
  obtain ⟨_, _, hstatuses⟩ := compile_ok h
  unfold Compiled.status?
  rw [Table.get?_eq_some (nodup_statuses h), hstatuses]
  exact List.mem_map_of_mem he

open Compilation in
/-- An entity is generated in a package if and only if it has an output for it in the end. -/
theorem status_generated_iff {graph : Graph} {standard : String} {c : Compiled} (h : compile graph standard = .ok c)
    {name package : String} : c.status? name = some (.generated package) ↔
      ∃ o, (name, .ok o) ∈ settled graph standard ∧ o.package = package := by
  constructor
  · intro hp
    obtain ⟨e, he, rfl⟩ := entity_of_status h hp
    have hs := Option.some.inj ((status?_eq h he).symm.trans hp)
    unfold statusOf at hs
    split at hs
    · cases hs
    · cases hs
    · rename_i o ho
      cases hs
      exact ⟨o, Table.mem_of_get? ho, rfl⟩
  · intro hparts
    obtain ⟨o, ho, rfl⟩ := hparts
    obtain ⟨e, he, rfl, _⟩ := built_of_settled ho
    rw [status?_eq h he, statusOf, (Table.get?_eq_some (keys_settled_nodup graph standard)).mpr ho]

open Compilation in
/-- An entity is generated if and only if it has an output in the end. -/
theorem generated_iff {graph : Graph} {standard : String} {c : Compiled} (h : compile graph standard = .ok c)
    {name : String} : c.Generated name ↔ ∃ o, (name, .ok o) ∈ settled graph standard := by
  unfold Compiled.Generated
  simp only [status_generated_iff h]
  exact ⟨fun ⟨_, o, ho, _⟩ => ⟨o, ho⟩, fun ⟨o, ho⟩ => ⟨_, o, ho, rfl⟩⟩

end Protograph
