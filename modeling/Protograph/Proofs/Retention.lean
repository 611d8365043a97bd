/-
  Protograph.Proofs.Retention — what of the generated entities is in the descriptor set.

  Units are told apart by their packages, and files by their paths. Where several units have
  one path the first of them is in the set (`file_of_first`) and the others are lost
  (`Compiled.Overtaken`), though their entities count as generated.

  Proved, for every compilation that succeeds:
  - `retained_iff`: the set has one file of the path of each generated entity. It holds all
    that the entity gives unless the package is overtaken, and then it is the file of
    another package. Every unit has a file of its own if and only if no package is
    overtaken, and none is where packages have no slashes.
  - `unit_lost`: packages are overtaken. The paths of `corp.app.v1` and `corp/app.v1` are
    the same.
-/

import Protograph.Proofs.Consistency
import Protograph.Proofs.Grouping
import Protograph.Proofs.Paths
import Protograph.Proofs.Synthesized

namespace Protograph

/-- The file holds what an entity gives, but for the names of types. -/
def ProtoFile.Holds (f : ProtoFile) (o : EntityOutput) : Prop :=
  (∀ m ∈ o.messages, ∃ m' ∈ f.messages, m'.untyped = m.untyped) ∧
    ∀ s ∈ o.services, ∃ s' ∈ f.services, s'.untyped = s.untyped

namespace Compiled

/-- A unit of another package, but of the same path, stands before the unit of the package. -/
def Overtaken (c : Compiled) (package : String) : Prop :=
  ∃ other, other ≠ package ∧ pathOf other = pathOf package ∧ [other, package].Sublist (c.units.map (·.package))

/-- Every unit has a file of its own, among the files and in the set. -/
structure FilesApart (c : Compiled) : Prop where
  paths : ∀ u ∈ c.units, ∀ v ∈ c.units, u.package ≠ v.package → u.path ≠ v.path
  files : c.files = c.units.map (·.path)
  set : (c.set.files.map (·.package)).Perm (c.units.map (·.package))

end Compiled

/-! ## Files of paths -/

namespace Assembly

variable {units : List PackageUnit} {set : DescriptorSet}

/-- Of the units of one path the first one is in the set. -/
theorem file_of_first (h : assemble units = .ok set) {path : String} {u : PackageUnit}
    (hu : units.find? (·.path == path) = some u) : ∃ f ∈ set.files, f.untyped = u.toFile.untyped := by
  obtain ⟨_, order, horder, _, _, hfiles, _⟩ := assemble_eq_ok.mp h
  obtain ⟨_, hmem⟩ := ImportOrder.order_ok horder
  have hpath : u.path = path := eq_of_beq (List.find?_some hu :)
  have hin : path ∈ order := (hmem path).mpr (List.mem_map.mpr ⟨u, List.mem_of_find?_eq_some hu, hpath⟩)
  have hfile : u.toFile ∈ filesAt units order := List.mem_filterMap.mpr ⟨path, hin, by rw [hu]; rfl⟩
  obtain ⟨f, hf, hcanonical⟩ := exists_of_forall₂_left hfiles hfile
  exact ⟨f, hf, untyped_canonicalFile hcanonical⟩

/-- A set has one file of each of its paths. -/
theorem filter_path (h : assemble units = .ok set) {f : ProtoFile} (hf : f ∈ set.files) :
    set.all.filter (·.path == f.path) = [f] := by
  obtain ⟨_, _, _, _, _, _, hpool⟩ := assemble_eq_ok.mp h
  exact filter_of_nodup hpool.paths (List.mem_append_right _ hf)

end Assembly

namespace Compilation

open Assembly (assembleApart)

variable {graph : Graph} {standard : String} {c : Compiled}

theorem packages_nodup (h : compile graph standard = .ok c) : (c.units.map (·.package)).Nodup := by
  obtain ⟨hunits, _, _⟩ := compile_ok h
  rw [hunits]
  exact packages_group_nodup _

/-! ## Overtaking -/

/-- A package is overtaken if and only if the first unit of its path is another one. -/
theorem overtaken_iff (h : compile graph standard = .ok c) {u v : PackageUnit} (hu : u ∈ c.units)
    (hv : c.units.find? (·.path == u.path) = some v) : c.Overtaken u.package ↔ v.package ≠ u.package := by
  have hnodup := packages_nodup h
  obtain ⟨hpath, front, back, hsplit, hbefore⟩ := List.find?_eq_some_iff_append.mp hv
  have hpath : v.path = u.path := eq_of_beq hpath
  constructor
  · rintro ⟨other, hne, hother, hsub⟩ heq
    -- then `u` is the first unit of its path, and the other package cannot stand before it
    rw [hsplit, List.map_append, List.map_cons, heq] at hsub hnodup
    obtain ⟨hmiddle, _⟩ := List.nodup_cons.mp (List.nodup_middle.mp hnodup)
    obtain ⟨first, second, hpair, hfirst, hsecond⟩ := List.sublist_append_iff.mp hsub
    cases first with
    | nil =>
      obtain rfl : [other, u.package] = second := hpair
      cases hsecond with
      | cons _ hrest => exact hmiddle (List.mem_append_right _ (hrest.subset (by simp)))
      | cons_cons _ _ => exact hne rfl
    | cons x first =>
      obtain ⟨rfl, _⟩ := List.cons.inj hpair
      obtain ⟨w, hw, hpackage⟩ := List.mem_map.mp (hfirst.subset List.mem_cons_self)
      have hsame : w.path = u.path := by rw [PackageUnit.path, hpackage, hother]; rfl
      simpa [hsame] using hbefore w hw
  · intro hne
    have hnot : u ∉ front := fun hin => by simpa using hbefore u hin
    have hback : u ∈ back := by
      rw [hsplit, List.mem_append, List.mem_cons] at hu
      rcases hu with hu | rfl | hu
      · exact absurd hu hnot
      · exact absurd rfl hne
      · exact hu
    refine ⟨v.package, hne, hpath, ?_⟩
    rw [hsplit, List.map_append, List.map_cons]
    have hpair : [v.package, u.package].Sublist (v.package :: back.map (·.package)) :=
      (List.singleton_sublist.mpr (List.mem_map_of_mem hback)).cons_cons _
    exact hpair.trans (List.sublist_append_right _ _)

/-- The first unit of the path of a unit. -/
theorem exists_first {units : List PackageUnit} {u : PackageUnit} (hu : u ∈ units) :
    ∃ v, units.find? (·.path == u.path) = some v :=
  Option.isSome_iff_exists.mp (List.find?_isSome.mpr ⟨u, hu, beq_self_eq_true _⟩)

/-- Where no package is overtaken, units of distinct packages have distinct paths. -/
theorem package_eq_of_path (h : compile graph standard = .ok c) (hnone : ∀ u ∈ c.units, ¬ c.Overtaken u.package)
    {u v : PackageUnit} (hu : u ∈ c.units) (hv : v ∈ c.units) (hpath : u.path = v.path) : u.package = v.package := by
  obtain ⟨w, hw⟩ := exists_first hu
  have hwu : w.package = u.package := by
    by_contra hne
    exact hnone u hu ((overtaken_iff h hu hw).mpr hne)
  rw [hpath] at hw
  have hwv : w.package = v.package := by
    by_contra hne
    exact hnone v hv ((overtaken_iff h hv hw).mpr hne)
  exact hwu.symm.trans hwv

theorem filesApart_iff (h : compile graph standard = .ok c) :
    c.FilesApart ↔ ∀ u ∈ c.units, ¬ c.Overtaken u.package := by
  constructor
  · intro hapart u hu hover
    obtain ⟨v, hv⟩ := exists_first hu
    have hne : v.package ≠ u.package := (overtaken_iff h hu hv).mp hover
    have hpath : v.path = u.path := eq_of_beq (List.find?_some hv :)
    exact hapart.paths v (List.mem_of_find?_eq_some hv) u hu hne hpath
  · intro hnone
    obtain ⟨_, hset, _⟩ := compile_ok h
    have hpackages := packages_nodup h
    have hpaths : (c.units.map (·.path)).Nodup := by
      refine List.Nodup.map_on (fun u hu v hv hpath => ?_) hpackages.of_map
      exact List.inj_on_of_nodup_map hpackages hu hv (package_eq_of_path h hnone hu hv hpath)
    refine ⟨fun u hu v hv hne hpath => hne (package_eq_of_path h hnone hu hv hpath), Assembly.paths_eq hpaths, ?_⟩
    have hperm := (Assembly.untyped_files_perm hset hpaths).map ProtoFile.package
    rw [List.map_map, List.map_map] at hperm
    exact hperm

/-- Packages without slashes are not overtaken. -/
theorem not_overtaken_of_no_slash (hslash : ∀ u ∈ c.units, '/' ∉ u.package.toList) {u : PackageUnit} (hu : u ∈ c.units) :
    ¬ c.Overtaken u.package := by
  rintro ⟨other, hne, hpath, hsub⟩
  obtain ⟨v, hv, rfl⟩ := List.mem_map.mp (hsub.subset List.mem_cons_self)
  exact hne (pathOf_injective (hslash v hv) (hslash u hu) hpath)

/-! ## Entities -/

/-- What a generated entity gives is in the unit of its package. -/
theorem unit_of_generated (h : compile graph standard = .ok c) {e : Entity} (he : e ∈ graph.entities) {p : String}
    (hgen : c.status? e.name = some (.generated p)) :
    ∃ u ∈ c.units, u.package = p ∧ ∃ o, Gives graph standard p e o ∧ (∀ m ∈ o.messages, m ∈ u.messages) ∧
      ∀ s ∈ o.services, s ∈ u.services := by
  obtain ⟨hunits, _, _⟩ := compile_ok h
  obtain ⟨o, ho, rfl⟩ := (status_generated_iff h).mp hgen
  obtain ⟨u, hu, hpackage, hmessages, hservices⟩ := unit_of_settled ho
  exact ⟨u, hunits ▸ hu, hpackage, o, gives_of_settled he ho, hmessages, hservices⟩

/-- A file that is that of a unit but for the names of types holds what the unit holds. -/
theorem holds_of_untyped {f : ProtoFile} {u : PackageUnit} (hf : f.untyped = u.toFile.untyped) {o : EntityOutput}
    (hmessages : ∀ m ∈ o.messages, m ∈ u.messages) (hservices : ∀ s ∈ o.services, s ∈ u.services) : f.Holds o := by
  have hm : f.messages.map Message.untyped = u.messages.map Message.untyped := by
    rw [← Message.untypedAll_eq, ← Message.untypedAll_eq]
    exact congrArg ProtoFile.messages hf
  have hs : f.services.map Service.untyped = u.services.map Service.untyped := congrArg ProtoFile.services hf
  constructor
  · intro m hin
    have hmem : m.untyped ∈ f.messages.map Message.untyped := hm ▸ List.mem_map_of_mem (hmessages m hin)
    exact List.mem_map.mp hmem
  · intro s hin
    have hmem : s.untyped ∈ f.services.map Service.untyped := hs ▸ List.mem_map_of_mem (hservices s hin)
    exact List.mem_map.mp hmem

/-- The one file of the path of a generated entity. -/
theorem file_of_generated (h : compile graph standard = .ok c) {e : Entity} (he : e ∈ graph.entities) {p : String}
    (hgen : c.status? e.name = some (.generated p)) :
    ∃ f ∈ c.set.files, f.path = pathOf p ∧ (f.package = p ↔ ¬ c.Overtaken p) ∧
      (f.package = p → ∃ o, Gives graph standard p e o ∧ f.Holds o) := by
  obtain ⟨_, hset, _⟩ := compile_ok h
  obtain ⟨u, hu, rfl, o, hgives, hmessages, hservices⟩ := unit_of_generated h he hgen
  obtain ⟨v, hv⟩ := exists_first hu
  obtain ⟨f, hf, huntyped⟩ := Assembly.file_of_first hset hv
  have hpackage : f.package = v.package := congrArg ProtoFile.package huntyped
  have hpath : f.path = v.path := congrArg ProtoFile.path huntyped
  refine ⟨f, hf, hpath.trans (eq_of_beq (List.find?_some hv :)), ?_, ?_⟩
  · rw [overtaken_iff h hu hv, hpackage, not_not]
  · intro hsame
    obtain rfl : v = u :=
      List.inj_on_of_nodup_map (packages_nodup h) (List.mem_of_find?_eq_some hv) hu (hpackage.symm.trans hsame)
    exact ⟨o, hgives, holds_of_untyped huntyped hmessages hservices⟩

/-- The set has one file of the path of each generated entity. It is the file of the package
    of the entity, with all that the entity gives, if and only if the package is not
    overtaken. Files are as many as units if and only if no package is, and none is where
    packages have no slashes. -/
theorem retained_iff (h : compile graph standard = .ok c) :
    (∀ e ∈ graph.entities, ∀ p, c.status? e.name = some (.generated p) →
      ∃ f, c.set.all.filter (·.path == pathOf p) = [f] ∧ (f.package = p ↔ ¬ c.Overtaken p) ∧
        (f.package = p → ∃ o, Gives graph standard p e o ∧ f.Holds o)) ∧
    (c.FilesApart ↔ ∀ u ∈ c.units, ¬ c.Overtaken u.package) ∧
    ((∀ u ∈ c.units, '/' ∉ u.package.toList) → ∀ u ∈ c.units, ¬ c.Overtaken u.package) := by
  refine ⟨?_, filesApart_iff h, fun hslash u hu => not_overtaken_of_no_slash hslash hu⟩
  intro e he p hgen
  obtain ⟨_, hset, _⟩ := compile_ok h
  obtain ⟨f, hf, hpath, hpackage, hholds⟩ := file_of_generated h he hgen
  exact ⟨f, hpath ▸ Assembly.filter_path hset hf, hpackage, hholds⟩

/-! ## A unit that is lost -/

/-- Entities of two packages that have the same path. -/
def slashedGraph : Graph :=
  ⟨[{ name := "User", annotations := { message := some { package := some "corp.app.v1" } } },
    { name := "Team", annotations := { message := some { package := some "corp/app.v1" } } }], by decide⟩

theorem compile_slashedGraph : ∃ c, compile slashedGraph standardPackage = .ok c ∧
    c.status? "Team" = some (.generated "corp/app.v1") ∧ c.set.files.map (·.package) = ["corp.app.v1"] := by
  have h : (compileApart slashedGraph standardPackage).toOption.any (fun c => Assembly.namesApart c.set &&
      decide ((c.status? "Team").bind Status.package? = some "corp/app.v1" ∧
        c.set.files.map (·.package) = ["corp.app.v1"])) = true := by decide +kernel
  obtain ⟨c, hc, hboth⟩ := exists_compiled_of_apart h
  obtain ⟨hpackage, hfiles⟩ := of_decide_eq_true hboth
  have hteam : c.packageOf? { name := "Team" } = some "corp/app.v1" := hpackage
  exact ⟨c, hc, Compiled.packageOf?_eq_some.mp hteam, hfiles⟩

theorem retained_iff_slashedGraph : ∃ c, compile slashedGraph standardPackage = .ok c ∧
    (∀ e ∈ slashedGraph.entities, ∀ p, c.status? e.name = some (.generated p) →
      ∃ f, c.set.all.filter (·.path == pathOf p) = [f] ∧ (f.package = p ↔ ¬ c.Overtaken p) ∧
        (f.package = p → ∃ o, Gives slashedGraph standardPackage p e o ∧ f.Holds o)) ∧
    (c.FilesApart ↔ ∀ u ∈ c.units, ¬ c.Overtaken u.package) ∧
    ((∀ u ∈ c.units, '/' ∉ u.package.toList) → ∀ u ∈ c.units, ¬ c.Overtaken u.package) := by
  obtain ⟨c, hc, _, _⟩ := compile_slashedGraph
  exact ⟨c, hc, retained_iff hc⟩

/-- Not every generated entity has a file of its package in the set. -/
theorem unit_lost : ¬ ∀ (graph : Graph) (standard : String) (c : Compiled), compile graph standard = .ok c →
    ∀ e ∈ graph.entities, ∀ p, c.status? e.name = some (.generated p) → ∃ f ∈ c.set.files, f.package = p := by
  intro hall
  obtain ⟨c, hc, hgen, hfiles⟩ := compile_slashedGraph
  have hteam : { name := "Team", annotations := { message := some { package := some "corp/app.v1" } } } ∈
      slashedGraph.entities := by decide
  obtain ⟨f, hf, hpackage⟩ := hall _ _ c hc _ hteam _ hgen
  have hmem : "corp/app.v1" ∈ c.set.files.map (·.package) := List.mem_map.mpr ⟨f, hf, hpackage⟩
  rw [hfiles] at hmem
  revert hmem
  decide

end Compilation

end Protograph
