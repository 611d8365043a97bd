/-
  Protograph.Proofs.Fatal — when a compilation comes to nothing as a whole.

  The units of a graph import only what there is (`importsKnown_unitsOf`), and the insides of
  their messages are sound, so that putting them together can fail for four reasons besides
  a cycle of imports (`Coherent`): two names are the same, two fields of a message are the
  same in camel case, a filter runs out of numbers, or a type name is not found.

  Proved, for every graph:
  - `fatal_iff`: there is a fatal error if and only if the imports form a cycle, which is
    then the error, or the files of the units are not coherent.
  - `fatal_without_cycle`: one of the four reasons is enough. A type that is named with two
    dots in front is a well-known message to the entity and nothing to the set.
-/

import Protograph.Proofs.Assembly
import Protograph.Proofs.EdgeTargets
import Protograph.Proofs.Paths
import Protograph.Proofs.Soundness
import Protograph.Proofs.Units

namespace Protograph.Compilation

open Assembly (ImportsKnown Fits Finds filesOf filesAt symbolsOf)
open ImportOrder (Cyclic)

variable {graph : Graph} {standard : String}

/-- The units of a graph's survivors. -/
def unitsOf (graph : Graph) (standard : String) : List PackageUnit := group (settled graph standard)

theorem mem_unitsOf {u : PackageUnit} :
    u ∈ unitsOf graph standard ↔
      ∃ p ∈ packagesIn (survivors (settled graph standard)), unitOf (survivors (settled graph standard)) p = u := by
  unfold unitsOf
  rw [group_eq, List.mem_map]

theorem exists_compiled_iff :
    (∃ c, compile graph standard = .ok c) ↔ ∃ set, assemble (unitsOf graph standard) = .ok set := by
  unfold compile unitsOf
  simp only [bind_eq_ok, pure_eq_ok]
  constructor
  · intro h
    obtain ⟨_, set, hset, _⟩ := h
    exact ⟨set, hset⟩
  · intro h
    obtain ⟨set, hset⟩ := h
    exact ⟨_, set, hset, rfl⟩

/-! ## Imports -/

theorem path_wellKnown_of_type {name path : String} (h : WellKnown.types.get? name = some path) :
    path ∈ WellKnown.paths :=
  mem_paths_wellKnown.mpr (List.mem_map_of_mem (Table.mem_of_get? h))

/-- A settled output is in the unit of its package. -/
theorem package_mem_of_settled {name : String} {o : EntityOutput} (h : (name, .ok o) ∈ settled graph standard) :
    pathOf o.package ∈ (unitsOf graph standard).map (·.path) :=
  List.mem_map.mpr ⟨_, mem_unitsOf.mpr ⟨o.package, mem_packagesIn.mpr ⟨name, o, mem_survivors.mpr h, rfl⟩, rfl⟩, rfl⟩

/-- The entity that a settled output reads a name as has settled in the package read. -/
theorem settled_of_reads_entity {e : Entity} {o : EntityOutput} (h : (e.name, .ok o) ∈ settled graph standard)
    (he : e ∈ graph.entities) {x : Mention} (hx : x ∈ mentionsOf o.messages o.services) {q t : String}
    (hread : (o.scope e.name (packagesOf graph standard)).Reads x.name x.wantsEnum (.entity q t)) :
    ∃ o', (t, .ok o') ∈ settled graph standard ∧ o'.package = q := by
  have hbuilt := buildEntity_of_settled he h
  have hq : (packagesOf graph standard).get? t = some q := hread.package_of_entity
  by_cases ht : t = e.name
  · subst ht
    exact ⟨o, h, Option.some.inj ((package_of_settled h).symm.trans hq)⟩
  · have hrefers : t ∈ o.references.entities :=
      ((records_of_buildEntity hbuilt).entities t).mpr ⟨x, hx, _, hread, if_pos ht⟩
    have hasks : t ∈ (packagesOf graph standard).keys := Table.mem_keys (Table.mem_of_get? hq)
    obtain ⟨o', ho'⟩ := (settled_iff_not_doomed hasks).mpr (not_doomed_of_settled_refers h hrefers)
    exact ⟨o', ho', Option.some.inj ((package_of_settled ho').symm.trans hq)⟩

/-- Whatever a unit imports is a well-known file or a unit. -/
theorem importsKnown_unitsOf (graph : Graph) (standard : String) : ImportsKnown (unitsOf graph standard) := by
  intro u hu i hi
  obtain ⟨p, _, rfl⟩ := mem_unitsOf.mp hu
  simp only [unitOf, mem_addAll, List.mem_flatMap, List.not_mem_nil, false_or] at hi
  obtain ⟨⟨name, o⟩, hin, hi⟩ := hi
  have ho : (name, .ok o) ∈ settled graph standard := mem_survivors.mp (List.mem_of_mem_filter hin)
  obtain ⟨e, he, rfl, _, hbuilt⟩ := built_of_settled ho
  obtain ⟨x, hx, m, hread, himport⟩ := ((records_of_buildEntity hbuilt).imports i).mp hi
  cases m with
  | enumeration => cases himport
  | own => cases himport
  | wellKnown path =>
    cases himport
    exact .inl (path_wellKnown_of_type hread.type_of_wellKnown)
  | entity q t =>
    obtain ⟨o', ho', rfl⟩ := settled_of_reads_entity ho he hx hread
    rw [NameScope.importOf_entity] at himport
    split at himport
    · obtain rfl := Option.some.inj himport
      exact .inr (package_mem_of_settled ho')
    · cases himport

/-! ## Files -/

theorem sound_unitsOf {u : PackageUnit} (hu : u ∈ unitsOf graph standard) {m : Message} (hm : m ∈ u.messages) :
    m.Sound := by
  obtain ⟨p, _, rfl⟩ := mem_unitsOf.mp hu
  obtain ⟨⟨name, o⟩, hin, hm⟩ := List.mem_flatMap.mp hm
  obtain ⟨e, _, _, _, hbuilt⟩ := built_of_settled (mem_survivors.mp (List.mem_of_mem_filter hin))
  exact sound_of_buildEntity hbuilt hm

/-- What the files of units must be like beside the well-known files. -/
structure Coherent (files : List ProtoFile) : Prop where
  /-- No two names are the same, unless both are packages. -/
  names : ((WellKnown.files ++ files).flatMap Pool.claimsOf).Pairwise Pool.Shares
  /-- No two fields of a message are the same in camel case. -/
  camel : ∀ f ∈ files, ∀ m ∈ f.messages, (m.fields.map fun x => Pool.foldedName x.name).Nodup
  numbers : ∀ f ∈ files, ∀ m ∈ f.messages, ∀ x ∈ m.fields, Pool.isFieldNumber x.number = true
  /-- Every type name stands for something of the kind wanted, in the file or in an import. -/
  found : ∀ f ∈ files, ∀ r ∈ f.references, Finds (symbolsOf (WellKnown.files ++ files)) f r

/-- The files of units have the paths of the units, each once. -/
theorem map_path_filesOf (units : List PackageUnit) : (filesOf units).map (·.path) = Assembly.paths units :=
  Assembly.map_path_filesAt fun _ hp => Assembly.mem_paths.mp hp

theorem paths_apart {units : List PackageUnit} :
    ((WellKnown.files ++ filesOf units).map (·.path)).Nodup := by
  rw [List.map_append, List.nodup_append, map_path_filesOf]
  refine ⟨by decide, Assembly.paths_nodup units, ?_⟩
  rintro a ha b hb rfl
  obtain ⟨u, _, rfl⟩ := List.mem_map.mp (Assembly.mem_paths.mp hb)
  exact pathOf_not_wellKnown u.package ha

theorem fits_iff_coherent : Fits (filesOf (unitsOf graph standard)) ↔ Coherent (filesOf (unitsOf graph standard)) := by
  have hfile : ∀ f ∈ filesOf (unitsOf graph standard), f.tree = f.messages ∧ f.enums = [] ∧ ∀ m ∈ f.messages, m.Sound := by
    intro f hf
    obtain ⟨u, hu, rfl⟩ := Assembly.exists_of_mem_filesAt hf
    have hsound : ∀ m ∈ u.messages, m.Sound := fun m hm => sound_unitsOf hu hm
    exact ⟨treeAll_of_flat fun m hm => (hsound m hm).flat, rfl, hsound⟩
  constructor
  · intro h
    obtain ⟨⟨_, hnames, hnamed, hnumbered⟩, hfound⟩ := h
    refine ⟨hnames, fun f hf m hm => ?_, fun f hf m hm => ?_, hfound⟩
    · obtain ⟨htree, _, hsound⟩ := hfile f hf
      exact (hsound m hm).wellNamed_iff.mp ((hnamed f (List.mem_append_right _ hf)).1 m (htree ▸ hm))
    · obtain ⟨htree, _, hsound⟩ := hfile f hf
      exact (hsound m hm).wellNumbered_iff.mp ((hnumbered f (List.mem_append_right _ hf)).1 m (htree ▸ hm))
  · intro h
    obtain ⟨hnames, hcamel, hnumbers, hfound⟩ := h
    refine ⟨⟨paths_apart, hnames, fun f hf => ?_, fun f hf => ?_⟩, hfound⟩
    · rcases List.mem_append.mp hf with hf | hf
      · exact Assembly.accepts_wellKnown.named f hf
      · obtain ⟨htree, henums, hsound⟩ := hfile f hf
        rw [htree, henums]
        exact ⟨fun m hm => (hsound m hm).wellNamed_iff.mpr (hcamel f hf m hm), by simp⟩
    · rcases List.mem_append.mp hf with hf | hf
      · exact Assembly.accepts_wellKnown.numbered f hf
      · obtain ⟨htree, henums, hsound⟩ := hfile f hf
        rw [htree, henums]
        exact ⟨fun m hm => (hsound m hm).wellNumbered_iff.mpr (hnumbers f hf m hm), by simp⟩

/-! ## Fatal errors -/

theorem compile_ok_iff :
    (∃ c, compile graph standard = .ok c) ↔
      ¬ Cyclic (unitsOf graph standard) ∧ Coherent (filesOf (unitsOf graph standard)) := by
  rw [exists_compiled_iff, Assembly.exists_assembled_iff, fits_iff_coherent]
  exact and_iff_right (importsKnown_unitsOf graph standard)

/-- A cycle of imports is what is reported, whatever else is wrong. -/
theorem compile_of_cyclic (h : Cyclic (unitsOf graph standard)) :
    ∃ file chain, compile graph standard = .error (.assembly file (.importCycle chain)) ∧
      ImportOrder.Closes (unitsOf graph standard) chain := by
  cases horder : ImportOrder.order (unitsOf graph standard) with
  | ok paths => exact absurd h (ImportOrder.order_ok_iff.mp ⟨paths, horder⟩)
  | error chain =>
    have hassemble := Assembly.assemble_of_order_error (importsKnown_unitsOf graph standard) horder
    refine ⟨chain.getLast?.getD "", chain, ?_, ImportOrder.order_error horder⟩
    unfold unitsOf at hassemble
    unfold compile
    simp only [hassemble]
    rfl

/-- A compilation comes to a fatal error if and only if the imports between the units of the
    survivors form a cycle, which is then reported, or the files of the units do not go
    together. -/
theorem fatal_iff (graph : Graph) (standard : String) :
    ((∃ x, compile graph standard = .error x) ↔
      Cyclic (unitsOf graph standard) ∨ ¬ Coherent (filesOf (unitsOf graph standard))) ∧
    (Cyclic (unitsOf graph standard) →
      ∃ file chain, compile graph standard = .error (.assembly file (.importCycle chain)) ∧
        ImportOrder.Closes (unitsOf graph standard) chain) := by
  refine ⟨?_, compile_of_cyclic⟩
  have hok : (∃ x, compile graph standard = .error x) ↔ ¬ ∃ c, compile graph standard = .ok c := by
    cases compile graph standard with
    | error x => simp
    | ok c => simp
  rw [hok, compile_ok_iff, not_and_or, not_not]

/-- An entity beside one whose field has a type named with two dots. -/
def twoDotsGraph : Graph :=
  ⟨[{ name := "Good", annotations := { message := some {} } },
    { name := "Bad"
      fields := [{ name := "payload", kind := .other
                   annotations := { field := some { number := 2, type := some .message
                                                    typeName := some "..google.protobuf.Struct" } } }]
      annotations := { message := some { package := some "other" } } }], by decide⟩

/-- Not every fatal error is about a cycle of imports. -/
theorem fatal_without_cycle : ¬ ∀ (graph : Graph) (standard : String) (x : CompileError),
    compile graph standard = .error x → Cyclic (unitsOf graph standard) := by
  intro hall
  have herror : ∃ x, compile twoDotsGraph standardPackage = .error x := by
    cases h : compile twoDotsGraph standardPackage with
    | error x => exact ⟨x, rfl⟩
    | ok c =>
      have hnone : (compile twoDotsGraph standardPackage).toOption.isNone = true := by decide +kernel
      rw [h] at hnone
      cases hnone
  have horder : (ImportOrder.order (unitsOf twoDotsGraph standardPackage)).toOption.any (fun _ => true) = true := by
    decide +kernel
  obtain ⟨x, hx⟩ := herror
  obtain ⟨paths, hpaths, _⟩ := exists_ok_of_any horder
  exact ImportOrder.order_ok_iff.mp ⟨paths, hpaths⟩ (hall _ _ x hx)

end Protograph.Compilation
