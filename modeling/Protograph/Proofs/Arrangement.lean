/-
  Protograph.Proofs.Arrangement — units that hold the same in another order.

  Units may hold the same messages and services in another order (`PackageUnit.SameContents`),
  and may themselves come in another order (`Rearranged`). Where every unit has a path of its
  own, none of this makes a difference to whether they can be put together: what a unit
  imports, what its file claims and what its names are found to be stays as it is.

  Proved:
  - `fits_of_sameContents`: files that fit together still do when each is rearranged.
  - `cyclic_of_rearranged`: a cycle of imports stays one.
  - `exists_assembled_of_rearranged`: units that can be put together can be put together when
    rearranged.
-/

import Protograph.Proofs.Consistency

namespace Protograph

/-! ## Contents -/

/-- Units of a package that hold the same, if not in the same order. -/
structure PackageUnit.SameContents (u v : PackageUnit) : Prop where
  package : u.package = v.package
  messages : u.messages.Perm v.messages
  services : u.services.Perm v.services
  imports : ∀ i, i ∈ u.imports ↔ i ∈ v.imports
  entities : u.entities.Perm v.entities

theorem PackageUnit.SameContents.symm {u v : PackageUnit} (h : u.SameContents v) : v.SameContents u :=
  ⟨h.package.symm, h.messages.symm, h.services.symm, fun i => (h.imports i).symm, h.entities.symm⟩

theorem PackageUnit.SameContents.path {u v : PackageUnit} (h : u.SameContents v) : v.path = u.path :=
  congrArg pathOf h.package.symm

/-- Units that hold the same as others do, where neither the order of the units counts nor the
    order in each of them. -/
def Rearranged (units units' : List PackageUnit) : Prop :=
  ∃ mid, List.Forall₂ PackageUnit.SameContents units mid ∧ mid.Perm units'

section Rearranged

variable {units units' : List PackageUnit}

theorem Rearranged.path_mem (h : Rearranged units units') {path : String} :
    path ∈ units.map (·.path) ↔ path ∈ units'.map (·.path) := by
  obtain ⟨mid, hmid, hperm⟩ := h
  rw [← (hperm.map _).mem_iff, map_eq_of_forall₂ (hmid.imp fun _ _ => PackageUnit.SameContents.path)]

theorem Rearranged.exists_same (h : Rearranged units units') {u : PackageUnit} (hu : u ∈ units) :
    ∃ v ∈ units', u.SameContents v := by
  obtain ⟨mid, hmid, hperm⟩ := h
  obtain ⟨v, hv, hsame⟩ := exists_of_forall₂_left hmid hu
  exact ⟨v, hperm.mem_iff.mp hv, hsame⟩

theorem Rearranged.symm (h : Rearranged units units') : Rearranged units' units := by
  obtain ⟨mid, hmid, hperm⟩ := h
  obtain ⟨mid', hmid', hperm'⟩ := List.perm_comp_forall₂ hperm.symm (hmid.flip.imp fun _ _ hsame => hsame.symm)
  exact ⟨mid', hmid', hperm'⟩

theorem Rearranged.paths_nodup (h : Rearranged units units') (hpaths : (units.map (·.path)).Nodup) :
    (units'.map (·.path)).Nodup := by
  obtain ⟨mid, hmid, hperm⟩ := h
  rw [← (hperm.map _).nodup_iff, map_eq_of_forall₂ (hmid.imp fun _ _ => PackageUnit.SameContents.path)]
  exact hpaths

end Rearranged

/-- Files that hold the same, if not in the same order. -/
structure ProtoFile.SameContents (f g : ProtoFile) : Prop where
  path : g.path = f.path
  package : g.package = f.package
  imports : ∀ i, i ∈ g.imports ↔ i ∈ f.imports
  messages : g.messages.Perm f.messages
  services : g.services.Perm f.services
  enums : g.enums = f.enums
  oneofs : g.oneofs = f.oneofs

theorem PackageUnit.SameContents.toFile {u v : PackageUnit} (h : u.SameContents v) : u.toFile.SameContents v.toFile where
  path := h.path
  package := h.package.symm
  imports i := (h.imports i).symm
  messages := h.messages.symm
  services := h.services.symm
  enums := rfl
  oneofs := rfl

/-! ## What messages bring, one after the other -/

theorem Message.symbolsAll_eq (path scope : String) (ms : List Message) :
    Message.symbolsAll path scope ms = ms.flatMap (Message.symbols path scope) := by
  induction ms with
  | nil => rfl
  | cons m ms ih => rw [Message.symbolsAll, List.flatMap_cons, ih]

theorem Message.referencesAll_eq (scope : String) (ms : List Message) :
    Message.referencesAll scope ms = ms.flatMap (Message.references scope) := by
  induction ms with
  | nil => rfl
  | cons m ms ih => rw [Message.referencesAll, List.flatMap_cons, ih]

namespace ProtoFile.SameContents

variable {f g : ProtoFile} (h : f.SameContents g)

include h

theorem tree : g.tree.Perm f.tree := by
  unfold ProtoFile.tree
  rw [Message.treeAll_eq, Message.treeAll_eq]
  exact h.messages.flatMap_right _

theorem symbols : g.symbols.Perm f.symbols := by
  unfold ProtoFile.symbols
  rw [Message.symbolsAll_eq, Message.symbolsAll_eq, h.path, h.package, h.enums]
  exact (h.messages.flatMap_right _).append_right _

theorem references : g.references.Perm f.references := by
  unfold ProtoFile.references
  rw [Message.referencesAll_eq, Message.referencesAll_eq, h.package]
  exact (h.messages.flatMap_right _).append (h.services.flatMap_right _)

theorem declared : g.declared.Perm f.declared := by
  unfold ProtoFile.declared
  rw [Message.declaredAll_eq, Message.declaredAll_eq, h.package, h.enums, h.oneofs]
  exact (h.messages.flatMap_right _).append (((h.services.flatMap_right _).append_left _).append_left _)

theorem claims : (Pool.claimsOf g).Perm (Pool.claimsOf f) := by
  unfold Pool.claimsOf
  rw [h.package, h.path]
  exact (h.declared.map _).append_left _

end ProtoFile.SameContents

namespace Assembly

/-! ## Files -/

/-- What two lists bring is the same, if not in the same order, if that is so of each two
    things that are matched. -/
theorem flatMap_perm_of_forall₂ {α β γ : Type} {f : α → List γ} {g : β → List γ} {as : List α} {bs : List β}
    (h : List.Forall₂ (fun a b => (g b).Perm (f a)) as bs) : (bs.flatMap g).Perm (as.flatMap f) := by
  induction h with
  | nil => exact .nil
  | cons hab _ ih => exact hab.append ih

/-- Files that fit together beside the well-known ones still do when each is rearranged. -/
theorem fits_of_sameContents {files files' : List ProtoFile} (h : List.Forall₂ ProtoFile.SameContents files files')
    (hfits : Fits files) : Fits files' := by
  obtain ⟨⟨hpaths, hnames, hnamed, hnumbered⟩, hfound⟩ := hfits
  have hclaims : ((WellKnown.files ++ files').flatMap Pool.claimsOf).Perm
      ((WellKnown.files ++ files).flatMap Pool.claimsOf) := by
    rw [List.flatMap_append, List.flatMap_append]
    exact (flatMap_perm_of_forall₂ (h.imp fun _ _ => ProtoFile.SameContents.claims)).append_left _
  have hsymbols : (symbolsOf (WellKnown.files ++ files')).Perm (symbolsOf (WellKnown.files ++ files)) := by
    unfold symbolsOf
    rw [List.flatMap_append, List.flatMap_append]
    exact (flatMap_perm_of_forall₂ (h.imp fun _ _ => ProtoFile.SameContents.symbols)).append_left _
  refine ⟨⟨?_, ?_, ?_, ?_⟩, ?_⟩
  · rw [List.map_append] at hpaths ⊢
    rw [map_eq_of_forall₂ (h.imp fun _ _ => ProtoFile.SameContents.path)]
    exact hpaths
  · refine hclaims.symm.pairwise hnames ?_
    intro a b hab he
    exact (hab he.symm).symm
  · intro g hg
    rcases List.mem_append.mp hg with hg | hg
    · exact hnamed g (List.mem_append_left _ hg)
    · obtain ⟨f, hf, hsame⟩ := exists_of_forall₂_right h hg
      obtain ⟨hmessages, henums⟩ := hnamed f (List.mem_append_right _ hf)
      exact ⟨fun m hm => hmessages m (hsame.tree.mem_iff.mp hm), hsame.enums ▸ henums⟩
  · intro g hg
    rcases List.mem_append.mp hg with hg | hg
    · exact hnumbered g (List.mem_append_left _ hg)
    · obtain ⟨f, hf, hsame⟩ := exists_of_forall₂_right h hg
      obtain ⟨hmessages, henums⟩ := hnumbered f (List.mem_append_right _ hf)
      exact ⟨fun m hm => hmessages m (hsame.tree.mem_iff.mp hm), hsame.enums ▸ henums⟩
  · intro g hg r hr
    obtain ⟨f, hf, hsame⟩ := exists_of_forall₂_right h hg
    obtain ⟨s, hs, hkind, hfile⟩ := hfound f hf r (hsame.references.mem_iff.mp hr)
    refine ⟨s, ?_, hkind, ?_⟩
    · rw [← hs]
      exact (Symbols.resolve_perm (names_nodup_of_pairwise hnames) hsymbols.symm _ _).symm
    · rw [List.mem_cons] at hfile ⊢
      rwa [hsame.path, hsame.imports]

variable {units units' : List PackageUnit}

/-! ## Units -/

/-- Where every unit has a path of its own, it imports what it says, as far as that are units. -/
theorem imports_iff_unit (hpaths : (units.map (·.path)).Nodup) {a b : String} :
    ImportOrder.Imports units a b ↔ b ∈ units.map (·.path) ∧ ∃ u ∈ units, u.path = a ∧ b ∈ u.imports := by
  constructor
  · intro h
    refine ⟨ImportOrder.path_of_imports h, ?_⟩
    unfold ImportOrder.Imports ImportOrder.importsOf at h
    split at h
    · rename_i u hu
      have hin : u ∈ units := List.mem_reverse.mp (List.mem_of_find?_eq_some hu)
      exact ⟨u, hin, eq_of_beq (List.find?_some hu :), List.mem_of_mem_filter h⟩
    · cases h
  · intro hparts
    obtain ⟨hunit, u, hu, rfl, hb⟩ := hparts
    exact imports_of_unit hpaths hu hb hunit

theorem cyclic_of_rearranged (hpaths : (units.map (·.path)).Nodup) (hpaths' : (units'.map (·.path)).Nodup)
    (h : Rearranged units units') (hcyclic : ImportOrder.Cyclic units) : ImportOrder.Cyclic units' := by
  obtain ⟨p, hp⟩ := hcyclic
  refine ⟨p, Relation.TransGen.mono (fun a b hab => ?_) p p hp⟩
  obtain ⟨hunit, u, hu, rfl, hb⟩ := (imports_iff_unit hpaths).mp hab
  obtain ⟨v, hv, hsame⟩ := h.exists_same hu
  exact (imports_iff_unit hpaths').mpr ⟨h.path_mem.mp hunit, v, hv, hsame.path, (hsame.imports b).mp hb⟩

/-- Where every unit has a path of its own, units that can be put together still can when they
    are rearranged. -/
theorem exists_assembled_of_rearranged (hpaths : (units.map (·.path)).Nodup) (h : Rearranged units units')
    (hok : ∃ set, assemble units = .ok set) : ∃ set, assemble units' = .ok set := by
  obtain ⟨himports, hacyclic, hfits⟩ := exists_assembled_iff.mp hok
  have hpaths' := h.paths_nodup hpaths
  refine exists_assembled_iff.mpr ⟨?_, fun hcyclic => hacyclic (cyclic_of_rearranged hpaths' hpaths h.symm hcyclic), ?_⟩
  · intro v hv i hi
    obtain ⟨u, hu, hsame⟩ := h.symm.exists_same hv
    rw [← h.path_mem]
    exact himports u hu i ((hsame.imports i).mp hi)
  · obtain ⟨mid, hmid, hperm⟩ := h
    rw [filesOf_eq hpaths] at hfits
    rw [filesOf_eq hpaths']
    have hfiles : List.Forall₂ ProtoFile.SameContents (units.map (·.toFile)) (mid.map (·.toFile)) := by
      rw [List.forall₂_map_left_iff, List.forall₂_map_right_iff]
      exact hmid.imp fun _ _ => PackageUnit.SameContents.toFile
    exact fits_perm (hperm.map _) (fits_of_sameContents hfiles hfits)

end Assembly

end Protograph
