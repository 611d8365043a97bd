/-
  Protograph.Proofs.Writing — which files units are written to.

  Proved:
  - `wrote_of_publish`: the units are written in order, each to its path below the output
    directory, up to the first that cannot be.
  - `below_of_publish`: nothing else changes, and what is written is below the output
    directory, but for the units of packages whose paths begin with a slash (`IsRooted`).
  - `published_outside`: these are written elsewhere. The path of `.tmp` is `/tmp/tmp.proto`.
-/

import Protograph.Files.Publish
import Protograph.Proofs.Effects

namespace Protograph

open FileTree (Wrote)

variable {output : String} {t t' : FileTree}

/-- The file of a unit below a directory, and what is written to it. -/
def PackageUnit.fileBelow (output : String) (namespaces : Namespaces) (u : PackageUnit) : String × Bytes :=
  (Path.join output u.path, (u.render namespaces).toUTF8.toList)

theorem PackageUnit.fileBelow_path (output : String) (namespaces : Namespaces) (u : PackageUnit) :
    (u.fileBelow output namespaces).1 = Path.join output u.path := by
  rw [PackageUnit.fileBelow]

theorem wrote_of_publishUnit {namespaces : Namespaces} {u : PackageUnit} {r : Except WriteError String}
    (h : Ends (publishUnit FileTree.store namespaces output u) t r t') :
    (r = .ok (Path.join output u.path) ∧ Wrote t [u.fileBelow output namespaces] t') ∨
      ((∃ e, r = .error e) ∧ Wrote t [] t') := by
  have hwritten : ∀ {s : FileTree}, Wrote t [] s →
      Ends (do
        let done ← FileTree.store.write (Path.join output u.path) (u.render namespaces).toUTF8.toList
        if done then pure (Path.join output u.path)
        else do
          throw ⟨Path.join output u.path⟩
          pure (Path.join output u.path)) s r t' →
      (r = .ok (Path.join output u.path) ∧ Wrote t [u.fileBelow output namespaces] t') ∨
        ((∃ e, r = .error e) ∧ Wrote t [] t') := by
    intro s hs hend
    rcases FileTree.of_ends_write hend with ⟨s', hwrote, hend⟩ | ⟨rfl, rfl⟩
    · obtain ⟨rfl, rfl⟩ := ends_pure.mp hend
      exact .inl ⟨rfl, hs.trans hwrote⟩
    · exact .inr ⟨⟨_, rfl⟩, hs⟩
  unfold publishUnit at h
  dsimp only at h
  split at h
  · rcases FileTree.of_ends_makeDirectory h with ⟨s, hwrote, h⟩ | ⟨rfl, rfl⟩
    · exact hwritten hwrote h
    · exact .inr ⟨⟨_, rfl⟩, .refl _⟩
  · exact hwritten (.refl t) h

/-- Units are written in order, all of them or those before one that cannot be. -/
theorem wrote_of_publishAll {namespaces : Namespaces} {units : List PackageUnit} {r : Except WriteError (List String)}
    (h : Ends (units.mapM (publishUnit FileTree.store namespaces output)) t r t') :
    (r = .ok (units.map fun u => Path.join output u.path) ∧ Wrote t (units.map (·.fileBelow output namespaces)) t') ∨
      ∃ written, written <+: units ∧ (∃ e, r = .error e) ∧ Wrote t (written.map (·.fileBelow output namespaces)) t' := by
  induction units generalizing t r with
  | nil =>
    rw [List.mapM_nil] at h
    obtain ⟨rfl, rfl⟩ := ends_pure.mp h
    exact .inl ⟨rfl, .refl _⟩
  | cons u units ih =>
    rw [List.mapM_cons, ends_bind] at h
    obtain ⟨path, s, hunit, h⟩ | ⟨e, rfl, hunit⟩ := h
    · obtain ⟨hpath, hfirst⟩ | ⟨⟨e, he⟩, _⟩ := wrote_of_publishUnit hunit
      · cases hpath
        obtain ⟨paths, s', hrest, h⟩ | ⟨e, rfl, hrest⟩ := ends_bind.mp h
        · obtain ⟨rfl, rfl⟩ := ends_pure.mp h
          obtain ⟨hpaths, hwrote⟩ | ⟨_, _, ⟨e, he⟩, _⟩ := ih hrest
          · cases hpaths
            exact .inl ⟨rfl, hfirst.trans hwrote⟩
          · cases he
        · obtain ⟨hpaths, _⟩ | ⟨written, hprefix, _, hwrote⟩ := ih hrest
          · cases hpaths
          · exact .inr ⟨u :: written, (List.prefix_cons_inj u).mpr hprefix, ⟨e, rfl⟩, hfirst.trans hwrote⟩
      · cases he
    · obtain ⟨hpath, _⟩ | ⟨_, hwrote⟩ := wrote_of_publishUnit hunit
      · cases hpath
      · exact .inr ⟨[], List.nil_prefix, ⟨e, rfl⟩, hwrote⟩

theorem wrote_of_publish {units : List PackageUnit} {r : Except WriteError (List String)}
    (h : Ends (publish FileTree.store units output) t r t') :
    (r = .ok (units.map fun u => Path.join output u.path) ∧
      Wrote t (units.map (·.fileBelow output (Namespaces.ofUnits units))) t') ∨
      ∃ written, written <+: units ∧ (∃ e, r = .error e) ∧
        Wrote t (written.map (·.fileBelow output (Namespaces.ofUnits units))) t' :=
  wrote_of_publishAll h

/-! ## Below the output directory -/

/-- A package whose path begins with a slash. -/
def PackageUnit.IsRooted (u : PackageUnit) : Prop :=
  u.package = "" ∨ u.package.toList.head? = some '.' ∨ u.package.toList.head? = some '/'

theorem PackageUnit.isRooted_iff (u : PackageUnit) : u.IsRooted ↔ Path.isAbsolute u.path = true :=
  (FileTree.isAbsolute_pathOf u.package).symm

theorem PackageUnit.below_join (u : PackageUnit) (h : ¬ u.IsRooted) (output : String) :
    Path.Below output (Path.join output u.path) := by
  rw [u.isRooted_iff, Bool.not_eq_true] at h
  exact (Path.below_join_iff output u.package).mpr (.inl h)

/-- Units are written to their paths below the output directory, and nothing else changes.
    A path is below the directory unless it begins with a slash, which leads elsewhere. -/
theorem below_of_publish {units : List PackageUnit} {r : Except WriteError (List String)}
    (h : Ends (publish FileTree.store units output) t r t') :
    (∀ paths, r = .ok paths → paths = units.map fun u => Path.join output u.path) ∧
    (∀ l, t'.bytes? l ≠ t.bytes? l → ∃ u ∈ units, l = FileTree.place (Path.join output u.path) ∧
      (¬ u.IsRooted → ∃ more ≠ [], l = FileTree.place output ++ more)) ∧
    ∀ u ∈ units, (u.IsRooted → Path.join output u.path = u.path) ∧
      (Path.Below output (Path.join output u.path) ↔ ¬ u.IsRooted ∨ Path.Below output u.path) := by
  have hwrote : ∃ written, written <+: units ∧ (∀ paths, r = .ok paths → paths = units.map fun u => Path.join output u.path) ∧
      Wrote t (written.map (·.fileBelow output (Namespaces.ofUnits units))) t' := by
    obtain ⟨rfl, hwrote⟩ | ⟨written, hprefix, ⟨e, rfl⟩, hwrote⟩ := wrote_of_publish h
    · exact ⟨units, List.prefix_rfl, fun paths hpaths => (Except.ok.inj hpaths).symm, hwrote⟩
    · exact ⟨written, hprefix, fun paths hpaths => (by cases hpaths), hwrote⟩
  obtain ⟨written, hprefix, hpaths, hwrote⟩ := hwrote
  refine ⟨hpaths, fun l hl => ?_, fun u _ => ⟨fun hrooted => ?_, ?_⟩⟩
  · by_contra hnone
    refine hl (hwrote.elsewhere fun w hw hplace => hnone ?_)
    obtain ⟨u, hu, rfl⟩ := List.mem_map.mp hw
    rw [PackageUnit.fileBelow_path] at hplace
    refine ⟨u, hprefix.subset hu, hplace.symm, fun hrooted => ?_⟩
    rw [← hplace]
    exact Path.place_of_below (u.below_join hrooted output)
  · exact FileTree.join_of_absolute (u.isRooted_iff.mp hrooted) output
  · rw [u.isRooted_iff, Bool.not_eq_true]
    exact Path.below_join_iff output u.package

/-- Two units, one of them of a package that begins with a dot. -/
def strayUnits : List PackageUnit :=
  [{ package := "shop", messages := [{ name := "Order" }] }, { package := ".tmp", messages := [{ name := "Note" }] }]

theorem publish_strayUnits :
    ∃ t', Ends (publish FileTree.store strayUnits "out") FileTree.empty (.ok ["out/shop/shop.proto", "/tmp/tmp.proto"]) t' :=
  exists_ends_ok (by decide +kernel)

theorem below_of_publish_strayUnits : ∃ r t', Ends (publish FileTree.store strayUnits "out") FileTree.empty r t' ∧
    (∀ paths, r = .ok paths → paths = strayUnits.map fun u => Path.join "out" u.path) ∧
    (∀ l, t'.bytes? l ≠ FileTree.empty.bytes? l → ∃ u ∈ strayUnits, l = FileTree.place (Path.join "out" u.path) ∧
      (¬ u.IsRooted → ∃ more ≠ [], l = FileTree.place "out" ++ more)) ∧
    ∀ u ∈ strayUnits, (u.IsRooted → Path.join "out" u.path = u.path) ∧
      (Path.Below "out" (Path.join "out" u.path) ↔ ¬ u.IsRooted ∨ Path.Below "out" u.path) := by
  obtain ⟨t', h⟩ := publish_strayUnits
  exact ⟨_, t', h, below_of_publish h⟩

/-- Not everything that is written is below the output directory. -/
theorem published_outside : ¬ ∀ (units : List PackageUnit) (output : String) (t t' : FileTree) (paths : List String),
    Ends (publish FileTree.store units output) t (.ok paths) t' → ∀ path ∈ paths, Path.Below output path := by
  intro hall
  obtain ⟨t', h⟩ := publish_strayUnits
  obtain ⟨more, _, hsteps, _⟩ := hall _ _ _ t' _ h "/tmp/tmp.proto" (by simp)
  have hfirst : (FileTree.steps "/tmp/tmp.proto").1.head? = (FileTree.steps "out").1.head? := by
    rw [hsteps]
    rfl
  revert hfirst
  decide

end Protograph
