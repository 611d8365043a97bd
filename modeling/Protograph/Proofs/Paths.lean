/-
  Protograph.Proofs.Paths — the path of the file of a package.

  The path is the package with slashes for its dots, and after it the last segment of the
  package once more (`toList_pathOf`). What stands in front of the last slash is a package
  again, and the one that the path is of, unless that has slashes itself
  (`packageAt?_pathOf`). Every path ends in a directory and a file of one name
  (`endsTwice_pathOf`), and the path of no well-known file does (`pathOf_not_wellKnown`).

  Proved: `pathOf_apart`. Packages without slashes have distinct paths, and no package has the
  path of a well-known file.
-/

import Protograph.Compile.References
import Protograph.Descriptor.WellKnown
import Protograph.Proofs.Packages
import Mathlib.Data.List.Infix

namespace Protograph

/-! ## Characters -/

/-- The character of a path that stands for one of a package. -/
def inPath (c : Char) : Char := if c = '.' then '/' else c

/-- The character of a package that one of a path stands for. -/
def inPackage (c : Char) : Char := if c = '/' then '.' else c

theorem map_inPath {cs : List Char} (h : '.' ∉ cs) : cs.map inPath = cs := by
  have hsame : ∀ c ∈ cs, inPath c = c := by
    intro c hc
    refine if_neg ?_
    rintro rfl
    exact h hc
  rw [List.map_congr_left hsame, List.map_id']

theorem map_inPackage_inPath {cs : List Char} (h : '/' ∉ cs) : (cs.map inPath).map inPackage = cs := by
  have hback : ∀ c ∈ cs, (inPackage ∘ inPath) c = c := by
    intro c hc
    have hslash : c ≠ '/' := by
      rintro rfl
      exact h hc
    by_cases hdot : c = '.' <;> simp [inPackage, inPath, hdot, hslash]
  rw [List.map_map, List.map_congr_left hback, List.map_id']

/-! ## The path as a text -/

theorem toList_intercalate_split (package : String) :
    (String.intercalate "/" (Text.split '.' package)).toList = package.toList.map inPath := by
  induction package using scope_induction with
  | plain package hplain =>
    rw [Text.split_of_not_mem hplain, map_inPath hplain]
    rfl
  | dotted front last hlast ih =>
    rw [split_dotted hlast, String.intercalate_append_of_ne_nil (split_ne_nil front) (by simp), toList_dotted]
    simp only [String.toList_append, ih, List.map_append, List.map_cons, map_inPath hlast]
    simp [inPath]

/-- A path is the package with slashes, and after it the last segment of the package. -/
theorem toList_pathOf (package : String) : ∃ last : List Char, last <:+ package.toList ∧ '.' ∉ last ∧
    (pathOf package).toList = package.toList.map inPath ++ '/' :: (last ++ ".proto".toList) := by
  have hpath : ∀ last, (Text.split '.' package).getLast? = some last →
      (pathOf package).toList = package.toList.map inPath ++ '/' :: (last.toList ++ ".proto".toList) := by
    intro last hlast
    unfold pathOf
    rw [hlast, Option.getD_some]
    simp only [String.toList_append, toList_intercalate_split, List.append_assoc]
    rfl
  induction package using scope_induction with
  | plain package hplain =>
    exact ⟨package.toList, List.suffix_refl _, hplain, hpath package (by rw [Text.split_of_not_mem hplain]; rfl)⟩
  | dotted front last hlast _ =>
    refine ⟨last.toList, ?_, hlast, hpath last (by rw [split_dotted hlast]; simp)⟩
    rw [toList_dotted]
    exact (List.suffix_cons '.' last.toList).trans (List.suffix_append front.toList _)

/-! ## Back to the package -/

/-- The package that a path tells: what stands in front of its last slash, with dots for the
    slashes. -/
def packageAt? (path : String) : Option String :=
  (Text.cutLast '/' path.toList).map fun cut => String.ofList (cut.1.map inPackage)

theorem packageAt?_pathOf {package : String} (h : '/' ∉ package.toList) : packageAt? (pathOf package) = some package := by
  obtain ⟨last, hlast, _, hpath⟩ := toList_pathOf package
  -- the last segment has no slash either, so the path is cut right in front of it
  have hfile : '/' ∉ last ++ ".proto".toList := by
    rw [List.mem_append, not_or]
    exact ⟨fun hin => h (hlast.mem hin), by decide⟩
  unfold packageAt?
  rw [hpath, Text.cutLast_append hfile]
  simp only [Option.map_some, map_inPackage_inPath h, String.ofList_toList]

/-- Packages without slashes have distinct paths. -/
theorem pathOf_injective {p q : String} (hp : '/' ∉ p.toList) (hq : '/' ∉ q.toList) (h : pathOf p = pathOf q) : p = q := by
  have hsame : some p = some q := by rw [← packageAt?_pathOf hp, h, packageAt?_pathOf hq]
  exact Option.some.inj hsame

/-! ## Well-known files -/

/-- The path ends in a directory and a file of one name, where the name may have slashes. -/
def endsTwice (path : List Char) : Bool :=
  (List.range path.length).any fun k =>
    path[k]? == some '/' && ((path.drop (k + 1)).take (path.length - k - 7)).isSuffixOf (path.take k)

theorem endsTwice_of_suffix {whole last : List Char} (h : last <:+ whole) :
    endsTwice (whole ++ '/' :: (last ++ ".proto".toList)) = true := by
  unfold endsTwice
  rw [List.any_eq_true]
  refine ⟨whole.length, by simp, ?_⟩
  have hproto : ".proto".toList.length = 6 := rfl
  have hlast : (whole ++ '/' :: (last ++ ".proto".toList)).length - whole.length - 7 = last.length := by
    simp only [List.length_append, List.length_cons, hproto]
    omega
  rw [hlast]
  simpa using h

theorem endsTwice_pathOf (package : String) : endsTwice (pathOf package).toList = true := by
  obtain ⟨last, hlast, hdot, hpath⟩ := toList_pathOf package
  have hsuffix : last <:+ package.toList.map inPath := by
    rw [← map_inPath hdot]
    exact hlast.map inPath
  rw [hpath]
  exact endsTwice_of_suffix hsuffix

/-- The path of a unit is not the path of a well-known file. -/
theorem pathOf_not_wellKnown (package : String) : pathOf package ∉ WellKnown.files.map (·.path) := by
  have hwell : ∀ p ∈ WellKnown.files.map (·.path), endsTwice p.toList = false := by decide +kernel
  intro h
  have := hwell _ h
  rw [endsTwice_pathOf] at this
  cases this

theorem paths_wellKnown : WellKnown.paths = WellKnown.files.map (·.path) := by decide

theorem mem_paths_wellKnown {path : String} : path ∈ WellKnown.paths ↔ path ∈ WellKnown.types.map (·.2) := by
  unfold WellKnown.paths
  rw [mem_addAll]
  simp

/-! ## Paths apart -/

/-- Of packages without slashes no two have one path, and no package at all has the path of the
    file of a well-known message. -/
theorem pathOf_apart :
    (∀ p q : String, '/' ∉ p.toList → '/' ∉ q.toList → (pathOf p = pathOf q ↔ p = q)) ∧
      ∀ p : String, ∀ path ∈ WellKnown.types.map (·.2), pathOf p ≠ path := by
  constructor
  · intro p q hp hq
    exact ⟨pathOf_injective hp hq, congrArg pathOf⟩
  · rintro p path hpath rfl
    rw [← mem_paths_wellKnown, paths_wellKnown] at hpath
    exact pathOf_not_wellKnown p hpath

/-- Segments that repeat, or are empty, do not bring paths together. -/
theorem pathOf_apart_repeated :
    '/' ∉ "corp.app".toList ∧ '/' ∉ "corp.app.app".toList ∧ '/' ∉ "corp..app".toList ∧
      "google/protobuf/struct.proto" ∈ WellKnown.types.map (·.2) ∧
      pathOf "corp.app" ≠ pathOf "corp.app.app" ∧ pathOf "corp.app" ≠ pathOf "corp..app" ∧
      pathOf "google.protobuf.struct" ≠ "google/protobuf/struct.proto" := by
  obtain ⟨hdistinct, hwell⟩ := pathOf_apart
  have happ : '/' ∉ "corp.app".toList := by decide
  have htwice : '/' ∉ "corp.app.app".toList := by decide
  have hempty : '/' ∉ "corp..app".toList := by decide
  have hstruct : "google/protobuf/struct.proto" ∈ WellKnown.types.map (·.2) := by decide
  refine ⟨happ, htwice, hempty, hstruct, ?_, ?_, hwell _ _ hstruct⟩
  · rw [ne_eq, hdistinct _ _ happ htwice]
    decide
  · rw [ne_eq, hdistinct _ _ happ hempty]
    decide

-- a slash in one of two packages is enough for a path in common
example : pathOf "a.a.a" = pathOf "a/a" := by decide

end Protograph
