/-
  Protograph.Proofs.Placement — where the file of a unit is put.

  A path is followed step by step, and the place that it leads to is the same in every tree
  (`FileTree.place`). A path joined to a directory leads on from the directory, unless it is
  absolute (`steps_join`). The path of a unit never leads upwards (`descends_pathOf`).

  Proved:
  - `below_join_iff`: the file of a unit is put below the output directory if and only if the
    path of the unit is not absolute, or is itself below that directory. The path is absolute
    where the package is empty or begins with a dot or a slash (`isAbsolute_pathOf`).
  - `package_of_place`: distinct packages have files in distinct places where no package has a
    slash or an empty segment.
-/

import Protograph.Files.Store
import Protograph.Proofs.Paths

namespace Protograph

namespace FileTree

/-- The steps of a path from where it begins. -/
def ways (path : String) : List String := (Text.split '/' path).filter fun s => s ≠ "" && s ≠ "."

theorem steps_eq (path : String) : (steps path).1 = (if Path.isAbsolute path then ["/"] else []) ++ ways path := rfl

/-- Where a path leads, if it leads anywhere. -/
def place (path : String) : Location := (steps path).1.foldl step []

/-- A step to something inside a directory. -/
def Descends (s : String) : Prop := s ≠ "/" ∧ s ≠ ".."

theorem foldl_step {ss : List String} (h : ∀ s ∈ ss, Descends s) (l : Location) : ss.foldl step l = l ++ ss := by
  induction ss generalizing l with
  | nil => simp
  | cons s ss ih =>
    obtain ⟨hroot, hup⟩ := h s List.mem_cons_self
    rw [List.foldl_cons, ih fun x hx => h x (List.mem_cons_of_mem _ hx)]
    simp [step, hroot, hup]

/-! ## Paths joined -/

theorem ways_append (a b : String) : ways (a ++ "/" ++ b) = ways a ++ ways b := by
  rw [ways, Text.split_append rfl, List.filter_append]
  rfl

theorem ways_intercalate (segments : List String) : ways (String.intercalate "/" segments) = segments.flatMap ways := by
  induction segments with
  | nil => rfl
  | cons s segments ih =>
    by_cases hrest : segments = []
    · subst hrest
      simp
    · rw [String.intercalate_cons_of_ne_nil hrest, ways_append, ih, List.flatMap_cons]

theorem isAbsolute_append {front : String} (h : front ≠ "") (rest : String) :
    Path.isAbsolute (front ++ rest) = Path.isAbsolute front := by
  unfold Path.isAbsolute
  cases hfront : front.toList with
  | nil => exact absurd (by simpa using hfront) h
  | cons c cs => simp [hfront]

theorem steps_append {a : String} (ha : a ≠ "") (b : String) : (steps (a ++ "/" ++ b)).1 = (steps a).1 ++ ways b := by
  rw [steps_eq, steps_eq, ways_append, String.append_assoc, isAbsolute_append ha, List.append_assoc]

/-- A path that is not absolute leads on from the directory that it is joined to. -/
theorem steps_join {path : String} (h : Path.isAbsolute path = false) (directory : String) :
    (steps (Path.join directory path)).1 = (steps directory).1 ++ ways path := by
  unfold Path.join
  rw [h, if_neg (by simp)]
  split
  · rename_i hempty
    obtain rfl : directory = "" := by simpa using hempty
    rw [steps_eq, h]
    rfl
  · rename_i c hlast
    have hne : directory ≠ "" := by
      rintro rfl
      simp at hlast
    split
    · -- the slash that the directory ends in is the one between
      rename_i hslash
      obtain ⟨front, hfront⟩ := List.getLast?_eq_some_iff.mp hlast
      obtain rfl : directory = String.ofList front ++ "/" := by
        rw [← String.toList_inj, hfront, hslash]
        simp
      have hempty : ways "" = [] := rfl
      rw [String.append_empty, steps_eq, steps_eq, isAbsolute_append hne, ways_append, List.append_assoc,
        ← String.append_empty (s := String.ofList front ++ "/"), ways_append, hempty, List.append_nil]
    · rw [steps_append hne]

theorem join_of_absolute {path : String} (h : Path.isAbsolute path = true) (directory : String) :
    Path.join directory path = path := by
  rw [Path.join, if_pos h]

/-! ## Paths of units -/

theorem pathOf_eq (package : String) : ∃ last ∈ Text.split '.' package,
    pathOf package = String.intercalate "/" (Text.split '.' package) ++ "/" ++ (last ++ ".proto") := by
  have hne := split_ne_nil package
  refine ⟨(Text.split '.' package).getLast hne, List.getLast_mem hne, ?_⟩
  simp only [pathOf, List.getLast?_eq_some_getLast hne, Option.getD_some, String.append_assoc]

theorem ne_dots_of_file (name : String) {s : String} (h : 'p' ∉ s.toList) : name ++ ".proto" ≠ s := by
  rintro rfl
  exact h (by simp)

/-- The last step of the path of a unit is to a file with a name. -/
theorem ways_file (last : String) : ∃ front final, (∀ s ∈ front, s ∈ Text.split '/' last) ∧
    final ∈ Text.split '/' last ∧ ways (last ++ ".proto") = front ++ [final ++ ".proto"] := by
  have hending : '/' ∉ ".proto".toList := by decide
  obtain ⟨front, final, hlast, hfile⟩ := Text.exists_pieces_append last.toList hending
  refine ⟨(front.map String.ofList).filter fun s => s ≠ "" && s ≠ ".", String.ofList final, ?_, ?_, ?_⟩
  · intro s hs
    rw [Text.split, hlast, List.map_append]
    exact List.mem_append_left _ (List.mem_filter.mp hs).1
  · rw [Text.split, hlast, List.map_append]
    exact List.mem_append_right _ (by simp)
  · have hname : String.ofList final ++ ".proto" ≠ "." := ne_dots_of_file _ (by decide)
    have hsplit : Text.split '/' (last ++ ".proto") = front.map String.ofList ++ [String.ofList final ++ ".proto"] := by
      rw [Text.split, String.toList_append, hfile, List.map_append]
      simp
    rw [ways, hsplit, List.filter_append]
    simp [hname]

theorem descends_of_mem_split {s part : String} (h : part ∈ Text.split '/' s) (hdot : '.' ∉ s.toList) : Descends part := by
  constructor
  · rintro rfl
    exact Text.not_mem_of_mem_split h (by decide)
  · rintro rfl
    exact hdot (Text.mem_of_mem_split h (by decide))

theorem ways_pathOf (package : String) : ∃ last ∈ Text.split '.' package,
    ways (pathOf package) = (Text.split '.' package).flatMap ways ++ ways (last ++ ".proto") := by
  obtain ⟨last, hlast, hpath⟩ := pathOf_eq package
  exact ⟨last, hlast, by rw [hpath, ways_append, ways_intercalate]⟩

/-- All dots of a package become slashes, so that no step of the path leads upwards. -/
theorem descends_pathOf (package : String) :
    (∀ s ∈ ways (pathOf package), Descends s) ∧ ways (pathOf package) ≠ [] := by
  obtain ⟨last, hlast, hways⟩ := ways_pathOf package
  obtain ⟨front, final, hfront, hfinal, hfile⟩ := ways_file last
  rw [hways, hfile]
  refine ⟨fun s hs => ?_, by simp⟩
  have hplain : ∀ {segment part : String}, segment ∈ Text.split '.' package → part ∈ Text.split '/' segment → Descends part :=
    fun hsegment hpart => descends_of_mem_split hpart (Text.not_mem_of_mem_split hsegment)
  rcases List.mem_append.mp hs with hs | hs
  · obtain ⟨segment, hsegment, hs⟩ := List.mem_flatMap.mp hs
    exact hplain hsegment (List.mem_filter.mp hs).1
  rcases List.mem_append.mp hs with hs | hs
  · exact hplain hlast (hfront s hs)
  · rw [List.mem_singleton.mp hs]
    have hslash : '/' ∉ final.toList := Text.not_mem_of_mem_split hfinal
    constructor
    · intro h
      have hin : '/' ∈ (final ++ ".proto").toList := by rw [h]; decide
      simp [hslash] at hin
    · exact ne_dots_of_file final (by decide)

/-- A path is absolute where the first character of the package becomes a slash, or there is
    none. -/
theorem isAbsolute_pathOf (package : String) :
    Path.isAbsolute (pathOf package) = true ↔ package = "" ∨ package.toList.head? = some '.' ∨ package.toList.head? = some '/' := by
  obtain ⟨last, _, _, hpath⟩ := toList_pathOf package
  unfold Path.isAbsolute
  rw [hpath]
  cases hpackage : package.toList with
  | nil => simp [show package = "" by simpa using hpackage]
  | cons c cs =>
    have hne : package ≠ "" := by
      rintro rfl
      simp at hpackage
    by_cases hdot : c = '.' <;> simp [inPath, hdot, hne]

end FileTree

/-! ## Below a directory -/

namespace Path

open FileTree (steps place ways Descends)

/-- A path leads below a directory: through it, and then on without ever leading upwards. -/
def Below (directory path : String) : Prop :=
  ∃ more ≠ [], (steps path).1 = (steps directory).1 ++ more ∧ ∀ s ∈ more, Descends s

theorem place_of_below {directory path : String} (h : Below directory path) :
    ∃ more ≠ [], place path = place directory ++ more := by
  obtain ⟨more, hne, hsteps, hdescends⟩ := h
  refine ⟨more, hne, ?_⟩
  rw [place, hsteps, List.foldl_append, FileTree.foldl_step hdescends]
  rfl

/-- The file of a unit is put below the output directory, unless its path is absolute and
    leads elsewhere. -/
theorem below_join_iff (output package : String) :
    Below output (join output (pathOf package)) ↔ isAbsolute (pathOf package) = false ∨ Below output (pathOf package) := by
  obtain ⟨hdescends, hne⟩ := FileTree.descends_pathOf package
  cases habsolute : isAbsolute (pathOf package) with
  | false =>
    refine iff_of_true ?_ (.inl rfl)
    exact ⟨ways (pathOf package), hne, FileTree.steps_join habsolute output, hdescends⟩
  | true =>
    rw [FileTree.join_of_absolute habsolute]
    simp

end Path

/-! ## Distinct places -/

namespace FileTree

/-- A package as names are dotted: no segment is empty, and none has a slash. -/
def IsDotted (package : String) : Prop := '/' ∉ package.toList ∧ "" ∉ Text.split '.' package

theorem ways_of_name {s : String} (hslash : '/' ∉ s.toList) (hempty : s ≠ "") (hdot : s ≠ ".") : ways s = [s] := by
  rw [ways, Text.split_of_not_mem hslash]
  simp [hempty, hdot]

theorem ways_of_isDotted {package : String} (h : IsDotted package) :
    ∃ file, ways (pathOf package) = Text.split '.' package ++ [file] := by
  obtain ⟨hslash, hempty⟩ := h
  obtain ⟨last, hlast, hways⟩ := ways_pathOf package
  have hsegment : ∀ s ∈ Text.split '.' package, '/' ∉ s.toList := fun s hs hin => hslash (Text.mem_of_mem_split hs hin)
  have hfront : (Text.split '.' package).flatMap ways = Text.split '.' package := by
    have hsingle : ∀ s ∈ Text.split '.' package, ways s = [s] := by
      intro s hs
      refine ways_of_name (hsegment s hs) (fun he => hempty (he ▸ hs)) ?_
      rintro rfl
      exact Text.not_mem_of_mem_split hs (by decide)
    rw [List.flatMap_congr hsingle]
    simp
  have hfile : ways (last ++ ".proto") = [last ++ ".proto"] := by
    refine ways_of_name (by simp [hsegment last hlast]) ?_ (ne_dots_of_file last (by decide))
    exact ne_dots_of_file last (by decide)
  exact ⟨last ++ ".proto", by rw [hways, hfront, hfile]⟩

theorem relative_of_isDotted {package : String} (h : IsDotted package) : Path.isAbsolute (pathOf package) = false := by
  obtain ⟨hslash, hempty⟩ := h
  rw [Bool.eq_false_iff, ne_eq, isAbsolute_pathOf]
  rintro (rfl | hdot | hfirst)
  · exact hempty (by decide)
  · obtain ⟨rest, rfl⟩ := Text.startsWithDot_iff.mp (show Text.startsWithDot package = true by simp [Text.startsWithDot, hdot])
    rw [← String.empty_append (s := "." ++ rest), ← String.append_assoc, Text.split_append rfl] at hempty
    exact hempty (List.mem_append_left _ (by decide))
  · exact hslash (List.mem_of_mem_head? hfirst)

/-- Dotted packages have files in distinct places. -/
theorem package_of_place {output p q : String} (hp : IsDotted p) (hq : IsDotted q)
    (h : place (Path.join output (pathOf p)) = place (Path.join output (pathOf q))) : p = q := by
  obtain ⟨file, hways⟩ := ways_of_isDotted hp
  obtain ⟨file', hways'⟩ := ways_of_isDotted hq
  unfold place at h
  rw [steps_join (relative_of_isDotted hp), steps_join (relative_of_isDotted hq), List.foldl_append, List.foldl_append,
    foldl_step (descends_pathOf p).1, foldl_step (descends_pathOf q).1, List.append_cancel_left_eq, hways, hways'] at h
  have hsegments : Text.split '.' p = Text.split '.' q := (List.append_inj_left' h rfl)
  rw [← intercalate_split p, hsegments, intercalate_split]

end FileTree

end Protograph
