/-
  Protograph.Proofs.Packages — a package and the packages around it, as names are looked up,
  as a text is printed, and as a pool is built.

  Looking up cuts a scope at its last dot again and again (`enclosingScopes`). A text joins
  the segments of a package one after another (`Namespaces.ofPackage`), and a pool joins the
  first one, the first two, and so on (`Pool.packagePrefixes`).

  Proved: `mem_packagePrefixes_iff` and `mem_ofPackage_iff`. These are the same packages, but
  that the text loses the dots that a package begins with.
-/

import Protograph.Descriptor.Pool
import Protograph.Descriptor.SourceText
import Protograph.Proofs.Symbols

namespace Protograph

/-! ## Segments of a name -/

/-- `dotted_induction` for names. -/
theorem scope_induction {P : String → Prop} (plain : ∀ s : String, '.' ∉ s.toList → P s)
    (dotted : ∀ front last : String, '.' ∉ last.toList → P front → P (front ++ "." ++ last)) (s : String) : P s := by
  have hlist : ∀ cs : List Char, P (String.ofList cs) := by
    intro cs
    induction cs using dotted_induction with
    | plain cs hplain => exact plain _ (by rwa [String.toList_ofList])
    | dotted front last hlast ih =>
      have hjoin : String.ofList (front ++ '.' :: last) = String.ofList front ++ "." ++ String.ofList last := by
        rw [← String.toList_inj]
        simp
      rw [hjoin]
      exact dotted _ _ (by rwa [String.toList_ofList]) ih
  rw [← String.ofList_toList (s := s)]
  exact hlist s.toList

theorem toList_dotted (front last : String) : (front ++ "." ++ last).toList = front.toList ++ '.' :: last.toList := by
  simp

theorem split_dotted {front last : String} (h : '.' ∉ last.toList) :
    Text.split '.' (front ++ "." ++ last) = Text.split '.' front ++ [last] := by
  rw [Text.split_append rfl, Text.split_of_not_mem h]

theorem split_ne_nil (s : String) : Text.split '.' s ≠ [] := by
  simpa [Text.split] using Text.pieces_ne_nil '.' s.toList

/-- A name is its segments with dots between them. -/
theorem intercalate_split (s : String) : String.intercalate "." (Text.split '.' s) = s := by
  induction s using scope_induction with
  | plain s hplain => rw [Text.split_of_not_mem hplain]; rfl
  | dotted front last hlast ih =>
    rw [split_dotted hlast, String.intercalate_append_of_ne_nil (split_ne_nil front) (by simp), ih]
    rfl

/-! ## Looked up -/

theorem enclosingScopes_plain {s : String} (h : '.' ∉ s.toList) (hne : s ≠ "") : enclosingScopes s = [s, ""] := by
  have hlist : s.toList ≠ [] := by simpa using hne
  rw [enclosingScopes, enclosing_plain h, if_neg hlist]
  simp

theorem enclosingScopes_dotted {front last : String} (h : '.' ∉ last.toList) :
    enclosingScopes (front ++ "." ++ last) = (front ++ "." ++ last) :: enclosingScopes front := by
  rw [enclosingScopes, toList_dotted, enclosing_dotted h, List.map_cons, ← toList_dotted, String.ofList_toList]
  rfl

/-- Around a name without dots there is nothing but the root. -/
theorem mem_enclosingScopes_plain {s scope : String} (h : '.' ∉ s.toList) (hne : scope ≠ "") :
    scope ∈ enclosingScopes s ↔ scope = s := by
  by_cases hempty : s = ""
  · simp [hempty, enclosingScopes, enclosing, hne]
  · simp [enclosingScopes_plain h hempty, hne]

theorem enclosingScopes_root : enclosingScopes "" = [""] := by simp [enclosingScopes, enclosing]

/-- What encloses a scope encloses what the scope encloses. -/
theorem enclosingScopes_trans {a b c : String} (hab : a ∈ enclosingScopes b) (hbc : b ∈ enclosingScopes c) :
    a ∈ enclosingScopes c := by
  induction c using scope_induction with
  | plain c hplain =>
    by_cases hc : c = ""
    · rw [hc, enclosingScopes_root, List.mem_singleton] at hbc
      rwa [hc, ← hbc]
    rw [enclosingScopes_plain hplain hc] at hbc
    rcases List.mem_cons.mp hbc with rfl | hbc
    · exact hab
    · rw [List.mem_singleton.mp hbc, enclosingScopes_root, List.mem_singleton] at hab
      rw [hab]
      exact root_mem_enclosingScopes c
  | dotted front last hlast ih =>
    rw [enclosingScopes_dotted hlast] at hbc ⊢
    rcases List.mem_cons.mp hbc with rfl | hbc
    · rwa [enclosingScopes_dotted hlast] at hab
    · exact List.mem_cons_of_mem _ (ih hbc)

/-- All scopes around a name but the root begin with a dot, or none does. -/
theorem startsWithDot_of_mem_enclosingScopes {scope name : String} (h : scope ∈ enclosingScopes name) (hne : scope ≠ "") :
    Text.startsWithDot name = Text.startsWithDot scope := by
  induction name using scope_induction with
  | plain name hplain =>
    rw [(mem_enclosingScopes_plain hplain hne).mp h]
  | dotted front last hlast ih =>
    rw [enclosingScopes_dotted hlast] at h
    rcases List.mem_cons.mp h with rfl | h
    · rfl
    · have hfront : front ≠ "" := by
        rintro rfl
        rw [enclosingScopes_root, List.mem_singleton] at h
        exact hne h
      rw [String.append_assoc, Text.startsWithDot_append hfront, ih h]

/-! ## Printed -/

namespace Namespaces

theorem prefixes_snoc (lead : String) (segments : List String) (last : String) :
    prefixes lead (segments ++ [last]) = prefixes lead segments ++ [qualify (segments.foldl qualify lead) last] := by
  induction segments generalizing lead with
  | nil => rfl
  | cons s segments ih =>
    show qualify lead s :: prefixes (qualify lead s) (segments ++ [last]) =
      qualify lead s :: (prefixes (qualify lead s) segments ++ _)
    rw [ih]
    rfl

/-- The segments of a name that does not begin with a dot make it up again. -/
theorem foldl_split (name : String) (h : Text.startsWithDot name = false) :
    (Text.split '.' name).foldl qualify "" = name := by
  induction name using scope_induction with
  | plain name hplain => rw [Text.split_of_not_mem hplain]; rfl
  | dotted front last hlast ih =>
    obtain ⟨hne, hfront⟩ := (Text.startsWithDot_dotted_iff _ _).mp h
    rw [split_dotted hlast, List.foldl_append, ih hfront]
    show qualify front last = _
    rw [qualify, if_neg hne]

theorem ofPackage_dotted {front last : String} (hlast : '.' ∉ last.toList)
    (h : Text.startsWithDot (front ++ "." ++ last) = false) :
    ofPackage (front ++ "." ++ last) = ofPackage front ++ [front ++ "." ++ last] := by
  obtain ⟨hne, hfront⟩ := (Text.startsWithDot_dotted_iff _ _).mp h
  unfold ofPackage
  rw [split_dotted hlast, prefixes_snoc, foldl_split front hfront, qualify, if_neg hne]

/-- The packages that a text knows around a package, if it does not begin with a dot. -/
theorem mem_ofPackage_iff {package scope : String} (h : Text.startsWithDot package = false) (hne : scope ≠ "") :
    scope ∈ ofPackage package ↔ scope ∈ enclosingScopes package := by
  induction package using scope_induction with
  | plain package hplain =>
    have hsingle : ofPackage package = [package] := by
      rw [ofPackage, Text.split_of_not_mem hplain]
      rfl
    rw [hsingle, List.mem_singleton, mem_enclosingScopes_plain hplain hne]
  | dotted front last hlast ih =>
    obtain ⟨_, hfront⟩ := (Text.startsWithDot_dotted_iff _ _).mp h
    rw [ofPackage_dotted hlast h, enclosingScopes_dotted hlast, List.mem_append, List.mem_singleton, List.mem_cons,
      ih hfront, or_comm]

end Namespaces

/-! ## Claimed -/

namespace Pool

/-- The names that the first segments make up, by their number. -/
def joined (segments : List String) : List String :=
  (List.range segments.length).map fun n => String.intercalate "." (segments.take (n + 1))

theorem joined_snoc (segments : List String) (last : String) :
    joined (segments ++ [last]) = joined segments ++ [String.intercalate "." (segments ++ [last])] := by
  unfold joined
  rw [List.length_append, List.length_singleton, List.range_succ, List.map_append, List.map_singleton,
    List.take_of_length_le (by simp)]
  congr 1
  refine List.map_congr_left fun n hn => ?_
  rw [List.take_append_of_le_length (List.mem_range.mp hn)]

theorem mem_joined_iff {package scope : String} (hne : scope ≠ "") :
    scope ∈ joined (Text.split '.' package) ↔ scope ∈ enclosingScopes package := by
  induction package using scope_induction with
  | plain package hplain =>
    have hsingle : joined (Text.split '.' package) = [package] := by
      rw [Text.split_of_not_mem hplain]
      rfl
    rw [hsingle, List.mem_singleton, mem_enclosingScopes_plain hplain hne]
  | dotted front last hlast ih =>
    have hwhole := intercalate_split (front ++ "." ++ last)
    rw [split_dotted hlast] at hwhole ⊢
    rw [joined_snoc, hwhole, enclosingScopes_dotted hlast, List.mem_append, List.mem_singleton, List.mem_cons, ih, or_comm]

/-- The packages that a file claims are its package and those around it. -/
theorem mem_packagePrefixes_iff {package scope : String} (hne : scope ≠ "") :
    scope ∈ packagePrefixes package ↔ scope ∈ enclosingScopes package := by
  rw [← mem_joined_iff hne]
  unfold packagePrefixes
  split
  · rename_i hempty
    rw [hempty]
    have hsingle : joined (Text.split '.' "") = [""] := rfl
    rw [hsingle]
    simp [hne]
  · rfl

end Pool

end Protograph
