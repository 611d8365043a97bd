/-
  Protograph.Proofs.Symbols — tables of symbols, and what a name written inside a scope
  stands for.

  Proved:
  - `ofFiles_eq_ok`: a table is made if and only if no two symbols have one name.
  - `resolve_perm`: then the order of the symbols does not matter.
  - `resolves_iff`: a name that is meant to be looked up in one of the scopes around it is
    found there if and only if nothing in a scope further in has its name.
-/

import Protograph.Descriptor.Symbol
import Protograph.Proofs.Tables

namespace Protograph

/-! ## Scopes -/

/-- A dotted name has no dot, or a last one with a dotted name in front. -/
theorem dotted_induction {P : List Char → Prop} (plain : ∀ s, '.' ∉ s → P s)
    (dotted : ∀ front last, '.' ∉ last → P front → P (front ++ '.' :: last)) (s : List Char) : P s := by
  cases hcut : Text.cutLast '.' s with
  | none => exact plain s (Text.cutLast_eq_none.mp hcut)
  | some cut =>
    obtain ⟨hs, hlast⟩ := Text.cutLast_eq_some hcut
    rw [hs]
    exact dotted _ _ hlast (dotted_induction plain dotted cut.1)
termination_by s.length
decreasing_by exact cutLast_length hcut

theorem enclosing_plain {s : List Char} (h : '.' ∉ s) : enclosing s = if s = [] then [[]] else [s, []] := by
  rw [enclosing]
  split
  · rfl
  · split
    · rename_i hcut
      rw [Text.cutLast_eq_none.mpr h] at hcut
      cases hcut
    · rfl

theorem enclosing_dotted {front last : List Char} (h : '.' ∉ last) :
    enclosing (front ++ '.' :: last) = (front ++ '.' :: last) :: enclosing front := by
  rw [enclosing, if_neg (by simp)]
  split
  · rename_i hcut
    rw [Text.cutLast_append h] at hcut
    cases hcut
    rfl
  · rename_i hcut
    rw [Text.cutLast_append h] at hcut
    cases hcut

theorem length_le_of_mem_enclosing (scope : List Char) : ∀ s ∈ enclosing scope, s.length ≤ scope.length := by
  induction scope using dotted_induction with
  | plain scope hplain =>
    intro s hs
    rw [enclosing_plain hplain] at hs
    split at hs
    · simp [List.mem_singleton.mp hs]
    · rcases List.mem_cons.mp hs with rfl | hs
      · exact Nat.le_refl _
      · simp [List.mem_singleton.mp hs]
  | dotted front last hlast ih =>
    intro s hs
    rw [enclosing_dotted hlast] at hs
    rcases List.mem_cons.mp hs with rfl | hs
    · exact Nat.le_refl _
    · have := ih s hs
      simp only [List.length_append, List.length_cons]
      omega

/-- Scopes get shorter from the inside out. -/
theorem enclosing_pairwise (scope : List Char) : (enclosing scope).Pairwise fun a b => b.length < a.length := by
  induction scope using dotted_induction with
  | plain scope hplain =>
    rw [enclosing_plain hplain]
    split
    · exact List.pairwise_singleton _ _
    · rename_i hne
      simpa using List.length_pos_iff.mpr hne
  | dotted front last hlast ih =>
    rw [enclosing_dotted hlast]
    refine List.pairwise_cons.mpr ⟨fun s hs => ?_, ih⟩
    have := length_le_of_mem_enclosing front s hs
    simp only [List.length_append, List.length_cons]
    omega

theorem self_mem_enclosing (scope : List Char) : scope ∈ enclosing scope := by
  rw [enclosing]
  split
  · rename_i h; simp [h]
  · exact List.mem_cons_self

theorem nil_mem_enclosing (scope : List Char) : [] ∈ enclosing scope := by
  induction scope using dotted_induction with
  | plain scope hplain =>
    rw [enclosing_plain hplain]
    split <;> simp
  | dotted front last hlast ih =>
    rw [enclosing_dotted hlast]
    exact List.mem_cons_of_mem _ ih

/-- What encloses a scope encloses what is named inside it, dots in the name or not. -/
theorem mem_enclosing_append {outer s : List Char} (h : s ∈ enclosing outer) (name : List Char) :
    s ∈ enclosing (outer ++ '.' :: name) := by
  induction name using dotted_induction with
  | plain name hplain =>
    rw [enclosing_dotted hplain]
    exact List.mem_cons_of_mem _ h
  | dotted front last hlast ih =>
    rw [← List.cons_append, ← List.append_assoc, enclosing_dotted hlast]
    exact List.mem_cons_of_mem _ ih

theorem root_mem_enclosingScopes (scope : String) : "" ∈ enclosingScopes scope :=
  List.mem_map.mpr ⟨[], nil_mem_enclosing _, rfl⟩

theorem self_mem_enclosingScopes (scope : String) : scope ∈ enclosingScopes scope :=
  List.mem_map.mpr ⟨_, self_mem_enclosing _, String.ofList_toList⟩

theorem enclosingScopes_pairwise (scope : String) :
    (enclosingScopes scope).Pairwise fun a b => b.length < a.length := by
  refine List.pairwise_map.mpr ((enclosing_pairwise scope.toList).imp ?_)
  intro a b h
  simpa using h

/-- Scopes around a scope that are of one length are the same scope. -/
theorem eq_of_length_eq {scope a b : String} (ha : a ∈ enclosingScopes scope) (hb : b ∈ enclosingScopes scope)
    (h : a.length = b.length) : a = b := by
  have hnodup : ((enclosingScopes scope).map String.length).Nodup :=
    List.pairwise_map.mpr ((enclosingScopes_pairwise scope).imp Nat.ne_of_gt)
  exact List.inj_on_of_nodup_map hnodup ha hb h

theorem scope_mem_enclosingScopes {outer : String} (houter : outer ≠ "") (name : String) :
    outer ∈ enclosingScopes (qualify outer name) := by
  refine List.mem_map.mpr ⟨outer.toList, ?_, String.ofList_toList⟩
  have hlist : (qualify outer name).toList = outer.toList ++ '.' :: name.toList := by
    simp [qualify, houter]
  rw [hlist]
  exact mem_enclosing_append (self_mem_enclosing _) _

theorem qualify_right_inj {scope a b : String} : qualify scope a = qualify scope b ↔ a = b := by
  unfold qualify
  split
  · rfl
  · exact String.append_right_inj _

theorem length_qualify_lt {a b : String} (h : b.length < a.length) (name : String) :
    (qualify b name).length < (qualify a name).length := by
  have ha : a ≠ "" := by rintro rfl; simp at h
  unfold qualify
  rw [if_neg ha]
  split
  · simp; omega
  · simp; omega

/-! ## Tables -/

namespace Symbols

variable {t t' : Symbols}

/-- The names of the symbols. -/
def names (t : Symbols) : List String := t.map (·.name)

theorem find?_eq_some (h : t.names.Nodup) {name : String} {s : Symbol} :
    t.find? name = some s ↔ s ∈ t ∧ s.name = name := by
  unfold find?
  constructor
  · intro hf
    exact ⟨List.mem_of_find?_eq_some hf, by simpa using List.find?_some hf⟩
  · intro hparts
    obtain ⟨hs, rfl⟩ := hparts
    exact find?_of_nodup h hs

theorem find?_eq_none {name : String} : t.find? name = none ↔ name ∉ t.names := by
  unfold find? names
  rw [List.find?_eq_none, List.mem_map]
  simp

theorem addAll_eq_ok {ss : List Symbol} (h : t.names.Nodup) :
    addAll t ss = .ok t' ↔ t' = t ++ ss ∧ (names (t ++ ss)).Nodup := by
  induction ss generalizing t with
  | nil =>
    simp only [addAll, List.append_nil]
    exact ⟨fun he => by cases he; exact ⟨rfl, h⟩, fun ⟨he, _⟩ => by rw [he]⟩
  | cons s ss ih =>
    unfold addAll
    split
    · rename_i taken htaken
      obtain ⟨hmem, hname⟩ := (find?_eq_some h).mp htaken
      simp only [reduceCtorEq, false_iff, not_and]
      rintro - hnodup
      simp only [names, List.map_append, List.map_cons, List.nodup_append] at hnodup
      exact hnodup.2.2 _ (List.mem_map_of_mem hmem) _ List.mem_cons_self hname
    · rename_i hfree
      have hfree : s.name ∉ t.names := find?_eq_none.mp hfree
      have hnodup : (names (t ++ [s])).Nodup := by
        simp only [names, List.map_append, List.map_cons, List.map_nil]
        rw [← List.concat_eq_append]
        exact List.Nodup.concat hfree h
      rw [ih hnodup, List.append_assoc, List.singleton_append]

/-- A table is made of some files if and only if no two of their symbols have one name. -/
theorem ofFiles_eq_ok {files : List ProtoFile} :
    ofFiles files = .ok t ↔ t = files.flatMap ProtoFile.symbols ∧ (names (files.flatMap ProtoFile.symbols)).Nodup :=
  addAll_eq_ok (t := []) List.nodup_nil

/-- Where names are distinct, a symbol is found in any order of the symbols. -/
theorem find?_perm (h : t.names.Nodup) (hp : t.Perm t') (name : String) : t.find? name = t'.find? name := by
  have h' : t'.names.Nodup := (hp.map _).nodup_iff.mp h
  ext s
  rw [find?_eq_some h, find?_eq_some h', hp.mem_iff]

theorem resolve_perm (h : t.names.Nodup) (hp : t.Perm t') (scope name : String) :
    t.resolve scope name = t'.resolve scope name := by
  unfold resolve
  simp only [find?_perm h hp]

/-! ## What a name stands for -/

theorem resolve_of_relative {name : String} (h : Text.startsWithDot name = false) (scope : String) :
    t.resolve scope name = (enclosingScopes scope).findSome? fun s => t.find? (qualify s name) := by
  unfold resolve
  split
  · rename_i full hfull
    simp [Text.startsWithDot, hfull] at h
  · rfl

theorem resolve_full (t : Symbols) (scope name : String) : t.resolve scope ("." ++ name) = t.find? name := by
  simp [resolve]

theorem mem_of_resolve {scope name : String} {s : Symbol} (h : t.resolve scope name = some s) : s ∈ t := by
  unfold resolve at h
  split at h
  · exact List.mem_of_find?_eq_some h
  · obtain ⟨_, _, hfound⟩ := List.exists_of_findSome?_eq_some h
    exact List.mem_of_find?_eq_some hfound

/-- What is found of a name is its innermost meaning. -/
theorem resolve_eq_some {scope name : String} {s : Symbol} (hrel : Text.startsWithDot name = false)
    (h : t.resolve scope name = some s) :
    s ∈ t ∧ ∃ home ∈ enclosingScopes scope, s.name = qualify home name ∧
      ∀ inner ∈ enclosingScopes scope, home.length < inner.length → qualify inner name ∉ t.names := by
  rw [resolve_of_relative hrel, List.findSome?_eq_some_iff] at h
  obtain ⟨front, home, back, hscopes, hfound, hfront⟩ := h
  refine ⟨List.mem_of_find?_eq_some hfound, home, by rw [hscopes]; simp, by simpa using List.find?_some hfound, ?_⟩
  intro inner hinner hlt
  have hpairs := enclosingScopes_pairwise scope
  rw [hscopes] at hinner hpairs
  rcases List.mem_append.mp hinner with hin | hin
  · exact find?_eq_none.mp (hfront inner hin)
  · -- scopes from `home` on are no longer than it
    rcases List.mem_cons.mp hin with rfl | hin
    · omega
    · have := List.rel_of_pairwise_cons (List.pairwise_append.mp hpairs).2.1 hin
      omega

/-- A name that is meant to be looked up in one of the scopes around it is found there if
    and only if there is such a symbol and none whose name is longer. -/
theorem resolves_iff {scope name home : String} (hrel : Text.startsWithDot name = false)
    (hhome : home ∈ enclosingScopes scope) :
    (∃ s, t.resolve scope name = some s ∧ s.name = qualify home name) ↔
      qualify home name ∈ t.names ∧ ∀ inner ∈ enclosingScopes scope, home.length < inner.length →
        qualify inner name ∉ t.names := by
  have hlengths : ∀ a ∈ enclosingScopes scope, qualify a name = qualify home name → ¬ home.length < a.length := by
    intro a _ he hlt
    have := length_qualify_lt hlt name
    rw [he] at this
    omega
  constructor
  · intro h
    obtain ⟨s, hs, hname⟩ := h
    obtain ⟨hmem, found, hfound, hfoundName, hinner⟩ := resolve_eq_some hrel hs
    refine ⟨hname ▸ List.mem_map_of_mem hmem, fun inner hin hlt => hinner inner hin ?_⟩
    have hsame : qualify found name = qualify home name := hfoundName.symm.trans hname
    have : ¬ home.length < found.length := hlengths found hfound hsame
    omega
  · intro h
    obtain ⟨hdeclared, hinner⟩ := h
    cases hs : t.resolve scope name with
    | none =>
      rw [resolve_of_relative hrel, List.findSome?_eq_none_iff] at hs
      exact absurd hdeclared (find?_eq_none.mp (hs home hhome))
    | some s =>
      obtain ⟨hmem, found, hfound, hfoundName, hfree⟩ := resolve_eq_some hrel hs
      refine ⟨s, rfl, ?_⟩
      have hle : ¬ home.length < found.length := by
        intro hlt
        exact hinner found hfound hlt (hfoundName ▸ List.mem_map_of_mem hmem)
      have hge : ¬ found.length < home.length := fun hlt => hfree home hhome hlt hdeclared
      have hsame : found = home := eq_of_length_eq hfound hhome (by omega)
      rw [hfoundName, hsame]

end Symbols

end Protograph
