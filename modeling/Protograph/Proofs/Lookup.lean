/-
  Protograph.Proofs.Lookup — looking a name up from the inside out.

  A name is looked up in the scope where it is written, then in the scope around that one
  (`outerScope`), and so on up to the root; the first scope that has a symbol of the name ends
  it. `Climbs` is that loop, with the scopes it looks at counted. It comes to an end from every
  scope, with empty segments in it or not, since each scope is shorter than the one before.

  Proved:
  - `climbs_iff`: from every scope the loop ends in one way, after one scope more than the
    scope has segments at the most, and with what `resolve` gives.
  - `resolve_innermost`: that is the symbol of the name in the longest scope around that has
    one; a name with a dot in front is a full name in every scope.
-/

import Protograph.Proofs.Completion

namespace Protograph

/-- The scope around a scope: what stands in front of its last dot, or else the root. -/
def outerScope (scope : String) : String := ((Text.cutLastDot scope).map (·.1)).getD ""

theorem outerScope_plain {scope : String} (h : '.' ∉ scope.toList) : outerScope scope = "" := by
  rw [outerScope, Text.cutLastDot, Text.cutLast_eq_none.mpr h]
  rfl

theorem outerScope_dotted {front last : String} (h : '.' ∉ last.toList) : outerScope (front ++ "." ++ last) = front := by
  rw [outerScope, Text.cutLastDot, toList_dotted, Text.cutLast_append h]
  simp

namespace Symbols

variable {t : Symbols} {name scope : String}

/-- Looks a name up in a scope and, as long as there is no symbol of it, in the scopes around:
    the number of scopes looked at, and what is found. -/
inductive Climbs (t : Symbols) (name : String) : String → Nat → Option Symbol → Prop
  | found {scope : String} {s : Symbol} : t.find? (qualify scope name) = some s → Climbs t name scope 1 (some s)
  | root : t.find? (qualify "" name) = none → Climbs t name "" 1 none
  | outwards {scope : String} {scopes : Nat} {r : Option Symbol} : t.find? (qualify scope name) = none → scope ≠ "" →
      Climbs t name (outerScope scope) scopes r → Climbs t name scope (scopes + 1) r

theorem Climbs.unique {n n' : Nat} {r r' : Option Symbol} (h : t.Climbs name scope n r) (h' : t.Climbs name scope n' r') :
    n = n' ∧ r = r' := by
  induction h generalizing n' r' with
  | found hfound =>
    cases h' with
    | found hfound' => exact ⟨rfl, hfound.symm.trans hfound'⟩
    | root hnone => cases hfound.symm.trans hnone
    | outwards hnone => cases hfound.symm.trans hnone
  | root hnone =>
    cases h' with
    | found hfound => cases hfound.symm.trans hnone
    | root => exact ⟨rfl, rfl⟩
    | outwards _ hne => exact absurd rfl hne
  | outwards hnone hne _ ih =>
    cases h' with
    | found hfound => cases hfound.symm.trans hnone
    | root => exact absurd rfl hne
    | outwards _ _ hrest =>
      obtain ⟨rfl, rfl⟩ := ih hrest
      exact ⟨rfl, rfl⟩

/-- The induction is on the dots of the scope. -/
theorem climbs_enclosingScopes (t : Symbols) (name scope : String) : ∃ scopes ≤ (Text.split '.' scope).length + 1,
    t.Climbs name scope scopes ((enclosingScopes scope).findSome? fun s => t.find? (qualify s name)) := by
  have hroot : t.Climbs name "" 1 (t.find? (qualify "" name)) := by
    cases h : t.find? (qualify "" name) with
    | none => exact .root h
    | some s => exact .found h
  induction scope using scope_induction with
  | plain scope hplain =>
    by_cases hempty : scope = ""
    · subst hempty
      refine ⟨1, by simp, ?_⟩
      simpa [enclosingScopes_root, List.findSome?] using hroot
    rw [enclosingScopes_plain hplain hempty, Text.split_of_not_mem hplain]
    cases h : t.find? (qualify scope name) with
    | some s => exact ⟨1, by simp, by simpa [h] using .found h⟩
    | none =>
      refine ⟨2, by simp, .outwards h hempty ?_⟩
      rw [outerScope_plain hplain]
      simpa [h] using hroot
  | dotted front last hlast ih =>
    obtain ⟨scopes, hle, hclimbs⟩ := ih
    rw [enclosingScopes_dotted hlast, split_dotted hlast]
    cases h : t.find? (qualify (front ++ "." ++ last) name) with
    | some s => exact ⟨1, by simp, by simpa [h] using .found h⟩
    | none =>
      refine ⟨scopes + 1, by simpa using hle, .outwards h (by simp) ?_⟩
      rw [outerScope_dotted hlast, List.findSome?_cons, h]
      exact hclimbs

/-- The loop ends in one way from every scope, and with what the name is resolved to. -/
theorem climbs_iff (hrel : Text.startsWithDot name = false) : ∃ scopes ≤ (Text.split '.' scope).length + 1,
    ∀ n r, t.Climbs name scope n r ↔ n = scopes ∧ r = t.resolve scope name := by
  obtain ⟨scopes, hle, hclimbs⟩ := climbs_enclosingScopes t name scope
  rw [← resolve_of_relative hrel] at hclimbs
  refine ⟨scopes, hle, fun n r => ⟨fun h => h.unique hclimbs, ?_⟩⟩
  rintro ⟨rfl, rfl⟩
  exact hclimbs

/-- What a name stands for is its symbol in the longest scope around that has one. -/
theorem resolve_eq_some_iff (hrel : Text.startsWithDot name = false) {s : Symbol} :
    t.resolve scope name = some s ↔ ∃ outer, Encloses outer scope ∧ t.find? (qualify outer name) = some s ∧
      ∀ inner, Encloses inner scope → qualify inner name ∈ t.names → inner.length ≤ outer.length := by
  have hpairs := enclosingScopes_pairwise scope
  rw [resolve_of_relative hrel, List.findSome?_eq_some_iff]
  constructor
  · intro h
    obtain ⟨front, outer, back, hscopes, hfound, hfront⟩ := h
    refine ⟨outer, mem_enclosingScopes_iff.mp (by rw [hscopes]; simp), hfound, fun inner hin hdef => ?_⟩
    rw [← mem_enclosingScopes_iff, hscopes] at hin
    rw [hscopes] at hpairs
    rcases List.mem_append.mp hin with hin | hin
    · exact absurd hdef (find?_eq_none.mp (hfront inner hin))
    · rcases List.mem_cons.mp hin with rfl | hin
      · exact Nat.le_refl _
      · exact Nat.le_of_lt (List.rel_of_pairwise_cons (List.pairwise_append.mp hpairs).2.1 hin)
  · intro h
    obtain ⟨outer, hin, hfound, hlongest⟩ := h
    obtain ⟨front, back, hscopes⟩ := List.append_of_mem (mem_enclosingScopes_iff.mpr hin)
    rw [hscopes] at hpairs
    refine ⟨front, outer, back, hscopes, hfound, fun inner hfront => find?_eq_none.mpr fun hdef => ?_⟩
    have hin : Encloses inner scope := mem_enclosingScopes_iff.mp (by rw [hscopes]; exact List.mem_append_left _ hfront)
    have hle : inner.length ≤ outer.length := hlongest inner hin hdef
    have hlt : outer.length < inner.length := (List.pairwise_append.mp hpairs).2.2 inner hfront outer List.mem_cons_self
    omega

/-- A name stands for nothing if and only if no scope around has a symbol of it. -/
theorem resolve_eq_none_iff (hrel : Text.startsWithDot name = false) :
    t.resolve scope name = none ↔ ∀ outer, Encloses outer scope → qualify outer name ∉ t.names := by
  rw [resolve_of_relative hrel, List.findSome?_eq_none_iff]
  simp only [mem_enclosingScopes_iff, find?_eq_none]

/-- A name with a dot in front is the full name of what it stands for, whatever the scope. Any
    other is looked up from the scope outwards, which comes to an end, and stands for its symbol
    in the longest scope around that has one, or for nothing if none has. -/
theorem resolve_innermost (t : Symbols) (scope name : String) :
    (∀ full, name = "." ++ full → t.resolve scope name = t.find? full) ∧
      (Text.startsWithDot name = false →
        (∃ scopes ≤ (Text.split '.' scope).length + 1,
          ∀ n r, t.Climbs name scope n r ↔ n = scopes ∧ r = t.resolve scope name) ∧
        (∀ s, t.resolve scope name = some s ↔ ∃ outer, Encloses outer scope ∧ t.find? (qualify outer name) = some s ∧
          ∀ inner, Encloses inner scope → qualify inner name ∈ t.names → inner.length ≤ outer.length) ∧
        (t.resolve scope name = none ↔ ∀ outer, Encloses outer scope → qualify outer name ∉ t.names)) := by
  refine ⟨?_, fun hrel => ⟨climbs_iff hrel, fun s => resolve_eq_some_iff hrel, resolve_eq_none_iff hrel⟩⟩
  rintro full rfl
  exact resolve_full t scope full

/-- One name in the root, in a package and in a message. -/
def slotSymbols : Symbols :=
  [⟨"Slot", .enumeration, "/.proto"⟩, ⟨"lib.Slot", .message, "lib/lib.proto"⟩, ⟨"lib.Shelf", .message, "lib/lib.proto"⟩,
   ⟨"lib.Shelf.Slot", .message, "lib/lib.proto"⟩]

/-- From a scope with an empty segment the name is that of the message. -/
theorem resolve_innermost_slotSymbols :
    (".lib.Slot" = "." ++ "lib.Slot" ∧ slotSymbols.resolve "lib.Shelf..Mark" ".lib.Slot" = slotSymbols.find? "lib.Slot") ∧
      Text.startsWithDot "Slot" = false ∧
      slotSymbols.resolve "lib.Shelf..Mark" "Slot" = some ⟨"lib.Shelf.Slot", .message, "lib/lib.proto"⟩ ∧
      (∃ scopes ≤ (Text.split '.' "lib.Shelf..Mark").length + 1, ∀ n r, slotSymbols.Climbs "Slot" "lib.Shelf..Mark" n r ↔
        n = scopes ∧ r = slotSymbols.resolve "lib.Shelf..Mark" "Slot") ∧
      ∃ outer, Encloses outer "lib.Shelf..Mark" ∧
        slotSymbols.find? (qualify outer "Slot") = some ⟨"lib.Shelf.Slot", .message, "lib/lib.proto"⟩ ∧
        ∀ inner, Encloses inner "lib.Shelf..Mark" → qualify inner "Slot" ∈ slotSymbols.names →
          inner.length ≤ outer.length := by
  have hfull : ".lib.Slot" = "." ++ "lib.Slot" := by decide +kernel
  have hrel : Text.startsWithDot "Slot" = false := by decide +kernel
  have hslot : slotSymbols.resolve "lib.Shelf..Mark" "Slot" = some ⟨"lib.Shelf.Slot", .message, "lib/lib.proto"⟩ := by
    decide +kernel
  obtain ⟨hclimbs, hfound, _⟩ := (resolve_innermost slotSymbols "lib.Shelf..Mark" "Slot").2 hrel
  exact ⟨⟨hfull, (resolve_innermost slotSymbols _ _).1 _ hfull⟩, hrel, hslot, hclimbs, (hfound _).mp hslot⟩

end Symbols

end Protograph
