/-
  Protograph.Proofs.Completion — what becomes of the files of units in a descriptor set.

  A unit names types the short way, each from some scope: the message around a field, nested
  or not, or the package around a method. A set names them in full. The name in the set is
  what `Completes` says: the one written, if that begins with a dot, and otherwise a dot, the
  longest scope around in which it names a symbol, and the one written. The scopes around are
  the scope, the texts in front of its dots, and the root (`mem_enclosingScopes_iff`).

  Proved:
  - `completes_of_resolve`, `Completes.unique`: the full name of what a name stands for is its
    completion, and it has no other.
  - `completed_of_assemble`: the files of a set are those of its units, each once, with all
    names of types completed and nothing else changed.
-/

import Protograph.Proofs.Consistency
import Protograph.Proofs.Packages

namespace Protograph

/-! ## Scopes around a scope -/

/-- A scope is around another one: it is that one, the root, or the text in front of one of
    its dots. -/
def Encloses (outer scope : String) : Prop := outer = scope ∨ outer = "" ∨ ∃ rest, scope = outer ++ "." ++ rest

theorem encloses_dotted_iff {outer front last : String} (h : '.' ∉ last.toList) :
    Encloses outer (front ++ "." ++ last) ↔ outer = front ++ "." ++ last ∨ Encloses outer front := by
  constructor
  · rintro (rfl | rfl | ⟨rest, hrest⟩)
    · exact .inl rfl
    · exact .inr (.inr (.inl rfl))
    · right
      have hlist := congrArg String.toList hrest
      rw [toList_dotted, toList_dotted] at hlist
      rcases List.append_eq_append_iff.mp hlist with ⟨more, houter, hlast⟩ | ⟨more, hfront, hlast⟩
      · cases more with
        | nil => exact .inl (String.toList_inj.mp (by simpa using houter))
        | cons c more =>
          -- the dot behind `outer` would be one of the last segment
          obtain ⟨_, hlast⟩ := List.cons.inj hlast
          exact absurd (by simp [hlast]) h
      · cases more with
        | nil => exact .inl (String.toList_inj.mp (by simpa using hfront.symm))
        | cons c more =>
          obtain ⟨rfl, _⟩ := List.cons.inj hlast
          refine .inr (.inr ⟨String.ofList more, ?_⟩)
          rw [← String.toList_inj, toList_dotted, String.toList_ofList]
          exact hfront
  · rintro (rfl | rfl | rfl | ⟨rest, rfl⟩)
    · exact .inl rfl
    · exact .inr (.inr ⟨last, rfl⟩)
    · exact .inr (.inl rfl)
    · exact .inr (.inr ⟨rest ++ "." ++ last, by simp only [String.append_assoc]⟩)

/-- A name is looked up in the scopes around the one that it is written in. -/
theorem mem_enclosingScopes_iff {outer scope : String} : outer ∈ enclosingScopes scope ↔ Encloses outer scope := by
  induction scope using scope_induction with
  | plain scope hplain =>
    have hnone : ¬ ∃ rest, scope = outer ++ "." ++ rest := by
      rintro ⟨rest, rfl⟩
      exact hplain (by simp)
    unfold Encloses
    by_cases hempty : scope = ""
    · simp [hempty, enclosingScopes_root]
    · simp [enclosingScopes_plain hplain hempty, hnone]
  | dotted front last hlast ih =>
    rw [enclosingScopes_dotted hlast, List.mem_cons, ih, encloses_dotted_iff hlast]

/-! ## Completed names -/

/-- A name written in a scope stands in the set as another one: a name that begins with a dot
    as itself, and any other behind the longest scope around where it is that of a symbol. -/
inductive DescriptorSet.Completes (set : DescriptorSet) (scope name : String) : String → Prop
  | full : Text.startsWithDot name = true → Completes set scope name name
  | relative {outer : String} : Text.startsWithDot name = false → Encloses outer scope →
      set.Defines (qualify outer name) →
      (∀ inner, Encloses inner scope → set.Defines (qualify inner name) → inner.length ≤ outer.length) →
      Completes set scope name ("." ++ qualify outer name)

theorem DescriptorSet.Completes.unique {set : DescriptorSet} {scope name full full' : String} (h : set.Completes scope name full)
    (h' : set.Completes scope name full') : full = full' := by
  cases h with
  | full hdot =>
    cases h' with
    | full _ => rfl
    | relative hrel _ _ _ => cases hdot.symm.trans hrel
  | relative hrel hin hdef hlongest =>
    cases h' with
    | full hdot => cases hdot.symm.trans hrel
    | relative _ hin' hdef' hlongest' =>
      have hlength := Nat.le_antisymm (hlongest' _ hin hdef) (hlongest _ hin' hdef')
      rw [eq_of_length_eq (mem_enclosingScopes_iff.mpr hin) (mem_enclosingScopes_iff.mpr hin') hlength]

namespace Assembly

variable {scope : String} {units : List PackageUnit} {set : DescriptorSet}

/-- What a name stands for is its completion. -/
theorem completes_of_resolve {name : String} {s : Symbol} (h : (symbolsOf set.all).resolve scope name = some s) :
    set.Completes scope name ("." ++ s.name) := by
  cases hdot : Text.startsWithDot name with
  | true =>
    obtain ⟨full, rfl⟩ := Text.startsWithDot_iff.mp hdot
    rw [Symbols.resolve_full] at h
    have hname : s.name = full := by simpa [Symbols.find?] using List.find?_some h
    rw [hname]
    exact .full hdot
  | false =>
    obtain ⟨hs, outer, houter, hname, hfree⟩ := Symbols.resolve_eq_some hdot h
    rw [hname]
    refine .relative hdot (mem_enclosingScopes_iff.mp houter) (hname ▸ List.mem_map_of_mem hs) fun inner hin hdef => ?_
    by_contra hlonger
    exact hfree inner (mem_enclosingScopes_iff.mpr hin) (by omega) hdef

/-! ## Sets -/

/-- In the set of units of distinct paths, every unit has one file, its own but for the names
    of types, and each of these is completed. -/
theorem completed_of_assemble (h : assemble units = .ok set) (hpaths : (units.map (·.path)).Nodup) :
    ∃ complete : String → String → String,
      (∀ u ∈ units, ∀ r ∈ u.toFile.references, set.Completes r.scope r.name (complete r.scope r.name)) ∧
        set.files.Perm (units.map fun u => u.toFile.retype complete) := by
  obtain ⟨files, hperm, hfiles⟩ := canonical_units h hpaths
  refine ⟨fullName (symbolsOf set.all), ?_, ?_⟩
  · intro u hu r hr
    obtain ⟨f', _, hcanonical⟩ := exists_of_forall₂_left hfiles (hperm.mem_iff.mpr (List.mem_map_of_mem hu))
    obtain ⟨s, hs, _⟩ := exists_canonical_iff.mp ⟨f', hcanonical⟩ r hr
    rw [fullName_of_resolve hs]
    exact completes_of_resolve hs
  · have hperm := hperm.map (ProtoFile.retype (fullName (symbolsOf set.all)))
    rw [eq_map_of_forall₂ (hfiles.imp fun _ _ => canonicalFile_eq)]
    rwa [List.map_map] at hperm

/-- The names in the set of the shelves and the books on them, a message two levels deep among
    them. -/
theorem completed_shelfUnits : ∃ set, assemble shelfUnits = .ok set ∧ (shelfUnits.map (·.path)).Nodup ∧
    (set.files.flatMap ProtoFile.references).map (·.name) =
      [".lib.Shelf.Slot", ".lib.Shelf.Slot.Mark", ".lib.Shelf", ".lib.Shelf.State", ".lib.Shelf.Slot",
        ".google.protobuf.Timestamp", ".lib.Shelf.State", ".app.books.Book", ".lib.Shelf"] ∧
    ∃ complete : String → String → String,
      (∀ u ∈ shelfUnits, ∀ r ∈ u.toFile.references, set.Completes r.scope r.name (complete r.scope r.name)) ∧
        set.files.Perm (shelfUnits.map fun u => u.toFile.retype complete) := by
  have h : (assembleApart shelfUnits).toOption.any (fun set => namesApart set &&
      decide ((set.files.flatMap ProtoFile.references).map (·.name) =
        [".lib.Shelf.Slot", ".lib.Shelf.Slot.Mark", ".lib.Shelf", ".lib.Shelf.State", ".lib.Shelf.Slot",
          ".google.protobuf.Timestamp", ".lib.Shelf.State", ".app.books.Book", ".lib.Shelf"])) = true := by
    decide +kernel
  obtain ⟨set, hset, hnames⟩ := exists_assembled_of_apart h
  have hpaths : (shelfUnits.map (·.path)).Nodup := by decide +kernel
  exact ⟨set, hset, hpaths, of_decide_eq_true hnames, completed_of_assemble hset hpaths⟩

end Assembly

end Protograph
