/-
  Protograph.Proofs.Qualification — names of messages of other packages, written and read.

  A reference to a message of another package is written as the package, a dot and the name
  of the entity (`qualifiedTypeName`), and read by leaving out the dots in front and cutting
  at the last dot that is left (`splitName`). No check is made of either part before.

  Proved, for every scope and every table of packages:
  - `splitName_dotted_iff`: what is cut apart is what was put together if and only if there is
    a package, no dot stands at its beginning, and none in the name of the entity.
  - `refer_qualified_iff`: then, and only then, the reference leads to the file of the package
    and to the entity and to nothing else, where no type of this name is nearer at hand.
  - `refer_rootless`: to an entity without a package there is no way from another package.
-/

import Protograph.Compile.EntityMessage
import Protograph.Proofs.Acceptance

namespace Protograph.NameScope

variable {s : NameScope} {target home : String}

/-! ## Cut apart -/

/-- What a name is cut into, if not the name of a message of the scope's own package. -/
theorem dotted_of_splitName {name : String} (h : s.splitName name = (home, target)) (hother : home ≠ s.package) :
    name = home ++ "." ++ target ∧ '.' ∉ target.toList := by
  rcases splitName_cases h with hparts | ⟨hhome, _⟩
  · exact hparts
  · exact absurd hhome hother

/-- Reading gives back the parts that were put together if and only if no dot of theirs is
    left out or cut at. -/
theorem splitName_dotted_iff (hother : home ≠ s.package) :
    s.splitName (Text.withoutLeadingDots (home ++ "." ++ target)) = (home, target) ↔
      home ≠ "" ∧ Text.startsWithDot home = false ∧ '.' ∉ target.toList := by
  rw [← and_assoc, ← Text.startsWithDot_dotted_iff home target]
  constructor
  · intro h
    obtain ⟨hname, htarget⟩ := dotted_of_splitName h hother
    exact ⟨hname ▸ Text.startsWithDot_withoutLeadingDots _, htarget⟩
  · rintro ⟨hrelative, htarget⟩
    rw [Text.withoutLeadingDots_of_relative hrelative, splitName_dotted htarget]

/-! ## Referred to -/

theorem qualifiedTypeName_of_ne (hother : home ≠ s.package) :
    qualifiedTypeName s.package target home = home ++ "." ++ target := if_neg (Ne.symm hother)

/-- A name is recorded as that of one entity and the file of its package only if it is read so. -/
theorem reads_of_record {m : Meaning} {name : String} (hread : s.Reads name false m)
    (hrecord : s.record {} m = { imports := addNew [] (pathOf home), entities := addNew [] target }) :
    ∃ q, m = .entity q target ∧ target ≠ s.entity := by
  have hentities : addAll [] (s.entityOf m).toList = addNew [] target := (References.mk.inj hrecord).2
  have hone : (s.entityOf m).toList = [target] := by
    cases hm : s.entityOf m with
    | none => rw [hm] at hentities; cases hentities
    | some t => rw [hm] at hentities; exact hentities
  cases m with
  | enumeration => cases hone
  | wellKnown path => cases hone
  | own => cases hone
  | entity q t =>
    rw [entityOf_entity] at hone
    split at hone
    · rename_i hne
      obtain rfl : t = target := by simpa using hone
      exact ⟨q, rfl, hne⟩
    · cases hone

/-- The name of another package's entity, if not that of a type nearer at hand, stands for the
    entity in its file and for nothing else exactly where it can be cut apart again. -/
theorem refer_qualified_iff (s : NameScope) (target home : String) (hplace : s.packages.get? target = some home)
    (hother : home ≠ s.package)
    (hwell : WellKnown.types.get? (qualifiedTypeName s.package target home) = none)
    (hmessage : qualifiedTypeName s.package target home ∉ s.messages)
    (henum : qualifiedTypeName s.package target home ∉ s.enums) :
    (∀ r element, s.refer r element (qualifiedTypeName s.package target home) false =
        .ok { imports := addNew r.imports (pathOf home), entities := addNew r.entities target }) ↔
      target ≠ s.entity ∧ home ≠ "" ∧ Text.startsWithDot home = false ∧ '.' ∉ target.toList := by
  rw [qualifiedTypeName_of_ne hother] at hwell hmessage henum ⊢
  constructor
  · intro h
    obtain ⟨m, hread, hrecord⟩ := refer_eq_ok.mp (h {} "")
    obtain ⟨q, rfl, hself⟩ := reads_of_record hread hrecord
    cases hread with
    | entity _ _ _ hsplit hhome =>
      obtain rfl : home = q := Option.some.inj (hplace.symm.trans hhome)
      exact ⟨hself, (splitName_dotted_iff hother).mp hsplit⟩
  · rintro ⟨hself, hparts⟩ r element
    have hrelative : Text.startsWithDot (home ++ "." ++ target) = false :=
      (Text.startsWithDot_dotted_iff home target).mpr ⟨hparts.1, hparts.2.1⟩
    have hsplit := (splitName_dotted_iff hother).mpr hparts
    rw [Text.withoutLeadingDots_of_relative hrelative] at hsplit
    refine refer_eq_ok.mpr ⟨.entity home target, ?_, ?_⟩
    · rw [Text.withoutLeadingDots_of_relative hrelative]
      exact .entity henum hwell hmessage hsplit hplace
    · rw [record_entity, if_pos hother, if_pos hself]

/-- A user in one package, groups in another, and teams in none. -/
def memberScope : NameScope :=
  { entity := "User", package := "entpb"
    packages := [("User", "entpb"), ("Group", "corp.groups"), ("Team", "")]
    messages := ["User"], enums := [] }

theorem refer_qualified_iff_memberScope :
    memberScope.packages.get? "Group" = some "corp.groups" ∧
      qualifiedTypeName memberScope.package "Group" "corp.groups" = "corp.groups.Group" ∧
      ∀ r element, memberScope.refer r element "corp.groups.Group" false =
        .ok { imports := addNew r.imports "corp/groups/groups.proto", entities := addNew r.entities "Group" } := by
  refine ⟨by decide, by decide, ?_⟩
  have hpath : pathOf "corp.groups" = "corp/groups/groups.proto" := by decide
  rw [← hpath]
  exact (refer_qualified_iff memberScope "Group" "corp.groups" (by decide) (by decide) (by decide) (by decide)
    (by decide)).mpr ⟨by decide, by decide, by decide, by decide⟩

/-- Without a package only a dot is written in front of the name, and nothing of it is read. -/
theorem refer_rootless : ¬ ∀ (s : NameScope) (target home : String), s.packages.get? target = some home →
    home ≠ s.package → WellKnown.types.get? (qualifiedTypeName s.package target home) = none →
    qualifiedTypeName s.package target home ∉ s.messages → qualifiedTypeName s.package target home ∉ s.enums →
    ∀ r element, s.refer r element (qualifiedTypeName s.package target home) false =
      .ok { imports := addNew r.imports (pathOf home), entities := addNew r.entities target } := by
  intro hall
  have hread := hall memberScope "Team" "" (by decide) (by decide) (by decide) (by decide) (by decide) {} "User.team"
  have hrefused : memberScope.refer {} "User.team" ".Team" false =
      .error (.unresolvedReference "User.team" ".Team" .unknownType) := by rfl
  cases hrefused.symm.trans hread

end Protograph.NameScope
