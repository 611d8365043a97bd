/-
  Protograph.Proofs.Units — the units that survivors make.

  `group_eq`: there is one unit for each package of the survivors, in the order in which
  the packages first come, and it holds all that the survivors of the package have, in
  their order (`unitOf`).
-/

import Protograph.Compile.Compilation
import Protograph.Proofs.Tables

namespace Protograph

/-! ## Survivors -/

namespace Compilation

/-- The entities with output, in order. -/
def survivors (outputs : Outputs) : Table EntityOutput :=
  outputs.filterMap fun (e, r) => match r with
    | .ok o => some (e, o)
    | .error _ => none

theorem mem_survivors {outputs : Outputs} {e : String} {o : EntityOutput} :
    (e, o) ∈ survivors outputs ↔ (e, .ok o) ∈ outputs := by
  unfold survivors
  rw [List.mem_filterMap]
  constructor
  · intro h
    obtain ⟨⟨a, r⟩, hm, h⟩ := h
    cases r with
    | ok o' => cases h; exact hm
    | error x => cases h
  · intro hm
    exact ⟨_, hm, rfl⟩

theorem survivors_snoc_ok (outputs : Outputs) (e : String) (o : EntityOutput) :
    survivors (outputs ++ [(e, .ok o)]) = survivors outputs ++ [(e, o)] := by
  simp [survivors]

theorem survivors_snoc_error (outputs : Outputs) (e : String) (x : EntityError) :
    survivors (outputs ++ [(e, .error x)]) = survivors outputs := by
  simp [survivors]

/-- The survivors of a package. -/
def within (outs : Table EntityOutput) (package : String) : Table EntityOutput :=
  outs.filter fun e => e.2.package = package

/-- The unit of a package: all that the survivors of the package have. -/
def unitOf (outs : Table EntityOutput) (package : String) : PackageUnit :=
  { package
    messages := (within outs package).flatMap (·.2.messages)
    services := (within outs package).flatMap (·.2.services)
    imports := addAll [] ((within outs package).flatMap (·.2.references.imports))
    entities := (within outs package).map (·.1) }

/-- The packages of some survivors, each once. -/
def packagesIn (outs : Table EntityOutput) : List String := addAll [] (outs.map (·.2.package))

theorem mem_packagesIn {outs : Table EntityOutput} {package : String} :
    package ∈ packagesIn outs ↔ ∃ e o, (e, o) ∈ outs ∧ o.package = package := by
  unfold packagesIn
  rw [mem_addAll]
  simp

theorem within_snoc (outs : Table EntityOutput) (e : String) (o : EntityOutput) (package : String) :
    within (outs ++ [(e, o)]) package =
      if o.package = package then within outs package ++ [(e, o)] else within outs package := by
  unfold within
  rw [List.filter_append]
  split
  · rename_i h; simp [h]
  · rename_i h; simp [h]

theorem within_eq_nil {outs : Table EntityOutput} {package : String} (h : package ∉ packagesIn outs) :
    within outs package = [] := by
  unfold within
  rw [List.filter_eq_nil_iff]
  rintro ⟨e, o⟩ hm
  simp only [decide_eq_true_eq]
  rintro rfl
  exact h (mem_packagesIn.mpr ⟨e, o, hm, rfl⟩)

/-- An output is added to the units of those before it. -/
theorem addOutput_eq (outs : Table EntityOutput) (e : String) (o : EntityOutput) :
    addOutput ((packagesIn outs).map (unitOf outs)) e o =
      (packagesIn (outs ++ [(e, o)])).map (unitOf (outs ++ [(e, o)])) := by
  have hother : ∀ p, o.package ≠ p → unitOf (outs ++ [(e, o)]) p = unitOf outs p := by
    intro p hp
    simp only [unitOf, within_snoc, if_neg hp]
  have hpackages : packagesIn (outs ++ [(e, o)]) = addNew (packagesIn outs) o.package := by
    unfold packagesIn
    rw [List.map_append]
    exact addAll_snoc
  have hextended : unitOf (outs ++ [(e, o)]) o.package =
      { unitOf outs o.package with
        messages := (unitOf outs o.package).messages ++ o.messages
        services := (unitOf outs o.package).services ++ o.services
        imports := addAll (unitOf outs o.package).imports o.references.imports
        entities := (unitOf outs o.package).entities ++ [e] } := by
    simp only [unitOf, within_snoc, if_true, List.flatMap_append, List.flatMap_cons, List.flatMap_nil, List.append_nil,
      List.map_append, List.map_cons, List.map_nil, addAll_append]
  have hany : ((packagesIn outs).map (unitOf outs)).any (fun u => u.package = o.package) = true ↔
      o.package ∈ packagesIn outs := by
    rw [List.any_map, List.any_eq_true]
    constructor
    · intro h
      obtain ⟨p, hp, he⟩ := h
      obtain rfl : p = o.package := of_decide_eq_true he
      exact hp
    · intro hp
      exact ⟨_, hp, decide_eq_true rfl⟩
  unfold addOutput
  dsimp only
  rw [hpackages]
  unfold addNew
  by_cases hin : o.package ∈ packagesIn outs
  · rw [if_pos (hany.mpr hin), if_pos hin, List.map_map]
    refine List.map_congr_left fun p _ => ?_
    show (if (unitOf outs p).package = o.package then _ else unitOf outs p) = _
    split
    · rename_i hp
      have hp : p = o.package := hp
      subst hp
      rw [hextended]
    · rename_i hp
      exact (hother p (Ne.symm hp)).symm
  · rw [if_neg (mt hany.mp hin), if_neg hin, List.map_append, List.map_singleton, hextended]
    have hbefore : (packagesIn outs).map (unitOf (outs ++ [(e, o)])) = (packagesIn outs).map (unitOf outs) := by
      refine List.map_congr_left fun p hp => hother p ?_
      rintro rfl
      exact hin hp
    have hempty : unitOf outs o.package = { package := o.package } := by
      simp only [unitOf, within_eq_nil hin]
      rfl
    rw [hbefore, hempty]

/-- One unit for each package of the survivors. -/
theorem group_eq (outputs : Outputs) :
    group outputs = (packagesIn (survivors outputs)).map (unitOf (survivors outputs)) := by
  induction outputs using List.reverseRecOn with
  | nil => rfl
  | append_singleton outputs entry ih =>
    obtain ⟨e, r⟩ := entry
    unfold group at ih ⊢
    rw [List.foldl_append, ih]
    cases r with
    | error x => rw [survivors_snoc_error]; rfl
    | ok o => rw [survivors_snoc_ok]; exact addOutput_eq _ _ _

/-- No two units are of one package. -/
theorem packages_group_nodup (outputs : Outputs) : ((group outputs).map (·.package)).Nodup := by
  have hpackages : ((group outputs).map (·.package)) = packagesIn (survivors outputs) := by
    rw [group_eq, List.map_map]
    exact List.map_id _
  rw [hpackages]
  exact nodup_addAll List.nodup_nil _

end Compilation

end Protograph
