/-
  Protograph.Proofs.Enumeration — the enumerations that fields become.

  `build_ok` says what a successful build goes through. From it: the values begin with one
  of number 0 (`head_number_of_build`), so there is one, and no two values share a number
  (`numbers_nodup_of_build`).
-/

import Protograph.Compile.Enumeration
import Protograph.Proofs.Tables

namespace Protograph.Enumeration

variable {α β : Type} [DecidableEq β]

theorem firstClash_eq_none_iff {key : α → β} {seen xs : List α} :
    firstClash key seen xs = none ↔ Fresh (seen.map key) (xs.map key) := by
  induction xs generalizing seen with
  | nil => simp [firstClash, fresh_nil]
  | cons x xs ih =>
    unfold firstClash
    rw [List.map_cons, fresh_cons]
    split
    · rename_i y hy
      have hmem : key x ∈ seen.map key :=
        List.mem_map.mpr ⟨y, List.mem_of_find?_eq_some hy, by simpa using List.find?_some hy⟩
      simp [hmem]
    · rename_i hnone
      have hnew : key x ∉ seen.map key := by simpa using List.find?_eq_none.mp hnone
      rw [ih, List.map_cons]
      exact ⟨fun h => ⟨hnew, h⟩, fun h => h.2⟩

theorem firstClash_nil_eq_none_iff {key : α → β} {xs : List α} :
    firstClash key [] xs = none ↔ (xs.map key).Nodup := by
  rw [firstClash_eq_none_iff, List.map_nil, fresh_of_none_seen]

/-- What the annotation of a field without fault is like. -/
structure Fits (field : FieldSpec) (options : EnumOptions) : Prop where
  numbered : ∀ v ∈ field.values, options.numbers.has v = true
  known : ∀ k ∈ options.numbers.keys, k ∈ field.values
  identifiers : (field.values.map identifier).Nodup
  numbers : (options.numbers.map (·.2)).Nodup
  default : ∀ d, field.default = some d → d ∈ field.values ∧ options.numbers.get? d = some 0
  zero : field.default = none → ∀ e ∈ options.numbers, e.2 ≠ 0

theorem fits_of_fault?_eq_none {field : FieldSpec} {options : EnumOptions} (h : fault? field options = none) :
    Fits field options := by
  unfold fault? at h
  split at h
  · cases h
  rename_i hnumbered
  split at h
  · cases h
  rename_i hknown
  split at h
  · cases h
  rename_i hident
  split at h
  · cases h
  rename_i hnumbers
  have hnumbered : ∀ v ∈ field.values, options.numbers.has v = true := by
    intro v hv
    simpa using List.find?_eq_none.mp hnumbered v hv
  have hknown : ∀ k ∈ options.numbers.keys, k ∈ field.values := by
    intro k hk
    simpa using List.find?_eq_none.mp hknown k hk
  refine ⟨hnumbered, hknown, firstClash_nil_eq_none_iff.mp hident, firstClash_nil_eq_none_iff.mp hnumbers, ?_, ?_⟩
  · intro d hd
    rw [hd] at h
    simp only at h
    split at h
    · cases h
    rename_i hmem
    split at h
    · cases h
    rename_i hzero
    exact ⟨by simpa using hmem, by simpa using hzero⟩
  · intro hd e he
    rw [hd] at h
    simp only [Option.map_eq_none_iff] at h
    simpa using List.find?_eq_none.mp h e he

/-- What a successful build of a field's enumeration goes through. -/
theorem build_ok {entity : String} {field : FieldSpec} {e : Enum} (h : build entity field = .ok e) :
    ∃ options, field.annotations.enumeration = some options ∧ Fits field options ∧
      e = { name := enumTypeName field.name, values := values field options } ∧ (e.values.map (·.name)).Nodup := by
  unfold build at h
  simp only at h
  split at h
  · cases h
  rename_i options hoptions
  split at h
  · cases h
  rename_i hfault
  split at h
  · cases h
  rename_i hclash
  cases h
  exact ⟨options, hoptions, fits_of_fault?_eq_none hfault, rfl, firstClash_nil_eq_none_iff.mp hclash⟩

/-! ## Numbers -/

namespace Fits

variable {field : FieldSpec} {options : EnumOptions}

theorem values_nodup (h : Fits field options) : field.values.Nodup := List.Nodup.of_map _ h.identifiers

/-- Every value has a number of its own in the annotation. -/
theorem exists_number (h : Fits field options) {v : String} (hv : v ∈ field.values) :
    ∃ n, options.numbers.get? v = some n ∧ (v, n) ∈ options.numbers := by
  cases hg : options.numbers.get? v with
  | none => exact absurd (Table.has_iff.mp (h.numbered v hv)) (Table.get?_eq_none.mp hg)
  | some n => exact ⟨n, rfl, Table.mem_of_get? hg⟩

theorem number_inj (h : Fits field options) {v w : String} (hv : v ∈ field.values) (hw : w ∈ field.values)
    (he : (options.numbers.get? v).getD 0 = (options.numbers.get? w).getD 0) : v = w := by
  obtain ⟨n, hn, hvn⟩ := h.exists_number hv
  obtain ⟨m, hm, hwm⟩ := h.exists_number hw
  rw [hn, hm] at he
  exact congrArg Prod.fst (List.inj_on_of_nodup_map h.numbers hvn hwm he)

theorem mem_ordered (h : Fits field options) {v : String} : v ∈ ordered field ↔ v ∈ field.values := by
  unfold ordered
  cases hd : field.default with
  | none => simp
  | some d =>
    have hmem := (h.default d hd).1
    simp only [Option.toList_some, List.singleton_append, List.mem_cons, List.mem_filter]
    constructor
    · rintro (rfl | ⟨hv, _⟩)
      · exact hmem
      · exact hv
    · intro hv
      by_cases he : v = d
      · exact .inl he
      · exact .inr ⟨hv, by simpa using he⟩

theorem ordered_nodup (h : Fits field options) : (ordered field).Nodup := by
  unfold ordered
  cases hd : field.default with
  | none => simpa using h.values_nodup
  | some d =>
    simp only [Option.toList_some, List.singleton_append, List.nodup_cons, List.mem_filter]
    exact ⟨by simp, h.values_nodup.filter _⟩

/-- The values begin with one of number 0. -/
theorem exists_head (h : Fits field options) : ∃ v vs, values field options = v :: vs ∧ v.number = 0 := by
  unfold values
  cases hd : field.default with
  | none => exact ⟨_, _, rfl, rfl⟩
  | some d =>
    have hord : ordered field = d :: field.values.filter fun v => some v ≠ some d := by
      unfold ordered; rw [hd]; rfl
    rw [hord]
    exact ⟨_, _, rfl, by simp [(h.default d hd).2]⟩

theorem numbers_nodup (h : Fits field options) : ((values field options).map (·.number)).Nodup := by
  have hdeclared : ((ordered field).map fun v => (options.numbers.get? v).getD 0).Nodup := by
    refine h.ordered_nodup.map_on ?_
    intro v hv w hw he
    exact h.number_inj (h.mem_ordered.mp hv) (h.mem_ordered.mp hw) he
  unfold values
  rw [List.map_append, List.map_map]
  cases hd : field.default with
  | some d => simpa [Function.comp_def] using hdeclared
  | none =>
    -- the unspecified value has number 0, which no declared one has
    simp only [Option.isNone_none, if_true, List.map_cons, List.map_nil, List.singleton_append, List.nodup_cons]
    refine ⟨?_, hdeclared⟩
    intro hz
    obtain ⟨v, hv, hvz⟩ := List.mem_map.mp hz
    obtain ⟨n, hn, hvn⟩ := h.exists_number (h.mem_ordered.mp hv)
    refine h.zero hd _ hvn ?_
    simpa [hn] using hvz

end Fits

theorem head_number_of_build {entity : String} {field : FieldSpec} {e : Enum} (h : build entity field = .ok e) :
    ∃ v vs, e.values = v :: vs ∧ v.number = 0 := by
  obtain ⟨_, _, hfits, rfl, _⟩ := build_ok h
  exact hfits.exists_head

theorem numbers_nodup_of_build {entity : String} {field : FieldSpec} {e : Enum} (h : build entity field = .ok e) :
    (e.values.map (·.number)).Nodup := by
  obtain ⟨_, _, hfits, rfl, _⟩ := build_ok h
  exact hfits.numbers_nodup

end Protograph.Enumeration
