/-
  Protograph.Proofs.Numbering — the values of an enumeration against the annotation of its
  field.

  An annotation may fail to fit the values in seven ways (`Faulty`), and to fit is to have
  none of them (`fits_iff_not_faulty`). Of an annotation that fits, the enumeration has every
  declared value once with the number of its option (`Stands`), and one value of number 0 in
  front (`Enumerates`).

  Proved, for all fields:
  - `exists_build_iff`: an enumeration comes of a field exactly when its annotation fits and
    no two values have one name.
  - `build_enumerates`: it enumerates what the field declares, and each fault of an annotation
    is an error that says so.
-/

import Protograph.Proofs.Enumeration

namespace Protograph.Enumeration

variable {field : FieldSpec} {options : EnumOptions}

/-! ## Faults -/

/-- The annotation does not fit the values. -/
inductive Faulty (field : FieldSpec) (options : EnumOptions) : Prop
  | unnumbered {v : String} : v ∈ field.values → options.numbers.get? v = none → Faulty field options
  | unknown {k : String} : k ∈ options.numbers.keys → k ∉ field.values → Faulty field options
  | alike {a b : String} : [a, b].Sublist field.values → identifier a = identifier b → Faulty field options
  | shared {a b : String × Int} : [a, b].Sublist options.numbers → a.2 = b.2 → Faulty field options
  | unlisted {d : String} : field.default = some d → d ∉ field.values → Faulty field options
  | misplaced {d : String} : field.default = some d → options.numbers.get? d ≠ some 0 → Faulty field options
  | zero {e : String × Int} : field.default = none → e ∈ options.numbers → e.2 = 0 → Faulty field options

theorem has_iff_get?_ne_none {t : Table Int} {k : String} : t.has k = true ↔ t.get? k ≠ none := by
  rw [Table.has_iff, ne_eq, Table.get?_eq_none, not_not]

/-- Keys are distinct if no two entries, one after the other, share theirs. -/
theorem nodup_map_iff {α β : Type} {key : α → β} {xs : List α} :
    (xs.map key).Nodup ↔ ∀ {a b : α}, [a, b].Sublist xs → key a ≠ key b := by
  rw [List.Nodup, List.pairwise_map, List.pairwise_iff_forall_sublist]

theorem Fits.not_faulty (h : Fits field options) : ¬ Faulty field options := by
  intro hfaulty
  cases hfaulty with
  | unnumbered hv hnone => exact has_iff_get?_ne_none.mp (h.numbered _ hv) hnone
  | unknown hk hnew => exact hnew (h.known _ hk)
  | alike hab hsame => exact nodup_map_iff.mp h.identifiers hab hsame
  | shared hab hsame => exact nodup_map_iff.mp h.numbers hab hsame
  | unlisted hd hnew => exact hnew (h.default _ hd).1
  | misplaced hd hnumber => exact hnumber (h.default _ hd).2
  | zero hd he hzero => exact h.zero hd _ he hzero

theorem fits_iff_not_faulty : Fits field options ↔ ¬ Faulty field options := by
  refine ⟨Fits.not_faulty, fun h => ?_⟩
  constructor
  · intro v hv
    exact has_iff_get?_ne_none.mpr fun hnone => h (.unnumbered hv hnone)
  · intro k hk
    by_contra hnew
    exact h (.unknown hk hnew)
  · exact nodup_map_iff.mpr fun hab hsame => h (.alike hab hsame)
  · exact nodup_map_iff.mpr fun hab hsame => h (.shared hab hsame)
  · intro d hd
    constructor
    · by_contra hnew
      exact h (.unlisted hd hnew)
    · by_contra hnumber
      exact h (.misplaced hd hnumber)
  · intro hd e he hzero
    exact h (.zero hd he hzero)

/-- A fault is found exactly where there is one. -/
theorem fault?_eq_none_iff : fault? field options = none ↔ ¬ Faulty field options := by
  rw [← fits_iff_not_faulty]
  refine ⟨fits_of_fault?_eq_none, fun h => ?_⟩
  have hnumbered : (field.values.find? fun v => !options.numbers.has v) = none := by
    simpa using h.numbered
  have hknown : (options.numbers.keys.find? fun k => !field.values.contains k) = none := by
    simpa using h.known
  unfold fault?
  simp only [hnumbered, hknown, firstClash_nil_eq_none_iff.mpr h.identifiers, firstClash_nil_eq_none_iff.mpr h.numbers]
  cases hd : field.default with
  | some d =>
    obtain ⟨hlisted, hnumber⟩ := h.default d hd
    simp [hlisted, hnumber]
  | none => simpa using h.zero hd

/-! ## Builds -/

theorem build_of_fault {entity : String} {fault : AnnotationFault} (hoptions : field.annotations.enumeration = some options)
    (h : fault? field options = some fault) :
    build entity field = .error (.misannotated (entity ++ "." ++ field.name) fault) := by
  unfold build
  simp only [hoptions, h]

/-- A build of an annotation without fault comes to its values, or to a name that two have. -/
theorem build_of_fits (entity : String) (hoptions : field.annotations.enumeration = some options)
    (h : fault? field options = none) :
    build entity field = .ok { name := enumTypeName field.name, values := values field options } ∧
        ((values field options).map (·.name)).Nodup ∨
      (∃ name, build entity field = .error (.nameConflict (entity ++ "." ++ enumTypeName field.name) name)) ∧
        ¬ ((values field options).map (·.name)).Nodup := by
  unfold build
  simp only [hoptions, h]
  rw [← firstClash_nil_eq_none_iff]
  cases hclash : firstClash EnumValue.name [] (values field options) with
  | none => exact .inl ⟨rfl, rfl⟩
  | some clash => exact .inr ⟨⟨_, rfl⟩, by simp⟩

theorem exists_build_iff {entity : String} :
    (∃ e, build entity field = .ok e) ↔
      ∃ options, field.annotations.enumeration = some options ∧ ¬ Faulty field options ∧
        ((values field options).map (·.name)).Nodup := by
  constructor
  · rintro ⟨e, h⟩
    obtain ⟨options, hoptions, hfits, rfl, hnames⟩ := build_ok h
    exact ⟨options, hoptions, hfits.not_faulty, hnames⟩
  · rintro ⟨options, hoptions, hfaultless, hnames⟩
    rcases build_of_fits entity hoptions (fault?_eq_none_iff.mpr hfaultless) with ⟨h, _⟩ | ⟨_, hclash⟩
    · exact ⟨_, h⟩
    · exact absurd hnames hclash

/-- An annotation is reported if and only if it does not fit the values. -/
theorem misannotated_iff {entity : String} (hoptions : field.annotations.enumeration = some options) :
    (∃ fault, build entity field = .error (.misannotated (entity ++ "." ++ field.name) fault)) ↔ Faulty field options := by
  cases hfault : fault? field options with
  | some fault =>
    refine iff_of_true ⟨fault, build_of_fault hoptions hfault⟩ ?_
    by_contra hfaultless
    rw [fault?_eq_none_iff.mpr hfaultless] at hfault
    cases hfault
  | none =>
    refine iff_of_false ?_ (fault?_eq_none_iff.mp hfault)
    rintro ⟨fault, h⟩
    rcases build_of_fits entity hoptions hfault with ⟨hok, _⟩ | ⟨⟨name, hconflict⟩, _⟩
    · rw [h] at hok
      cases hok
    · rw [h] at hconflict
      cases hconflict

/-! ## Values -/

/-- A value of the enumeration stands for a declared one. -/
structure Stands (field : FieldSpec) (options : EnumOptions) (declared : String) (value : EnumValue) : Prop where
  name : value.name = valueName field options declared
  number : options.numbers.get? declared = some value.number

/-- The values are those that the field declares, by the numbers that its annotation gives. -/
structure Enumerates (field : FieldSpec) (options : EnumOptions) (vs : List EnumValue) : Prop where
  /-- The first value has number 0, and no other. -/
  zero : ∃ v rest, vs = v :: rest ∧ v.number = 0 ∧ ∀ w ∈ rest, w.number ≠ 0
  numbers : (vs.map (·.number)).Nodup
  names : (vs.map (·.name)).Nodup
  /-- Without a default the unspecified value comes first, then the declared ones. -/
  unspecified : field.default = none → ∃ rest, vs = ⟨Text.shoutySnake field.name ++ "_UNSPECIFIED", 0⟩ :: rest ∧
    List.Forall₂ (Stands field options) field.values rest
  /-- A default comes first, then the others. -/
  default : ∀ d, field.default = some d →
    List.Forall₂ (Stands field options) (d :: field.values.filter (· ≠ d)) vs
  /-- Every declared value is there once. -/
  once : ∀ v ∈ field.values, ∃ x, Stands field options v x ∧ vs.filter (fun y => y.name == valueName field options v) = [x]

namespace Fits

/-- What a field declares, value for value in the enumeration. -/
theorem stands (h : Fits field options) {declared : List String} (hall : ∀ v ∈ declared, v ∈ field.values) :
    List.Forall₂ (Stands field options) declared
      (declared.map fun v => ⟨valueName field options v, (options.numbers.get? v).getD 0⟩) := by
  rw [List.forall₂_map_right_iff, List.forall₂_same]
  intro v hv
  obtain ⟨n, hn, _⟩ := h.exists_number (hall v hv)
  exact ⟨rfl, by rw [hn, Option.getD_some]⟩

theorem stands_ordered (h : Fits field options) :
    List.Forall₂ (Stands field options) (ordered field)
      ((ordered field).map fun v => ⟨valueName field options v, (options.numbers.get? v).getD 0⟩) :=
  h.stands fun _ hv => h.mem_ordered.mp hv

theorem enumerates (h : Fits field options) (hnames : ((values field options).map (·.name)).Nodup) :
    Enumerates field options (values field options) := by
  have hnumbers := h.numbers_nodup
  refine ⟨?_, hnumbers, hnames, ?_, ?_, ?_⟩
  · obtain ⟨v, rest, hvs, hzero⟩ := h.exists_head
    rw [hvs, List.map_cons, List.nodup_cons, hzero] at hnumbers
    exact ⟨v, rest, hvs, hzero, fun w hw hw0 => hnumbers.1 (List.mem_map.mpr ⟨w, hw, hw0⟩)⟩
  · intro hd
    have hordered : ordered field = field.values := by simp [ordered, hd]
    refine ⟨_, ?_, h.stands fun _ hv => hv⟩
    unfold values
    rw [hd, hordered]
    rfl
  · intro d hd
    have hordered : ordered field = d :: field.values.filter (· ≠ d) := by simp [ordered, hd]
    have hvalues : values field options =
        (ordered field).map fun v => ⟨valueName field options v, (options.numbers.get? v).getD 0⟩ := by
      unfold values
      rw [hd]
      rfl
    rw [hvalues, ← hordered]
    exact h.stands_ordered
  · intro v hv
    obtain ⟨x, hx, hstands⟩ := exists_of_forall₂_left h.stands_ordered (h.mem_ordered.mpr hv)
    refine ⟨x, hstands, ?_⟩
    rw [← hstands.name]
    exact filter_of_nodup hnames (List.mem_append_right _ hx)

end Fits

/-- The enumeration that is built has the values that the field declares, with the numbers that
    its annotation gives and one value of number 0 in front. An annotation that does not fit
    the values is reported, and one that fits gives an enumeration unless two values have one
    name. -/
theorem build_enumerates (entity : String) (field : FieldSpec) :
    (∀ e, build entity field = .ok e → ∃ options, field.annotations.enumeration = some options ∧
      e.name = enumTypeName field.name ∧ Enumerates field options e.values) ∧
    (∀ options, field.annotations.enumeration = some options →
      ((∃ fault, build entity field = .error (.misannotated (entity ++ "." ++ field.name) fault)) ↔
        Faulty field options)) ∧
    ((∃ e, build entity field = .ok e) ↔
      ∃ options, field.annotations.enumeration = some options ∧ ¬ Faulty field options ∧
        ((values field options).map (·.name)).Nodup) := by
  refine ⟨?_, fun _ hoptions => misannotated_iff hoptions, exists_build_iff⟩
  intro e h
  obtain ⟨options, hoptions, hfits, rfl, hnames⟩ := build_ok h
  exact ⟨options, hoptions, rfl, hfits.enumerates hnames⟩

/-- A field with a default, which stands second among its values. -/
def stateField : FieldSpec :=
  { name := "state", kind := .enumeration, values := ["on hold", "active"], default := some "active"
    annotations := { enumeration := some { numbers := [("on hold", 3), ("active", 0)] } } }

/-- The same field without its default, the number of which nothing may have then. -/
def zeroField : FieldSpec := { stateField with default := none }

theorem build_enumerates_stateField :
    build "User" stateField = .ok { name := "State", values := [⟨"STATE_ACTIVE", 0⟩, ⟨"STATE_ON_HOLD", 3⟩] } ∧
    Enumerates stateField { numbers := [("on hold", 3), ("active", 0)] } [⟨"STATE_ACTIVE", 0⟩, ⟨"STATE_ON_HOLD", 3⟩] ∧
    Faulty zeroField { numbers := [("on hold", 3), ("active", 0)] } ∧
    ∃ fault, build "User" zeroField = .error (.misannotated "User.state" fault) := by
  have hbuild : build "User" stateField =
      .ok { name := "State", values := [⟨"STATE_ACTIVE", 0⟩, ⟨"STATE_ON_HOLD", 3⟩] } := by decide +kernel
  have hfaulty : Faulty zeroField { numbers := [("on hold", 3), ("active", 0)] } :=
    .zero rfl (List.mem_cons_of_mem _ List.mem_cons_self) rfl
  obtain ⟨options, hoptions, _, henumerates⟩ := (build_enumerates "User" stateField).1 _ hbuild
  cases hoptions
  exact ⟨hbuild, henumerates, hfaulty, ((build_enumerates "User" zeroField).2.1 _ rfl).mpr hfaulty⟩

end Protograph.Enumeration
