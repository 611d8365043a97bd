/-
  Protograph.Proofs.Filters — which entities can be listed, and the numbers in their filters.

  A filter is numbered by position, and the number is not checked as one that a schema states
  is (`checkNumber`). So the numbers are those up to the length of the filter
  (`admissible_fill_iff`), whatever protobuf keeps for itself.

  Proved:
  - `build_iff_listable`: the list messages are built if and only if the identifier can tell
    rows apart, each mode offered has a type, each further filter a wrapper, and all names are
    distinct. The filter then has a field for each slot, numbered by its place.
  - `numbers_admissible_iff`: all numbers are allowed if and only if the filter has fewer than
    19000 fields.
  - `reserved_number`: so a filter that is built can have a number that is not allowed. It
    takes 6334 strings that are filtered in each mode.
-/

import Mathlib
import Protograph.Proofs.Layout
import Protograph.Proofs.Listing
import Protograph.Proofs.Words

namespace Protograph

/-- What a listing asks of an entity. -/
structure Entity.Listable (e : Entity) : Prop where
  identifier : e.id.kind.isInteger = true ∨ e.id.kind = .string ∨ e.id.kind = .uuid
  fields : ∀ f ∈ Listing.candidates e, f.Filterable
  extras : ∀ x ∈ Listing.extras e, x.2.wrapper?.isSome = true
  names : ((Listing.slots e).map (·.1)).Nodup

/-- A field of some message with a number that protobuf allows, and that the schema could
    have stated. -/
structure Field.Admissible (message : String) (f : Field) : Prop where
  inRange : 1 ≤ f.number ∧ f.number ≤ 536870911
  unreserved : ¬ (19000 ≤ f.number ∧ f.number ≤ 19999)
  checked : checkNumber message f.name f.number true = .ok f.number

namespace Listing

/-! ## Entities with a listing -/

theorem build_eq_ok {e : Entity} {messages : List Message} :
    build e = .ok messages ↔ e.Listable ∧
      messages = [{ name := filterName e.name, fields := fill 0 (slots e) }, request e.name, response e.name] := by
  have hrows : e.id.kind.identifiesRows = true ↔
      e.id.kind.isInteger = true ∨ e.id.kind = .string ∨ e.id.kind = .uuid := by
    simp [Kind.identifiesRows, or_assoc]
  unfold build
  by_cases hid : e.id.kind.identifiesRows = true
  · rw [if_neg (by simp [hid])]
    simp only [bind_eq_ok, pure_eq_ok, filter_eq_ok]
    constructor
    · intro hbuilt
      obtain ⟨_, ⟨⟨hfields, hextras, hnames⟩, rfl⟩, rfl⟩ := hbuilt
      exact ⟨⟨hrows.mp hid, hfields, hextras, hnames⟩, rfl⟩
    · intro hparts
      obtain ⟨hlist, rfl⟩ := hparts
      exact ⟨_, ⟨⟨hlist.fields, hlist.extras, hlist.names⟩, rfl⟩, rfl⟩
  · rw [if_pos (by simpa using hid)]
    refine iff_of_false (fun h => by cases h) fun hparts => ?_
    exact hid (hrows.mpr hparts.1.identifier)

/-- An entity has list messages if and only if it can be listed. Its filter has a field for
    each slot, and the k-th of them the number k. -/
theorem build_iff_listable (e : Entity) :
    ((∃ messages, build e = .ok messages) ↔ e.Listable) ∧
      (∀ messages, build e = .ok messages → messages =
        [{ name := filterName e.name, fields := (slots e).mapIdx fun k s => s.2.toField s.1 (k + 1) },
          request e.name, response e.name]) ∧
      ((∃ fault, build e = .error fault) ↔ ¬ e.Listable) := by
  have hlistable : (∃ messages, build e = .ok messages) ↔ e.Listable := by
    simp only [build_eq_ok, exists_and_left, exists_eq, and_true]
  refine ⟨hlistable, fun messages h => ?_, ?_⟩
  · rw [(build_eq_ok.mp h).2]
    simp [fill]
  · rw [← hlistable]
    cases build e <;> simp

/-- Names that differ can become one. -/
example : ¬ Entity.Listable
    { name := "User"
      fields := [{ name := "userName", kind := .string, annotations := { filter := some { mode := .eq } } },
        { name := "user_name", kind := .int, annotations := { filter := some { mode := .eq } } }] } :=
  fun h => absurd h.names (by decide +kernel)

/-! ## Numbers -/

theorem admissible_iff {message : String} {f : Field} :
    f.Admissible message ↔ Pool.isFieldNumber f.number = true := by
  constructor
  · intro h
    exact (checkNumber_eq_ok.mp h.checked).2.1
  · intro h
    obtain ⟨hrange, hreserved⟩ := isFieldNumber_iff_allowed.mp h
    exact ⟨hrange, hreserved, checkNumber_eq_ok.mpr ⟨rfl, h, fun _ => rfl⟩⟩

theorem forall_admissible_iff {message : String} {fields : List Field} :
    (∀ f ∈ fields, f.Admissible message) ↔ ∀ n ∈ fields.map (·.number), Pool.isFieldNumber n = true := by
  simp only [admissible_iff, List.forall_mem_map]

/-- Numbers that are places are allowed as far as the first that protobuf keeps. -/
theorem admissible_fill_iff {message : String} {slots : List (String × MappedType)} :
    (∀ f ∈ fill 0 slots, f.Admissible message) ↔ slots.length < 19000 := by
  rw [forall_admissible_iff, numbers_fill, List.forall_mem_map]
  simp only [List.mem_range, isFieldNumber_iff_allowed]
  constructor
  · intro hall
    by_contra hlong
    have hfirst := hall 18999 (by omega)
    omega
  · intro hshort k hk
    omega

/-! ## An entity with a filter of any length -/

/-- A string that is filtered by its value, by parts and by lists. -/
def wideField (k : Nat) : FieldSpec :=
  { name := "f" ++ toString k, kind := .string, annotations := { filter := some { mode := ⟨7⟩ } } }

def wideEntity (n : Nat) : Entity := { name := "Wide", fields := (List.range n).map wideField }

theorem wideField_name_inj {a b : Nat} : (wideField a).name = (wideField b).name ↔ a = b := by
  unfold wideField
  rw [String.append_right_inj, Nat.toString_eq_repr, Nat.toString_eq_repr]
  exact ⟨fun h => Nat.repr_injective h, congrArg Nat.repr⟩

theorem plain_of_wideField (k : Nat) : ∀ c ∈ (wideField k).name.toList, c.isLower = true ∨ c.isDigit = true := by
  intro c hc
  rw [wideField, String.toList_append, List.mem_append] at hc
  rcases hc with hc | hc
  · rw [List.mem_singleton.mp hc]
    decide
  · rw [Nat.toString_eq_repr, Nat.repr_eq_ofList_toDigits, String.toList_ofList] at hc
    exact .inr (Nat.isDigit_of_mem_toDigits (by decide) (by decide) hc)

theorem names_wideField (k : Nat) : (fieldSlots "Wide" (wideField k)).map (·.1) =
    [(wideField k).name, (wideField k).name ++ "_contains", (wideField k).name ++ "_in"] := by
  have hsnake : Text.snake (wideField k).name = (wideField k).name :=
    Text.snake_of_plain (by simp [wideField]) (plain_of_wideField k)
  have hmodes : FilterModes.has ⟨7⟩ .eq = true ∧ FilterModes.has ⟨7⟩ .contains = true ∧
      FilterModes.has ⟨7⟩ .member = true := by decide
  have hslots : (fieldSlots "Wide" (wideField k)).map (·.1) = [Text.snake (wideField k).name,
      Text.snake (wideField k).name ++ "_contains", Text.snake (wideField k).name ++ "_in"] := by
    simp [fieldSlots, wideField, valueSlots, partSlots, memberSlots, hmodes, valueType?, memberType?, Kind.wrapper?,
      Kind.scalar?]
  rw [hslots, hsnake]

/-- The name of a filter tells the field that it is for. -/
theorem takeWhile_of_names_wideField {k : Nat} {name : String}
    (h : name ∈ (fieldSlots "Wide" (wideField k)).map (·.1)) :
    name.toList.takeWhile (· ≠ '_') = (wideField k).name.toList := by
  have hplain : ∀ c ∈ (wideField k).name.toList, decide (c ≠ '_') = true := by
    intro c hc
    rw [decide_eq_true_eq]
    rintro rfl
    exact absurd (plain_of_wideField k '_' hc) (by decide)
  rw [names_wideField] at h
  simp only [List.mem_cons, List.not_mem_nil, or_false] at h
  rcases h with rfl | rfl | rfl
  · exact List.takeWhile_eq_self_iff.mpr hplain
  all_goals
    rw [String.toList_append, List.takeWhile_append_of_pos hplain]
    exact List.append_nil _

theorem slots_wideEntity (n : Nat) :
    slots (wideEntity n) = (List.range n).flatMap fun k => fieldSlots "Wide" (wideField k) := by
  have hkept : candidates (wideEntity n) = (wideEntity n).id :: (wideEntity n).fields := by
    refine List.filter_eq_self.mpr fun f hf => ?_
    rcases List.mem_cons.mp hf with rfl | hf
    · rfl
    · obtain ⟨k, _, rfl⟩ := List.mem_map.mp hf
      rfl
  have hid : fieldSlots "Wide" (wideEntity n).id = [] := rfl
  have hextras : extras (wideEntity n) = [] := rfl
  rw [slots, hkept, List.flatMap_cons, hextras, List.flatMap_nil, List.append_nil]
  exact (congrArg (· ++ _) hid).trans (List.flatMap_map _ _ _)

theorem length_slots_wideEntity (n : Nat) : (slots (wideEntity n)).length = 3 * n := by
  have hthree : ∀ k, (fieldSlots "Wide" (wideField k)).length = 3 := by
    intro k
    rw [← List.length_map (f := (·.1)), names_wideField]
    rfl
  rw [slots_wideEntity, List.length_flatMap]
  simp [hthree, Nat.mul_comm]

theorem listable_wideEntity (n : Nat) : (wideEntity n).Listable := by
  refine ⟨.inl rfl, fun f hf => ?_, fun _ hx => (by cases hx), ?_⟩
  · rcases List.mem_cons.mp (List.mem_of_mem_filter hf) with rfl | hf
    · exact ⟨fun _ ho => (by cases ho), fun _ ho => (by cases ho)⟩
    · obtain ⟨k, _, rfl⟩ := List.mem_map.mp hf
      exact ⟨fun _ _ _ => rfl, fun _ _ _ => by simp [wideField]⟩
  rw [slots_wideEntity, List.map_flatMap, List.nodup_flatMap]
  constructor
  · intro k _
    rw [names_wideField]
    simp [← String.toList_inj]
  · refine List.nodup_range.imp fun hne => ?_
    intro name ha hb
    refine hne (wideField_name_inj.mp (String.toList_inj.mp ?_))
    rw [← takeWhile_of_names_wideField ha, takeWhile_of_names_wideField hb]

theorem exists_build_wideEntity (n : Nat) : ∃ messages, build (wideEntity n) = .ok messages :=
  ⟨_, build_eq_ok.mpr ⟨listable_wideEntity n, rfl⟩⟩

/-! ## Numbers of whole messages -/

/-- The numbers in the list messages are allowed if and only if the filter is not so long that
    it reaches those that protobuf keeps. -/
theorem numbers_admissible_iff {e : Entity} {messages : List Message} (h : build e = .ok messages) :
    (∀ m ∈ messages, ∀ f ∈ m.fields, f.Admissible m.name) ↔ (slots e).length < 19000 := by
  have hrequest : ∀ f ∈ (request e.name).fields, f.Admissible (requestName e.name) := by
    rw [forall_admissible_iff]
    show ∀ n ∈ ([1, 2, 3, 4, 5, 6] : List Int), Pool.isFieldNumber n = true
    decide
  have hresponse : ∀ f ∈ (response e.name).fields, f.Admissible (responseName e.name) := by
    rw [forall_admissible_iff]
    show ∀ n ∈ ([1, 2] : List Int), Pool.isFieldNumber n = true
    decide
  rw [(build_eq_ok.mp h).2, List.forall_mem_cons, List.forall_mem_cons, List.forall_mem_singleton,
    admissible_fill_iff]
  exact and_iff_left ⟨hrequest, hresponse⟩

/-- With one field less the numbers of the filter end at 18999. -/
theorem numbers_admissible_iff_wideEntity : ∃ messages, build (wideEntity 6333) = .ok messages ∧
    ∀ m ∈ messages, ∀ f ∈ m.fields, f.Admissible m.name := by
  obtain ⟨messages, hbuild⟩ := exists_build_wideEntity 6333
  refine ⟨messages, hbuild, (numbers_admissible_iff hbuild).mpr ?_⟩
  rw [length_slots_wideEntity]
  omega

/-- Not every filter that is built has numbers that are allowed. -/
theorem reserved_number : ¬ ∀ (e : Entity) (messages : List Message), build e = .ok messages →
    ∀ m ∈ messages, ∀ f ∈ m.fields, f.Admissible m.name := by
  intro hall
  have hwide : ∀ n, 3 * n < 19000 := by
    intro n
    have hbuild := build_eq_ok.mpr ⟨listable_wideEntity n, rfl⟩
    have hshort := admissible_fill_iff.mp (hall _ _ hbuild _ List.mem_cons_self)
    rwa [length_slots_wideEntity] at hshort
  exact absurd (hwide 6334) (by decide)

end Listing

end Protograph
