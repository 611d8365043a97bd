/-
  Protograph.Proofs.Identifiers — the names of an enumeration's values as identifiers.

  A text in words of ASCII that is put in capitals keeps its letters and digits, and begins
  with the first of them (`head_shoutySnake`). Normalizing a value puts an underscore in place
  of everything else, so the letters and digits of ASCII in the value are those of its
  identifier (`filter_normalizeChars`), and whether a digit comes first is as the value has it.

  Proved, for a field named by an identifier with a letter in it:
  - `valueNames_identify_iff`: the names of the values are made of capitals, digits and
    underscores. They are identifiers if and only if a letter comes first in each text that a
    name begins with: the field's own name where it is put in front, and otherwise the value.
  - `value_begins_with_digit`: so a name need not be an identifier. Without the field's name in
    front the value `2fa` is `2FA`.
-/

import Protograph.Proofs.Numbering
import Protograph.Proofs.Words

namespace Protograph

namespace Text

/-! ## Identifiers -/

/-- A name in letters, digits and underscores that begins with no digit. -/
structure IsIdentifier (s : String) : Prop where
  chars : ∀ c ∈ s.toList, Enumeration.isIdentifierChar c = true
  head : ∃ c, s.toList.head? = some c ∧ c.isDigit = false

def isShoutedChar (c : Char) : Bool := c.isUpper || c.isDigit || c = '_'

/-- An identifier in capitals. -/
structure IsShoutedIdentifier (s : String) : Prop where
  chars : ∀ c ∈ s.toList, isShoutedChar c = true
  head : ∃ c, s.toList.head? = some c ∧ c.isDigit = false

/-- Whether of the letters and digits of ASCII in a text a letter comes first. -/
def leadsWithLetter (s : String) : Bool := (s.toList.find? Char.isAlphanum).any Char.isAlpha

/-! ## Words in capitals -/

theorem isIdentifierChar_iff {c : Char} : Enumeration.isIdentifierChar c = true ↔ c.isAlphanum = true ∨ c = '_' := by
  unfold Enumeration.isIdentifierChar
  rw [Bool.or_eq_true, Bool.and_eq_true, decide_eq_true_eq, decide_eq_true_eq]
  exact or_congr_left ⟨fun h => h.2, fun h => ⟨toNat_lt_of_isAlphanum h, h⟩⟩

/-- In capitals a letter or digit of ASCII is one of those, and a digit if it was one. -/
theorem upper_of_isAlphanum {c : Char} (h : c.isAlphanum = true) :
    upperChars c = [c.toUpper] ∧ isShoutedChar c.toUpper = true ∧ c.toUpper.isDigit = !c.isAlpha := by
  have hascii := toNat_lt_of_isAlphanum h
  have hall : ∀ n < 0x80, (Char.ofNat n).isAlphanum = true →
      isShoutedChar (Char.ofNat n).toUpper = true ∧ (Char.ofNat n).toUpper.isDigit = !(Char.ofNat n).isAlpha := by
    decide +kernel
  exact ⟨if_pos hascii, of_ascii (P := fun c => c.isAlphanum = true →
    isShoutedChar c.toUpper = true ∧ c.toUpper.isDigit = !c.isAlpha) hall hascii h⟩

theorem upperWord_of_isAlphanum {w : List Char} (h : ∀ c ∈ w, c.isAlphanum = true) : upperWord w = w.map Char.toUpper := by
  rw [List.map_eq_flatMap]
  exact List.flatMap_congr fun c hc => (upper_of_isAlphanum (h c hc)).1

theorem isWordChar_of_isIdentifierChar {c : Char} (h : Enumeration.isIdentifierChar c = true) :
    isWordChar c = c.isAlphanum := by
  unfold isWordChar
  rcases isIdentifierChar_iff.mp h with h | rfl
  · rw [if_pos (toNat_lt_of_isAlphanum h)]
  · decide

theorem mem_of_mem_intercalate {sep a : Char} {ws : List (List Char)} (h : a ∈ [sep].intercalate ws) :
    a = sep ∨ ∃ w ∈ ws, a ∈ w := by
  induction ws with
  | nil => cases h
  | cons w ws ih =>
    by_cases hne : ws = []
    · rw [hne, List.intercalate_singleton] at h
      exact .inr ⟨w, List.mem_cons_self, h⟩
    · rw [List.intercalate_cons_of_ne_nil hne, List.append_assoc, List.mem_append, List.mem_append,
        List.mem_singleton] at h
      rcases h with h | h | h
      · exact .inr ⟨w, List.mem_cons_self, h⟩
      · exact .inl h
      · exact (ih h).imp_right fun ⟨v, hv, ha⟩ => ⟨v, List.mem_cons_of_mem _ hv, ha⟩

section Shouted

variable {s : String} (h : ∀ c ∈ s.toList, Enumeration.isIdentifierChar c = true)

include h

theorem flatten_words_of_identifier : (words s).flatten = s.toList.filter Char.isAlphanum := by
  rw [flatten_words]
  exact List.filter_congr fun c hc => isWordChar_of_isIdentifierChar (h c hc)

theorem isAlphanum_of_words : ∀ w ∈ words s, ∀ c ∈ w, c.isAlphanum = true := by
  intro w hw c hc
  have hin : c ∈ (words s).flatten := List.mem_flatten.mpr ⟨w, hw, hc⟩
  rw [flatten_words_of_identifier h] at hin
  exact (List.mem_filter.mp hin).2

theorem isShoutedChar_of_shoutySnake : ∀ c ∈ (shoutySnake s).toList, isShoutedChar c = true := by
  intro c hc
  rw [toList_shoutySnake] at hc
  rcases mem_of_mem_intercalate hc with rfl | ⟨u, hu, hc⟩
  · decide
  · obtain ⟨w, hw, rfl⟩ := List.mem_map.mp hu
    have hplain := isAlphanum_of_words h w hw
    rw [upperWord_of_isAlphanum hplain] at hc
    obtain ⟨d, hd, rfl⟩ := List.mem_map.mp hc
    exact (upper_of_isAlphanum (hplain d hd)).2.1

/-- The first letter or digit stands in front. -/
theorem head_shoutySnake : (shoutySnake s).toList.head? = (s.toList.find? Char.isAlphanum).map Char.toUpper := by
  have hplain := isAlphanum_of_words h
  have hfull := @ne_nil_of_words s
  rw [← List.head?_filter, ← flatten_words_of_identifier h, toList_shoutySnake]
  cases hwords : words s with
  | nil => rfl
  | cons w ws =>
    rw [hwords] at hplain hfull
    obtain ⟨c, cs, rfl⟩ := List.exists_cons_of_ne_nil (hfull List.mem_cons_self)
    rw [List.map_cons, upperWord_of_isAlphanum (hplain _ List.mem_cons_self), List.map_cons,
      List.intercalate_cons_cons_left]
    rfl

end Shouted

/-- What begins as a text does in capitals begins with no digit if and only if a letter comes
    first in the text. -/
theorem head_iff {s shouted : String} (h : shouted.toList.head? = (s.toList.find? Char.isAlphanum).map Char.toUpper) :
    (∃ c, shouted.toList.head? = some c ∧ c.isDigit = false) ↔ leadsWithLetter s = true := by
  rw [h, leadsWithLetter]
  cases hfind : s.toList.find? Char.isAlphanum with
  | none => simp
  | some d =>
    have hdigit := (upper_of_isAlphanum (List.find?_some hfind)).2.2
    simp [hdigit]

end Text

namespace Enumeration

/-! ## Values by themselves -/

theorem isIdentifierChar_of_normalizeChars {inRun : Bool} {cs : List Char} :
    ∀ c ∈ normalizeChars inRun cs, isIdentifierChar c = true := by
  induction cs generalizing inRun with
  | nil => simp [normalizeChars]
  | cons a cs ih =>
    unfold normalizeChars
    split
    · rename_i ha
      exact List.forall_mem_cons.mpr ⟨ha, ih⟩
    · split
      · exact ih
      · exact List.forall_mem_cons.mpr ⟨by decide, ih⟩

/-- What is put in place of other characters is neither a letter nor a digit. -/
theorem filter_normalizeChars (inRun : Bool) (cs : List Char) :
    (normalizeChars inRun cs).filter Char.isAlphanum = cs.filter Char.isAlphanum := by
  induction cs generalizing inRun with
  | nil => rfl
  | cons a cs ih =>
    unfold normalizeChars
    split
    · rw [List.filter_cons, List.filter_cons, ih]
    · rename_i ha
      have hother : a.isAlphanum = false := by
        rw [← Bool.not_eq_true]
        exact fun h => ha (Text.isIdentifierChar_iff.mpr (.inl h))
      rw [List.filter_cons_of_neg (by simp [hother])]
      split
      · exact ih true
      · rw [List.filter_cons_of_neg (by decide), ih true]

theorem isIdentifierChar_of_normalize (value : String) : ∀ c ∈ (normalize value).toList, isIdentifierChar c = true := by
  rw [normalize, String.toList_ofList]
  exact isIdentifierChar_of_normalizeChars

theorem isShoutedChar_of_identifier (value : String) : ∀ c ∈ (identifier value).toList, Text.isShoutedChar c = true :=
  Text.isShoutedChar_of_shoutySnake (isIdentifierChar_of_normalize value)

theorem head_identifier (value : String) :
    (identifier value).toList.head? = (value.toList.find? Char.isAlphanum).map Char.toUpper := by
  rw [identifier, Text.head_shoutySnake (isIdentifierChar_of_normalize value), normalize, String.toList_ofList,
    ← List.head?_filter, filter_normalizeChars, List.head?_filter]

/-! ## Values behind the name of their field -/

section Prefixed

variable {field : FieldSpec} {options : EnumOptions} (hname : Text.IsIdentifier field.name) {rest : String}
  (hrest : ∀ c ∈ rest.toList, Text.isShoutedChar c = true)

include hname hrest

theorem isShoutedChar_of_prefixed :
    ∀ c ∈ (Text.shoutySnake field.name ++ "_" ++ rest).toList, Text.isShoutedChar c = true := by
  simp only [String.toList_append, List.mem_append]
  rintro c ((hc | hc) | hc)
  · exact Text.isShoutedChar_of_shoutySnake hname.chars c hc
  · rw [List.mem_singleton.mp hc]
    decide
  · exact hrest c hc

/-- The name of the field is not lost where it has a letter, so the whole begins as it does. -/
theorem prefixed_iff (hletter : ∃ c ∈ field.name.toList, c.isAlpha = true) :
    Text.IsShoutedIdentifier (Text.shoutySnake field.name ++ "_" ++ rest) ↔
      Text.leadsWithLetter field.name = true := by
  have hhead := Text.head_shoutySnake hname.chars
  obtain ⟨c, hc, halpha⟩ := hletter
  have hsome : (field.name.toList.find? Char.isAlphanum).isSome = true := by
    rw [List.find?_isSome]
    exact ⟨c, hc, by simp [Char.isAlphanum, halpha]⟩
  obtain ⟨d, hd⟩ := Option.isSome_iff_exists.mp hsome
  have hfront : (Text.shoutySnake field.name ++ "_" ++ rest).toList.head? =
      (Text.shoutySnake field.name).toList.head? := by
    rw [hd] at hhead
    simp [hhead]
  rw [← Text.head_iff (hfront.trans hhead)]
  exact ⟨fun h => h.head, fun h => ⟨isShoutedChar_of_prefixed hname hrest, h⟩⟩

end Prefixed

/-! ## All values -/

section Values

variable {field : FieldSpec} {options : EnumOptions} (hname : Text.IsIdentifier field.name)

include hname

theorem isShoutedChar_of_valueName (options : EnumOptions) (value : String) :
    ∀ c ∈ (valueName field options value).toList, Text.isShoutedChar c = true := by
  unfold valueName
  split
  · exact isShoutedChar_of_identifier value
  · exact isShoutedChar_of_prefixed hname (isShoutedChar_of_identifier value)

theorem valueName_iff (hletter : ∃ c ∈ field.name.toList, c.isAlpha = true) (value : String) :
    Text.IsShoutedIdentifier (valueName field options value) ↔
      Text.leadsWithLetter (if options.omitFieldPrefix then value else field.name) = true := by
  unfold valueName
  split
  · rw [← Text.head_iff (head_identifier value)]
    exact ⟨fun h => h.head, fun h => ⟨isShoutedChar_of_identifier value, h⟩⟩
  · exact prefixed_iff hname (isShoutedChar_of_identifier value) hletter

end Values

/-- What is said of all names of an enumeration is said of the unspecified one, where it has
    one, and of those of the declared values. -/
theorem Fits.forall_names_iff {field : FieldSpec} {options : EnumOptions} (h : Fits field options) {P : String → Prop} :
    (∀ v ∈ values field options, P v.name) ↔
      (field.default = none → P (Text.shoutySnake field.name ++ "_UNSPECIFIED")) ∧
        ∀ v ∈ field.values, P (valueName field options v) := by
  unfold values
  rw [List.forall_mem_append, List.forall_mem_map]
  refine and_congr ?_ (forall_congr' fun v => by rw [h.mem_ordered])
  cases field.default with
  | none => simp
  | some d => simp

/-- The values of an enumeration have names in capitals, digits and underscores. They are
    identifiers if and only if a letter comes first in the name of the field, unless no value
    is put behind it, and, if values stand by themselves, in each of these. -/
theorem valueNames_identify_iff {entity : String} {field : FieldSpec} {options : EnumOptions} {e : Enum}
    (hname : Text.IsIdentifier field.name) (hletter : ∃ c ∈ field.name.toList, c.isAlpha = true)
    (hoptions : field.annotations.enumeration = some options) (h : build entity field = .ok e) :
    (∀ v ∈ e.values, ∀ c ∈ v.name.toList, Text.isShoutedChar c = true) ∧
      ((∀ v ∈ e.values, Text.IsShoutedIdentifier v.name) ↔
        (options.omitFieldPrefix = false ∨ field.default = none → Text.leadsWithLetter field.name = true) ∧
          (options.omitFieldPrefix = true → ∀ v ∈ field.values, Text.leadsWithLetter v = true)) := by
  obtain ⟨options', hoptions', hfits, rfl, _⟩ := build_ok h
  obtain rfl := Option.some.inj (hoptions'.symm.trans hoptions)
  have hrest : ∀ c ∈ "UNSPECIFIED".toList, Text.isShoutedChar c = true := List.all_eq_true.mp (by decide)
  have hunspecified : Text.shoutySnake field.name ++ "_UNSPECIFIED" =
      Text.shoutySnake field.name ++ "_" ++ "UNSPECIFIED" := by
    rw [String.append_assoc]
    rfl
  constructor
  · refine (hfits.forall_names_iff (P := fun name => ∀ c ∈ name.toList, Text.isShoutedChar c = true)).mpr ⟨?_, ?_⟩
    · rw [hunspecified]
      exact fun _ => isShoutedChar_of_prefixed hname hrest
    · exact fun v _ => isShoutedChar_of_valueName hname options' v
  refine hfits.forall_names_iff.trans ?_
  rw [hunspecified, prefixed_iff hname hrest hletter]
  simp only [valueName_iff hname hletter]
  constructor
  · intro hall
    obtain ⟨hfirst, hvalues⟩ := hall
    constructor
    · intro hput
      cases hd : field.default with
      | none => exact hfirst hd
      | some d =>
        -- the default is one of the values, so the name of the field stands before one of them
        have homit : options'.omitFieldPrefix = false := by simpa [hd] using hput
        simpa [homit] using hvalues d (hfits.default d hd).1
    · intro homit v hv
      simpa [homit] using hvalues v hv
  · intro hparts
    obtain ⟨hfield, hvalues⟩ := hparts
    refine ⟨fun hnone => hfield (.inr hnone), fun v hv => ?_⟩
    cases homit : options'.omitFieldPrefix with
    | false => exact hfield (.inl homit)
    | true => exact hvalues homit v hv

/-- A field without a default, of whose values one is all in other letters than those of ASCII. -/
def menuField : FieldSpec :=
  { name := "menu", kind := .enumeration, values := ["À la carte", "日本"]
    annotations := { enumeration := some { numbers := [("À la carte", 1), ("日本", 2)] } } }

theorem isIdentifier_menuField : Text.IsIdentifier menuField.name ∧ ∃ c ∈ menuField.name.toList, c.isAlpha = true :=
  ⟨⟨List.all_eq_true.mp (by decide), 'm', by decide, by decide⟩, 'm', by decide, by decide⟩

theorem valueNames_identify_iff_menuField :
    build "Place" menuField =
      .ok { name := "Menu", values := [⟨"MENU_UNSPECIFIED", 0⟩, ⟨"MENU_LA_CARTE", 1⟩, ⟨"MENU_", 2⟩] } ∧
    ∀ name ∈ ["MENU_UNSPECIFIED", "MENU_LA_CARTE", "MENU_"], Text.IsShoutedIdentifier name := by
  have hbuild : build "Place" menuField =
      .ok { name := "Menu", values := [⟨"MENU_UNSPECIFIED", 0⟩, ⟨"MENU_LA_CARTE", 1⟩, ⟨"MENU_", 2⟩] } := by
    decide +kernel
  obtain ⟨hname, hletter⟩ := isIdentifier_menuField
  have hall := (valueNames_identify_iff hname hletter rfl hbuild).2.mpr ⟨fun _ => by decide, fun h => by cases h⟩
  exact ⟨hbuild, by simpa using hall⟩

/-- A field with a value that begins with a digit and stands by itself. -/
def factorField : FieldSpec :=
  { name := "factor", kind := .enumeration, values := ["2fa"]
    annotations := { enumeration := some { numbers := [("2fa", 1)], omitFieldPrefix := true } } }

/-- The names of values need not be identifiers. -/
theorem value_begins_with_digit : ¬ ∀ (entity : String) (field : FieldSpec) (e : Enum),
    Text.IsIdentifier field.name → (∃ c ∈ field.name.toList, c.isAlpha = true) → build entity field = .ok e →
      ∀ v ∈ e.values, Text.IsShoutedIdentifier v.name := by
  intro hall
  have hbuild : build "Login" factorField =
      .ok { name := "Factor", values := [⟨"FACTOR_UNSPECIFIED", 0⟩, ⟨"2FA", 1⟩] } := by decide +kernel
  have hname : Text.IsIdentifier factorField.name :=
    ⟨List.all_eq_true.mp (by decide), 'f', by decide, by decide⟩
  have hvalue := hall "Login" factorField _ hname ⟨'a', by decide, by decide⟩ hbuild ⟨"2FA", 1⟩ (by simp)
  obtain ⟨c, hc, hdigit⟩ := hvalue.head
  obtain rfl : '2' = c := by simpa using hc
  cases hdigit

end Enumeration

end Protograph
