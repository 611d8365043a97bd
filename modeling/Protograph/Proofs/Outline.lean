/-
  Protograph.Proofs.Outline — what a `.proto` text tells of the unit that it was printed
  from.

  The outline of a unit is what its text is to show: the package, the imports, and all
  messages, enumerations and services, with each type as the text spells it. Scalars that
  are named by a keyword and messages that have this keyword as their name have one
  spelling, and so has a name with or without dots in front where none are needed.

  A line is read word by word: `split_field` and `split_numbered` for fields and values,
  `split_signature` for methods. Blocks are told apart by the words that they begin with.

  Proved: `outline_of_render`. Two units of plain names with the same text have the same
  outline, whatever namespaces they were printed with.
-/

import Mathlib
import Protograph.Proofs.Blocks
import Protograph.Proofs.Pool

namespace Protograph

/-! ## Outlines -/

/-- A field as a text shows it. -/
structure FieldOutline where
  repeated : Bool
  type : String
  name : String
  number : Int

structure MessageOutline where
  name : String
  fields : List FieldOutline
  enums : List Enum
  nested : List MessageOutline

/-- A unit as a text shows it. Methods have their inputs and outputs as spelled. -/
structure Outline where
  package : String
  imports : List String
  messages : List MessageOutline
  services : List Service

def Field.outline (spell : String → String) (f : Field) : FieldOutline :=
  { repeated := f.repeated
    type := if f.type.isNamed then spell (f.typeName.getD "") else f.type.keyword
    name := f.name
    number := f.number }

mutual

def Message.outline (spell : String → String) : Message → MessageOutline
  | ⟨name, fields, enums, nested⟩ => ⟨name, fields.map (Field.outline spell), enums, Message.outlineAll spell nested⟩

def Message.outlineAll (spell : String → String) : List Message → List MessageOutline
  | [] => []
  | m :: ms => m.outline spell :: Message.outlineAll spell ms

end

def Rpc.spelled (spell : String → String) (m : Rpc) : Rpc := { m with input := spell m.input, output := spell m.output }

def Service.spelled (spell : String → String) (s : Service) : Service :=
  { s with methods := s.methods.map (Rpc.spelled spell) }

def PackageUnit.outline (u : PackageUnit) (n : Namespaces) : Outline :=
  { package := u.package
    imports := u.imports
    messages := Message.outlineAll (n.spell u.package) u.messages
    services := u.services.map (Service.spelled (n.spell u.package)) }

/-! ## Plain names -/

namespace Text

def isNameChar (c : Char) : Bool := c.isAlphanum || c == '_' || c == '.'

/-- Letters, digits, underscores and dots only. -/
def IsPlain (s : String) : Prop := ∀ c ∈ s.toList, isNameChar c = true

instance (s : String) : Decidable (IsPlain s) := decidable_of_iff (s.toList.all isNameChar = true) List.all_eq_true

theorem IsPlain.not_mem {s : String} (h : IsPlain s) {c : Char} (hc : isNameChar c = false) : c ∉ s.toList := by
  intro hin
  rw [h c hin] at hc
  cases hc

theorem IsPlain.singleLine {s : String} (h : IsPlain s) : SingleLine s := h.not_mem (by decide)

/-- A way to spell names by which plain names stay plain. -/
def KeepsPlain (spell : String → String) : Prop := ∀ t, IsPlain t → IsPlain (spell t)

theorem keepsPlain_spell (n : Namespaces) (package : String) : KeepsPlain (n.spell package) := by
  intro t h
  have hbare : IsPlain (withoutLeadingDots t) := by
    intro c hc
    rw [withoutLeadingDots, String.toList_ofList] at hc
    exact h c ((List.dropWhile_sublist _).subset hc)
  have hdotted : IsPlain ("." ++ withoutLeadingDots t) := by
    intro c hc
    rw [String.toList_append, List.mem_append] at hc
    rcases hc with hc | hc
    · obtain rfl : c = '.' := by simpa using hc
      rfl
    · exact hbare c hc
  unfold Namespaces.spell
  dsimp only
  split
  · exact hbare
  · split
    · exact hdotted
    · exact hbare

end Text

open Text (SingleLine singleLine_append IsPlain KeepsPlain)

structure Message.Legible (m : Message) : Prop where
  name : IsPlain m.name
  fields : ∀ f ∈ m.fields, IsPlain f.name ∧ ∀ t ∈ f.typeName, IsPlain t
  enums : ∀ e ∈ m.enums, IsPlain e.name ∧ ∀ v ∈ e.values, IsPlain v.name

instance (m : Message) : Decidable m.Legible :=
  decidable_of_iff (IsPlain m.name ∧ (∀ f ∈ m.fields, IsPlain f.name ∧ ∀ t ∈ f.typeName, IsPlain t) ∧
      ∀ e ∈ m.enums, IsPlain e.name ∧ ∀ v ∈ e.values, IsPlain v.name)
    ⟨fun h => ⟨h.1, h.2.1, h.2.2⟩, fun h => ⟨h.name, h.fields, h.enums⟩⟩

structure Rpc.Legible (m : Rpc) : Prop where
  name : IsPlain m.name
  input : IsPlain m.input
  output : IsPlain m.output

instance (m : Rpc) : Decidable m.Legible :=
  decidable_of_iff (IsPlain m.name ∧ IsPlain m.input ∧ IsPlain m.output)
    ⟨fun h => ⟨h.1, h.2.1, h.2.2⟩, fun h => ⟨h.name, h.input, h.output⟩⟩

structure Service.Legible (s : Service) : Prop where
  name : IsPlain s.name
  methods : ∀ m ∈ s.methods, m.Legible

instance (s : Service) : Decidable s.Legible :=
  decidable_of_iff (IsPlain s.name ∧ ∀ m ∈ s.methods, m.Legible) ⟨fun h => ⟨h.1, h.2⟩, fun h => ⟨h.name, h.methods⟩⟩

/-- Names are plain, at any depth, and the package and the imports are single lines. -/
structure PackageUnit.Legible (u : PackageUnit) : Prop where
  package : SingleLine u.package
  imports : ∀ i ∈ u.imports, SingleLine i
  messages : ∀ m ∈ Message.treeAll u.messages, m.Legible
  services : ∀ s ∈ u.services, s.Legible

instance (u : PackageUnit) : Decidable u.Legible :=
  decidable_of_iff (SingleLine u.package ∧ (∀ i ∈ u.imports, SingleLine i) ∧ (∀ m ∈ Message.treeAll u.messages, m.Legible) ∧
      ∀ s ∈ u.services, s.Legible)
    ⟨fun h => ⟨h.1, h.2.1, h.2.2.1, h.2.2.2⟩, fun h => ⟨h.package, h.imports, h.messages, h.services⟩⟩

theorem FieldType.plain_keyword (t : FieldType) : IsPlain t.keyword := by
  cases t <;> decide

/-- The spelled type of a field is a plain name, too. -/
theorem Field.plain_type {spell : String → String} (hspell : KeepsPlain spell) {f : Field} (h : ∀ t ∈ f.typeName, IsPlain t) :
    IsPlain (f.outline spell).type := by
  unfold Field.outline
  dsimp only
  split
  · refine hspell _ ?_
    cases ht : f.typeName with
    | none => exact fun c hc => absurd hc (by simp)
    | some t => exact h t ht
  · exact f.type.plain_keyword

theorem forall_mem_treeAll_cons {P : Message → Prop} {m : Message} {ms : List Message} :
    (∀ x ∈ Message.treeAll (m :: ms), P x) ↔
      P m ∧ (∀ x ∈ Message.treeAll m.nested, P x) ∧ ∀ x ∈ Message.treeAll ms, P x := by
  obtain ⟨name, fields, enums, nested⟩ := m
  simp [Message.treeAll, Message.tree, or_imp, forall_and]

/-! ## Numbers -/

theorem not_mem_toString {n : Int} {c : Char} (hminus : c ≠ '-') (hdigit : c.isDigit = false) : c ∉ (toString n).toList := by
  have hdigits : ∀ k : Nat, c ∉ k.repr.toList := by
    intro k hin
    rw [Nat.repr_eq_ofList_toDigits, String.toList_ofList] at hin
    rw [Nat.isDigit_of_mem_toDigits (by decide) (by decide) hin] at hdigit
    cases hdigit
  rw [Int.toString_eq_repr, Int.repr_eq_if]
  split
  · exact hdigits _
  · rw [String.toList_append, List.mem_append, not_or]
    exact ⟨by simp [hminus], hdigits _⟩

theorem toString_inj {n k : Int} : toString n = toString k ↔ n = k := by
  rw [Int.toString_eq_repr, Int.toString_eq_repr, Int.repr_inj]

namespace SourceText

variable {spell spell' : String → String}

/-! ## Fields and values -/

/-- The words that follow the type of a field, or that tell a value. -/
theorem split_numbered {name : String} (h : IsPlain name) (n : Int) :
    Text.split ' ' (name ++ " = " ++ toString n ++ ";") = [name, "=", toString n ++ ";"] := by
  have hnumber : ' ' ∉ (toString n ++ ";").toList := by
    rw [String.toList_append, List.mem_append, not_or]
    exact ⟨not_mem_toString (by decide) (by decide), by decide⟩
  have hparts : name ++ " = " ++ toString n ++ ";" = name ++ " " ++ ("=" ++ " " ++ (toString n ++ ";")) := by
    simp only [String.append_assoc]
    rfl
  rw [hparts, Text.split_append rfl, Text.split_append rfl, Text.split_of_not_mem (h.not_mem (by decide)),
    Text.split_of_not_mem hnumber]
  rfl

theorem field_eq (spell : String → String) (f : Field) : field spell f =
    (if f.repeated then "repeated " else "") ++ (f.outline spell).type ++ " " ++ f.name ++ " = " ++ toString f.number ++ ";" :=
  rfl

/-- A repeated field has one word more, so that a type may be called `repeated`. -/
theorem split_field {f : Field} (hname : IsPlain f.name) (htype : IsPlain (f.outline spell).type) :
    Text.split ' ' (field spell f) =
      (if f.repeated then ["repeated"] else []) ++ [(f.outline spell).type, f.name, "=", toString f.number ++ ";"] := by
  have hplain : Text.split ' ' ((f.outline spell).type ++ " " ++ (f.name ++ " = " ++ toString f.number ++ ";")) =
      [(f.outline spell).type, f.name, "=", toString f.number ++ ";"] := by
    rw [Text.split_append rfl, Text.split_of_not_mem (htype.not_mem (by decide)), split_numbered hname]
    rfl
  rw [field_eq]
  split
  · have hparts : "repeated " ++ (f.outline spell).type ++ " " ++ f.name ++ " = " ++ toString f.number ++ ";" =
        "repeated" ++ " " ++ ((f.outline spell).type ++ " " ++ (f.name ++ " = " ++ toString f.number ++ ";")) := by
      simp only [String.append_assoc]
      rfl
    rw [hparts, Text.split_append rfl, hplain]
    rfl
  · rw [List.nil_append, ← hplain]
    simp only [String.append_assoc, String.empty_append]

theorem outline_of_field {f f' : Field} (hname : IsPlain f.name) (hname' : IsPlain f'.name)
    (htype : IsPlain (f.outline spell).type) (htype' : IsPlain (f'.outline spell').type)
    (h : field spell f = field spell' f') : f.outline spell = f'.outline spell' := by
  have hwords := congrArg (Text.split ' ') h
  rw [split_field hname htype, split_field hname' htype'] at hwords
  have hrepeated : f.repeated = f'.repeated := by
    have hlength := congrArg List.length hwords
    cases hf : f.repeated <;> cases hf' : f'.repeated <;> simp [hf, hf'] at hlength ⊢
  rw [hrepeated, List.append_cancel_left_eq] at hwords
  simp only [List.cons.injEq, String.append_left_inj, toString_inj, and_true, true_and] at hwords
  obtain ⟨hword, hname, hnumber⟩ := hwords
  unfold Field.outline at hword ⊢
  rw [FieldOutline.mk.injEq]
  exact ⟨hrepeated, hword, hname, hnumber⟩

theorem value_inj {v v' : EnumValue} (hname : IsPlain v.name) (hname' : IsPlain v'.name)
    (h : v.name ++ " = " ++ toString v.number ++ ";" = v'.name ++ " = " ++ toString v'.number ++ ";") : v = v' := by
  have hwords := congrArg (Text.split ' ') h
  rw [split_numbered hname, split_numbered hname'] at hwords
  simp only [List.cons.injEq, String.append_left_inj, toString_inj, and_true, true_and] at hwords
  obtain ⟨name, number⟩ := v
  obtain ⟨name', number'⟩ := v'
  rw [EnumValue.mk.injEq]
  exact hwords

theorem enum_of_section {e e' : Enum} (hvalues : ∀ v ∈ e.values, IsPlain v.name) (hvalues' : ∀ v ∈ e'.values, IsPlain v.name)
    (h : enumSection e = enumSection e') : e = e' := by
  obtain ⟨hname, hlines⟩ := Prod.mk.inj h
  have hsame : e.values.map id = e'.values.map id :=
    map_eq_map_of_step (fun v hv v' hv' hline => value_inj (hvalues v hv) (hvalues' v' hv') hline) hlines
  obtain ⟨name, values⟩ := e
  obtain ⟨name', values'⟩ := e'
  rw [Enum.mk.injEq]
  exact ⟨(String.append_right_inj _).mp hname, by simpa using hsame⟩

/-! ## Methods -/

def signature (spell : String → String) (m : Rpc) : String :=
  "rpc " ++ m.name ++ "(" ++ spell m.input ++ ") returns (" ++ spell m.output ++ ")"

theorem method_eq (spell : String → String) (m : Rpc) : method spell m =
    if m.pure then block (signature spell m) ["option idempotency_level = NO_SIDE_EFFECTS;"] else [signature spell m ++ ";"] :=
  rfl

/-- A signature is cut where a parenthesis opens. -/
theorem split_signature (hspell : KeepsPlain spell) {m : Rpc} (h : m.Legible) : Text.split '(' (signature spell m) =
    ["rpc " ++ m.name, spell m.input ++ ") returns ", spell m.output ++ ")"] := by
  have hname := h.name.not_mem (c := '(') (by decide)
  have hinput := (hspell _ h.input).not_mem (c := '(') (by decide)
  have houtput := (hspell _ h.output).not_mem (c := '(') (by decide)
  have hparts : signature spell m =
      "rpc " ++ m.name ++ "(" ++ (spell m.input ++ ") returns " ++ "(" ++ (spell m.output ++ ")")) := by
    simp only [signature, String.append_assoc]
    rfl
  rw [hparts, Text.split_append rfl, Text.split_append rfl, Text.split_of_not_mem (by simp [hname]),
    Text.split_of_not_mem (by simp [hinput]), Text.split_of_not_mem (by simp [houtput])]
  rfl

theorem spelled_of_signature (hspell : KeepsPlain spell) (hspell' : KeepsPlain spell') {m m' : Rpc} (hm : m.Legible)
    (hm' : m'.Legible) (h : signature spell m = signature spell' m') (hpure : m.pure = m'.pure) :
    m.spelled spell = m'.spelled spell' := by
  have hpieces := congrArg (Text.split '(') h
  rw [split_signature hspell hm, split_signature hspell' hm'] at hpieces
  simp only [List.cons.injEq, String.append_left_inj, String.append_right_inj, and_true] at hpieces
  obtain ⟨hname, hinput, houtput⟩ := hpieces
  simp only [Rpc.spelled, Rpc.mk.injEq]
  exact ⟨hname, hinput, houtput, hpure⟩

/-- A method is told by its lines, whatever follows them. -/
theorem spelled_of_method (hspell : KeepsPlain spell) (hspell' : KeepsPlain spell') {m m' : Rpc} (hm : m.Legible)
    (hm' : m'.Legible) {r r' : List String} (h : method spell m ++ r = method spell' m' ++ r') :
    m.spelled spell = m'.spelled spell' ∧ r = r' := by
  -- the first line ends in a brace or in a semicolon
  have hend : ∀ {s s' : String}, s ++ " \x7b" ≠ s' ++ ";" := by
    intro s s' heq
    have hlast := congrArg (·.toList.getLast?) heq
    simp at hlast
  rw [method_eq, method_eq] at h
  split at h <;> split at h
  · rename_i hpure hpure'
    obtain ⟨hsignature, _, hrest⟩ := block_append_inj h
    exact ⟨spelled_of_signature hspell hspell' hm hm' hsignature (hpure.trans hpure'.symm), hrest⟩
  · exact absurd (List.cons.inj h).1 hend
  · exact absurd (List.cons.inj h).1.symm hend
  · rename_i hpure hpure'
    obtain ⟨hsignature, hrest⟩ := List.cons.inj h
    rw [Bool.not_eq_true] at hpure hpure'
    have hsignature := (String.append_left_inj _).mp hsignature
    exact ⟨spelled_of_signature hspell hspell' hm hm' hsignature (hpure.trans hpure'.symm), hrest⟩

theorem spelled_of_methods (hspell : KeepsPlain spell) (hspell' : KeepsPlain spell') {ms ms' : List Rpc}
    (hms : ∀ m ∈ ms, m.Legible) (hms' : ∀ m ∈ ms', m.Legible) (h : ms.flatMap (method spell) = ms'.flatMap (method spell')) :
    ms.map (Rpc.spelled spell) = ms'.map (Rpc.spelled spell') := by
  have hsome : ∀ (spell : String → String) (m : Rpc) (r : List String), method spell m ++ r ≠ [] := by
    intro spell m r
    rw [method_eq]
    split <;> simp [block]
  induction ms generalizing ms' with
  | nil =>
    cases ms' with
    | nil => rfl
    | cons m' ms' => exact absurd h.symm (hsome _ _ _)
  | cons m ms ih =>
    cases ms' with
    | nil => exact absurd h (hsome _ _ _)
    | cons m' ms' =>
      rw [List.flatMap_cons, List.flatMap_cons] at h
      obtain ⟨hfirst, hrest⟩ := spelled_of_method hspell hspell' (hms m List.mem_cons_self) (hms' m' List.mem_cons_self) h
      rw [List.map_cons, List.map_cons, hfirst,
        ih (fun x hx => hms x (List.mem_cons_of_mem _ hx)) (fun x hx => hms' x (List.mem_cons_of_mem _ hx)) hrest]

theorem spelled_of_section (hspell : KeepsPlain spell) (hspell' : KeepsPlain spell') {s s' : Service} (hs : s.Legible)
    (hs' : s'.Legible) (h : serviceSection spell s = serviceSection spell' s') : s.spelled spell = s'.spelled spell' := by
  obtain ⟨hname, hlines⟩ := Prod.mk.inj h
  have hmethods := spelled_of_methods hspell hspell' hs.methods hs'.methods hlines
  simp only [Service.spelled, Service.mk.injEq]
  exact ⟨(String.append_right_inj _).mp hname, hmethods⟩

/-! ## Messages -/

/-- Blocks of two kinds are told apart by the first letters of their titles. -/
theorem append_inj_of_letter {c : Char} {xs xs' ys ys' : List (String × List String)}
    (hxs : ∀ x ∈ xs, x.1.toList.head? = some c) (hxs' : ∀ x ∈ xs', x.1.toList.head? = some c)
    (hys : ∀ y ∈ ys, y.1.toList.head? ≠ some c) (hys' : ∀ y ∈ ys', y.1.toList.head? ≠ some c)
    (h : xs ++ ys = xs' ++ ys') : xs = xs' ∧ ys = ys' :=
  append_inj_of_head hxs hxs' (fun y hy => hys y (List.mem_of_mem_head? hy)) (fun y hy => hys' y (List.mem_of_mem_head? hy)) h

/-- The induction is on the nesting: what is nested in a message, then the messages that
    follow. -/
theorem outline_of_sections (hspell : KeepsPlain spell) (hspell' : KeepsPlain spell') : ∀ (ms ms' : List Message),
    (∀ m ∈ Message.treeAll ms, m.Legible) → (∀ m ∈ Message.treeAll ms', m.Legible) →
    ms.map (messageSection spell) = ms'.map (messageSection spell') →
    Message.outlineAll spell ms = Message.outlineAll spell' ms'
  | [], [], _, _, _ => rfl
  | [], _ :: _, _, _, h => by cases h
  | _ :: _, [], _, _, h => by cases h
  | ⟨name, fields, enums, nested⟩ :: ms, ⟨name', fields', enums', nested'⟩ :: ms', hms, hms', h => by
    obtain ⟨hm, hnested, hms⟩ := forall_mem_treeAll_cons.mp hms
    obtain ⟨hm', hnested', hms'⟩ := forall_mem_treeAll_cons.mp hms'
    obtain ⟨hsection, hrest⟩ := List.cons.inj h
    obtain ⟨htitle, hbody⟩ := Prod.mk.inj hsection
    rw [messageBody_eq, messageBody_eq] at hbody
    have hline : ∀ {spell : String → String} {fields : List Field}, ∀ l ∈ fields.map (field spell), l ≠ "" := by
      intro spell fields l hl
      obtain ⟨f, _, rfl⟩ := List.mem_map.mp hl
      rw [field_eq]
      simp
    obtain ⟨hfields, hblocks⟩ := append_sections_inj hline hline hbody
    obtain ⟨henums, hmessages⟩ := append_inj_of_letter (c := 'e') (by simp [enumSection]) (by simp [enumSection])
      (by simp [messageSection]) (by simp [messageSection]) hblocks
    have hname : name = name' := (String.append_right_inj _).mp htitle
    have hfields : fields.map (Field.outline spell) = fields'.map (Field.outline spell') := by
      refine map_eq_map_of_step (fun f hf f' hf' hline => ?_) hfields
      obtain ⟨hf, htype⟩ := hm.fields f hf
      obtain ⟨hf', htype'⟩ := hm'.fields f' hf'
      exact outline_of_field hf hf' (Field.plain_type hspell htype) (Field.plain_type hspell' htype') hline
    have henums : enums.map id = enums'.map id :=
      map_eq_map_of_step (fun e he e' he' => enum_of_section (hm.enums e he).2 (hm'.enums e' he').2) henums
    have hin := outline_of_sections hspell hspell' nested nested' hnested hnested' hmessages
    have hafter := outline_of_sections hspell hspell' ms ms' hms hms' hrest
    rw [List.map_id, List.map_id] at henums
    simp only [Message.outlineAll, Message.outline, hname, hfields, henums, hin, hafter]

/-! ## Single lines -/

theorem singleLine_numbered {name : String} (h : SingleLine name) (n : Int) :
    SingleLine (name ++ " = " ++ toString n ++ ";") := by
  have hnumber : SingleLine (toString n) := not_mem_toString (by decide) (by decide)
  simp only [singleLine_append]
  exact ⟨⟨⟨h, by decide⟩, hnumber⟩, by decide⟩

theorem singleLine_field {f : Field} (hname : IsPlain f.name) (htype : IsPlain (f.outline spell).type) :
    SingleLine (field spell f) := by
  have hfront : SingleLine ((if f.repeated then "repeated " else "") ++ (f.outline spell).type ++ " " ++ f.name) := by
    simp only [singleLine_append]
    exact ⟨⟨⟨by split <;> decide, htype.singleLine⟩, by decide⟩, hname.singleLine⟩
  exact singleLine_numbered hfront f.number

theorem singleLine_method (hspell : KeepsPlain spell) {m : Rpc} (h : m.Legible) : ∀ l ∈ method spell m, SingleLine l := by
  have hsignature : SingleLine (signature spell m) := by
    simp only [signature, singleLine_append]
    exact ⟨⟨⟨⟨⟨⟨by decide, h.name.singleLine⟩, by decide⟩, (hspell _ h.input).singleLine⟩, by decide⟩,
      (hspell _ h.output).singleLine⟩, by decide⟩
  rw [method_eq]
  split
  · exact singleLine_block hsignature (by decide)
  · intro l hl
    rw [List.mem_singleton.mp hl]
    exact singleLine_append.mpr ⟨hsignature, by decide⟩

theorem singleLine_messages (hspell : KeepsPlain spell) : ∀ (ms : List Message), (∀ m ∈ Message.treeAll ms, m.Legible) →
    ∀ x ∈ ms.map (messageSection spell), SingleLine x.1 ∧ ∀ l ∈ x.2, SingleLine l
  | [], _, _, hx => by cases hx
  | ⟨name, fields, enums, nested⟩ :: ms, hms, x, hx => by
    obtain ⟨hm, hnested, hms⟩ := forall_mem_treeAll_cons.mp hms
    have hin := singleLine_messages hspell nested hnested
    rcases List.mem_cons.mp hx with rfl | hx
    · refine ⟨singleLine_append.mpr ⟨by decide, hm.name.singleLine⟩, ?_⟩
      intro l hl
      change l ∈ messageBody spell ⟨name, fields, enums, nested⟩ at hl
      rw [messageBody_eq] at hl
      rcases List.mem_append.mp hl with hl | hl
      · obtain ⟨f, hf, rfl⟩ := List.mem_map.mp hl
        obtain ⟨hf, htype⟩ := hm.fields f hf
        exact singleLine_field hf (Field.plain_type hspell htype)
      · refine singleLine_sections (fun y hy => ?_) l hl
        rcases List.mem_append.mp hy with hy | hy
        · obtain ⟨e, he, rfl⟩ := List.mem_map.mp hy
          refine ⟨singleLine_append.mpr ⟨by decide, (hm.enums e he).1.singleLine⟩, ?_⟩
          intro l hl
          obtain ⟨v, hv, rfl⟩ := List.mem_map.mp hl
          exact singleLine_numbered ((hm.enums e he).2 v hv).singleLine _
        · exact hin y hy
    · exact singleLine_messages hspell ms hms x hx

theorem singleLine_imports {imports : List String} (h : ∀ i ∈ imports, SingleLine i) :
    ∀ l ∈ importLines imports, SingleLine l := by
  unfold importLines
  split
  · simp
  · intro l hl
    rcases List.mem_cons.mp hl with rfl | hl
    · decide
    · obtain ⟨i, hi, rfl⟩ := List.mem_map.mp hl
      simp only [singleLine_append]
      exact ⟨⟨by decide, h i hi⟩, by decide⟩

theorem singleLine_lines {u : PackageUnit} (h : u.Legible) (n : Namespaces) : ∀ l ∈ lines u n, SingleLine l := by
  have hspell := Text.keepsPlain_spell n u.package
  intro l hl
  rw [lines_eq, List.mem_append, List.mem_append] at hl
  rcases hl with hl | hl | hl
  · simp only [List.mem_cons, List.not_mem_nil, or_false] at hl
    rcases hl with rfl | rfl | rfl | rfl
    · decide
    · decide
    · decide
    · simp only [singleLine_append]
      exact ⟨⟨by decide, h.package⟩, by decide⟩
  · exact singleLine_imports h.imports l hl
  · refine singleLine_sections (fun x hx => ?_) l hl
    rcases List.mem_append.mp hx with hx | hx
    · exact singleLine_messages hspell u.messages h.messages x hx
    · obtain ⟨s, hs, rfl⟩ := List.mem_map.mp hx
      refine ⟨singleLine_append.mpr ⟨by decide, (h.services s hs).name.singleLine⟩, ?_⟩
      intro l hl
      obtain ⟨m, hm, hl⟩ := List.mem_flatMap.mp hl
      exact singleLine_method hspell ((h.services s hs).methods m hm) l hl

/-! ## Units -/

def importLine (i : String) : String := "import \"" ++ i ++ "\";"

theorem importLines_cons (i : String) (is : List String) : importLines (i :: is) = "" :: (i :: is).map importLine := rfl

theorem importLine_injective : Function.Injective importLine := by
  intro i i' h
  rwa [importLine, importLine, String.append_left_inj, String.append_right_inj] at h

/-- No block begins where an import should, unless its title begins like one. -/
theorem sections_ne_imports {i : String} {is : List String} {xs ys : List (String × List String)}
    (hxs : ∀ x ∈ xs, x.1.toList.head? ≠ some 'i') : sections xs ≠ importLines (i :: is) ++ sections ys := by
  intro h
  rw [importLines_cons] at h
  cases xs with
  | nil => cases h
  | cons x xs =>
    have hfirst : x.1 ++ " \x7b" = importLine i := (List.cons.inj (List.cons.inj h).2).1
    have hletter := congrArg (·.toList.head?) hfirst
    refine hxs x List.mem_cons_self ?_
    cases htitle : x.1.toList with
    | nil => simp [importLine, htitle] at hletter
    | cons c cs => simpa [importLine, htitle] using hletter

/-- Imports are told from what follows them: both begin with an empty line, but no block
    with a title has a line that begins like an import. -/
theorem imports_append_inj {is is' : List String} {xs xs' : List (String × List String)}
    (hxs : ∀ x ∈ xs, x.1.toList.head? ≠ some 'i') (hxs' : ∀ x ∈ xs', x.1.toList.head? ≠ some 'i')
    (h : importLines is ++ sections xs = importLines is' ++ sections xs') : is = is' ∧ xs = xs' := by
  cases is with
  | nil =>
    cases is' with
    | nil => exact ⟨rfl, sections_injective h⟩
    | cons i' is' => exact absurd h (sections_ne_imports hxs)
  | cons i is =>
    cases is' with
    | nil => exact absurd h.symm (sections_ne_imports hxs')
    | cons i' is' =>
      have himport : ∀ {is : List String}, ∀ l ∈ is.map importLine, l ≠ "" := by
        intro is l hl
        obtain ⟨i, _, rfl⟩ := List.mem_map.mp hl
        simp [importLine]
      obtain ⟨himports, hblocks⟩ := append_sections_inj himport himport (List.cons.inj h).2
      exact ⟨List.map_injective_iff.mpr importLine_injective himports, hblocks⟩

end SourceText

namespace PackageUnit

open SourceText

variable {u v : PackageUnit} {n m : Namespaces}

/-- Legible units with the same text have the same outline. -/
theorem outline_of_render (hu : u.Legible) (hv : v.Legible) (h : u.render n = v.render m) : u.outline n = v.outline m := by
  have hspell := Text.keepsPlain_spell n u.package
  have hspell' := Text.keepsPlain_spell m v.package
  have hlines : lines u n = lines v m := by
    have hsplit := congrArg (Text.split '\n') h
    unfold render at hsplit
    rw [split_lines (singleLine_lines hu n), split_lines (singleLine_lines hv m)] at hsplit
    exact List.append_cancel_right hsplit
  rw [lines_eq, lines_eq] at hlines
  simp only [List.cons_append, List.nil_append, List.cons.injEq, String.append_left_inj, String.append_right_inj,
    true_and] at hlines
  obtain ⟨hpackage, hrest⟩ := hlines
  have hletter : ∀ (w : PackageUnit) (spell : String → String),
      ∀ x ∈ w.messages.map (messageSection spell) ++ w.services.map (serviceSection spell), x.1.toList.head? ≠ some 'i' := by
    intro w spell x hx
    rcases List.mem_append.mp hx with hx | hx
    · obtain ⟨y, _, rfl⟩ := List.mem_map.mp hx
      simp [messageSection]
    · obtain ⟨y, _, rfl⟩ := List.mem_map.mp hx
      simp [serviceSection]
  obtain ⟨himports, hblocks⟩ := imports_append_inj (hletter u _) (hletter v _) hrest
  obtain ⟨hmessages, hservices⟩ := append_inj_of_letter (c := 'm') (by simp [messageSection]) (by simp [messageSection])
    (by simp [serviceSection]) (by simp [serviceSection]) hblocks
  have hmessages := outline_of_sections hspell hspell' u.messages v.messages hu.messages hv.messages hmessages
  have hservices : u.services.map (Service.spelled (n.spell u.package)) = v.services.map (Service.spelled (m.spell v.package)) :=
    map_eq_map_of_step (fun s hs s' hs' => spelled_of_section hspell hspell' (hu.services s hs) (hv.services s' hs')) hservices
  unfold outline
  rw [Outline.mk.injEq]
  exact ⟨hpackage, himports, hmessages, hservices⟩

/-- A unit with a message inside a message, which writes another package in one of two ways. -/
def ledgerUnit (amount : String) : PackageUnit :=
  { package := "bank"
    messages :=
      [{ name := "Ledger"
         fields := [{ name := "entries", number := 1, repeated := true, type := .message, typeName := some "Entry" }]
         nested :=
           [{ name := "Entry"
              fields := [{ name := "amount", number := 1, type := .message, typeName := some amount },
                         { name := "side", number := 2, type := .enumeration, typeName := some "Side" }]
              enums := [{ name := "Side", values := [⟨"SIDE_UNSPECIFIED", 0⟩, ⟨"SIDE_DEBIT", -1⟩] }] }] }]
    services := [{ name := "LedgerService", methods := [{ name := "Get", input := amount, output := "Ledger", pure := true }] }]
    imports := ["money/money.proto"] }

theorem outline_of_render_ledgerUnit :
    let u := ledgerUnit "money.Amount"
    let v := ledgerUnit ".money.Amount"
    u.Legible ∧ v.Legible ∧ u.render [] = v.render (Namespaces.ofUnits [v]) ∧ u.outline [] = v.outline (Namespaces.ofUnits [v]) := by
  have hu : (ledgerUnit "money.Amount").Legible := by decide +kernel
  have hv : (ledgerUnit ".money.Amount").Legible := by decide +kernel
  have h : (ledgerUnit "money.Amount").render [] =
      (ledgerUnit ".money.Amount").render (Namespaces.ofUnits [ledgerUnit ".money.Amount"]) := by decide +kernel
  exact ⟨hu, hv, h, outline_of_render hu hv h⟩

end PackageUnit

end Protograph
