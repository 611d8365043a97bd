/-
  Protograph.Proofs.Blocks — the lines of a `.proto` text, and the blocks that the lines
  make up.

  Lines end where the text breaks (`split_lines`). A block goes from its title to the first
  line that is a closing brace with nothing in front of it, and no line inside is one
  (`indent_ne_brace`). So a sequence of blocks is told by its lines (`sections_injective`).

  Proved: `lines_eq`. The file of a unit is four lines, the imports, and one block for each
  message and each service; a message is its fields and one block for each enumeration and
  each message inside.
-/

import Mathlib.Data.List.Basic
import Protograph.Descriptor.SourceText

namespace Protograph

section Lists

variable {α β γ : Type}

/-- Lists in two parts: first what satisfies a condition, then something that does not. -/
theorem append_inj_of_head {p : α → Prop} {a a' b b' : List α} (ha : ∀ x ∈ a, p x) (ha' : ∀ x ∈ a', p x)
    (hb : ∀ x ∈ b.head?, ¬ p x) (hb' : ∀ x ∈ b'.head?, ¬ p x) (h : a ++ b = a' ++ b') : a = a' ∧ b = b' := by
  induction a generalizing a' with
  | nil =>
    cases a' with
    | nil => exact ⟨rfl, h⟩
    | cons y a' =>
      have hy : y ∈ b.head? := by
        rw [List.nil_append] at h
        simp [h]
      exact absurd (ha' y List.mem_cons_self) (hb y hy)
  | cons x a ih =>
    cases a' with
    | nil =>
      have hx : x ∈ b'.head? := by
        rw [List.nil_append] at h
        simp [← h]
      exact absurd (ha x List.mem_cons_self) (hb' x hx)
    | cons y a' =>
      obtain ⟨rfl, hrest⟩ := List.cons.inj h
      have hrest := ih (fun z hz => ha z (List.mem_cons_of_mem _ hz)) (fun z hz => ha' z (List.mem_cons_of_mem _ hz)) hrest
      exact ⟨by rw [hrest.1], hrest.2⟩

/-- Elements that have the same image under some functions have it under others as well. -/
theorem map_eq_map_of_step {α' : Type} {f : α → β} {f' : α' → β} {g : α → γ} {g' : α' → γ} {as : List α} {as' : List α'}
    (step : ∀ a ∈ as, ∀ a' ∈ as', f a = f' a' → g a = g' a') (h : as.map f = as'.map f') : as.map g = as'.map g' := by
  induction as generalizing as' with
  | nil =>
    cases as' with
    | nil => rfl
    | cons a' as' => cases h
  | cons a as ih =>
    cases as' with
    | nil => cases h
    | cons a' as' =>
      obtain ⟨hfirst, hrest⟩ := List.cons.inj h
      rw [List.map_cons, List.map_cons, step a List.mem_cons_self a' List.mem_cons_self hfirst,
        ih (fun x hx y hy => step x (List.mem_cons_of_mem _ hx) y (List.mem_cons_of_mem _ hy)) hrest]

end Lists

/-! ## Lines -/

def Text.SingleLine (s : String) : Prop := '\n' ∉ s.toList

instance (s : String) : Decidable (Text.SingleLine s) := inferInstanceAs (Decidable ('\n' ∉ s.toList))

theorem Text.singleLine_append {a b : String} : SingleLine (a ++ b) ↔ SingleLine a ∧ SingleLine b := by
  simp [SingleLine]

open Text (SingleLine singleLine_append)

/-- A text of single lines is cut into them. -/
theorem split_lines {ls : List String} (h : ∀ l ∈ ls, SingleLine l) :
    Text.split '\n' (String.join (ls.map (· ++ "\n"))) = ls ++ [""] := by
  induction ls with
  | nil => rfl
  | cons l ls ih =>
    rw [List.map_cons, String.join_cons, Text.split_append rfl, Text.split_of_not_mem (h l List.mem_cons_self),
      ih fun l hl => h l (List.mem_cons_of_mem _ hl)]
    rfl

namespace SourceText

theorem indent_injective : Function.Injective indent := by
  intro l l' h
  unfold indent at h
  split at h <;> split at h
  · rename_i hl hl'
    rw [hl, hl']
  · simp at h
  · simp at h
  · exact (String.append_right_inj _).mp h

theorem indent_ne_brace (l : String) : indent l ≠ "\x7d" := by
  unfold indent
  split
  · decide
  · intro h
    have hfirst := congrArg (·.toList.head?) h
    simp at hfirst

/-! ## Blocks -/

/-- A block is told by its lines, whatever follows it. -/
theorem block_append_inj {t t' : String} {b b' r r' : List String} (h : block t b ++ r = block t' b' ++ r') :
    t = t' ∧ b = b' ∧ r = r' := by
  simp only [block, List.append_assoc, List.cons_append, List.nil_append, List.cons.injEq, String.append_left_inj] at h
  obtain ⟨htitle, hrest⟩ := h
  have hinside : ∀ {b : List String}, ∀ l ∈ b.map indent, l ≠ "\x7d" := by
    intro b l hl
    obtain ⟨k, _, rfl⟩ := List.mem_map.mp hl
    exact indent_ne_brace k
  obtain ⟨hbody, hrest⟩ := append_inj_of_head hinside hinside (by simp) (by simp) hrest
  exact ⟨htitle, List.map_injective_iff.mpr indent_injective hbody, (List.cons.inj hrest).2⟩

theorem singleLine_block {t : String} {b : List String} (ht : SingleLine t) (hb : ∀ l ∈ b, SingleLine l) :
    ∀ l ∈ block t b, SingleLine l := by
  intro l hl
  simp only [block, List.cons_append, List.nil_append, List.mem_cons, List.mem_append, List.mem_map, List.not_mem_nil,
    or_false] at hl
  rcases hl with rfl | ⟨k, hk, rfl⟩ | rfl
  · exact singleLine_append.mpr ⟨ht, by decide⟩
  · unfold indent
    split
    · decide
    · exact singleLine_append.mpr ⟨by decide, hb k hk⟩
  · decide

/-- Blocks given by their titles and lines, each after an empty line. -/
def sections (xs : List (String × List String)) : List String := xs.flatMap fun x => "" :: block x.1 x.2

theorem sections_append (xs ys : List (String × List String)) : sections (xs ++ ys) = sections xs ++ sections ys :=
  List.flatMap_append

theorem sections_injective : Function.Injective sections := by
  intro xs ys h
  induction xs generalizing ys with
  | nil =>
    cases ys with
    | nil => rfl
    | cons y ys => cases h
  | cons x xs ih =>
    cases ys with
    | nil => cases h
    | cons y ys =>
      have hcons : block x.1 x.2 ++ sections xs = block y.1 y.2 ++ sections ys := (List.cons.inj h).2
      obtain ⟨htitle, hbody, hrest⟩ := block_append_inj hcons
      rw [ih hrest, Prod.ext htitle hbody]

theorem head_sections {xs : List (String × List String)} : ∀ l ∈ (sections xs).head?, l = "" := by
  cases xs with
  | nil => simp [sections]
  | cons x xs =>
    intro l hl
    exact (Option.some.inj hl).symm

/-- Blocks begin with an empty line, and so are told from lines in front of them. -/
theorem append_sections_inj {ls ls' : List String} {xs xs' : List (String × List String)} (hls : ∀ l ∈ ls, l ≠ "")
    (hls' : ∀ l ∈ ls', l ≠ "") (h : ls ++ sections xs = ls' ++ sections xs') : ls = ls' ∧ xs = xs' := by
  have hgap : ∀ {xs : List (String × List String)}, ∀ l ∈ (sections xs).head?, ¬ l ≠ "" :=
    fun l hl => not_not.mpr (head_sections l hl)
  obtain ⟨hlines, hblocks⟩ := append_inj_of_head hls hls' hgap hgap h
  exact ⟨hlines, sections_injective hblocks⟩

theorem singleLine_sections {xs : List (String × List String)}
    (h : ∀ x ∈ xs, SingleLine x.1 ∧ ∀ l ∈ x.2, SingleLine l) : ∀ l ∈ sections xs, SingleLine l := by
  intro l hl
  obtain ⟨x, hx, hl⟩ := List.mem_flatMap.mp hl
  rcases List.mem_cons.mp hl with rfl | hl
  · decide
  · exact singleLine_block (h x hx).1 (h x hx).2 l hl

/-! ## Units -/

def enumSection (e : Enum) : String × List String :=
  ("enum " ++ e.name, e.values.map fun v => v.name ++ " = " ++ toString v.number ++ ";")

def messageBody (spell : String → String) (m : Message) : List String :=
  m.fields.map (field spell) ++ (m.enums.flatMap fun e => "" :: enumeration e) ++ nestedMessages spell m.nested

def messageSection (spell : String → String) (m : Message) : String × List String :=
  ("message " ++ m.name, messageBody spell m)

def serviceSection (spell : String → String) (s : Service) : String × List String :=
  ("service " ++ s.name, s.methods.flatMap (method spell))

theorem nestedMessages_eq (spell : String → String) (ms : List Message) :
    nestedMessages spell ms = sections (ms.map (messageSection spell)) := by
  induction ms with
  | nil => rfl
  | cons m ms ih =>
    obtain ⟨name, fields, enums, nested⟩ := m
    rw [nestedMessages, ih]
    rfl

theorem messageBody_eq (spell : String → String) (m : Message) : messageBody spell m =
    m.fields.map (field spell) ++ sections (m.enums.map enumSection ++ m.nested.map (messageSection spell)) := by
  have henums : (m.enums.flatMap fun e => "" :: enumeration e) = sections (m.enums.map enumSection) := by
    rw [sections, List.flatMap_map]
    rfl
  rw [messageBody, nestedMessages_eq, henums, sections_append, List.append_assoc]

theorem lines_eq (u : PackageUnit) (n : Namespaces) :
    lines u n = [header, "syntax = \"proto3\";", "", "package " ++ u.package ++ ";"] ++ (importLines u.imports ++
      sections (u.messages.map (messageSection (n.spell u.package)) ++ u.services.map (serviceSection (n.spell u.package)))) := by
  have hservices : (u.services.flatMap fun s => "" :: service (n.spell u.package) s) =
      sections (u.services.map (serviceSection (n.spell u.package))) := by
    rw [sections, List.flatMap_map]
    rfl
  unfold lines
  dsimp only
  rw [nestedMessages_eq, hservices, sections_append]
  simp only [List.append_assoc]

end SourceText

end Protograph
