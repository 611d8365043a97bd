/-
  Protograph.Proofs.Ingestion — the records of schema documents, and how strictly they are read.

  Each record of a document has a layout: its keys, what stands under them, and how their
  defaults are written.

  Proved:
  - `follows_document`, with one lemma for each record on the way: a document is read only with
    the keys of its layout at every depth, and neither their order nor a default that is left
    out makes a difference.
  - `document_keyed_edited`: the same of any number of such changes; the two tables of a document
    keep the order of their objects.
-/

import Protograph.Proofs.Keys

namespace Protograph

namespace Json.Layout

open Key (required defaulted nullable reading)

def messageOptions : Layout := record [defaulted "generate" leaf (.bool true), nullable "package" leaf]

def serviceOptions : Layout :=
  record [defaulted "generate" leaf (.bool true), reading "methods" leaf Reading.methods Methods.all]

def extraFilter : Layout := record [defaulted "fields" leaf (.obj [] none)]

def fieldOptions : Layout := record [required "number" leaf, nullable "type" leaf, nullable "type_name" leaf]

def enumOptions : Layout :=
  record [defaulted "options" leaf (.obj [] none), defaulted "omit_field_prefix" leaf (.bool false)]

def filterOptions : Layout := record [reading "mode" leaf Reading.filterModes FilterModes.eq]

def fieldAnnotations : Layout :=
  record [nullable "field" fieldOptions, nullable "enum" enumOptions, nullable "filter" filterOptions,
    defaulted "skip" leaf (.bool false)]

def edgeAnnotations : Layout := record [nullable "field" fieldOptions, defaulted "skip" leaf (.bool false)]

def entityAnnotations : Layout :=
  record [nullable "message" messageOptions, nullable "service" serviceOptions, nullable "extra_filter" extraFilter]

def fieldSpec : Layout :=
  record [required "name" leaf, required "type" leaf, defaulted "optional" leaf (.bool false),
    defaulted "values" (list leaf) (.arr []), nullable "default" leaf, nullable "json" leaf,
    defaulted "annotations" fieldAnnotations (.obj [] none)]

def edgeSpec : Layout :=
  record [required "name" leaf, required "target" leaf, defaulted "unique" leaf (.bool false),
    defaulted "annotations" edgeAnnotations (.obj [] none)]

def entity : Layout :=
  record [required "name" leaf,
    defaulted "id" fieldSpec (.obj [("name", .str "id"), ("type", .str "int")] none),
    defaulted "fields" (list fieldSpec) (.arr []), defaulted "edges" (list edgeSpec) (.arr []),
    defaulted "annotations" entityAnnotations (.obj [] none)]

def document : Layout := record [defaulted "entities" (list entity) (.arr [])]

end Json.Layout

namespace Reading

open Json

section Slots

variable {ρ : Type} {start : ρ} {l : Layout}

/-- A slot for a key that must be there. -/
theorem serves_required {s : Slot Read Input ρ} (hrequired : s.required = true) (h : Follows s.read l) :
    Serves start s (.required s.name l) :=
  ⟨rfl, hrequired, nofun, h⟩

/-- A slot for a key whose default is what the record starts with. -/
theorem serves_defaulted {s : Slot Read Input ρ} {d : Json} (x : s.Value) (hrequired : s.required = false)
    (hread : ∀ t, s.read ⟨t, d⟩ = .ok x) (hstart : s.store x start = start) (h : Follows s.read l) :
    Serves start s (.defaulted s.name l d) where
  name := rfl
  required := hrequired
  standard := by
    rintro _ ⟨⟩ _ rfl t
    exact ⟨x, hread t, hstart⟩
  follows := h

variable {α : Type} {name : String} {read : Input → Read α}

/-- A slot whose default is written in any way that reads as what the record starts with. -/
theorem serves_reading {store : α → ρ → ρ} {x : α} (h : Follows read l) (hstart : store x start = start) :
    Serves start ⟨name, false, α, read, store⟩ (.reading name l read x) where
  name := rfl
  required := rfl
  standard := by
    rintro _ ⟨⟩ d hd t
    exact ⟨x, hd t, hstart⟩
  follows := h

theorem serves_nullable {store : Option α → ρ → ρ} (h : Follows read l) (hstart : store none start = start) :
    Serves start ⟨name, false, Option α, Source.optional read, store⟩ (.nullable name l) :=
  serves_defaulted none rfl (fun _ => rfl) hstart (follows_optional h)

theorem serves_list {store : List α → ρ → ρ} (h : Follows read l) (hstart : store [] start = start) :
    Serves start ⟨name, false, List α, Source.list read, store⟩ (.defaulted name (.list l) (.arr [])) :=
  serves_defaulted [] rfl (fun _ => rfl) hstart (follows_list h)

theorem serves_boolean {store : Bool → ρ → ρ} (b : Bool) (hstart : store b start = start) :
    Serves start ⟨name, false, Bool, Source.boolean, store⟩ (.defaulted name .leaf (.bool b)) :=
  serves_defaulted b rfl (fun _ => rfl) hstart (follows_leaf _)

end Slots

/-! ## Records -/

theorem follows_messageOptions : Follows messageOptions .messageOptions :=
  follows_record
    { serves := .cons (serves_boolean true rfl) (.cons (serves_nullable (follows_leaf _) rfl) .nil)
      distinct := by decide
      apart := by simp [Apart, Independent] }

theorem follows_serviceOptions : Follows serviceOptions .serviceOptions :=
  follows_record
    { serves := .cons (serves_boolean true rfl) (.cons (serves_reading (follows_leaf _) rfl) .nil)
      distinct := by decide
      apart := by simp [Apart, Independent] }

theorem follows_extraFilter : Follows extraFilter .extraFilter :=
  follows_record
    { serves := .cons (serves_defaulted [] rfl (fun _ => rfl) rfl (follows_leaf _)) .nil
      distinct := by decide
      apart := by simp [Apart] }

theorem follows_fieldOptions : Follows fieldOptions .fieldOptions :=
  follows_record
    { serves := .cons (serves_required rfl (follows_leaf _)) (.cons (serves_nullable (follows_leaf _) rfl)
        (.cons (serves_nullable (follows_leaf _) rfl) .nil))
      distinct := by decide
      apart := by simp [Apart, Independent] }

theorem follows_enumOptions : Follows enumOptions .enumOptions :=
  follows_record
    { serves := .cons (serves_defaulted [] rfl (fun _ => rfl) rfl (follows_leaf _))
        (.cons (serves_boolean false rfl) .nil)
      distinct := by decide
      apart := by simp [Apart, Independent] }

theorem follows_filterOptions : Follows filterOptions .filterOptions :=
  follows_record
    { serves := .cons (serves_reading (follows_leaf _) rfl) .nil
      distinct := by decide
      apart := by simp [Apart] }

theorem follows_fieldAnnotations : Follows fieldAnnotations .fieldAnnotations :=
  follows_record
    { serves := .cons (serves_nullable follows_fieldOptions rfl) (.cons (serves_nullable follows_enumOptions rfl)
        (.cons (serves_nullable follows_filterOptions rfl) (.cons (serves_boolean false rfl) .nil)))
      distinct := by decide
      apart := by simp [Apart, Independent] }

theorem follows_edgeAnnotations : Follows edgeAnnotations .edgeAnnotations :=
  follows_record
    { serves := .cons (serves_nullable follows_fieldOptions rfl) (.cons (serves_boolean false rfl) .nil)
      distinct := by decide
      apart := by simp [Apart, Independent] }

theorem follows_entityAnnotations : Follows entityAnnotations .entityAnnotations :=
  follows_record
    { serves := .cons (serves_nullable follows_messageOptions rfl) (.cons (serves_nullable follows_serviceOptions rfl)
        (.cons (serves_nullable follows_extraFilter rfl) .nil))
      distinct := by decide
      apart := by simp [Apart, Independent] }

theorem follows_fieldSpec : Follows fieldSpec .fieldSpec :=
  follows_record
    { serves := .cons (serves_required rfl (follows_leaf _)) (.cons (serves_required rfl (follows_leaf _))
        (.cons (serves_boolean false rfl) (.cons (serves_list (follows_leaf _) rfl)
          (.cons (serves_nullable (follows_leaf _) rfl) (.cons (serves_nullable (follows_leaf _) rfl)
            (.cons (serves_defaulted {} rfl (fun _ => rfl) rfl follows_fieldAnnotations) .nil))))))
      distinct := by decide
      apart := by simp [Apart, Independent] }

theorem follows_edgeSpec : Follows edgeSpec .edgeSpec :=
  follows_record
    { serves := .cons (serves_required rfl (follows_leaf _)) (.cons (serves_required rfl (follows_leaf _))
        (.cons (serves_boolean false rfl)
          (.cons (serves_defaulted {} rfl (fun _ => rfl) rfl follows_edgeAnnotations) .nil)))
      distinct := by decide
      apart := by simp [Apart, Independent] }

/-- Of an entity without an identifier of its own the identifier is as if it was written. -/
theorem read_defaultIdentifier (t : Bool) :
    fieldSpec (⟨t, .obj [("name", .str "id"), ("type", .str "int")] none⟩ : Input) =
      .ok FieldSpec.defaultIdentifier := by
  cases t <;> rfl

theorem follows_entity : Follows entity .entity :=
  follows_record
    { serves := .cons (serves_required rfl (follows_leaf _))
        (.cons (serves_defaulted FieldSpec.defaultIdentifier rfl read_defaultIdentifier rfl follows_fieldSpec)
          (.cons (serves_list follows_fieldSpec rfl) (.cons (serves_list follows_edgeSpec rfl)
            (.cons (serves_defaulted {} rfl (fun _ => rfl) rfl follows_entityAnnotations) .nil))))
      distinct := by decide
      apart := by simp [Apart, Independent] }

theorem follows_document : Follows document .document :=
  follows_record
    { serves := .cons (serves_list follows_entity rfl) .nil
      distinct := by decide
      apart := by simp [Apart] }

/-! ## Tables -/

theorem inOrder_of_enumOptions {t : Bool} {ms : Members} {rest : Option Json} {o : EnumOptions} {v : Json}
    (h : enumOptions (⟨t, .obj ms rest⟩ : Input) = .ok o) (hv : ("options", v) ∈ ms) :
    ∃ entries, v = .obj entries none ∧ InOrder (fun n => Source.int32 (⟨t, n⟩ : Input)) entries o.numbers := by
  obtain ⟨_, o', ⟨s, hs, x, hx, rfl⟩, rfl⟩ := exists_stored (by simp [Apart, Independent]) hv h
  obtain rfl := Option.some.inj hs
  exact inOrder_of_table hx

theorem inOrder_of_extraFilter {t : Bool} {ms : Members} {rest : Option Json} {f : ExtraFilter} {v : Json}
    (h : extraFilter (⟨t, .obj ms rest⟩ : Input) = .ok f) (hv : ("fields", v) ∈ ms) :
    ∃ entries, v = .obj entries none ∧ InOrder (fun k => kind (⟨t, k⟩ : Input)) entries f.fields := by
  obtain ⟨_, f', ⟨s, hs, x, hx, rfl⟩, rfl⟩ := exists_stored (by simp [Apart, Independent]) hv h
  obtain rfl := Option.some.inj hs
  exact inOrder_of_table hx

/-- A document is read only if each of its records has known keys, none twice, and all that must
    be there. Whether it is read, and as what, depends neither on the order of the keys of any
    record nor on whether a default is written. The numbers of an enumeration and the fields of
    an extra filter have the order of their objects. -/
theorem document_keyed_edited (t : Bool) :
    (∀ v d, document (⟨t, v⟩ : Input) = .ok d → Keyed .document v) ∧
      (∀ v v', Relation.EqvGen (Edited .document) v v' →
        ∀ d, document (⟨t, v⟩ : Input) = .ok d ↔ document (⟨t, v'⟩ : Input) = .ok d) ∧
      (∀ ms rest o v, enumOptions (⟨t, .obj ms rest⟩ : Input) = .ok o → ("options", v) ∈ ms →
        ∃ entries, v = .obj entries none ∧ InOrder (fun n => Source.int32 (⟨t, n⟩ : Input)) entries o.numbers) ∧
      ∀ ms rest f v, extraFilter (⟨t, .obj ms rest⟩ : Input) = .ok f → ("fields", v) ∈ ms →
        ∃ entries, v = .obj entries none ∧ InOrder (fun k => kind (⟨t, k⟩ : Input)) entries f.fields := by
  refine ⟨follows_document.keyed t, fun v v' h => eq_of_edits follows_document t h, ?_, ?_⟩
  · intro ms rest o v h hv
    exact inOrder_of_enumOptions h hv
  · intro ms rest f v h hv
    exact inOrder_of_extraFilter h hv

example (t : Bool) :
    document (⟨t, .obj [("entities", .arr [.obj [("edges", .arr []), ("name", .str "Book")] none])] none⟩ : Input) =
      .ok { entities := [{ name := "Book" }] } := rfl

/-- A key that comes again keeps its place and takes the last value. -/
example (t : Bool) :
    extraFilter (⟨t, .obj [("fields",
      .obj [("to", .str "int"), ("of", .str "bool"), ("to", .str "string")] none)] none⟩ : Input) =
      .ok { fields := [("to", .string), ("of", .bool)] } := by
  cases t <;> rfl

end Reading

end Protograph
