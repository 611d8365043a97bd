/-
  Protograph.Proofs.Ranges — the numbers that documents give.

  What is said of all that the readers of the parts of a value give (`Yields`) holds of what
  the reader of the whole gives, in any source (`LawfulSource`). JSON and YAML are such sources.

  Proved:
  - `fits_of_load`: the numbers of enumerations in a graph that is loaded from documents are
    32-bit numbers.
  - `read_of_compiles`: so the descriptor set of every run reads back from its bytes.
-/

import Protograph.Proofs.Runs
import Protograph.Proofs.Sources
import Protograph.Proofs.Recovery

namespace Protograph

open RunSource (Yields yields_trivially yields_pure yields_fail yields_bind yields_after yields_some yields_mapM
  yields_foldlM)

/-! ## Records -/

namespace Record

variable {m : Type → Type} {ν σ ρ : Type} [Monad m] [Source m ν] [RunSource m ν σ] {r : Record m ν ρ} {P : ρ → Prop}

/-- Every slot keeps what is said of the record. -/
def Keeps (r : Record m ν ρ) (P : ρ → Prop) : Prop :=
  ∀ s ∈ r.slots, ∃ Q : s.Value → Prop, (∀ v, Yields ν (s.read v) Q) ∧ ∀ x a, Q x → P a → P (s.store x a)

theorem yields_visit (hkeeps : r.Keeps P) {p : Progress ρ} (hp : P p.value) (key : String) (v : ν) :
    Yields ν (r.visit (Source.fail ν) p key v) (P ·.value) := by
  unfold visit
  split
  · exact yields_fail
  · rename_i s hs
    split
    · exact yields_fail
    · obtain ⟨Q, hread, hstore⟩ := hkeeps s (List.mem_of_find?_eq_some hs)
      exact yields_bind (hread v) fun x hx => yields_pure (hstore x p.value hx hp)

theorem yields_close {p : Progress ρ} (hp : P p.value) : Yields ν (r.close (Source.fail ν) p) P := by
  unfold close
  split
  · exact yields_fail
  · exact yields_pure hp

theorem yields_fromSequence (hkeeps : r.Keeps P) {slots : List (Slot m ν ρ)} (hslots : ∀ s ∈ slots, s ∈ r.slots) {n : Nat}
    {a : ρ} (ha : P a) {vs : List ν} : Yields ν (r.fromSequence (Source.fail ν) n slots a vs) (P ·.1) := by
  induction slots generalizing n a vs with
  | nil => exact yields_pure ha
  | cons s slots ih =>
    cases vs with
    | nil =>
      unfold fromSequence
      split
      · exact yields_fail
      · exact yields_pure ha
    | cons v vs =>
      obtain ⟨Q, hread, hstore⟩ := hkeeps s (hslots s List.mem_cons_self)
      refine yields_bind (hread v) fun x hx => ?_
      exact ih (fun t ht => hslots t (List.mem_cons_of_mem _ ht)) (hstore x a hx ha)

end Record

/-- A source in which a reader gives what its parts give. -/
class LawfulSource (m : outParam (Type → Type)) (ν : Type) (σ : outParam Type) [Monad m] [Source m ν] extends
    RunSource m ν σ where
  int32 (v : ν) : Yields ν (Source.int32 v) (fitsSigned 32 · = true)
  optional {α : Type} {P : α → Prop} {read : ν → m α} : (∀ v, Yields ν (read v) P) →
    ∀ v, Yields ν (Source.optional read v) fun o => ∀ a ∈ o, P a
  list {α : Type} {P : α → Prop} {read : ν → m α} : (∀ v, Yields ν (read v) P) →
    ∀ v, Yields ν (Source.list read v) fun as => ∀ a ∈ as, P a
  entries {β : Type} {P : β → Prop} {visit : β → String → ν → m β} {start : β} : P start →
    (∀ b key v, P b → Yields ν (visit b key v) P) → ∀ v, Yields ν (Source.entries visit start v) P
  record {ρ : Type} {P : ρ → Prop} {r : Record m ν ρ} : P r.start → r.Keeps P →
    ∀ v, Yields ν (Source.record r v) P

/-! ## Documents -/

namespace Reading

variable {m : Type → Type} {ν σ : Type} [Monad m] [Source m ν] [LawfulSource m ν σ]

open LawfulSource

/-- What reads a slot says nothing of is kept by every value of the slot. -/
theorem keeps_trivially {ρ : Type} {P : ρ → Prop} {s : Slot m ν ρ} (h : ∀ x a, P a → P (s.store x a)) :
    ∃ Q : s.Value → Prop, (∀ v, Yields ν (s.read v) Q) ∧ ∀ x a, Q x → P a → P (s.store x a) :=
  ⟨fun _ => True, fun _ => yields_trivially fun _ => trivial, fun x a _ => h x a⟩

theorem forall_put {α : Type} {P : α → Prop} {t : Table α} (ht : ∀ e ∈ t, P e.2) {k : String} {x : α} (hx : P x) :
    ∀ e ∈ t.put k x, P e.2 := by
  intro e he
  unfold Table.put at he
  split at he
  · obtain ⟨e', he', rfl⟩ := List.mem_map.mp he
    split
    · exact hx
    · exact ht e' he'
  · rcases List.mem_append.mp he with he | he
    · exact ht e he
    · rw [List.mem_singleton.mp he]
      exact hx

theorem yields_table {α : Type} {P : α → Prop} {read : ν → m α} (h : ∀ v, Yields ν (read v) P) (v : ν) :
    Yields ν (table read v) fun t => ∀ e ∈ t, P e.2 :=
  entries (by simp) (fun _ _ v ht => yields_bind (h v) fun _ hx => yields_pure (forall_put ht hx)) v

theorem yields_enumOptions (v : ν) : Yields ν (enumOptions v) fun o => ∀ n ∈ o.numbers, fitsSigned 32 n.2 = true := by
  refine record (by simp) (fun s hs => ?_) v
  simp only [List.mem_cons, List.not_mem_nil, or_false] at hs
  rcases hs with rfl | rfl
  · exact ⟨fun t => ∀ n ∈ t, fitsSigned 32 n.2 = true, yields_table int32, fun _ _ ht _ => ht⟩
  · exact keeps_trivially fun _ _ h => h

theorem yields_fieldAnnotations (v : ν) :
    Yields ν (fieldAnnotations v) fun a => ∀ o ∈ a.enumeration, ∀ n ∈ o.numbers, fitsSigned 32 n.2 = true := by
  refine record (by simp) (fun s hs => ?_) v
  simp only [List.mem_cons, List.not_mem_nil, or_false] at hs
  rcases hs with rfl | rfl | rfl | rfl <;>
    first
    | exact keeps_trivially fun _ _ h => h
    | exact ⟨fun x => ∀ o ∈ x, ∀ n ∈ o.numbers, fitsSigned 32 n.2 = true, optional yields_enumOptions, fun _ _ hx _ => hx⟩

theorem yields_fieldSpec (v : ν) : Yields ν (fieldSpec v) FieldSpec.Fits32 := by
  refine record (by simp [FieldSpec.Fits32]) (fun s hs => ?_) v
  simp only [List.mem_cons, List.not_mem_nil, or_false] at hs
  rcases hs with rfl | rfl | rfl | rfl | rfl | rfl | rfl <;>
    first
    | exact keeps_trivially fun _ _ h => h
    | exact ⟨fun a => ∀ o ∈ a.enumeration, ∀ n ∈ o.numbers, fitsSigned 32 n.2 = true, yields_fieldAnnotations, fun _ _ hx _ => hx⟩

theorem fits_defaultIdentifier : FieldSpec.defaultIdentifier.Fits32 := by decide

theorem yields_entity (v : ν) : Yields ν (entity v) fun e => e.id.Fits32 ∧ ∀ f ∈ e.fields, f.Fits32 := by
  refine record ⟨fits_defaultIdentifier, by simp⟩ (fun s hs => ?_) v
  simp only [List.mem_cons, List.not_mem_nil, or_false] at hs
  rcases hs with rfl | rfl | rfl | rfl | rfl <;>
    first
    | exact keeps_trivially fun _ _ h => h
    | exact ⟨FieldSpec.Fits32, yields_fieldSpec, fun _ _ hx h => ⟨hx, h.2⟩⟩
    | exact ⟨fun fs => ∀ f ∈ fs, f.Fits32, list yields_fieldSpec, fun _ _ hx h => ⟨h.1, hx⟩⟩

theorem yields_document (v : ν) :
    Yields ν (document v) fun d => ∀ e ∈ d.entities, e.id.Fits32 ∧ ∀ f ∈ e.fields, f.Fits32 := by
  refine record (by simp) (fun s hs => ?_) v
  rw [List.mem_singleton.mp hs]
  exact ⟨fun es => ∀ e ∈ es, e.id.Fits32 ∧ ∀ f ∈ e.fields, f.Fits32, list yields_entity, fun _ _ hx _ => hx⟩

end Reading

/-! ## JSON -/

namespace Json

theorem yields_error {α : Type} {P : α → Prop} {e : ReadError} : Yields Input (Except.error e : Read α) P := nofun

theorem yields_mismatch {α : Type} {P : α → Prop} {v : Json} {wanted : String} :
    Yields Input (v.mismatch wanted : Read α) P := fun _ _ _ h => absurd h not_mismatch

theorem yields_readInt {bits : Nat} {wanted : String} (v : Json) :
    Yields Input (readInt bits wanted v) (fitsSigned bits · = true) := by
  unfold readInt
  split
  · split
    · exact yields_pure ‹_›
    · exact yields_error
  · exact yields_mismatch

theorem yields_record {ρ : Type} {P : ρ → Prop} {r : Record Read Input ρ} (hstart : P r.start) (hkeeps : r.Keeps P)
    (i : Input) : Yields Input (Source.record r i) P := by
  obtain ⟨textual, v⟩ := i
  cases v with
  | obj members rest =>
    have hmembers : Yields Input (members.foldlM (fun p e => r.visit fail p e.1 ⟨textual, e.2⟩) r.begin) (P ·.value) :=
      yields_foldlM hstart fun p e hp => Record.yields_visit hkeeps hp e.1 ⟨textual, e.2⟩
    refine yields_bind hmembers fun p hp => ?_
    split
    · exact yields_error
    · exact Record.yields_close hp
  | arr items =>
    refine yields_bind (Record.yields_fromSequence hkeeps (fun _ hs => hs) hstart) fun b hb => ?_
    dsimp only
    split
    · exact yields_pure hb
    · split <;> exact yields_error
  | _ => exact yields_mismatch

instance : LawfulSource Read Input Unit where
  int32 i := yields_readInt i.value
  optional := by
    intro α P read hread i
    obtain ⟨textual, v⟩ := i
    cases v with
    | null => exact yields_pure nofun
    | _ => exact yields_some (hread _)
  list := by
    intro α P read hread i
    obtain ⟨textual, v⟩ := i
    cases v with
    | arr items => exact yields_mapM fun v => hread ⟨textual, v⟩
    | _ => exact yields_mismatch
  entries := by
    intro β P visit start hstart hvisit i
    obtain ⟨textual, v⟩ := i
    cases v with
    | obj members rest =>
      refine yields_bind (yields_foldlM hstart fun b e hb => hvisit b e.1 ⟨textual, e.2⟩ hb) fun b hb => ?_
      split
      · exact yields_error
      · exact yields_pure hb
    | _ => exact yields_mismatch
  record := yields_record

end Json

/-! ## YAML -/

namespace Yaml

theorem yields_located {α : Type} {P : α → Prop} {i : Input} {act : Read α} (h : Yields Input act P) :
    Yields Input (i.located act) P := fun n a n' ha => h n a n' (finishes_located.mp ha)

instance : LawfulSource Read Input Nat where
  int32 i := by
    refine yields_after fun i => yields_after fun n => ?_
    split
    · exact yields_pure ‹_›
    · exact yields_located yields_fail
  optional := by
    intro α P read hread i
    refine yields_after fun i => yields_after fun present => ?_
    split
    · exact yields_some (hread i)
    · exact yields_pure nofun
  list hread i := yields_after fun i => yields_located (yields_after fun items => yields_mapM hread)
  entries hstart hvisit i := yields_after fun i => yields_located <| yields_after fun pairs =>
    yields_foldlM hstart fun b e hb => yields_after fun key => hvisit b key e.2 hb
  record := by
    intro ρ P r hstart hkeeps i
    refine yields_after fun i => yields_located (yields_after fun pairs => ?_)
    refine yields_bind (P := (P ·.value)) (yields_foldlM hstart fun p e hp => ?_) fun p hp => Record.yields_close hp
    exact yields_after fun key => Record.yields_visit hkeeps hp key e.2

end Yaml

/-! ## Graphs -/

theorem Json.property_of_text {α : Type} {P : α → Prop} {read : Input → Read α} (hread : ∀ i, Yields Input (read i) P)
    {text : String} {a : α} (h : ofText read text = .ok a) : P a := by
  obtain ⟨x, hx, h⟩ := bind_eq_ok.mp h
  split at h
  · obtain rfl := pure_eq_ok.mp h
    exact hread _ () x () hx
  · cases h

theorem Yaml.property_of_text {α : Type} {P : α → Prop} {read : Input → Read α} (hread : ∀ i, Yields Input (read i) P)
    {text : String} {a : α} (h : ofText read text = .ok a) : P a := by
  unfold ofText at h
  split at h
  · cases h
  · rename_i s _
    cases hx : (read ⟨s, s.root, .root, maxDepth⟩).run 0 with
    | error e =>
      rw [hx] at h
      cases h
    | ok x =>
      rw [hx] at h
      cases h
      exact hread _ 0 x.1 x.2 hx

theorem Document.fits_of_text {json : Bool} {text : String} {d : Document} (h : Document.ofText json text = .ok d) :
    ∀ e ∈ d.entities, e.id.Fits32 ∧ ∀ f ∈ e.fields, f.Fits32 := by
  unfold Document.ofText at h
  split at h
  · exact Json.property_of_text Reading.yields_document h
  · exact Yaml.property_of_text Reading.yields_document h

theorem FileTree.fits_of_document {t : FileTree} {path : String} {d : Document} (h : t.document path = .ok d) :
    ∀ e ∈ d.entities, e.id.Fits32 ∧ ∀ f ∈ e.fields, f.Fits32 := by
  unfold FileTree.document at h
  split at h
  · cases h
  · rename_i text _
    cases hd : Document.ofText (Path.isJson path) text with
    | error e =>
      rw [hd] at h
      cases h
    | ok d' =>
      rw [hd] at h
      cases h
      exact Document.fits_of_text hd

/-- The numbers of enumerations in a graph that is loaded are 32-bit numbers. -/
theorem FileTree.fits_of_load {t : FileTree} {paths : List String} {g : Graph} (h : t.load paths = .ok g) : g.Fits32 := by
  obtain ⟨documents, hdocuments, h⟩ := bind_eq_ok.mp h
  have hentities : ∀ e ∈ documents.flatMap (·.entities), e.id.Fits32 ∧ ∀ f ∈ e.fields, f.Fits32 := by
    intro e he
    obtain ⟨d, hd, he⟩ := List.mem_flatMap.mp he
    obtain ⟨path, _, hdocument⟩ := exists_of_forall₂_right (mapM_eq_ok.mp hdocuments) hd
    exact fits_of_document hdocument e he
  have hgraph : g.entities = documents.flatMap (·.entities) := by
    unfold Graph.ofDocuments Graph.ofEntities at h
    split at h
    · cases h
    · cases h
      rfl
  intro e he f hf
  rw [hgraph] at he
  obtain ⟨hid, hfields⟩ := hentities e he
  rcases List.mem_cons.mp hf with rfl | hf
  · exact hid
  · exact hfields f (List.mem_of_mem_filter hf)

/-- What a run compiles reads back from the bytes of its descriptor set. -/
theorem Run.read_of_compiles {a : Arguments} {t : FileTree} {c : Compiled} (h : Run.Compiles a t c) :
    Wire.readFiles c.set.encode = some (c.set.wellKnown.map ProtoFile.written ++ c.set.files) := by
  obtain ⟨g, hload, hcompile, _⟩ := h
  exact Compilation.read_encode_set hcompile (FileTree.fits_of_load hload)

end Protograph
