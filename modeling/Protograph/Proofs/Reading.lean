/-
  Protograph.Proofs.Reading — what the type names in an entity's output are read as.

  A name without its leading dots is read as an enumeration or a message of the entity
  itself, as a well-known message, or as the message of an entity (`Reads`), and one
  meaning is all that a name has (`Reads.unique`).

  Proved:
  - `refer_eq_ok`: one name goes through if and only if it has a meaning, which is recorded.
  - `splitName_cases`, `splitName_dotted`: a name is cut apart at its last dot.
  - `resolve_eq`: resolving an output is referring to its mentions one after another.
  - `records_of_resolve`: then every mention has a meaning, and the imports and the entities
    recorded are those of the meanings and no others.
  - `exists_resolve_iff`: there is nothing else that an output can fail for.
  - `imports_of_resolve`: the imports come in the order of the meanings.
-/

import Protograph.Compile.References
import Protograph.Proofs.Steps
import Protograph.Proofs.Tables

namespace Protograph

/-! ## Mentions -/

/-- A place in an output that names a type. -/
structure Mention where
  /-- What names it: a field of a message or a method of a service. -/
  element : String
  typeName : String
  wantsEnum : Bool
  deriving DecidableEq

/-- The name that is looked up. -/
def Mention.name (x : Mention) : String := Text.withoutLeadingDots x.typeName

def Field.mention? (message : String) (f : Field) : Option Mention :=
  f.typeName.map fun t => ⟨message ++ "." ++ f.name, t, f.type = .enumeration⟩

def Message.mentions (m : Message) : List Mention := m.fields.filterMap (Field.mention? m.name)

def Rpc.mentions (service : String) (m : Rpc) : List Mention :=
  [⟨service ++ "." ++ m.name, m.input, false⟩, ⟨service ++ "." ++ m.name, m.output, false⟩]

def Service.mentions (v : Service) : List Mention := v.methods.flatMap (Rpc.mentions v.name)

/-- Every place where some messages and services name a type, in order. -/
def mentionsOf (messages : List Message) (services : List Service) : List Mention :=
  messages.flatMap Message.mentions ++ services.flatMap Service.mentions

theorem mem_mentions_of_field {messages : List Message} (services : List Service) {m : Message} {f : Field}
    {t : String} (hm : m ∈ messages) (hf : f ∈ m.fields) (ht : f.typeName = some t) :
    ⟨m.name ++ "." ++ f.name, t, f.type = .enumeration⟩ ∈ mentionsOf messages services := by
  refine List.mem_append_left _ (List.mem_flatMap.mpr ⟨m, hm, List.mem_filterMap.mpr ⟨f, hf, ?_⟩⟩)
  simp [Field.mention?, ht]

/-! ## Meanings -/

inductive Meaning where
  | enumeration
  | wellKnown (path : String)
  | own
  | entity (package name : String)
  deriving DecidableEq

namespace NameScope

/-- What a name without leading dots means where an enumeration is wanted, or a message. -/
inductive Reads (s : NameScope) (name : String) : Bool → Meaning → Prop
  | enumeration : name ∈ s.enums → Reads s name true .enumeration
  | wellKnown {path : String} : name ∉ s.enums → WellKnown.types.get? name = some path →
      Reads s name false (.wellKnown path)
  | own : name ∉ s.enums → WellKnown.types.get? name = none → name ∈ s.messages → Reads s name false .own
  | entity {q t : String} : name ∉ s.enums → WellKnown.types.get? name = none → name ∉ s.messages →
      s.splitName name = (q, t) → s.packages.get? t = some q → Reads s name false (.entity q t)

/-- The file to import for a meaning. -/
def importOf (s : NameScope) : Meaning → Option String
  | .wellKnown path => some path
  | .entity q _ => if q ≠ s.package then some (pathOf q) else none
  | .enumeration | .own => none

/-- The other entity that a meaning refers to. -/
def entityOf (s : NameScope) : Meaning → Option String
  | .entity _ t => if t ≠ s.entity then some t else none
  | .enumeration | .wellKnown _ | .own => none

def record (s : NameScope) (r : References) (m : Meaning) : References :=
  { imports := addAll r.imports (s.importOf m).toList, entities := addAll r.entities (s.entityOf m).toList }

theorem Reads.unique {s : NameScope} {name : String} {wantsEnum : Bool} {m m' : Meaning}
    (h : s.Reads name wantsEnum m) (h' : s.Reads name wantsEnum m') : m = m' := by
  cases h <;> cases h' <;> simp_all

theorem Reads.type_of_wellKnown {s : NameScope} {name path : String} {wantsEnum : Bool}
    (h : s.Reads name wantsEnum (.wellKnown path)) : WellKnown.types.get? name = some path := by
  cases h; assumption

theorem Reads.mem_enums {s : NameScope} {name : String} {m : Meaning} (h : s.Reads name true m) : name ∈ s.enums := by
  cases h; assumption

theorem Reads.not_mem_enums {s : NameScope} {name : String} {m : Meaning} (h : s.Reads name false m) :
    name ∉ s.enums := by
  cases h <;> assumption

theorem Reads.package_of_entity {s : NameScope} {name q t : String} {wantsEnum : Bool}
    (h : s.Reads name wantsEnum (.entity q t)) : s.packages.get? t = some q := by
  cases h; assumption

theorem importOf_entity (s : NameScope) (q t : String) :
    s.importOf (.entity q t) = if q ≠ s.package then some (pathOf q) else none := rfl

theorem entityOf_entity (s : NameScope) (q t : String) :
    s.entityOf (.entity q t) = if t ≠ s.entity then some t else none := rfl

theorem record_entity (s : NameScope) (r : References) (q t : String) :
    s.record r (.entity q t) =
      { imports := if q ≠ s.package then addNew r.imports (pathOf q) else r.imports
        entities := if t ≠ s.entity then addNew r.entities t else r.entities } := by
  have hi : addAll r.imports (s.importOf (.entity q t)).toList =
      if q ≠ s.package then addNew r.imports (pathOf q) else r.imports := by
    rw [importOf_entity]
    split <;> rfl
  have he : addAll r.entities (s.entityOf (.entity q t)).toList =
      if t ≠ s.entity then addNew r.entities t else r.entities := by
    rw [entityOf_entity]
    split <;> rfl
  unfold record
  rw [hi, he]

/-- One name goes through if and only if it has a meaning, and the meaning is recorded. -/
theorem refer_eq_ok {s : NameScope} {r r' : References} {element typeName : String} {wantsEnum : Bool} :
    s.refer r element typeName wantsEnum = .ok r' ↔
      ∃ m, s.Reads (Text.withoutLeadingDots typeName) wantsEnum m ∧ s.record r m = r' := by
  unfold refer
  generalize Text.withoutLeadingDots typeName = name
  constructor
  · intro h
    by_cases he : name ∈ s.enums
    · cases wantsEnum with
      | false => simp [he] at h
      | true =>
        have hr : r = r' := by simpa [he] using h
        exact ⟨.enumeration, .enumeration he, hr⟩
    · cases wantsEnum with
      | true =>
        simp only [List.contains_iff_mem, he, if_false, if_true] at h
        split at h <;> cases h
      | false =>
        simp only [List.contains_iff_mem, he, if_false, Bool.false_eq_true] at h
        split at h
        · rename_i path hw
          cases h
          exact ⟨.wellKnown path, .wellKnown he hw, rfl⟩
        · rename_i hw
          split at h
          · rename_i hm
            cases h
            exact ⟨.own, .own he hw hm, rfl⟩
          · rename_i hm
            split at h
            · rename_i home hp
              split at h
              · rename_i hh
                cases h
                exact ⟨.entity (s.splitName name).1 (s.splitName name).2, .entity he hw hm rfl (by rw [hp, hh]),
                  record_entity s r _ _⟩
              · cases h
            · cases h
  · intro hparts
    obtain ⟨m, hm, rfl⟩ := hparts
    cases hm with
    | enumeration he => simp [he, record, importOf, entityOf, addAll]
    | wellKnown he hw => simp [he, hw, record, importOf, entityOf, addAll]
    | own he hw hm => simp [he, hw, hm, record, importOf, entityOf, addAll]
    | @entity q t he hw hm hs hp =>
      simp only [List.contains_iff_mem, he, if_false, Bool.false_eq_true, hw, hm, hs, hp, if_true, record_entity]

/-! ## Names cut apart -/

/-- A name is split at its last dot, or stands for a message of the package. -/
theorem splitName_cases {s : NameScope} {name q t : String} (h : s.splitName name = (q, t)) :
    (name = q ++ "." ++ t ∧ '.' ∉ t.toList) ∨ (q = s.package ∧ '.' ∉ name.toList) := by
  unfold splitName Text.cutLastDot at h
  cases hcut : Text.cutLast '.' name.toList with
  | none =>
    rw [hcut] at h
    exact .inr ⟨(Prod.mk.inj h).1.symm, Text.cutLast_eq_none.mp hcut⟩
  | some cut =>
    obtain ⟨front, last⟩ := cut
    obtain ⟨hname, hlast⟩ := Text.cutLast_eq_some hcut
    rw [hcut] at h
    obtain ⟨rfl, rfl⟩ := Prod.mk.inj h
    refine .inl ⟨?_, by rwa [String.toList_ofList]⟩
    rw [← String.toList_inj, hname]
    simp

theorem splitName_dotted {s : NameScope} {front last : String} (h : '.' ∉ last.toList) :
    s.splitName (front ++ "." ++ last) = (front, last) := by
  have hlist : (front ++ "." ++ last).toList = front.toList ++ '.' :: last.toList := by simp
  unfold splitName Text.cutLastDot
  rw [hlist, Text.cutLast_append h]
  simp

/-! ## Whole outputs -/

def referTo (s : NameScope) (r : References) (x : Mention) : Except EntityError References :=
  s.refer r x.element x.typeName x.wantsEnum

/-- Resolving an output is referring to its mentions one after another. -/
theorem resolve_eq (s : NameScope) (messages : List Message) (services : List Service) :
    s.resolve messages services = (mentionsOf messages services).foldlM s.referTo {} := by
  have hmessage : ∀ (m : Message) (r : References),
      m.fields.foldlM (s.referField m.name) r = m.mentions.foldlM s.referTo r := by
    intro m r
    unfold Message.mentions
    rw [List.foldlM_filterMap]
    congr 1
    funext r f
    unfold referField Field.mention?
    cases f.typeName <;> rfl
  have hservice : ∀ (v : Service) (r : References),
      v.methods.foldlM (s.referMethod v.name) r = v.mentions.foldlM s.referTo r := by
    intro v r
    unfold Service.mentions
    rw [foldlM_flatMap]
    congr 1
    funext r m
    unfold referMethod Rpc.mentions
    simp only [List.foldlM_cons, List.foldlM_nil, referTo]
    exact bind_congr fun _ => (bind_pure _).symm
  unfold resolve mentionsOf
  rw [List.foldlM_append, foldlM_flatMap]
  simp only [hmessage, hservice, foldlM_flatMap]

/-- What is recorded of some mentions: each has a meaning, and what the meanings import
    and refer to is all there is. -/
structure Records (s : NameScope) (mentions : List Mention) (r : References) : Prop where
  reads : ∀ x ∈ mentions, ∃ m, s.Reads x.name x.wantsEnum m
  imports : ∀ i, i ∈ r.imports ↔ ∃ x ∈ mentions, ∃ m, s.Reads x.name x.wantsEnum m ∧ s.importOf m = some i
  entities : ∀ t, t ∈ r.entities ↔ ∃ x ∈ mentions, ∃ m, s.Reads x.name x.wantsEnum m ∧ s.entityOf m = some t

theorem records_step {s : NameScope} {seen : List Mention} {r r' : References} {x : Mention}
    (h : s.Records seen r) (hx : s.referTo r x = .ok r') : s.Records (seen ++ [x]) r' := by
  obtain ⟨m, hm, rfl⟩ := refer_eq_ok.mp hx
  have hlast : ∀ {P : Meaning → Prop}, (∃ m', s.Reads x.name x.wantsEnum m' ∧ P m') ↔ P m := by
    intro P
    exact ⟨fun ⟨m', hm', hP⟩ => hm'.unique hm ▸ hP, fun hP => ⟨m, hm, hP⟩⟩
  refine ⟨?_, ?_, ?_⟩
  · intro y hy
    rcases List.mem_append.mp hy with hy | hy
    · exact h.reads y hy
    · rw [List.mem_singleton.mp hy]; exact ⟨m, hm⟩
  · intro i
    show i ∈ addAll r.imports _ ↔ _
    rw [mem_addAll, h.imports i, Option.mem_toList]
    simp only [List.mem_append, List.mem_singleton, or_and_right, exists_or, exists_eq_left, hlast]
  · intro t
    show t ∈ addAll r.entities _ ↔ _
    rw [mem_addAll, h.entities t, Option.mem_toList]
    simp only [List.mem_append, List.mem_singleton, or_and_right, exists_or, exists_eq_left, hlast]

theorem records_of_resolve {s : NameScope} {messages : List Message} {services : List Service} {r : References}
    (h : s.resolve messages services = .ok r) : s.Records (mentionsOf messages services) r := by
  rw [resolve_eq] at h
  have hnone : s.Records [] {} := ⟨by simp, by simp, by simp⟩
  exact foldlM_invariant h hnone fun seen r x r' hs hx => records_step hs hx

/-- An output goes through if and only if all that it mentions has a meaning. -/
theorem exists_resolve_iff {s : NameScope} {messages : List Message} {services : List Service} :
    (∃ r, s.resolve messages services = .ok r) ↔
      ∀ x ∈ mentionsOf messages services, ∃ m, s.Reads x.name x.wantsEnum m := by
  constructor
  · intro h
    obtain ⟨r, hr⟩ := h
    exact (records_of_resolve hr).reads
  · intro h
    rw [resolve_eq]
    refine exists_foldlM (fun r x hx => ?_) _
    obtain ⟨m, hm⟩ := h x hx
    exact ⟨_, refer_eq_ok.mpr ⟨m, hm, rfl⟩⟩

/-- The imports are those of the meanings of the mentions, in this order and each once. -/
theorem imports_of_resolve {s : NameScope} {messages : List Message} {services : List Service} {r : References}
    (h : s.resolve messages services = .ok r) :
    ∃ ms, List.Forall₂ (fun x m => s.Reads x.name x.wantsEnum m) (mentionsOf messages services) ms ∧
      r.imports = addAll [] (ms.filterMap s.importOf) := by
  rw [resolve_eq] at h
  refine foldlM_invariant (P := fun seen r => ∃ ms, List.Forall₂ (fun x m => s.Reads x.name x.wantsEnum m) seen ms ∧
    r.imports = addAll [] (ms.filterMap s.importOf)) h ⟨[], .nil, rfl⟩ ?_
  rintro seen r x r' ⟨ms, hms, himports⟩ hx
  obtain ⟨m, hm, rfl⟩ := refer_eq_ok.mp hx
  refine ⟨ms ++ [m], List.rel_append hms (.cons hm .nil), ?_⟩
  have hlast : [m].filterMap s.importOf = (s.importOf m).toList := by
    cases himport : s.importOf m <;> simp [himport]
  rw [List.filterMap_append, addAll_append, hlast, ← himports]
  rfl

end NameScope

end Protograph
