/-
  Protograph.Proofs.Imports — what the units of a compiled graph import, and why.

  An output uses messages: those that its fields hold, and those that go in and come out of
  its methods (`EntityOutput.uses`). Each of them is read before it is known what will fail,
  and leads to a file or to none. What is generated in the end refers to nothing that failed,
  so that no import is left of what failed, and each is accounted for by the outcomes of the
  entities (`importOf_eq`).

  Proved, for every graph:
  - `imports_iff`: a unit imports, in the order of first use and each once, the files of the
    well-known messages and of the generated entities of other packages that its own
    entities use. These are well-known files and units, so that no unknown file is found.
    Where units have paths of their own, nothing else is imported but the files of own
    messages of an entity that are named like well-known ones.
  - `own_imported`: there are such messages.
-/

import Protograph.Proofs.Capture
import Protograph.Proofs.Retention

namespace Protograph

/-! ## Uses -/

/-- The names of the messages that the fields of a message hold. -/
def Message.uses (m : Message) : List String := m.fields.filterMap fun f => if f.type = .message then f.typeName else none

/-- The messages that an output uses, without leading dots: those of fields, then those of
    methods. -/
def EntityOutput.uses (o : EntityOutput) : List String :=
  (o.messages.flatMap Message.uses ++ o.services.flatMap fun v => v.methods.flatMap fun r => [r.input, r.output]).map
    Text.withoutLeadingDots

/-- The message has the name of one of the output's own. -/
def EntityOutput.Owns (o : EntityOutput) (name : String) : Prop := name ∈ o.messages.map (·.name)

instance (o : EntityOutput) (name : String) : Decidable (o.Owns name) :=
  inferInstanceAs (Decidable (name ∈ o.messages.map (·.name)))

/-- A field made of a type mentions one, and no enumeration, if and only if it holds a message. -/
theorem mention?_eq {f : Field} (h : f.Made) (message : String) :
    ((f.mention? message).filter (!·.wantsEnum)).map Mention.name =
      (if f.type = .message then f.typeName else none).map Text.withoutLeadingDots := by
  cases hname : f.typeName with
  | none => simp [Field.mention?, hname]
  | some t =>
    have hnamed : f.type.isNamed = true := h.isNamed_iff.mpr (by rw [hname]; rfl)
    have hkinds : f.type = .message ∨ f.type = .enumeration := by simpa [FieldType.isNamed] using hnamed
    rcases hkinds with hkind | hkind <;> simp [Field.mention?, hname, hkind, Mention.name]

theorem Message.uses_eq {m : Message} (h : ∀ f ∈ m.fields, f.Made) :
    (m.mentions.filter (!·.wantsEnum)).map Mention.name = m.uses.map Text.withoutLeadingDots := by
  rw [mentions, uses, List.filter_filterMap, List.map_filterMap, List.map_filterMap]
  exact List.filterMap_congr fun f hf => mention?_eq (h f hf) m.name

theorem Service.uses_eq (v : Service) : (v.mentions.filter (!·.wantsEnum)).map Mention.name =
    (v.methods.flatMap fun r => [r.input, r.output]).map Text.withoutLeadingDots := by
  rw [mentions, List.filter_flatMap, List.map_flatMap, List.map_flatMap]
  rfl

/-- The uses of an output are its mentions that want no enumeration. -/
theorem uses_eq {o : EntityOutput} (h : ∀ m ∈ o.messages, ∀ f ∈ m.fields, f.Made) :
    ((mentionsOf o.messages o.services).filter (!·.wantsEnum)).map Mention.name = o.uses := by
  have hmessages : (o.messages.flatMap fun m => (m.mentions.filter (!·.wantsEnum)).map Mention.name) =
      o.messages.flatMap fun m => m.uses.map Text.withoutLeadingDots :=
    List.flatMap_congr fun m hm => Message.uses_eq (h m hm)
  rw [mentionsOf, EntityOutput.uses, List.filter_append, List.map_append, List.map_append, List.filter_flatMap,
    List.map_flatMap, List.filter_flatMap, List.map_flatMap, hmessages, List.map_flatMap, List.map_flatMap]
  simp only [Service.uses_eq]

/-! ## Reasons to import -/

namespace Compiled

/-- The file that an output makes its package import for a message: that of a well-known one,
    or that of a generated entity of another package, if the message is not its own. -/
def importFor? (c : Compiled) (o : EntityOutput) (name : String) : Option String :=
  match WellKnown.types.get? name with
  | some path => some path
  | none =>
    if o.Owns name then none
    else (Text.cutLastDot name).bind fun (q, t) =>
      if q ≠ o.package ∧ (c.status? t).bind Status.package? = some q then some (pathOf q) else none

/-- The name is that of a well-known message of the file, or that of an entity generated in
    another package whose file it is. -/
def Leads (c : Compiled) (package name path : String) : Prop :=
  WellKnown.types.get? name = some path ∨
    ∃ q t, name = q ++ "." ++ t ∧ q ≠ package ∧ c.status? t = some (.generated q) ∧ pathOf q = path

end Compiled

open Compilation in
/-- What a unit imports. -/
structure Compiled.ImportsUsed (c : Compiled) (graph : Graph) (standard : String) (u : PackageUnit) : Prop where
  distinct : u.imports.Nodup
  /-- The files come in the order of first use by the entities, in the order of the graph. -/
  ordered : ∃ outs, List.Forall₂ (Gives graph standard u.package) (c.generatedIn graph u.package) outs ∧
    u.imports = addAll [] (outs.flatMap fun o => o.uses.filterMap (c.importFor? o))
  /-- Where units have paths of their own, no file is missing and none is in vain, but for
      own messages with the names of well-known ones. -/
  exact : (c.units.map (·.path)).Nodup → ∀ i, i ∈ u.imports ↔
    ∃ e ∈ c.generatedIn graph u.package, ∃ o, Gives graph standard u.package e o ∧
      ∃ name ∈ o.uses, c.Leads u.package name i ∧ (o.Owns name → WellKnown.types.get? name = some i)
  known : ∀ i ∈ u.imports, i ∈ WellKnown.paths ∨ i ∈ c.units.map (·.path)

namespace Compilation

variable {graph : Graph} {standard : String} {c : Compiled} {e : Entity} {o : EntityOutput}

theorem status_eq_some {t q : String} :
    (c.status? t).bind Status.package? = some q ↔ c.status? t = some (.generated q) :=
  Compiled.packageOf?_eq_some (e := { name := t })

/-- An entity gives one output. -/
theorem Gives.unique {p : String} {o' : EntityOutput} (h : Gives graph standard p e o) (h' : Gives graph standard p e o') :
    o = o' := by
  obtain ⟨hhome, ⟨own, brought, hown, hservice, hmessages⟩, hreferences⟩ := h
  obtain ⟨hhome', ⟨own', brought', hown', hservice', hmessages'⟩, hreferences'⟩ := h'
  obtain rfl : own = own' := Except.ok.inj (hown.symm.trans hown')
  obtain ⟨hservices, rfl⟩ := Prod.mk.inj (Except.ok.inj (hservice.symm.trans hservice'))
  obtain ⟨package, messages, services, references⟩ := o
  obtain ⟨package', messages', services', references'⟩ := o'
  obtain rfl : package = package' := hhome.trans hhome'.symm
  obtain rfl : messages = messages' := hmessages.trans hmessages'.symm
  obtain rfl : services = services' := hservices
  obtain rfl : references = references' := Except.ok.inj (hreferences.symm.trans hreferences')
  rfl

/-- What a generated entity gives is what it has settled with. -/
theorem settled_of_gives (h : compile graph standard = .ok c) {p : String} (he : e ∈ c.generatedIn graph p)
    (hgives : Gives graph standard p e o) : (e.name, .ok o) ∈ settled graph standard := by
  obtain ⟨hin, hpackage⟩ := List.mem_filter.mp he
  obtain ⟨o', ho', rfl⟩ := (status_generated_iff h).mp (Compiled.packageOf?_eq_some.mp (of_decide_eq_true hpackage))
  rw [hgives.unique (gives_of_settled hin ho')]
  exact ho'

/-! ## Imports of uses -/

/-- The entity that a settled output reads a name as is generated in the package read. -/
theorem status_of_reads (h : compile graph standard = .ok c) (he : e ∈ graph.entities)
    (ho : (e.name, .ok o) ∈ settled graph standard) {x : Mention} (hx : x ∈ mentionsOf o.messages o.services) {q t : String}
    (hread : (o.scope e.name (packagesOf graph standard)).Reads x.name x.wantsEnum (.entity q t)) :
    c.status? t = some (.generated q) :=
  (status_generated_iff h).mpr (settled_of_reads_entity ho he hx hread)

/-- A mention is imported for as what it means, once everything has come out. -/
theorem importOf_eq (h : compile graph standard = .ok c) (he : e ∈ graph.entities)
    (ho : (e.name, .ok o) ∈ settled graph standard) {x : Mention} (hx : x ∈ mentionsOf o.messages o.services) {m : Meaning}
    (hread : (o.scope e.name (packagesOf graph standard)).Reads x.name x.wantsEnum m) :
    (o.scope e.name (packagesOf graph standard)).importOf m = if x.wantsEnum then none else c.importFor? o x.name := by
  have hsettled := fun {q t} => status_of_reads (q := q) (t := t) h he ho hx
  generalize x.name = name at *
  generalize x.wantsEnum = wantsEnum at *
  cases hread with
  | enumeration _ => rfl
  | wellKnown _ hwell => simp [Compiled.importFor?, NameScope.importOf, hwell]
  | own _ hwell hown =>
    have hown : o.Owns name := hown
    simp [Compiled.importFor?, NameScope.importOf, hwell, hown]
  | @entity q t henum hwell hown hsplit hpackage =>
    have hstatus := status_eq_some.mpr (hsettled (.entity henum hwell hown hsplit hpackage))
    have hown : ¬ o.Owns name := hown
    simp only [Compiled.importFor?, hwell, if_neg hown, NameScope.importOf_entity, Bool.false_eq_true, if_false]
    cases hcut : Text.cutLastDot name with
    | none =>
      -- the name stands for a message of the same package
      have hsame : (o.package, name) = (q, t) := by rw [← hsplit, NameScope.splitName, hcut]; rfl
      have hhome : q = o.package := (Prod.mk.inj hsame).1.symm
      exact if_neg (not_not.mpr hhome)
    | some cut =>
      obtain rfl : cut = (q, t) := by rw [← hsplit, NameScope.splitName, hcut]; rfl
      simp only [Option.bind_some, hstatus, and_true]
      rfl

/-- The imports of an output are for its uses. -/
theorem imports_of_settled (h : compile graph standard = .ok c) (he : e ∈ graph.entities)
    (ho : (e.name, .ok o) ∈ settled graph standard) :
    o.references.imports = addAll [] (o.uses.filterMap (c.importFor? o)) := by
  have hbuilt := buildEntity_of_settled he ho
  obtain ⟨_, _, _, _, _, _, hresolve⟩ := buildEntity_ok hbuilt
  obtain ⟨ms, hreads, himports⟩ := NameScope.imports_of_resolve hresolve
  have hmeanings : ms.filterMap (o.scope e.name (packagesOf graph standard)).importOf =
      (mentionsOf o.messages o.services).filterMap fun x => if x.wantsEnum then none else c.importFor? o x.name := by
    refine filterMap_eq_of_forall₂ ((forall₂_mem hreads).imp ?_)
    rintro x m ⟨hx, _, hread⟩
    exact importOf_eq h he ho hx hread
  rw [himports, hmeanings, ← uses_eq fun m hm => made_of_buildEntity hbuilt hm, List.filterMap_map, List.filterMap_filter]
  congr 2
  funext x
  cases x.wantsEnum <;> rfl

/-- The imports of a unit are for the uses of its entities. -/
theorem imports_of_uses (h : compile graph standard = .ok c) {u : PackageUnit} (hu : u ∈ c.units) :
    ∃ outs, List.Forall₂ (Gives graph standard u.package) (c.generatedIn graph u.package) outs ∧
      u.imports = addAll [] (outs.flatMap fun o => o.uses.filterMap (c.importFor? o)) := by
  obtain ⟨outs, hgives, _, _, himports⟩ := contents_of_unit h hu
  refine ⟨outs, hgives, ?_⟩
  have hsame : (outs.flatMap fun o => o.references.imports) =
      outs.flatMap fun o => addAll [] (o.uses.filterMap (c.importFor? o)) := by
    refine List.flatMap_congr fun o ho => ?_
    obtain ⟨e, hin, hgive⟩ := exists_of_forall₂_right hgives ho
    exact imports_of_settled h (List.mem_of_mem_filter hin) (settled_of_gives h hin hgive)
  rw [himports, hsame, addAll_flatMap]

/-! ## Uses where paths are distinct -/

/-- The message of a generated entity claims its full name. -/
theorem claim_of_generated (h : compile graph standard = .ok c) {t q : String} (hgen : c.status? t = some (.generated q)) :
    (⟨qualify q t, pathOf q, false⟩ : Pool.Claim) ∈ c.sources.flatMap Pool.claimsOf := by
  obtain ⟨e, he, rfl⟩ := entity_of_status h hgen
  obtain ⟨u, hu, rfl, o, hgives, hmessages, _⟩ := unit_of_generated h he hgen
  obtain ⟨m, hm, hname⟩ := primary_of_gives hgives
  exact hname ▸ claim_of_message hu (hmessages m hm)

/-- A well-known message claims its full name. -/
theorem claim_of_wellKnown {name path : String} (h : WellKnown.types.get? name = some path) :
    (⟨name, path, false⟩ : Pool.Claim) ∈ c.sources.flatMap Pool.claimsOf := by
  have hall : ∀ entry ∈ WellKnown.types, ∃ f ∈ WellKnown.files, f.path = entry.2 ∧ entry.1 ∈ f.declared := by
    decide +kernel
  obtain ⟨f, hf, rfl, hname⟩ := hall _ (Table.mem_of_get? h)
  exact List.mem_flatMap.mpr ⟨f, List.mem_append_left _ hf, List.mem_append_right _ (List.mem_map_of_mem hname)⟩

/-- Where units have paths of their own, a message has one file. -/
theorem file_of_claims (h : compile graph standard = .ok c) (hpaths : (c.units.map (·.path)).Nodup) {name file file' : String}
    (hfile : (⟨name, file, false⟩ : Pool.Claim) ∈ c.sources.flatMap Pool.claimsOf)
    (hfile' : (⟨name, file', false⟩ : Pool.Claim) ∈ c.sources.flatMap Pool.claimsOf) : file = file' := by
  by_contra hne
  have hboth := isPackage_of_claims h hpaths hfile hfile' (fun heq => hne (Pool.Claim.mk.inj heq).2.1) rfl
  cases hboth.1

/-- Where units have paths of their own, a full name is that of one generated entity. -/
theorem generated_of_qualify (h : compile graph standard = .ok c) (hpaths : (c.units.map (·.path)).Nodup)
    {q t q' t' : String} (hgen : c.status? t = some (.generated q)) (hgen' : c.status? t' = some (.generated q'))
    (hname : qualify q t = qualify q' t') : q = q' ∧ t = t' := by
  obtain ⟨e, he, rfl⟩ := entity_of_status h hgen
  obtain ⟨e', he', rfl⟩ := entity_of_status h hgen'
  obtain ⟨u, hu, rfl, _⟩ := unit_of_generated h he hgen
  obtain ⟨u', hu', rfl, _⟩ := unit_of_generated h he' hgen'
  have hpath : u.path = u'.path := file_of_claims h hpaths (claim_of_generated h hgen) (hname ▸ claim_of_generated h hgen')
  obtain rfl : u = u' := List.inj_on_of_nodup_map hpaths hu hu' hpath
  exact ⟨rfl, qualify_right_inj.mp hname⟩

theorem qualify_of_relative {q t : String} (h : Text.startsWithDot (q ++ "." ++ t) = false) : qualify q t = q ++ "." ++ t :=
  if_neg ((Text.startsWithDot_dotted_iff q t).mp h).1

/-- What is imported for a use is what the use leads to, where units have paths of their own,
    unless the message is the entity's and not named like a well-known one. -/
theorem importFor?_eq_some_iff (h : compile graph standard = .ok c) (hpaths : (c.units.map (·.path)).Nodup)
    (he : e ∈ graph.entities) (ho : (e.name, .ok o) ∈ settled graph standard) {name : String} (hname : name ∈ o.uses)
    {i : String} :
    c.importFor? o name = some i ↔ c.Leads o.package name i ∧ (o.Owns name → WellKnown.types.get? name = some i) := by
  have hbuilt := buildEntity_of_settled he ho
  rw [← uses_eq fun m hm => made_of_buildEntity hbuilt hm] at hname
  obtain ⟨x, hx, rfl⟩ := List.mem_map.mp hname
  obtain ⟨hx, hwants⟩ := List.mem_filter.mp hx
  have hwants : x.wantsEnum = false := by simpa using hwants
  have hrelative : Text.startsWithDot x.name = false := Text.startsWithDot_withoutLeadingDots _
  obtain ⟨m, hread⟩ := (records_of_buildEntity hbuilt).reads x hx
  have himport := importOf_eq h he ho hx hread
  have hsettled := fun {q t} => status_of_reads (q := q) (t := t) h he ho hx
  rw [hwants, if_neg Bool.false_ne_true] at himport
  rw [hwants] at hread hsettled
  rw [← himport]
  generalize x.name = name at *
  cases hread with
  | wellKnown henum hwell =>
    constructor
    · intro hi
      obtain rfl := Option.some.inj hi
      exact ⟨.inl hwell, fun _ => hwell⟩
    · rintro ⟨hwell' | ⟨q, t, rfl, _, hgen, rfl⟩, _⟩
      · exact hwell.symm.trans hwell'
      · -- the entity would have the full name of the well-known message
        have hclaim := claim_of_generated h hgen
        rw [qualify_of_relative hrelative] at hclaim
        exact congrArg some (file_of_claims h hpaths (claim_of_wellKnown hwell) hclaim)
  | own henum hwell hown =>
    have hown : o.Owns name := hown
    constructor
    · intro hi
      cases hi
    · rintro ⟨_, hwell'⟩
      cases hwell.symm.trans (hwell' hown)
  | @entity q t henum hwell hown hsplit hpackage =>
    have hown : ¬ o.Owns name := hown
    have hgen := hsettled (.entity henum hwell hown hsplit hpackage)
    rw [NameScope.importOf_entity]
    constructor
    · intro hi
      split at hi
      · rename_i hne
        obtain rfl := Option.some.inj hi
        rcases NameScope.splitName_cases hsplit with ⟨hname, _⟩ | ⟨hhome, _⟩
        · exact ⟨.inr ⟨q, t, hname, hne, hgen, rfl⟩, fun hin => absurd hin hown⟩
        · exact absurd hhome hne
      · cases hi
    · rintro ⟨hwell' | ⟨q', t', rfl, hne, hgen', rfl⟩, _⟩
      · cases hwell.symm.trans hwell'
      · have hfull : q' ++ "." ++ t' = q ++ "." ++ t := by
          rcases NameScope.splitName_cases hsplit with ⟨hname, _⟩ | ⟨_, hdot⟩
          · exact hname
          · exact absurd (by simp) hdot
        have hsame : qualify q' t' = qualify q t := by
          rw [qualify_of_relative hrelative, hfull, qualify_of_relative (hfull ▸ hrelative)]
        obtain ⟨rfl, rfl⟩ := generated_of_qualify h hpaths hgen' hgen hsame
        exact if_pos hne

theorem importsUsed (h : compile graph standard = .ok c) {u : PackageUnit} (hu : u ∈ c.units) :
    c.ImportsUsed graph standard u := by
  obtain ⟨outs, hgives, himports⟩ := imports_of_uses h hu
  have hunits : c.units = unitsOf graph standard := (compile_ok h).1
  refine ⟨himports ▸ nodup_addAll List.nodup_nil _, ⟨outs, hgives, himports⟩, fun hpaths i => ?_, ?_⟩
  · have hmem : i ∈ u.imports ↔ ∃ o ∈ outs, ∃ name ∈ o.uses, c.importFor? o name = some i := by
      simp [himports, mem_addAll]
    have hreason : ∀ e ∈ c.generatedIn graph u.package, ∀ o, Gives graph standard u.package e o → ∀ name ∈ o.uses,
        (c.importFor? o name = some i ↔
          c.Leads u.package name i ∧ (o.Owns name → WellKnown.types.get? name = some i)) := by
      intro e he o hgive name hname
      rw [← hgive.home]
      exact importFor?_eq_some_iff h hpaths (List.mem_of_mem_filter he) (settled_of_gives h he hgive) hname
    rw [hmem]
    constructor
    · rintro ⟨o, ho, name, hname, hi⟩
      obtain ⟨e, he, hgive⟩ := exists_of_forall₂_right hgives ho
      exact ⟨e, he, o, hgive, name, hname, (hreason e he o hgive name hname).mp hi⟩
    · rintro ⟨e, he, o, hgive, name, hname, hi⟩
      obtain ⟨o', ho', hgive'⟩ := exists_of_forall₂_left hgives he
      obtain rfl := hgive.unique hgive'
      exact ⟨o, ho', name, hname, (hreason e he o hgive name hname).mpr hi⟩
  · rw [hunits] at hu ⊢
    exact importsKnown_unitsOf graph standard u hu

/-- Of no graph a unit imports an unknown file. If the graph compiles, every unit imports what
    its entities use. -/
theorem imports_iff (graph : Graph) (standard : String) :
    (∀ u ∈ unitsOf graph standard, Assembly.checkImports (unitsOf graph standard) u = .ok ()) ∧
      ∀ c, compile graph standard = .ok c → ∀ u ∈ c.units, c.ImportsUsed graph standard u := by
  refine ⟨fun u hu => Assembly.checkImports_eq_ok.mpr (importsKnown_unitsOf graph standard u hu), ?_⟩
  exact fun c hc u hu => importsUsed hc hu

/-! ## An own message that is imported -/

/-- An entity with the name of a well-known message, which one of its fields holds. -/
def stampEntity : Entity :=
  { name := "google.protobuf.Timestamp"
    fields := [{ name := "at", kind := .time, annotations := { field := some { number := 2 } } }]
    annotations := { message := some { package := some "shop" } } }

def stampGraph : Graph := ⟨[stampEntity], by decide⟩

theorem compile_stampGraph : ∃ c, compile stampGraph standardPackage = .ok c ∧
    c.units.map (fun u => (u.package, u.imports)) = [("shop", ["google/protobuf/timestamp.proto"])] := by
  have h : (compileApart stampGraph standardPackage).toOption.any (fun c => Assembly.namesApart c.set &&
      decide (c.units.map (fun u => (u.package, u.imports)) = [("shop", ["google/protobuf/timestamp.proto"])])) = true := by
    decide +kernel
  obtain ⟨c, hc, himports⟩ := exists_compiled_of_apart h
  exact ⟨c, hc, of_decide_eq_true himports⟩

theorem imports_iff_stampGraph : ∃ c, compile stampGraph standardPackage = .ok c ∧
    c.units ≠ [] ∧ ∀ u ∈ c.units, c.ImportsUsed stampGraph standardPackage u := by
  obtain ⟨c, hc, himports⟩ := compile_stampGraph
  refine ⟨c, hc, ?_, (imports_iff stampGraph standardPackage).2 c hc⟩
  rintro hnone
  rw [hnone] at himports
  cases himports

/-- All that the entity uses is its own. -/
theorem owns_of_stampEntity {o : EntityOutput} (h : Gives stampGraph standardPackage "shop" stampEntity o) :
    ∀ name ∈ o.uses, o.Owns name := by
  obtain ⟨own, brought, hown, hservice, hmessages⟩ := h.messages
  have hnone : serviceOf stampEntity = .ok ([], []) := rfl
  obtain ⟨hservices, rfl⟩ := Prod.mk.inj (Except.ok.inj (hnone.symm.trans hservice))
  have hbuilt : (buildMessages stampEntity "shop" stampGraph (packagesOf stampGraph standardPackage)).toOption.all (fun own =>
      decide (∀ name ∈ (own.flatMap Message.uses).map Text.withoutLeadingDots, name ∈ own.map (·.name))) = true := by
    decide +kernel
  rw [hown] at hbuilt
  rw [List.append_nil] at hmessages
  intro name hname
  rw [EntityOutput.uses, ← hservices, hmessages, List.flatMap_nil, List.append_nil] at hname
  rw [EntityOutput.Owns, hmessages]
  exact of_decide_eq_true hbuilt name hname

/-- A unit may import a file for a message of its own. -/
theorem own_imported : ¬ ∀ (graph : Graph) (standard : String) (c : Compiled), compile graph standard = .ok c →
    ∀ u ∈ c.units, ∀ i ∈ u.imports, ∃ e ∈ c.generatedIn graph u.package, ∃ o, Gives graph standard u.package e o ∧
      ∃ name ∈ o.uses, ¬ o.Owns name ∧ c.Leads u.package name i := by
  intro hall
  obtain ⟨c, hc, himports⟩ := compile_stampGraph
  have hunit : ("shop", ["google/protobuf/timestamp.proto"]) ∈ c.units.map (fun u => (u.package, u.imports)) := by
    simp [himports]
  obtain ⟨u, hu, hpair⟩ := List.mem_map.mp hunit
  obtain ⟨hpackage, hlist⟩ := Prod.mk.inj hpair
  obtain ⟨e, he, o, hgives, name, hname, hown, _⟩ := hall _ _ c hc u hu _ (hlist ▸ List.mem_cons_self)
  obtain rfl : e = stampEntity := List.mem_singleton.mp (List.mem_of_mem_filter he)
  exact hown (owns_of_stampEntity (hpackage ▸ hgives) name hname)

end Compilation

end Protograph
