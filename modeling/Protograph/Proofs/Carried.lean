/-
  Protograph.Proofs.Carried — the full type names that the places of a set carry.

  A place is a field of a message, or what a method takes or gives. The names in a file of
  a pool are apart (`nodup_declared`), so a place names one type in it (`carried_of_names`);
  in a set it is the full name of what the name written there stands for
  (`names_canonical`).

  Proved: `carried_iff`. A name that is meant to be found in one of the scopes around its
  place comes to carry that meaning if and only if the file of its unit is in the set, the
  name does not begin with a dot, the meaning is defined, and no scope further in captures
  the name (`DescriptorSet.Captures`).
-/

import Protograph.Proofs.Assembly

namespace Protograph

/-! ## Names in a file -/

theorem Message.fields_sublist (m : Message) (scope : String) :
    (m.fields.map fun f => qualify (qualify scope m.name) f.name).Sublist (m.declared scope) := by
  obtain ⟨name, fields, enums, nested⟩ := m
  rw [Message.declared]
  exact (List.sublist_append_left _ _).cons _

/-- The names that a file of a pool declares are distinct. -/
theorem Pool.nodup_declared {files : List ProtoFile} (h : Accepts files) {f : ProtoFile} (hf : f ∈ files) :
    f.declared.Nodup := by
  have hfile : (claimsOf f).Sublist (files.flatMap claimsOf) := List.sublist_flatten_of_mem (List.mem_map_of_mem hf)
  have hsublist : (f.declared.map (Claim.mk · f.path false)).Sublist (files.flatMap claimsOf) :=
    (List.sublist_append_right _ _).trans hfile
  have hnames := nodup_of_pairwise_shares (h.names.sublist hsublist) (by simp)
  simpa [Function.comp_def] using hnames

/-- Things whose qualified names are distinct have distinct names. -/
theorem nodup_of_qualified {α : Type} {name : α → String} {scope : String} {xs : List α}
    (h : (xs.map fun x => qualify scope (name x)).Nodup) : (xs.map name).Nodup := by
  rw [← Function.comp_def, ← List.map_map] at h
  exact h.of_map

section Distinct

variable {f : ProtoFile} (h : f.declared.Nodup)

include h

theorem nodup_messages : (f.messages.map (·.name)).Nodup := by
  unfold ProtoFile.declared at h
  rw [Message.declaredAll_eq] at h
  exact nodup_of_qualified ((List.nodup_append.mp h).1.sublist
    (map_sublist_flatMap (Message.name_mem_declared · f.package) f.messages))

theorem nodup_message {m : Message} (hm : m ∈ f.messages) : (m.declared f.package).Nodup := by
  unfold ProtoFile.declared at h
  rw [Message.declaredAll_eq] at h
  exact (List.nodup_flatMap.mp (List.nodup_append.mp h).1).1 m hm

theorem nodup_fields {m : Message} (hm : m ∈ f.messages) : (m.fields.map (·.name)).Nodup :=
  nodup_of_qualified ((nodup_message h hm).sublist (m.fields_sublist _))

theorem nodup_services_declared : (f.services.flatMap (Service.declared f.package)).Nodup := by
  unfold ProtoFile.declared at h
  exact (List.nodup_append.mp (List.nodup_append.mp (List.nodup_append.mp h).2.1).2.1).2.1

theorem nodup_services : (f.services.map (·.name)).Nodup :=
  nodup_of_qualified ((nodup_services_declared h).sublist
    (map_sublist_flatMap (Service.name_mem_declared · f.package) f.services))

theorem nodup_methods {s : Service} (hs : s ∈ f.services) : (s.methods.map (·.name)).Nodup :=
  nodup_of_qualified (List.nodup_cons.mp ((List.nodup_flatMap.mp (nodup_services_declared h)).1 s hs)).2

end Distinct

/-! ## Places -/

/-- Where in a package a type is named. -/
inductive Place
  | field (message field : String)
  | input (service method : String)
  | output (service method : String)
  deriving DecidableEq

namespace Place

/-- The scope in which the name is written. -/
def scope (package : String) : Place → String
  | field message _ => qualify package message
  | input _ _ | output _ _ => package

/-- A type that a place in some messages and services names. -/
inductive Names (messages : List Message) (services : List Service) : Place → String → Prop
  | field {m : Message} {f : Field} {t : String} : m ∈ messages → f ∈ m.fields → f.typeName = some t →
      Names messages services (.field m.name f.name) t
  | input {s : Service} {r : Rpc} : s ∈ services → r ∈ s.methods → Names messages services (.input s.name r.name) r.input
  | output {s : Service} {r : Rpc} : s ∈ services → r ∈ s.methods →
      Names messages services (.output s.name r.name) r.output

/-- The type that a place in a file names. -/
def carried (f : ProtoFile) : Place → Option String
  | field message name =>
    (f.messages.find? (·.name == message)).bind fun m => (m.fields.find? (·.name == name)).bind (·.typeName)
  | input service method =>
    (f.services.find? (·.name == service)).bind fun s => (s.methods.find? (·.name == method)).map (·.input)
  | output service method =>
    (f.services.find? (·.name == service)).bind fun s => (s.methods.find? (·.name == method)).map (·.output)

theorem Names.mono {messages messages' : List Message} {services services' : List Service} {place : Place} {t : String}
    (h : Names messages services place t) (hm : ∀ m ∈ messages, m ∈ messages') (hs : ∀ s ∈ services, s ∈ services') :
    Names messages' services' place t := by
  cases h with
  | field hin hf ht => exact .field (hm _ hin) hf ht
  | input hin hr => exact .input (hs _ hin) hr
  | output hin hr => exact .output (hs _ hin) hr

/-- Where names are apart, a place names one type. -/
theorem carried_of_names {f : ProtoFile} (hd : f.declared.Nodup) {place : Place} {t : String}
    (h : place.Names f.messages f.services t) : place.carried f = some t := by
  cases h with
  | field hm hf ht =>
    simp only [carried, find?_of_nodup (nodup_messages hd) hm, Option.bind_some, find?_of_nodup (nodup_fields hd hm) hf, ht]
  | input hs hr =>
    simp only [carried, find?_of_nodup (nodup_services hd) hs, Option.bind_some, find?_of_nodup (nodup_methods hd hs) hr,
      Option.map_some]
  | output hs hr =>
    simp only [carried, find?_of_nodup (nodup_services hd) hs, Option.bind_some, find?_of_nodup (nodup_methods hd hs) hr,
      Option.map_some]

/-- In a canonical file a place names what its name stands for. -/
theorem names_canonical {symbols : Symbols} {file f' : ProtoFile} (h : Assembly.canonicalFile symbols file = .ok f')
    {place : Place} {t : String} (hn : place.Names file.messages file.services t) :
    ∃ s, symbols.resolve (place.scope file.package) t = some s ∧ place.Names f'.messages f'.services ("." ++ s.name) := by
  obtain ⟨_, hmessages, hservices⟩ := Assembly.canonicalFile_eq_ok.mp h
  cases hn with
  | @field m x t hm hx ht =>
    obtain ⟨m', hm', hmessage⟩ := exists_of_forall₂_left hmessages hm
    obtain ⟨hname, _, hfields, _⟩ := Assembly.canonicalMessage_eq_ok.mp hmessage
    obtain ⟨x', hx', hfield⟩ := exists_of_forall₂_left hfields hx
    rcases Assembly.canonicalField_eq_ok.mp hfield with ⟨hnone, _⟩ | ⟨t', s, ht', hs, _, rfl⟩
    · rw [ht] at hnone; cases hnone
    · obtain rfl : _ = t' := Option.some.inj (ht.symm.trans ht')
      have hcarries := @Names.field f'.messages f'.services m' _ _ hm' hx' rfl
      exact ⟨s, hs, hname ▸ hcarries⟩
  | input hs hr =>
    obtain ⟨s', hs', hservice⟩ := exists_of_forall₂_left hservices hs
    obtain ⟨hname, hmethods⟩ := Assembly.canonicalService_eq_ok.mp hservice
    obtain ⟨r', hr', hmethod⟩ := exists_of_forall₂_left hmethods hr
    obtain ⟨s, _, hresolve, _, _, _, rfl⟩ := Assembly.canonicalMethod_eq_ok.mp hmethod
    exact ⟨s, hresolve, hname ▸ .input hs' hr'⟩
  | output hs hr =>
    obtain ⟨s', hs', hservice⟩ := exists_of_forall₂_left hservices hs
    obtain ⟨hname, hmethods⟩ := Assembly.canonicalService_eq_ok.mp hservice
    obtain ⟨r', hr', hmethod⟩ := exists_of_forall₂_left hmethods hr
    obtain ⟨_, s, _, _, hresolve, _, rfl⟩ := Assembly.canonicalMethod_eq_ok.mp hmethod
    exact ⟨s, hresolve, hname ▸ .output hs' hr'⟩

end Place

/-! ## Sets -/

namespace DescriptorSet

/-- The type that a place in the file of a package names. -/
def carried (set : DescriptorSet) (package : String) (place : Place) : Option String :=
  (set.files.find? (·.package == package)).bind fun f => place.carried f

/-- The set has a message or an enumeration of the full name. -/
def Defines (set : DescriptorSet) (name : String) : Prop := name ∈ Symbols.names (Assembly.symbolsOf set.all)

/-- Between a scope and one of those around it something else has the name. -/
def Captures (set : DescriptorSet) (scope home name : String) : Prop :=
  ∃ inner ∈ enclosingScopes scope, home.length < inner.length ∧ set.Defines (qualify inner name)

end DescriptorSet

namespace Assembly

variable {units : List PackageUnit} {set : DescriptorSet}

/-- The files of a set are canonical with the symbols of the whole set, in an order of imports. -/
theorem canonical_files (h : assemble units = .ok set) : ∃ order, ImportOrder.order units = .ok order ∧
    List.Forall₂ (fun f f' => canonicalFile (symbolsOf set.all) f = .ok f') (filesAt units order) set.files := by
  obtain ⟨_, order, horder, _, hwellKnown, hfiles, _⟩ := assemble_eq_ok.mp h
  have hsymbols : symbolsOf set.all = symbolsOf (standing units ++ filesAt units order) := by
    rw [DescriptorSet.all, hwellKnown]
    exact symbolsOf_alike (hfiles.imp fun _ _ => alike_canonical)
  exact ⟨order, horder, hsymbols ▸ hfiles⟩

/-- A file of a set is the canonical one of a unit. -/
theorem canonical_of_mem (h : assemble units = .ok set) {f : ProtoFile} (hf : f ∈ set.files) :
    f.declared.Nodup ∧ ∃ u ∈ units, canonicalFile (symbolsOf set.all) u.toFile = .ok f := by
  obtain ⟨_, _, _, _, _, _, hpool⟩ := assemble_eq_ok.mp h
  obtain ⟨_, _, hfiles⟩ := canonical_files h
  obtain ⟨f₀, hf₀, hcanonical⟩ := exists_of_forall₂_right hfiles hf
  obtain ⟨u, hu, rfl⟩ := exists_of_mem_filesAt hf₀
  exact ⟨Pool.nodup_declared hpool (List.mem_append_right _ hf), u, hu, hcanonical⟩

/-- A name that begins with a dot stands for no longer name. -/
theorem ne_of_startsWithDot {symbols : Symbols} {scope t : String} {s : Symbol} (hdot : Text.startsWithDot t = true)
    (hs : symbols.resolve scope t = some s) (home : String) : s.name ≠ qualify home t := by
  unfold Symbols.resolve at hs
  split at hs
  · rename_i full hfull
    have hname : s.name = String.ofList full := by simpa [Symbols.find?] using List.find?_some hs
    have hle : t.length ≤ (qualify home t).length := by
      unfold qualify
      split <;> simp
    intro he
    rw [← he, hname, ← String.length_toList, hfull] at hle
    simp only [List.length_cons, String.length_ofList] at hle
    omega
  · rename_i hno
    unfold Text.startsWithDot at hdot
    cases ht : t.toList with
    | nil => simp [ht] at hdot
    | cons c cs =>
      obtain rfl : c = '.' := by simpa [ht] using hdot
      exact absurd ht (hno cs)

/-- A set carries nothing for a package without a file in it. -/
theorem carried_eq_none {package : String} (h : ¬ ∃ f ∈ set.files, f.package = package) (place : Place) :
    set.carried package place = none := by
  have hnone : set.files.find? (·.package == package) = none := by
    rw [List.find?_eq_none]
    intro f hf hp
    exact h ⟨f, hf, eq_of_beq hp⟩
  unfold DescriptorSet.carried
  rw [hnone, Option.bind_none]

/-- Where the file is in the set, a place carries the full name of what its name stands for. -/
theorem carried_resolved (h : assemble units = .ok set) (hpackages : (units.map (·.package)).Nodup) {u : PackageUnit}
    (hu : u ∈ units) {place : Place} {t : String} (hnames : place.Names u.messages u.services t)
    (hfile : ∃ f ∈ set.files, f.package = u.package) :
    ∃ s, (symbolsOf set.all).resolve (place.scope u.package) t = some s ∧
      set.carried u.package place = some ("." ++ s.name) := by
  cases hfind : set.files.find? (·.package == u.package) with
  | none =>
    obtain ⟨f, hf, hp⟩ := hfile
    exact absurd (beq_iff_eq.mpr hp) (List.find?_eq_none.mp hfind f hf)
  | some f =>
    have hf : f ∈ set.files := List.mem_of_find?_eq_some hfind
    have hpackage : f.package = u.package := eq_of_beq (List.find?_some hfind :)
    obtain ⟨hdeclared, v, hv, hcanonical⟩ := canonical_of_mem h hf
    obtain ⟨hsame, _, _⟩ := canonicalFile_eq_ok.mp hcanonical
    obtain rfl : v = u := by
      refine List.inj_on_of_nodup_map hpackages hv hu ?_
      rw [← hpackage, hsame]
      rfl
    obtain ⟨s, hs, hcarries⟩ := Place.names_canonical hcanonical hnames
    refine ⟨s, hs, ?_⟩
    unfold DescriptorSet.carried
    rw [hfind, Option.bind_some, Place.carried_of_names hdeclared hcarries]

/-- A name that is meant to be found in one of the scopes around its place is found there
    if and only if the file is in the set, the name does not begin with a dot, and the name
    is defined there and not captured on the way. -/
theorem carried_iff (h : assemble units = .ok set) (hpackages : (units.map (·.package)).Nodup) {u : PackageUnit}
    (hu : u ∈ units) {place : Place} {home t : String} (hnames : place.Names u.messages u.services t)
    (hhome : home ∈ enclosingScopes (place.scope u.package)) :
    set.carried u.package place = some ("." ++ qualify home t) ↔
      (∃ f ∈ set.files, f.package = u.package) ∧ Text.startsWithDot t = false ∧ set.Defines (qualify home t) ∧
        ¬ set.Captures (place.scope u.package) home t := by
  by_cases hfile : ∃ f ∈ set.files, f.package = u.package
  · obtain ⟨s, hs, hcarried⟩ := carried_resolved h hpackages hu hnames hfile
    rw [hcarried, Option.some_inj, String.append_right_inj]
    cases hdot : Text.startsWithDot t with
    | true =>
      simp [ne_of_startsWithDot hdot hs home]
    | false =>
      have hmeaning := Symbols.resolves_iff (t := symbolsOf set.all) hdot hhome
      simp only [hs, Option.some_inj, exists_eq_left'] at hmeaning
      simp only [hfile, hmeaning, DescriptorSet.Defines, DescriptorSet.Captures, true_and, not_exists, not_and]
  · simp [carried_eq_none hfile, hfile]

end Assembly

end Protograph
