/-
  Protograph.Proofs.Grouping — what the units of a compiled graph hold, said by the outcomes
  of its entities.

  The keys of a table of outputs come in the order of the graph (`keys_settled_sublist`), and
  a list of names in that order is given by which names are in it (`eq_filter_of_sublist`).
  So the entities of a unit are those generated in its package (`entities_of_unit`), and what
  they give is what is built for each of them (`gives_within`).

  Proved: `units_hold_survivors`. Every entity has one outcome; there is one unit for each
  package of a generated entity, in the order of the first of them, and it is not empty; and
  a unit holds the entities generated in its package with what each of them gives, in the
  order of the graph, and nothing else.
-/

import Protograph.Proofs.Evaluation
import Protograph.Proofs.Outputs

namespace Protograph

/-! ## Outcomes -/

/-- The package in which an entity of this outcome is generated. -/
def Status.package? : Status → Option String
  | .generated package => some package
  | .skipped | .failed _ => none

namespace Compiled

/-- The package in which an entity is generated, if it is. -/
def packageOf? (c : Compiled) (e : Entity) : Option String := (c.status? e.name).bind Status.package?

/-- The entities generated in a package, in the order of the graph. -/
def generatedIn (c : Compiled) (graph : Graph) (package : String) : List Entity :=
  graph.entities.filter fun e => c.packageOf? e = some package

theorem packageOf?_eq_some {c : Compiled} {e : Entity} {package : String} :
    c.packageOf? e = some package ↔ c.status? e.name = some (.generated package) := by
  unfold packageOf?
  rcases c.status? e.name with _ | status
  · simp
  · cases status <;> simp [Status.package?]

end Compiled

namespace Compilation

/-- What an entity gives to the unit of a package: its own messages, then those that its
    service brings along, its service, and what all of these refer to. -/
structure Gives (graph : Graph) (standard package : String) (e : Entity) (o : EntityOutput) : Prop where
  home : o.package = package
  messages : ∃ own brought, buildMessages e package graph (packagesOf graph standard) = .ok own ∧
    serviceOf e = .ok (o.services, brought) ∧ o.messages = own ++ brought
  references : (o.scope e.name (packagesOf graph standard)).resolve o.messages o.services = .ok o.references

end Compilation

open Compilation in
/-- Units that hold what the generated entities of a graph give, and nothing else. -/
structure Compiled.HoldsSurvivors (c : Compiled) (graph : Graph) (standard : String) : Prop where
  /-- Every entity has one outcome, in the order of the graph. -/
  outcomes : c.statuses.keys = graph.entities.map (·.name)
  /-- One unit for each package, in the order of the first entity generated in it. -/
  packages : c.units.map (·.package) = addAll [] (graph.entities.filterMap c.packageOf?)
  nonempty : ∀ u ∈ c.units, u.entities ≠ [] ∧ u.messages ≠ []
  entities : ∀ u ∈ c.units, u.entities = (c.generatedIn graph u.package).map (·.name)
  contents : ∀ u ∈ c.units, ∃ outs, List.Forall₂ (Gives graph standard u.package) (c.generatedIn graph u.package) outs ∧
    u.messages = outs.flatMap (·.messages) ∧ u.services = outs.flatMap (·.services) ∧
    u.imports = addAll [] (outs.flatMap (·.references.imports))

/-! ## Lists in one order -/

/-- Of distinct things in a given order, a part is told by what is in it. -/
theorem eq_filter_of_sublist {α : Type} [DecidableEq α] {part whole : List α} (h : part.Sublist whole)
    (hnodup : whole.Nodup) : part = whole.filter (· ∈ part) := by
  induction h with
  | slnil => rfl
  | @cons part whole x hsub ih =>
    obtain ⟨hx, hrest⟩ := List.nodup_cons.mp hnodup
    have hnot : x ∉ part := fun hp => hx (hsub.subset hp)
    rw [List.filter_cons_of_neg (by simpa using hnot)]
    exact ih hrest
  | @cons_cons part whole x hsub ih =>
    obtain ⟨hx, hrest⟩ := List.nodup_cons.mp hnodup
    rw [List.filter_cons_of_pos (by simp)]
    have hsame : whole.filter (· ∈ x :: part) = whole.filter (· ∈ part) := by
      refine List.filter_congr fun y hy => ?_
      have hne : y ≠ x := by
        rintro rfl
        exact hx hy
      simp [hne]
    rw [hsame, ← ih hrest]

/-- Lists with the same keys match entry by entry, if entries of one key do. -/
theorem forall₂_of_keys_eq {α β κ : Type} {R : α → β → Prop} {f : α → κ} {g : β → κ} {as : List α} {bs : List β}
    (hkeys : as.map f = bs.map g) (hR : ∀ a ∈ as, ∀ b ∈ bs, f a = g b → R a b) : List.Forall₂ R as bs := by
  induction as generalizing bs with
  | nil =>
    obtain rfl : bs = [] := by simpa using hkeys.symm
    exact .nil
  | cons a as ih =>
    cases bs with
    | nil => simp at hkeys
    | cons b bs =>
      rw [List.map_cons, List.map_cons] at hkeys
      obtain ⟨hab, hrest⟩ := List.cons.inj hkeys
      refine .cons (hR a List.mem_cons_self b List.mem_cons_self hab) (ih hrest fun x hx y hy => ?_)
      exact hR x (List.mem_cons_of_mem _ hx) y (List.mem_cons_of_mem _ hy)

namespace Compilation

variable {graph : Graph} {standard : String}

/-! ## Survivors in the order of the graph -/

theorem keys_settled_sublist (graph : Graph) (standard : String) :
    (settled graph standard).keys.Sublist (graph.entities.map (·.name)) := by
  rw [keys_settled]
  unfold claimed
  rw [keys_claimNames]
  exact keys_buildAll_sublist graph _

theorem keys_survivors_sublist (outputs : Outputs) : (survivors outputs).keys.Sublist (Table.keys outputs) := by
  induction outputs with
  | nil => exact List.Sublist.slnil
  | cons entry outputs ih =>
    obtain ⟨e, r⟩ := entry
    cases r with
    | error x => exact ih.cons _
    | ok o => exact ih.cons_cons _

theorem keys_within_sublist (graph : Graph) (standard package : String) :
    (Table.keys (within (survivors (settled graph standard)) package)).Sublist (graph.entities.map (·.name)) := by
  have hwithin : (within (survivors (settled graph standard)) package).Sublist (survivors (settled graph standard)) :=
    List.filter_sublist
  exact ((hwithin.map Prod.fst).trans (keys_survivors_sublist _)).trans (keys_settled_sublist graph standard)

/-- The entities of some names that come in the order of the graph. -/
theorem names_of_filter {names : List String} (h : names.Sublist (graph.entities.map (·.name))) :
    (graph.entities.filter (·.name ∈ names)).map (·.name) = names := by
  have hnames := eq_filter_of_sublist h graph.names_nodup
  rw [List.filter_map] at hnames
  exact hnames.symm

/-- The survivors of a package are the entities generated in it. -/
theorem mem_keys_within {c : Compiled} (h : compile graph standard = .ok c) {e : Entity} {package : String} :
    e.name ∈ Table.keys (within (survivors (settled graph standard)) package) ↔ c.packageOf? e = some package := by
  rw [Compiled.packageOf?_eq_some, status_generated_iff h]
  constructor
  · intro hkey
    obtain ⟨⟨name, o⟩, hin, rfl⟩ := List.mem_map.mp hkey
    obtain ⟨hsurvives, hpackage⟩ := List.mem_filter.mp hin
    exact ⟨o, mem_survivors.mp hsurvives, of_decide_eq_true hpackage⟩
  · intro hparts
    obtain ⟨o, ho, hpackage⟩ := hparts
    exact Table.mem_keys (List.mem_filter.mpr ⟨mem_survivors.mpr ho, decide_eq_true hpackage⟩)

theorem mem_keys_survivors {c : Compiled} (h : compile graph standard = .ok c) {e : Entity} :
    e.name ∈ (survivors (settled graph standard)).keys ↔ (c.packageOf? e).isSome = true := by
  rw [Option.isSome_iff_exists]
  simp only [← mem_keys_within h]
  constructor
  · intro hkey
    obtain ⟨⟨name, o⟩, hin, rfl⟩ := List.mem_map.mp hkey
    exact ⟨o.package, Table.mem_keys (List.mem_filter.mpr ⟨hin, decide_eq_true rfl⟩)⟩
  · intro hparts
    obtain ⟨package, hkey⟩ := hparts
    obtain ⟨entry, hin, hname⟩ := List.mem_map.mp hkey
    exact List.mem_map.mpr ⟨entry, List.mem_of_mem_filter hin, hname⟩

/-- The entities of a unit are those generated in its package. -/
theorem names_generatedIn {c : Compiled} (h : compile graph standard = .ok c) (package : String) :
    (c.generatedIn graph package).map (·.name) = Table.keys (within (survivors (settled graph standard)) package) := by
  have hsame : c.generatedIn graph package =
      graph.entities.filter (·.name ∈ Table.keys (within (survivors (settled graph standard)) package)) := by
    refine List.filter_congr fun e _ => ?_
    rw [decide_eq_decide]
    exact (mem_keys_within h).symm
  rw [hsame]
  exact names_of_filter (keys_within_sublist graph standard package)

/-! ## What survivors give -/

theorem gives_of_settled {e : Entity} {o : EntityOutput} (he : e ∈ graph.entities)
    (h : (e.name, .ok o) ∈ settled graph standard) : Gives graph standard o.package e o := by
  obtain ⟨own, brought, hown, hservice, _, hmessages, hreferences⟩ := buildEntity_ok (buildEntity_of_settled he h)
  exact ⟨rfl, ⟨own, brought, hown, hservice, hmessages⟩, hreferences⟩

theorem gives_within {c : Compiled} (h : compile graph standard = .ok c) (package : String) :
    List.Forall₂ (Gives graph standard package) (c.generatedIn graph package)
      ((within (survivors (settled graph standard)) package).map (·.2)) := by
  rw [List.forall₂_map_right_iff]
  refine forall₂_of_keys_eq (names_generatedIn h package) ?_
  intro e he entry hentry hname
  obtain ⟨name, o⟩ := entry
  obtain rfl : e.name = name := hname
  obtain ⟨hsurvives, hpackage⟩ := List.mem_filter.mp hentry
  obtain rfl : o.package = package := of_decide_eq_true hpackage
  exact gives_of_settled (List.mem_of_mem_filter he) (mem_survivors.mp hsurvives)

/-- The message of an entity is among those it gives. -/
theorem primary_of_gives {package : String} {e : Entity} {o : EntityOutput} (h : Gives graph standard package e o) :
    ∃ m ∈ o.messages, m.name = e.name := by
  obtain ⟨own, brought, hown, _, hmessages⟩ := h.messages
  obtain ⟨fields, edges, enums, rfl, _⟩ := buildMessages_ok hown
  exact ⟨{ name := e.name, fields := fields ++ edges, enums }, by simp [hmessages], rfl⟩

/-- The packages of the survivors are those of the generated entities, entry by entry. -/
theorem packages_survivors {c : Compiled} (h : compile graph standard = .ok c) :
    (survivors (settled graph standard)).map (·.2.package) = graph.entities.filterMap c.packageOf? := by
  have hsublist := (keys_survivors_sublist _).trans (keys_settled_sublist graph standard)
  have hmatch : List.Forall₂ (fun e (entry : String × EntityOutput) => c.packageOf? e = some entry.2.package)
      (graph.entities.filter (·.name ∈ (survivors (settled graph standard)).keys)) (survivors (settled graph standard)) := by
    refine forall₂_of_keys_eq (names_of_filter hsublist) ?_
    intro e _ entry hentry hname
    obtain ⟨name, o⟩ := entry
    obtain rfl : e.name = name := hname
    exact (mem_keys_within h).mp (Table.mem_keys (List.mem_filter.mpr ⟨hentry, decide_eq_true rfl⟩))
  have hsame : ∀ {es : List Entity} {outs : Table EntityOutput},
      List.Forall₂ (fun e (entry : String × EntityOutput) => c.packageOf? e = some entry.2.package) es outs →
        outs.map (·.2.package) = es.filterMap c.packageOf? := by
    intro es outs hall
    induction hall with
    | nil => rfl
    | cons hpackage _ ih => rw [List.map_cons, List.filterMap_cons_some hpackage, ih]
  rw [hsame hmatch, List.filterMap_filter]
  refine List.filterMap_congr fun e _ => ?_
  by_cases hkey : e.name ∈ (survivors (settled graph standard)).keys
  · simp [hkey]
  · have hnone : c.packageOf? e = none := by
      rw [mem_keys_survivors h] at hkey
      simpa using hkey
    simp [hkey, hnone]

/-! ## Units -/

theorem within_ne_nil {outs : Table EntityOutput} {package : String} (h : package ∈ packagesIn outs) :
    within outs package ≠ [] := by
  obtain ⟨name, o, hin, rfl⟩ := mem_packagesIn.mp h
  intro hnone
  have hmem : (name, o) ∈ within outs o.package := List.mem_filter.mpr ⟨hin, decide_eq_true rfl⟩
  rw [hnone] at hmem
  cases hmem

/-- Every unit is that of a package of some survivor. -/
theorem unit_of_mem {c : Compiled} (h : compile graph standard = .ok c) {u : PackageUnit} (hu : u ∈ c.units) :
    u.package ∈ packagesIn (survivors (settled graph standard)) ∧
      u = unitOf (survivors (settled graph standard)) u.package := by
  obtain ⟨hunits, _, _⟩ := compile_ok h
  rw [hunits, group_eq] at hu
  obtain ⟨package, hpackage, rfl⟩ := List.mem_map.mp hu
  exact ⟨hpackage, rfl⟩

theorem entities_of_unit {c : Compiled} (h : compile graph standard = .ok c) {u : PackageUnit} (hu : u ∈ c.units) :
    u.entities = (c.generatedIn graph u.package).map (·.name) := by
  rw [names_generatedIn h, (unit_of_mem h hu).2]
  rfl

/-- A unit holds what the entities generated in its package give. -/
theorem contents_of_unit {c : Compiled} (h : compile graph standard = .ok c) {u : PackageUnit} (hu : u ∈ c.units) :
    ∃ outs, List.Forall₂ (Gives graph standard u.package) (c.generatedIn graph u.package) outs ∧
      u.messages = outs.flatMap (·.messages) ∧ u.services = outs.flatMap (·.services) ∧
      u.imports = addAll [] (outs.flatMap (·.references.imports)) := by
  refine ⟨_, gives_within h u.package, ?_⟩
  rw [(unit_of_mem h hu).2]
  simp only [unitOf, List.flatMap_map, and_self]

/-- No unit is empty. -/
theorem unit_ne_nil {c : Compiled} (h : compile graph standard = .ok c) {u : PackageUnit} (hu : u ∈ c.units) :
    u.entities ≠ [] ∧ u.messages ≠ [] := by
  obtain ⟨hpackage, he⟩ := unit_of_mem h hu
  have hsome : u.entities ≠ [] := by
    rw [he]
    simpa [unitOf] using within_ne_nil hpackage
  refine ⟨hsome, ?_⟩
  obtain ⟨outs, hgives, hmessages, _⟩ := contents_of_unit h hu
  rw [entities_of_unit h hu, ne_eq, List.map_eq_nil_iff] at hsome
  obtain ⟨e, hin⟩ := List.exists_mem_of_ne_nil _ hsome
  obtain ⟨o, ho, hfirst⟩ := exists_of_forall₂_left hgives hin
  obtain ⟨m, hm, _⟩ := primary_of_gives hfirst
  rw [hmessages]
  exact List.ne_nil_of_mem (List.mem_flatMap.mpr ⟨o, ho, hm⟩)

/-- The units of a compiled graph hold what its generated entities give. -/
theorem units_hold_survivors {c : Compiled} (h : compile graph standard = .ok c) : c.HoldsSurvivors graph standard := by
  obtain ⟨hunits, _, hstatuses⟩ := compile_ok h
  refine ⟨?_, ?_, fun u hu => unit_ne_nil h hu, fun u hu => entities_of_unit h hu, fun u hu => contents_of_unit h hu⟩
  · rw [hstatuses, Table.keys, List.map_map]
    rfl
  · rw [hunits, group_eq, List.map_map, ← packages_survivors h]
    exact List.map_id _

/-- Entities of two packages, among them one that asks for no message and two that fail: one
    by itself, and one because it refers to the other. -/
def mixedGraph : Graph :=
  ⟨[{ name := "User"
      edges := [{ name := "team", target := "Team", unique := true, annotations := { field := some { number := 2 } } }]
      annotations := { message := some {}, service := some {} } },
    { name := "Audit" },
    { name := "Blob"
      fields := [{ name := "bytes", kind := .other, annotations := { field := some { number := 2 } } }]
      annotations := { message := some {} } },
    { name := "Team", annotations := { message := some { package := some "corp.teams" } } },
    { name := "Upload"
      edges := [{ name := "blob", target := "Blob", unique := true, annotations := { field := some { number := 2 } } }]
      annotations := { message := some { package := some "corp.teams" } } },
    { name := "Note"
      fields := [{ name := "at", kind := .time, annotations := { field := some { number := 2 } } }]
      annotations := { message := some {} } }], by decide⟩

theorem units_hold_survivors_mixedGraph : ∃ c, compile mixedGraph standardPackage = .ok c ∧
    c.units.map (·.entities) = [["User", "Note"], ["Team"]] ∧ c.HoldsSurvivors mixedGraph standardPackage := by
  have h : (compileApart mixedGraph standardPackage).toOption.any (fun c => Assembly.namesApart c.set &&
      decide (c.units.map (·.entities) = [["User", "Note"], ["Team"]])) = true := by decide +kernel
  obtain ⟨c, hc, hentities⟩ := exists_compiled_of_apart h
  exact ⟨c, hc, of_decide_eq_true hentities, units_hold_survivors hc⟩

end Compilation

end Protograph
