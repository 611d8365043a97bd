/-
  Protograph.Proofs.Dependence — what the output of an entity depends on besides the entity.

  The rest of a graph is asked for two things only: whether there is an entity of a name, and
  in which package it has a message. Graphs may give the same answer for a name (`Alike`).

  Proved:
  - `buildEntity_congr`: where all answers are the same, so is what an entity is built into,
    an error included.
  - `buildEntity_transfer`: what is built in one graph is built in another one that knows the
    targets of its edges and the entities it refers to in the same packages.
-/

import Protograph.Proofs.Outputs

namespace Protograph

/-! ## Names in a table and in another -/

namespace NameScope

variable {s : NameScope} {packages : Table String}

/-- The scope with another table of packages. -/
def inPackages (s : NameScope) (packages : Table String) : NameScope := { s with packages }

theorem resolve_congr (h : ∀ t, s.packages.get? t = packages.get? t) (messages : List Message) (services : List Service) :
    s.resolve messages services = (s.inPackages packages).resolve messages services := by
  have hrefer : s.referTo = (s.inPackages packages).referTo := by
    funext r x
    unfold referTo refer
    simp only [h]
    rfl
  rw [resolve_eq, resolve_eq, hrefer]

/-- A name means the same where the entity that it may mean is found in the same package. -/
theorem Reads.transfer {name : String} {wantsEnum : Bool} {m : Meaning} (h : s.Reads name wantsEnum m)
    (hfound : ∀ q t, m = .entity q t → packages.get? t = some q) : (s.inPackages packages).Reads name wantsEnum m := by
  cases h with
  | enumeration he => exact .enumeration he
  | wellKnown he hw => exact .wellKnown he hw
  | own he hw hm => exact .own he hw hm
  | entity he hw hm hs _ => exact .entity he hw hm hs (hfound _ _ rfl)

/-- What is resolved among some packages is resolved alike among others, if every entity that
    is referred to is found in the same one. -/
theorem resolve_transfer {messages : List Message} {services : List Service} {r : References}
    (h : s.resolve messages services = .ok r)
    (hfound : ∀ x ∈ mentionsOf messages services, ∀ q t, s.Reads x.name x.wantsEnum (.entity q t) →
      packages.get? t = some q) : (s.inPackages packages).resolve messages services = .ok r := by
  rw [resolve_eq] at h ⊢
  refine foldlM_eq_ok_of_steps h fun r x hx r' hstep => ?_
  obtain ⟨m, hm, hrecord⟩ := refer_eq_ok.mp hstep
  have hm' := hm.transfer fun q t he => hfound x hx q t (he ▸ hm)
  exact refer_eq_ok.mpr ⟨m, hm', hrecord⟩

end NameScope

namespace Compilation

variable {graph graph' : Graph} {packages packages' : Table String} {standard : String} {e : Entity} {p : String}
  {o : EntityOutput}

/-! ## Graphs that give the same answers -/

/-- Two graphs say the same of an entity of some name: whether there is one, and in which
    package it has a message. -/
structure Alike (graph graph' : Graph) (packages packages' : Table String) (name : String) : Prop where
  known : (graph.entity? name).isNone = (graph'.entity? name).isNone
  package : packages.get? name = packages'.get? name

theorem isNone_entity? {name : String} : (graph.entity? name).isNone = true ↔ name ∉ graph.entities.map (·.name) := by
  unfold Graph.entity?
  rw [Option.isNone_iff_eq_none, List.find?_eq_none, List.mem_map]
  constructor
  · rintro h ⟨e, he, rfl⟩
    exact h e he (beq_self_eq_true _)
  · intro h e he hname
    exact h ⟨e, he, eq_of_beq hname⟩

/-- An entity that has a message in some package is one of the graph. -/
theorem known_of_package {name q : String} (h : (packagesOf graph standard).get? name = some q) :
    (graph.entity? name).isNone = false := by
  obtain ⟨e, he, rfl, _⟩ := packagesOf_get?_eq_some.mp h
  rw [← Bool.not_eq_true, isNone_entity?, not_not]
  exact List.mem_map_of_mem he

/-- Graphs in which an entity has a message in the same package say the same of it. -/
theorem alike_of_package {name q : String} (h : (packagesOf graph standard).get? name = some q)
    (h' : (packagesOf graph' standard).get? name = some q) :
    Alike graph graph' (packagesOf graph standard) (packagesOf graph' standard) name :=
  ⟨(known_of_package h).trans (known_of_package h').symm, h.trans h'.symm⟩

/-! ## What is built -/

theorem resolveEdge_congr {x : EdgeSpec} (h : Alike graph graph' packages packages' x.target) (entity : String) :
    resolveEdge entity p x graph packages = resolveEdge entity p x graph' packages' := by
  unfold resolveEdge
  rw [h.known, h.package]

theorem buildMessages_congr (h : ∀ x ∈ e.keptEdges, Alike graph graph' packages packages' x.target) :
    buildMessages e p graph packages = buildMessages e p graph' packages' := by
  unfold buildMessages
  rw [mapM_congr fun x hx => resolveEdge_congr (h x hx) e.name]

/-- Where graphs say the same of every name, an entity is built into the same, or fails with
    the same error. -/
theorem buildEntity_congr (h : ∀ name, Alike graph graph' packages packages' name) (e : Entity) (p : String) :
    buildEntity e p graph packages = buildEntity e p graph' packages' := by
  have hresolve : ∀ (messages : List Message) (services : List Service),
      (NameScope.ofMessages e.name p messages packages).resolve messages services =
        (NameScope.ofMessages e.name p messages packages').resolve messages services :=
    fun messages services => NameScope.resolve_congr (fun t => (h t).package) messages services
  unfold buildEntity
  rw [buildMessages_congr fun x _ => h x.target]
  simp only [hresolve]

/-- What is built in one graph is built in another where the targets of its edges and the
    entities it refers to are found in the same packages. -/
theorem buildEntity_transfer (h : buildEntity e p graph (packagesOf graph standard) = .ok o)
    (hedges : ∀ x ∈ e.keptEdges, ∀ q, (packagesOf graph standard).get? x.target = some q →
      (packagesOf graph' standard).get? x.target = some q)
    (hfound : ∀ x ∈ mentionsOf o.messages o.services, ∀ q t,
      (o.scope e.name (packagesOf graph standard)).Reads x.name x.wantsEnum (.entity q t) →
        (packagesOf graph' standard).get? t = some q) :
    buildEntity e p graph' (packagesOf graph' standard) = .ok o := by
  obtain ⟨package, _, services, references⟩ := o
  obtain ⟨messages, more, hmessages, hservice, rfl, rfl, hresolve⟩ := buildEntity_ok h
  obtain ⟨_, _, _, _, _, hedges', _⟩ := buildMessages_ok hmessages
  have hsame : buildMessages e package graph (packagesOf graph standard) =
      buildMessages e package graph' (packagesOf graph' standard) := by
    refine buildMessages_congr fun x hx => ?_
    obtain ⟨_, _, hedge⟩ := exists_of_forall₂_left hedges' hx
    obtain ⟨_, q, _, _, _, hq, _⟩ := resolveEdge_ok hedge
    exact alike_of_package hq (hedges x hx q hq)
  have hresolve' := NameScope.resolve_transfer hresolve hfound
  unfold buildEntity
  exact bind_eq_ok.mpr ⟨messages, hsame ▸ hmessages, bind_eq_ok.mpr ⟨_, hservice, bind_eq_ok.mpr ⟨_, hresolve', rfl⟩⟩⟩

end Compilation

end Protograph
