/-
  Protograph.Proofs.EntityOutput — what a successful build of an entity goes through.

  `buildEntity_ok` takes it apart: the messages of the entity, then those of its service,
  and everything they refer to resolved in their own scope. Methods and list messages are
  there if and only if they are asked for (`offered_of_serviceOf`, `listed_of_serviceOf`).
-/

import Protograph.Compile.Compilation
import Protograph.Proofs.Listing
import Protograph.Proofs.Reading

namespace Protograph

/-- The entity asks for a service with the method. -/
def Entity.Offers (e : Entity) (m : Method) : Prop :=
  ∃ options, e.annotations.service.filter (·.generate) = some options ∧ m ∈ options.methods.toList

/-- The scope in which the names of an output are looked up. -/
def EntityOutput.scope (o : EntityOutput) (entity : String) (packages : Table String) : NameScope :=
  NameScope.ofMessages entity o.package o.messages packages

namespace Compilation

/-! ## Services -/

theorem buildService_ok {e : Entity} {options : ServiceOptions} {out : ServiceOutput}
    (h : buildService e options = .ok out) :
    ∃ methods, List.Forall₂ (fun m r => EntityService.method e m = .ok r) options.methods.toList methods ∧
      out = { service := { name := serviceName e.name, methods := methods.map (·.1) }
              messages := methods.flatMap (·.2) } := by
  unfold buildService at h
  obtain ⟨methods, hmethods, h⟩ := bind_eq_ok.mp h
  cases h
  exact ⟨methods, mapM_eq_ok.mp hmethods, rfl⟩

theorem serviceOf_ok {e : Entity} {services : List Service} {more : List Message}
    (h : serviceOf e = .ok (services, more)) :
    (e.annotations.service.filter (·.generate) = none ∧ services = [] ∧ more = []) ∨
      ∃ options out, e.annotations.service.filter (·.generate) = some options ∧ buildService e options = .ok out ∧
        services = [out.service] ∧ more = out.messages := by
  unfold serviceOf at h
  split at h
  · rename_i hnone
    cases h
    exact .inl ⟨hnone, rfl, rfl⟩
  · rename_i options hsome
    obtain ⟨out, hout, h⟩ := bind_eq_ok.mp h
    cases h
    exact .inr ⟨options, out, hsome, hout, rfl, rfl⟩

/-- A method asked for is in the service, and what it brings along is there. -/
theorem offered_of_serviceOf {e : Entity} {services : List Service} {more : List Message}
    (h : serviceOf e = .ok (services, more)) {m : Method} (hm : e.Offers m) :
    ∃ v ∈ services, v.name = serviceName e.name ∧
      ∃ rpc brought, EntityService.method e m = .ok (rpc, brought) ∧ rpc ∈ v.methods ∧ ∀ x ∈ brought, x ∈ more := by
  obtain ⟨asked, hasked, hm⟩ := hm
  rcases serviceOf_ok h with ⟨hnone, _, _⟩ | ⟨options, out, hsome, hout, rfl, rfl⟩
  · rw [hnone] at hasked; cases hasked
  · rw [hsome] at hasked
    cases hasked
    obtain ⟨methods, hall, rfl⟩ := buildService_ok hout
    obtain ⟨r, hr, hmethod⟩ := exists_of_forall₂_left hall hm
    exact ⟨_, List.mem_singleton_self _, rfl, r.1, r.2, hmethod, List.mem_map_of_mem hr,
      fun x hx => List.mem_flatMap.mpr ⟨r, hr, hx⟩⟩

/-- A service has the methods that are asked for. -/
theorem methods_of_serviceOf {e : Entity} {services : List Service} {more : List Message}
    (h : serviceOf e = .ok (services, more)) {v : Service} (hv : v ∈ services) :
    v.name = serviceName e.name ∧
      ∀ r ∈ v.methods, ∃ m brought, e.Offers m ∧ EntityService.method e m = .ok (r, brought) := by
  rcases serviceOf_ok h with ⟨_, rfl, _⟩ | ⟨options, out, hsome, hout, rfl, _⟩
  · cases hv
  · obtain ⟨methods, hall, rfl⟩ := buildService_ok hout
    obtain rfl := List.mem_singleton.mp hv
    refine ⟨rfl, fun r hr => ?_⟩
    obtain ⟨⟨_, brought⟩, hbuilt, rfl⟩ := List.mem_map.mp hr
    obtain ⟨m, hm, hmethod⟩ := exists_of_forall₂_right hall hbuilt
    exact ⟨m, brought, ⟨options, hsome, hm⟩, hmethod⟩

/-- The messages of a service are the list messages, if a listing is asked for. -/
theorem listed_of_serviceOf {e : Entity} {services : List Service} {more : List Message}
    (h : serviceOf e = .ok (services, more)) {m : Message} (hm : m ∈ more) :
    e.Offers .list ∧ ∃ messages, Listing.build e = .ok messages ∧ m ∈ messages := by
  rcases serviceOf_ok h with ⟨_, _, rfl⟩ | ⟨options, out, hsome, hout, rfl, rfl⟩
  · cases hm
  · obtain ⟨methods, hall, rfl⟩ := buildService_ok hout
    obtain ⟨r, hr, hmr⟩ := List.mem_flatMap.mp hm
    obtain ⟨method, hmethod, hbuilt⟩ := exists_of_forall₂_right hall hr
    cases method with
    | create => cases hbuilt; cases hmr
    | update => cases hbuilt; cases hmr
    | get =>
      obtain ⟨_, _, hbuilt⟩ := bind_eq_ok.mp hbuilt
      cases hbuilt; cases hmr
    | delete =>
      obtain ⟨_, _, hbuilt⟩ := bind_eq_ok.mp hbuilt
      cases hbuilt; cases hmr
    | list =>
      obtain ⟨messages, hmessages, hbuilt⟩ := bind_eq_ok.mp hbuilt
      cases hbuilt
      exact ⟨⟨options, hsome, hmethod⟩, messages, hmessages, hmr⟩

/-! ## Whole outputs -/

theorem buildEntity_ok {e : Entity} {package : String} {graph : Graph} {packages : Table String} {o : EntityOutput}
    (h : buildEntity e package graph packages = .ok o) :
    ∃ messages more, buildMessages e package graph packages = .ok messages ∧
      serviceOf e = .ok (o.services, more) ∧ o.package = package ∧ o.messages = messages ++ more ∧
      (o.scope e.name packages).resolve o.messages o.services = .ok o.references := by
  unfold buildEntity at h
  obtain ⟨messages, hmessages, h⟩ := bind_eq_ok.mp h
  obtain ⟨⟨services, more⟩, hservice, h⟩ := bind_eq_ok.mp h
  obtain ⟨references, hreferences, h⟩ := bind_eq_ok.mp h
  cases h
  exact ⟨messages, more, hmessages, hservice, rfl, rfl, hreferences⟩

/-- The message of an entity is in its output with its fields and edges, and so are the
    wrappers of its enumerations. -/
theorem primary_of_buildEntity {e : Entity} {package : String} {graph : Graph} {packages : Table String}
    {o : EntityOutput} (h : buildEntity e package graph packages = .ok o) :
    ∃ fields edges enums, { name := e.name, fields := fields ++ edges, enums } ∈ o.messages ∧
      List.Forall₂ (FieldOf e.name) e.ownFields fields ∧
      List.Forall₂ (fun x f => resolveEdge e.name package x graph packages = .ok f) e.keptEdges edges ∧
      ∀ f ∈ e.ownFields, f.isEnum = true → Enumeration.wrapper e.name f ∈ o.messages := by
  obtain ⟨messages, more, hmessages, _, _, ho, _⟩ := buildEntity_ok h
  obtain ⟨fields, edges, enums, rfl, hfields, hedges, _⟩ := buildMessages_ok hmessages
  rw [ho]
  refine ⟨fields, edges, enums, List.mem_append_left _ List.mem_cons_self, hfields, hedges, fun f hf henum => ?_⟩
  exact List.mem_append_left _ (List.mem_cons_of_mem _ (List.mem_map_of_mem (List.mem_filter.mpr ⟨hf, henum⟩)))

/-- What is recorded of everything in an output that names a type. -/
theorem records_of_buildEntity {e : Entity} {package : String} {graph : Graph} {packages : Table String}
    {o : EntityOutput} (h : buildEntity e package graph packages = .ok o) :
    (o.scope e.name packages).Records (mentionsOf o.messages o.services) o.references := by
  obtain ⟨_, _, _, _, _, _, hresolve⟩ := buildEntity_ok h
  exact NameScope.records_of_resolve hresolve

end Compilation

end Protograph
