/-
  Protograph.Proofs.Synthesized — what the type names that the compiler writes by itself
  come to mean.

  A type that the schema does not name is written relative to the package: the bare name of
  a message of the same package, and the full name of everything else, without a dot in
  front. `Entity.Writes` lists the places where this is done, with the scope in which each
  name is meant to be found.

  Proved:
  - `names_of_writes`, `writes_of_names`: these names are in the output of an entity, and
    all others there are types that the schema names.
  - `carried_synthesized_iff`: in a compilation that succeeds such a place of a generated
    entity carries what is meant if and only if the file of the package is in the set, the
    name does not begin with a dot, what is meant is defined, and nothing captures the name
    on the way to it.
  - `captured_timestamp`: names are captured. In the package `acme` the well-known timestamp
    gives way to an entity `Timestamp` of the package `acme.google.protobuf`.
-/

import Protograph.Proofs.Carried
import Protograph.Proofs.Evaluation
import Protograph.Proofs.Outputs

namespace Protograph

/-! ## Names written -/

/-- The type that the schema names for a field. -/
def FieldSpec.override? (f : FieldSpec) : Option FieldType := f.annotations.field.bind (·.type)

/-- A type name that the compiler writes for an entity of package `p`: the place, the scope
    in which it is meant to be found (the root for a full name), and the name. -/
inductive Entity.Writes (e : Entity) (p : String) (packages : Table String) : Place → String → String → Prop
  /-- An edge to an entity of the same package. -/
  | nearEdge {x : EdgeSpec} : x ∈ e.keptEdges → packages.get? x.target = some p →
      Writes e p packages (.field e.name x.name) p x.target
  | farEdge {x : EdgeSpec} {q : String} : x ∈ e.keptEdges → packages.get? x.target = some q → p ≠ q →
      Writes e p packages (.field e.name x.name) "" (q ++ "." ++ x.target)
  /-- A field of a kind that is mapped to a well-known message. -/
  | mapped {f : FieldSpec} {t : MappedType} {name : String} : f ∈ e.ownFields → f.override? = none →
      f.kind ≠ .enumeration → mapField e.name f = .ok t → t.typeName = some name →
      Writes e p packages (.field e.name f.name) "" name
  | enumeration {f : FieldSpec} : f ∈ e.ownFields → f.override? = none → f.kind = .enumeration → f.optional = false →
      Writes e p packages (.field e.name f.name) (qualify p e.name) (enumTypeName f.name)
  | optional {f : FieldSpec} : f ∈ e.ownFields → f.override? = none → f.kind = .enumeration → f.optional = true →
      Writes e p packages (.field e.name f.name) p (enumWrapperName e.name f.name)
  /-- The value in the wrapper of an enumeration. -/
  | wrapped {f : FieldSpec} : f ∈ e.ownFields → f.kind = .enumeration →
      Writes e p packages (.field (enumWrapperName e.name f.name) "value") p (e.name ++ "." ++ enumTypeName f.name)
  /-- A filter for a value, or part of one, in its well-known message. -/
  | filterValue {m : Message} {x : Field} {name : String} : e.Offers .list → Listing.filter e = .ok m → x ∈ m.fields →
      x.type = .message → x.typeName = some name →
      Writes e p packages (.field (Listing.filterName e.name) x.name) "" name
  | filterEnumeration {m : Message} {x : Field} {name : String} : e.Offers .list → Listing.filter e = .ok m →
      x ∈ m.fields → x.type = .enumeration → x.typeName = some name →
      Writes e p packages (.field (Listing.filterName e.name) x.name) p name
  | offset : e.Offers .list → Writes e p packages (.field (Listing.requestName e.name) "offset") "" WellKnown.int32Value
  | limit : e.Offers .list → Writes e p packages (.field (Listing.requestName e.name) "limit") "" WellKnown.int32Value
  | order : e.Offers .list → Writes e p packages (.field (Listing.requestName e.name) "order") "" WellKnown.stringValue
  | filter : e.Offers .list →
      Writes e p packages (.field (Listing.requestName e.name) "filter") p (Listing.filterName e.name)
  | items : e.Offers .list → Writes e p packages (.field (Listing.responseName e.name) "items") p e.name
  /-- What a method takes is of the package, unless it is an identifier. -/
  | takes {m : Method} {r : Rpc} {brought : List Message} : e.Offers m → EntityService.method e m = .ok (r, brought) →
      m ≠ .get → m ≠ .delete → Writes e p packages (.input (serviceName e.name) r.name) p r.input
  | takesIdentifier {m : Method} {r : Rpc} {brought : List Message} : e.Offers m →
      EntityService.method e m = .ok (r, brought) → m = .get ∨ m = .delete →
      Writes e p packages (.input (serviceName e.name) r.name) "" r.input
  /-- What a method gives is of the package, unless it gives nothing. -/
  | gives {m : Method} {r : Rpc} {brought : List Message} : e.Offers m → EntityService.method e m = .ok (r, brought) →
      m ≠ .delete → Writes e p packages (.output (serviceName e.name) r.name) p r.output
  | givesNothing {r : Rpc} {brought : List Message} : e.Offers .delete →
      EntityService.method e .delete = .ok (r, brought) →
      Writes e p packages (.output (serviceName e.name) r.name) "" r.output

namespace Compilation

variable {graph : Graph} {standard : String} {e : Entity} {p : String} {packages : Table String} {o : EntityOutput}
  {place : Place} {home name : String}

theorem package_mem_enclosingScopes (p message : String) : p ∈ enclosingScopes (qualify p message) := by
  by_cases hp : p = ""
  · rw [hp]
    exact root_mem_enclosingScopes _
  · exact scope_mem_enclosingScopes hp message

/-- The scope in which a name is meant to be found is one of those around its place. -/
theorem home_mem_of_writes (h : e.Writes p packages place home name) : home ∈ enclosingScopes (place.scope p) := by
  cases h with
  | farEdge | mapped | filterValue | offset | limit | order | takesIdentifier | givesNothing =>
    exact root_mem_enclosingScopes _
  | nearEdge | optional | wrapped | filterEnumeration | filter | items => exact package_mem_enclosingScopes _ _
  | enumeration | takes | gives => exact self_mem_enclosingScopes _

/-! ## Where they are written -/

/-- Where the schema names no type there is none for the mapping to take. -/
theorem typed_of_override {f : FieldSpec} (hover : f.override? = none) :
    (f.annotations.field.bind fun a => a.type.map (·, a.typeName)) = none := by
  unfold FieldSpec.override? at hover
  cases hf : f.annotations.field with
  | none => rfl
  | some a =>
    rw [hf] at hover
    simpa using hover

theorem mapField_of_enumeration {entity : String} {f : FieldSpec} (hover : f.override? = none) (hkind : f.kind = .enumeration) :
    mapField entity f = .ok (if f.optional then .message (enumWrapperName entity f.name)
      else .enumeration (enumTypeName f.name)) := by
  unfold mapField
  rw [typed_of_override hover, hkind]
  dsimp only
  split <;> rfl

/-- A field of an entity names the type it is mapped to. -/
theorem names_mapped (h : buildEntity e p graph packages = .ok o) {f : FieldSpec} (hf : f ∈ e.ownFields) {t : MappedType}
    (ht : mapField e.name f = .ok t) (hname : t.typeName = some name) :
    Place.Names o.messages o.services (.field e.name f.name) name := by
  obtain ⟨fields, edges, enums, hprimary, hfields, _⟩ := primary_of_buildEntity h
  obtain ⟨x, hx, t', n, ht', _, rfl⟩ := exists_of_forall₂_left hfields hf
  obtain rfl : t' = t := Except.ok.inj (ht'.symm.trans ht)
  exact .field hprimary (List.mem_append_left _ hx) hname

theorem names_edge (h : buildEntity e p graph packages = .ok o) {x : EdgeSpec} (hx : x ∈ e.keptEdges) {q : String}
    (hq : packages.get? x.target = some q) :
    Place.Names o.messages o.services (.field e.name x.name) (qualifiedTypeName p x.target q) := by
  obtain ⟨fields, edges, enums, hprimary, _, hedges, _⟩ := primary_of_buildEntity h
  obtain ⟨f, hf, hedge⟩ := exists_of_forall₂_left hedges hx
  obtain ⟨options, q', _, _, _, hq', rfl⟩ := resolveEdge_ok hedge
  obtain rfl : q' = q := Option.some.inj (hq'.symm.trans hq)
  exact .field hprimary (List.mem_append_right _ hf) rfl

theorem names_wrapped (h : buildEntity e p graph packages = .ok o) {f : FieldSpec} (hf : f ∈ e.ownFields)
    (hkind : f.kind = .enumeration) :
    Place.Names o.messages o.services (.field (enumWrapperName e.name f.name) "value")
      (e.name ++ "." ++ enumTypeName f.name) := by
  obtain ⟨_, _, _, _, _, _, hwrappers⟩ := primary_of_buildEntity h
  have hwrapper := hwrappers f hf (by simpa [FieldSpec.isEnum] using hkind)
  exact @Place.Names.field _ _ (Enumeration.wrapper e.name f) _ _ hwrapper (List.mem_singleton_self _) rfl

/-- A listing that is asked for brings its three messages along. -/
theorem listing_of_offers (h : buildEntity e p graph packages = .ok o) (hlist : e.Offers .list) :
    ∃ fields, Listing.filter e = .ok { name := Listing.filterName e.name, fields } ∧
      { name := Listing.filterName e.name, fields } ∈ o.messages ∧ Listing.request e.name ∈ o.messages ∧
      Listing.response e.name ∈ o.messages := by
  obtain ⟨messages, more, _, hservice, _, ho, _⟩ := buildEntity_ok h
  obtain ⟨_, _, _, _, _, hmethod, _, hbrought⟩ := offered_of_serviceOf hservice hlist
  obtain ⟨listed, hlisted, hmethod⟩ := bind_eq_ok.mp hmethod
  cases hmethod
  obtain ⟨f, hfilter, rfl⟩ := Listing.build_ok hlisted
  obtain ⟨fields, rfl, _⟩ := Listing.filter_ok hfilter
  have hmem : ∀ x ∈ [{ name := Listing.filterName e.name, fields }, Listing.request e.name, Listing.response e.name],
      x ∈ o.messages := by
    intro x hx
    rw [ho]
    exact List.mem_append_right _ (hbrought x hx)
  exact ⟨fields, hfilter, hmem _ (by simp), hmem _ (by simp), hmem _ (by simp)⟩

theorem names_filter (h : buildEntity e p graph packages = .ok o) (hlist : e.Offers .list) {m : Message}
    (hm : Listing.filter e = .ok m) {x : Field} (hx : x ∈ m.fields) (hname : x.typeName = some name) :
    Place.Names o.messages o.services (.field (Listing.filterName e.name) x.name) name := by
  obtain ⟨fields, hfilter, hmem, _⟩ := listing_of_offers h hlist
  obtain rfl : _ = m := Except.ok.inj (hfilter.symm.trans hm)
  exact .field hmem hx hname

theorem names_method (h : buildEntity e p graph packages = .ok o) {m : Method} (hoffers : e.Offers m) {r : Rpc}
    {brought : List Message} (hmethod : EntityService.method e m = .ok (r, brought)) :
    Place.Names o.messages o.services (.input (serviceName e.name) r.name) r.input ∧
      Place.Names o.messages o.services (.output (serviceName e.name) r.name) r.output := by
  obtain ⟨messages, more, _, hservice, _, ho, _⟩ := buildEntity_ok h
  obtain ⟨v, hv, hname, r', _, hmethod', hr, _⟩ := offered_of_serviceOf hservice hoffers
  obtain ⟨rfl, _⟩ := Prod.mk.inj (Except.ok.inj (hmethod'.symm.trans hmethod))
  rw [← hname]
  exact ⟨.input hv hr, .output hv hr⟩

/-- What the compiler writes stands in the output. -/
theorem names_of_writes (h : buildEntity e p graph packages = .ok o) (hw : e.Writes p packages place home name) :
    place.Names o.messages o.services name := by
  cases hw with
  | nearEdge hx hq =>
    have hnames := names_edge h hx hq
    rwa [qualifiedTypeName, if_pos rfl] at hnames
  | farEdge hx hq hne =>
    have hnames := names_edge h hx hq
    rwa [qualifiedTypeName, if_neg hne] at hnames
  | mapped hf _ _ ht hname => exact names_mapped h hf ht hname
  | enumeration hf hover hkind hopt =>
    have ht : mapField e.name _ = .ok _ := mapField_of_enumeration hover hkind
    rw [hopt] at ht
    exact names_mapped h hf ht rfl
  | optional hf hover hkind hopt =>
    have ht : mapField e.name _ = .ok _ := mapField_of_enumeration hover hkind
    rw [hopt] at ht
    exact names_mapped h hf ht rfl
  | wrapped hf hkind => exact names_wrapped h hf hkind
  | filterValue hlist hm hx _ hname => exact names_filter h hlist hm hx hname
  | filterEnumeration hlist hm hx _ hname => exact names_filter h hlist hm hx hname
  | offset hlist =>
    obtain ⟨_, _, _, hrequest, _⟩ := listing_of_offers h hlist
    exact .field hrequest (List.mem_of_getElem? (i := 0) rfl) rfl
  | limit hlist =>
    obtain ⟨_, _, _, hrequest, _⟩ := listing_of_offers h hlist
    exact .field hrequest (List.mem_of_getElem? (i := 1) rfl) rfl
  | order hlist =>
    obtain ⟨_, _, _, hrequest, _⟩ := listing_of_offers h hlist
    exact .field hrequest (List.mem_of_getElem? (i := 2) rfl) rfl
  | filter hlist =>
    obtain ⟨_, _, _, hrequest, _⟩ := listing_of_offers h hlist
    exact .field hrequest (List.mem_of_getElem? (i := 4) rfl) rfl
  | items hlist =>
    obtain ⟨_, _, _, _, hresponse⟩ := listing_of_offers h hlist
    exact .field hresponse List.mem_cons_self rfl
  | takes hoffers hmethod | takesIdentifier hoffers hmethod => exact (names_method h hoffers hmethod).1
  | gives hoffers hmethod | givesNothing hoffers hmethod => exact (names_method h hoffers hmethod).2

/-! ## Nothing else is written -/

theorem writes_of_field {f : FieldSpec} (hf : f ∈ e.ownFields)
    (hover : f.override? = none) {t : MappedType} (ht : mapField e.name f = .ok t) (hname : t.typeName = some name) :
    ∃ home, e.Writes p packages (.field e.name f.name) home name := by
  by_cases hkind : f.kind = .enumeration
  · rw [mapField_of_enumeration hover hkind] at ht
    cases hopt : f.optional with
    | true =>
      rw [hopt] at ht
      cases ht
      obtain rfl : enumWrapperName e.name f.name = name := Option.some.inj hname
      exact ⟨_, .optional hf hover hkind hopt⟩
    | false =>
      rw [hopt] at ht
      cases ht
      obtain rfl : enumTypeName f.name = name := Option.some.inj hname
      exact ⟨_, .enumeration hf hover hkind hopt⟩
  · exact ⟨_, .mapped hf hover hkind ht hname⟩

theorem writes_of_edge {x : EdgeSpec} {q : String} (hx : x ∈ e.keptEdges) (hq : packages.get? x.target = some q) :
    ∃ home, e.Writes p packages (.field e.name x.name) home (qualifiedTypeName p x.target q) := by
  unfold qualifiedTypeName
  split
  · rename_i hp
    exact ⟨_, .nearEdge hx (hp ▸ hq)⟩
  · rename_i hp
    exact ⟨_, .farEdge hx hq hp⟩

theorem writes_of_listing {messages : List Message} (hlist : e.Offers .list) (hbuild : Listing.build e = .ok messages)
    {m : Message} (hm : m ∈ messages) {x : Field} (hx : x ∈ m.fields) (hname : x.typeName = some name) :
    ∃ home, e.Writes p packages (.field m.name x.name) home name := by
  obtain ⟨f, hfilter, rfl⟩ := Listing.build_ok hbuild
  rcases List.mem_cons.mp hm with rfl | hm
  · obtain ⟨fields, rfl, hpushed⟩ := Listing.filter_ok hfilter
    obtain ⟨t, n, ht, he⟩ := hpushed.types x hx
    have hnamed : x.type.isNamed = true := by
      rw [he] at hname ⊢
      exact ht.proper.2.mpr (Option.isSome_of_eq_some hname)
    cases htype : x.type with
    | message => exact ⟨_, .filterValue hlist hfilter hx htype hname⟩
    | enumeration => exact ⟨_, .filterEnumeration hlist hfilter hx htype hname⟩
    | _ => rw [htype] at hnamed; cases hnamed
  rcases List.mem_cons.mp hm with rfl | hm
  · simp only [Listing.request, List.mem_cons, List.not_mem_nil, or_false] at hx
    rcases hx with rfl | rfl | rfl | rfl | rfl | rfl
    · cases hname; exact ⟨_, .offset hlist⟩
    · cases hname; exact ⟨_, .limit hlist⟩
    · cases hname; exact ⟨_, .order hlist⟩
    · cases hname
    · cases hname; exact ⟨_, .filter hlist⟩
    · cases hname
  · obtain rfl := List.mem_singleton.mp hm
    simp only [Listing.response, List.mem_cons, List.not_mem_nil, or_false] at hx
    rcases hx with rfl | rfl
    · cases hname; exact ⟨_, .items hlist⟩
    · cases hname

theorem writes_of_method {m : Method} (hoffers : e.Offers m) {r : Rpc} {brought : List Message}
    (hmethod : EntityService.method e m = .ok (r, brought)) :
    (∃ home, e.Writes p packages (.input (serviceName e.name) r.name) home r.input) ∧
      ∃ home, e.Writes p packages (.output (serviceName e.name) r.name) home r.output := by
  cases m with
  | create | update | list =>
    exact ⟨⟨_, .takes hoffers hmethod (by decide) (by decide)⟩, _, .gives hoffers hmethod (by decide)⟩
  | get => exact ⟨⟨_, .takesIdentifier hoffers hmethod (.inl rfl)⟩, _, .gives hoffers hmethod (by decide)⟩
  | delete => exact ⟨⟨_, .takesIdentifier hoffers hmethod (.inr rfl)⟩, _, .givesNothing hoffers hmethod⟩

/-- Every type name in an output is one that the compiler writes, or the type of a field
    that the schema names. -/
theorem writes_of_names (h : buildEntity e p graph packages = .ok o) (hn : place.Names o.messages o.services name) :
    (∃ home, e.Writes p packages place home name) ∨
      ∃ f ∈ e.ownFields, f.override?.isSome = true ∧ place = .field e.name f.name := by
  obtain ⟨messages, more, hmessages, hservice, _, ho, _⟩ := buildEntity_ok h
  obtain ⟨fields, edges, enums, rfl, hfields, hedges, _⟩ := buildMessages_ok hmessages
  cases hn with
  | @field m x _ hm hx hname =>
    rw [ho] at hm
    rcases List.mem_append.mp hm with hm | hm
    · rcases List.mem_cons.mp hm with rfl | hm
      · rcases List.mem_append.mp hx with hx | hx
        · obtain ⟨f, hf, t, n, ht, _, rfl⟩ := exists_of_forall₂_right hfields hx
          cases hover : f.override? with
          | none => exact .inl (writes_of_field hf hover ht hname)
          | some type => exact .inr ⟨f, hf, by rw [hover]; rfl, rfl⟩
        · obtain ⟨edge, hedge, hresolved⟩ := exists_of_forall₂_right hedges hx
          obtain ⟨_, q, _, _, _, hq, rfl⟩ := resolveEdge_ok hresolved
          cases hname
          exact .inl (writes_of_edge hedge hq)
      · obtain ⟨f, hf, rfl⟩ := List.mem_map.mp hm
        obtain ⟨hf, henum⟩ := List.mem_filter.mp hf
        obtain rfl := List.mem_singleton.mp hx
        cases hname
        exact .inl ⟨_, .wrapped hf (of_decide_eq_true henum)⟩
    · obtain ⟨hlist, listed, hbuild, hm⟩ := listed_of_serviceOf hservice hm
      exact .inl (writes_of_listing hlist hbuild hm hx hname)
  | @input v r hv hr =>
    obtain ⟨hname, hall⟩ := methods_of_serviceOf hservice hv
    obtain ⟨m, brought, hoffers, hmethod⟩ := hall r hr
    exact .inl (hname ▸ (writes_of_method hoffers hmethod).1)
  | @output v r hv hr =>
    obtain ⟨hname, hall⟩ := methods_of_serviceOf hservice hv
    obtain ⟨m, brought, hoffers, hmethod⟩ := hall r hr
    exact .inl (hname ▸ (writes_of_method hoffers hmethod).2)

/-! ## What they come to mean -/

/-- The output of a survivor is in the unit of its package. -/
theorem unit_of_settled {n : String} (h : (n, .ok o) ∈ settled graph standard) :
    ∃ u ∈ group (settled graph standard), u.package = o.package ∧ (∀ m ∈ o.messages, m ∈ u.messages) ∧
      ∀ s ∈ o.services, s ∈ u.services := by
  have hsurvives : (n, o) ∈ survivors (settled graph standard) := mem_survivors.mpr h
  have hwithin : (n, o) ∈ within (survivors (settled graph standard)) o.package :=
    List.mem_filter.mpr ⟨hsurvives, decide_eq_true rfl⟩
  refine ⟨unitOf (survivors (settled graph standard)) o.package, ?_, rfl, ?_, ?_⟩
  · rw [group_eq]
    exact List.mem_map_of_mem (mem_packagesIn.mpr ⟨n, o, hsurvives, rfl⟩)
  · exact fun m hm => List.mem_flatMap.mpr ⟨_, hwithin, hm⟩
  · exact fun s hs => List.mem_flatMap.mpr ⟨_, hwithin, hs⟩

/-- A place where the compiler writes a type name for a generated entity carries what is
    meant if and only if the file of the package is in the set, the name does not begin with
    a dot, what is meant is defined, and nothing further in captures the name. -/
theorem carried_synthesized_iff {c : Compiled} (h : compile graph standard = .ok c) (he : e ∈ graph.entities)
    (hgen : c.status? e.name = some (.generated p)) (hw : e.Writes p (packagesOf graph standard) place home name) :
    c.set.carried p place = some ("." ++ qualify home name) ↔
      (∃ f ∈ c.set.files, f.package = p) ∧ Text.startsWithDot name = false ∧ c.set.Defines (qualify home name) ∧
        ¬ c.set.Captures (place.scope p) home name := by
  obtain ⟨hunits, hset, _⟩ := compile_ok h
  rw [hunits] at hset
  obtain ⟨o, ho, rfl⟩ := (status_generated_iff h).mp hgen
  have hbuilt := buildEntity_of_settled he ho
  obtain ⟨u, hu, hpackage, hmessages, hservices⟩ := unit_of_settled ho
  have hnames := (names_of_writes hbuilt hw).mono hmessages hservices
  have hhome := home_mem_of_writes hw
  rw [← hpackage] at hhome ⊢
  exact Assembly.carried_iff hset (packages_group_nodup _) hu hnames hhome

/-! ## A timestamp that is captured -/

/-- A field that is mapped to the well-known timestamp. -/
def timeField : FieldSpec :=
  { name := "at", kind := .time, annotations := { field := some { number := 2 } } }

def timedEntity : Entity :=
  { name := "E"
    fields := [timeField]
    edges := [{ name := "ts", target := "Timestamp", unique := true, annotations := { field := some { number := 3 } } }]
    annotations := { message := some { package := some "acme" } } }

/-- An entity with a time, and an entity that stands in the way of the well-known one. -/
def capturedGraph : Graph :=
  ⟨[timedEntity, { name := "Timestamp", annotations := { message := some { package := some "acme.google.protobuf" } } }],
    by decide⟩

theorem writes_timeField (packages : Table String) :
    timedEntity.Writes "acme" packages (.field "E" "at") "" WellKnown.timestamp :=
  .mapped (f := timeField) (t := .message WellKnown.timestamp) (by decide) rfl (by decide) rfl rfl

theorem compile_capturedGraph : ∃ c, compile capturedGraph standardPackage = .ok c ∧
    c.status? "E" = some (.generated "acme") ∧
    c.set.carried "acme" (.field "E" "at") = some ".acme.google.protobuf.Timestamp" := by
  have h : (compileApart capturedGraph standardPackage).toOption.any (fun c => Assembly.namesApart c.set &&
      decide (c.Generated "E" ∧ c.set.carried "acme" (.field "E" "at") = some ".acme.google.protobuf.Timestamp")) =
        true := by decide +kernel
  obtain ⟨c, hc, hboth⟩ := exists_compiled_of_apart h
  obtain ⟨⟨p, hp⟩, hcarried⟩ := of_decide_eq_true hboth
  obtain ⟨o, ho, rfl⟩ := (status_generated_iff hc).mp hp
  have hown : (packagesOf capturedGraph standardPackage).get? "E" = some "acme" := by decide
  rw [package_of_settled ho] at hown
  exact ⟨c, hc, Option.some.inj hown ▸ hp, hcarried⟩

theorem carried_synthesized_iff_captured : ∃ c, compile capturedGraph standardPackage = .ok c ∧
    timedEntity ∈ capturedGraph.entities ∧ c.status? timedEntity.name = some (.generated "acme") ∧
    timedEntity.Writes "acme" (packagesOf capturedGraph standardPackage) (.field "E" "at") "" WellKnown.timestamp ∧
    (c.set.carried "acme" (.field "E" "at") = some ("." ++ qualify "" WellKnown.timestamp) ↔
      (∃ f ∈ c.set.files, f.package = "acme") ∧ Text.startsWithDot WellKnown.timestamp = false ∧
        c.set.Defines (qualify "" WellKnown.timestamp) ∧
        ¬ c.set.Captures (Place.scope "acme" (.field "E" "at")) "" WellKnown.timestamp) := by
  obtain ⟨c, hc, hgen, _⟩ := compile_capturedGraph
  exact ⟨c, hc, by decide, hgen, writes_timeField _, carried_synthesized_iff hc (by decide) hgen (writes_timeField _)⟩

/-- Not every type name that the compiler writes comes to mean what is meant. -/
theorem captured_timestamp : ¬ ∀ (graph : Graph) (standard : String) (c : Compiled), compile graph standard = .ok c →
    ∀ e ∈ graph.entities, ∀ p, p ≠ "" → c.status? e.name = some (.generated p) →
      ∀ place home name, e.Writes p (packagesOf graph standard) place home name →
        c.set.carried p place = some ("." ++ qualify home name) := by
  intro hall
  obtain ⟨c, hc, hgen, hcarried⟩ := compile_capturedGraph
  have hmeant := hall _ _ c hc timedEntity (by decide) "acme" (by decide) hgen _ _ _ (writes_timeField _)
  rw [hcarried] at hmeant
  revert hmeant
  decide

end Compilation

end Protograph
