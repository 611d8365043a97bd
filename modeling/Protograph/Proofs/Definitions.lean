/-
  Protograph.Proofs.Definitions — what the output of an entity refers to is defined in it.

  Names and what they name are written in different places: the enumerations and their wrappers
  by the fields of the entity, their uses by these fields, the wrappers and the filter, and the
  list messages by the methods that are asked for. So definitions and uses are taken apart:
  - what is defined (`Provides`, `provides_of_build`): a kept enumeration is nested and wrapped,
    whether or not the schema names another type for its field, and one method alone brings the
    list messages, whose names no other message has (`mem_names_iff`).
  - what is used, field by field and method by method, is what is provided
    (`defined_of_mapField`, `defined_of_wrapper`, `defined_of_listing`, `named_of_service`).

  Proved: `selfContained_of_build`, for whatever messages and service are built.
-/

import Protograph.Proofs.Acceptance
import Protograph.Proofs.Layout

namespace Protograph

/-- A field that names an enumeration of some names, behind `front`, a message that is well
    known or has one of some names, or nothing. -/
inductive Field.Defined (front : String) (enums messages : List String) (x : Field) : Prop
  | enumeration {name : String} : x.type = .enumeration → x.typeName = some (front ++ name) → name ∈ enums →
      Defined front enums messages x
  | message {name : String} : x.type = .message → x.typeName = some name →
      name ∈ WellKnown.types.keys ∨ name ∈ messages → Defined front enums messages x
  | unnamed : x.type.isNamed = false → x.typeName = none → Defined front enums messages x

namespace Listing

/-- The names of the list messages. -/
def messageNames (entity : String) : List String := [filterName entity, requestName entity, responseName entity]

end Listing

/-- What the compiler writes for an entity is defined in its messages and in those of its
    service. -/
structure Entity.SelfContained (e : Entity) (primary : Message) (wrappers : List Message) (out : ServiceOutput) :
    Prop where
  name : primary.name = e.name
  flat : ∀ m ∈ primary :: wrappers ++ out.messages, m.nested = []
  /-- In the message of the entity, before its edges and apart from types that the schema names,
      an enumeration is named without the entity. -/
  own : ∃ fields edges, primary.fields = fields ++ edges ∧ edges.map (·.name) = e.keptEdges.map (·.name) ∧
    List.Forall₂ (fun f x => x.name = f.name ∧ (f.override? = none →
      x.Defined "" (primary.enums.map (·.name)) ((primary :: wrappers ++ out.messages).map (·.name)))) e.ownFields fields
  elsewhere : ∀ m ∈ wrappers ++ out.messages, ∀ x ∈ m.fields,
    x.Defined (e.name ++ ".") (primary.enums.map (·.name)) ((primary :: wrappers ++ out.messages).map (·.name))
  methods : ∀ r ∈ out.service.methods, ∀ name ∈ [r.input, r.output], name ∈ WellKnown.types.keys ∨
    name ∈ [e.name, Listing.requestName e.name, Listing.responseName e.name] ∧
      name ∈ (primary :: wrappers ++ out.messages).map (·.name)
  listed : "List" ∈ out.service.methods.map (·.name) →
    ∀ name ∈ Listing.messageNames e.name, name ∈ (primary :: wrappers ++ out.messages).map (·.name)
  unlisted : "List" ∉ out.service.methods.map (·.name) →
    ∀ name ∈ Listing.messageNames e.name, name ∉ (primary :: wrappers ++ out.messages).map (·.name)

namespace Compilation

variable {e : Entity} {p : String} {graph : Graph} {packages : Table String} {own : List Message}
  {options : ServiceOptions} {out : ServiceOutput}

/-! ## Methods -/

theorem name_of_method {m : Method} {r : Rpc × List Message} (h : EntityService.method e m = .ok r) :
    r.1.name = m.name := by
  cases m with
  | create | update => cases h; rfl
  | get | delete | list =>
    obtain ⟨_, _, h⟩ := bind_eq_ok.mp h
    cases h
    rfl

/-- A listing brings its messages along, and no other method brings any. -/
theorem brought_of_method {m : Method} {r : Rpc × List Message} (h : EntityService.method e m = .ok r) :
    if m = .list then Listing.build e = .ok r.2 else r.2 = [] := by
  cases m with
  | create | update => cases h; rfl
  | get | delete =>
    obtain ⟨_, _, h⟩ := bind_eq_ok.mp h
    cases h
    rfl
  | list =>
    obtain ⟨_, hbuild, h⟩ := bind_eq_ok.mp h
    cases h
    exact hbuild

/-- Of methods that are not repeated, one at most brings messages along. -/
theorem brought_of_methods {ms : List Method} {rs : List (Rpc × List Message)}
    (h : List.Forall₂ (fun m r => EntityService.method e m = .ok r) ms rs) (hnodup : ms.Nodup) :
    if .list ∈ ms then Listing.build e = .ok (rs.flatMap (·.2)) else rs.flatMap (·.2) = [] := by
  induction h with
  | nil => rfl
  | @cons m r ms rs hm _ ih =>
    obtain ⟨hnew, hnodup⟩ := List.nodup_cons.mp hnodup
    have hhead := brought_of_method hm
    have hrest := ih hnodup
    rw [List.flatMap_cons]
    by_cases hlist : m = .list
    · subst hlist
      rw [if_neg hnew] at hrest
      rwa [if_pos List.mem_cons_self, hrest, List.append_nil]
    · rw [if_neg hlist] at hhead
      simpa [hhead, Ne.symm hlist] using hrest

/-- The list messages are there if and only if the method is. -/
theorem listing_of_buildService (h : buildService e options = .ok out) :
    if "List" ∈ out.service.methods.map (·.name) then Listing.build e = .ok out.messages else out.messages = [] := by
  obtain ⟨rs, hrs, rfl⟩ := buildService_ok h
  have hnames : rs.map (fun r => r.1.name) = options.methods.toList.map Method.name :=
    map_eq_of_forall₂ (hrs.imp fun _ _ hmethod => name_of_method hmethod)
  have hlist : "List" ∈ (rs.map (·.1)).map (·.name) ↔ Method.list ∈ options.methods.toList := by
    rw [List.map_map, Function.comp_def, hnames, List.mem_map]
    constructor
    · rintro ⟨m, hm, hname⟩
      cases m with
      | list => exact hm
      | _ => exact absurd hname (by decide)
    · exact fun hm => ⟨_, hm, rfl⟩
  have hbrought := brought_of_methods hrs (List.Nodup.filter _ (by decide))
  simpa only [hlist] using hbrought

/-! ## Names of messages -/

theorem names_of_listing {listed : List Message} (h : Listing.build e = .ok listed) :
    listed.map (·.name) = Listing.messageNames e.name := by
  obtain ⟨f, hfilter, rfl⟩ := Listing.build_ok h
  obtain ⟨fields, rfl, _⟩ := Listing.filter_ok hfilter
  rfl

/-- The messages of an entity and of its service are its own, the wrappers of its enumerations
    and, with a listing, the list messages. -/
theorem mem_names_iff (hown : buildMessages e p graph packages = .ok own) (hout : buildService e options = .ok out)
    (name : String) : name ∈ (own ++ out.messages).map (·.name) ↔
      name = e.name ∨ (∃ f ∈ e.ownFields, f.isEnum = true ∧ enumWrapperName e.name f.name = name) ∨
        "List" ∈ out.service.methods.map (·.name) ∧ name ∈ Listing.messageNames e.name := by
  obtain ⟨_, _, _, rfl, _⟩ := buildMessages_ok hown
  have hlisted : name ∈ out.messages.map (·.name) ↔
      "List" ∈ out.service.methods.map (·.name) ∧ name ∈ Listing.messageNames e.name := by
    have hlisting := listing_of_buildService hout
    by_cases hlist : "List" ∈ out.service.methods.map (·.name)
    · rw [if_pos hlist] at hlisting
      rw [names_of_listing hlisting, and_iff_right hlist]
    · rw [if_neg hlist] at hlisting
      simp [hlisting, hlist]
  have hwrapper : name ∈ ((e.ownFields.filter (·.isEnum)).map (Enumeration.wrapper e.name)).map (·.name) ↔
      ∃ f ∈ e.ownFields, f.isEnum = true ∧ enumWrapperName e.name f.name = name := by
    rw [List.map_map, List.mem_map]
    simp only [List.mem_filter, and_assoc]
    rfl
  rw [List.map_append, List.mem_append, hlisted, List.map_cons, List.mem_cons, hwrapper, or_assoc]

theorem enumWrapperName_eq (entity field : String) :
    enumWrapperName entity field = Text.upperCamel (entity ++ "_" ++ field) ++ "EnumValue" := by
  have hbetween : entity ++ "_" ++ field ++ "_enum_value" = entity ++ "_" ++ field ++ "_" ++ "enum_value" := by
    have hsplit : "_enum_value" = "_" ++ "enum_value" := rfl
    rw [hsplit, ← String.append_assoc]
  have hword : Text.upperCamel "enum_value" = "EnumValue" := by decide +kernel
  rw [enumWrapperName, hbetween, @Text.upperCamel_append "_" '_' rfl (by decide), hword]

/-- The list messages of an entity have longer names than it has. -/
theorem name_not_listed (entity : String) : entity ∉ Listing.messageNames entity := by
  simp only [Listing.messageNames, Listing.filterName, Listing.requestName, Listing.responseName, List.mem_cons,
    List.not_mem_nil, or_false]
  rintro (h | h | h)
  all_goals
    have hlength := congrArg String.length h
    have hfront : "List".length = 4 := rfl
    simp only [String.length_append] at hlength
    omega

/-- They end otherwise than a wrapper does. -/
theorem wrapper_not_listed (entity field : String) : enumWrapperName entity field ∉ Listing.messageNames entity := by
  simp only [Listing.messageNames, Listing.filterName, Listing.requestName, Listing.responseName, List.mem_cons,
    List.not_mem_nil, or_false]
  rw [enumWrapperName_eq]
  rintro (h | h | h)
  all_goals
    have hends := congrArg (fun s => s.toList.reverse.take 2) h
    simp at hends

/-! ## What is defined -/

/-- Names of enumerations and of messages among which are those that an entity with a service
    needs. -/
structure Provides (e : Entity) (service : Service) (enums messages : List String) : Prop where
  itself : e.name ∈ messages
  enums : ∀ f ∈ e.ownFields, f.isEnum = true → enumTypeName f.name ∈ enums
  wrappers : ∀ f ∈ e.ownFields, f.isEnum = true → enumWrapperName e.name f.name ∈ messages
  listed : "List" ∈ service.methods.map (·.name) → ∀ name ∈ Listing.messageNames e.name, name ∈ messages

theorem provides_of_build {primary : Message} {wrappers : List Message}
    (hown : buildMessages e p graph packages = .ok (primary :: wrappers)) (hout : buildService e options = .ok out) :
    Provides e out.service (primary.enums.map (·.name)) ((primary :: wrappers ++ out.messages).map (·.name)) := by
  have hnames := mem_names_iff hown hout
  refine ⟨(hnames _).mpr (.inl rfl), fun f hf henum => ?_, fun f hf henum => ?_, fun hlist name hname => ?_⟩
  · obtain ⟨_, _, enums, heq, _, _, henums, _⟩ := buildMessages_ok hown
    obtain ⟨rfl, _⟩ := List.cons.inj heq
    obtain ⟨en, hen, hbuild⟩ := exists_of_forall₂_left henums (List.mem_filter.mpr ⟨hf, henum⟩)
    exact List.mem_map.mpr ⟨en, hen, Enumeration.name_of_build hbuild⟩
  · exact (hnames _).mpr (.inr (.inl ⟨f, hf, henum, rfl⟩))
  · exact (hnames _).mpr (.inr (.inr ⟨hlist, hname⟩))

/-! ## What is used -/

theorem defined_of_filters {front entity name : String} {enums messages : List String} {offered : List FieldSpec}
    {t : MappedType} {n : Int} (h : Listing.Filters entity offered t)
    (henums : ∀ f ∈ offered, f.kind = .enumeration → ∃ en ∈ enums, entity ++ "." ++ enumTypeName f.name = front ++ en) :
    (t.toField name n).Defined front enums messages := by
  cases htype : t.type with
  | enumeration =>
    obtain ⟨f, hf, hkind, hname⟩ := h.nested htype
    obtain ⟨en, hen, heq⟩ := henums f hf hkind
    exact .enumeration htype (heq ▸ hname) hen
  | message =>
    obtain ⟨known, hname, hknown⟩ := h.wellKnown htype
    exact .message htype hname (.inl hknown)
  | _ =>
    have hunnamed : t.type.isNamed = false := by
      rw [htype]
      rfl
    have hnone : ¬ t.typeName.isSome = true := by
      rw [← h.proper.2, hunnamed]
      decide
    exact .unnamed hunnamed (Option.not_isSome_iff_eq_none.mp hnone)

section Uses

variable {enums messages : List String} (hp : Provides e out.service enums messages)

include hp

/-- A field of the entity whose type the schema does not name. -/
theorem defined_of_mapField {f : FieldSpec} (hf : f ∈ e.ownFields) (hover : f.override? = none) {t : MappedType}
    (ht : mapField e.name f = .ok t) (n : Int) : (t.toField f.name n).Defined "" enums messages := by
  rcases mapField_cases hover ht with ⟨henum, rfl | rfl⟩ | hfilters
  · exact .message rfl rfl (.inr (hp.wrappers f hf henum))
  · exact .enumeration rfl (by rw [String.empty_append]; rfl) (hp.enums f hf henum)
  · exact defined_of_filters hfilters (by simp)

theorem defined_of_wrapper {f : FieldSpec} (hf : f ∈ e.ownFields) (henum : f.isEnum = true) :
    ∀ x ∈ (Enumeration.wrapper e.name f).fields, x.Defined (e.name ++ ".") enums messages := by
  intro x hx
  obtain rfl := List.mem_singleton.mp hx
  exact .enumeration rfl rfl (hp.enums f hf henum)

theorem defined_of_listing {listed : List Message} (h : Listing.build e = .ok listed)
    (hlist : "List" ∈ out.service.methods.map (·.name)) {m : Message} (hm : m ∈ listed) :
    m.nested = [] ∧ ∀ x ∈ m.fields, x.Defined (e.name ++ ".") enums messages := by
  obtain ⟨f, hfilter, rfl⟩ := Listing.build_ok h
  obtain ⟨fields, rfl, hpushed⟩ := Listing.filter_ok hfilter
  rcases List.mem_cons.mp hm with rfl | hm
  · refine ⟨rfl, fun x hx => ?_⟩
    obtain ⟨t, n, ht, he⟩ := hpushed.types x hx
    rw [he]
    refine defined_of_filters ht fun g hg hkind => ?_
    exact ⟨_, hp.enums g (mem_ownFields_of_candidates hg) (decide_eq_true hkind), rfl⟩
  · have hflat : m.nested = [] := by
      rcases List.mem_cons.mp hm with rfl | hm
      · rfl
      · rw [List.mem_singleton.mp hm]
        rfl
    refine ⟨hflat, fun x hx => ?_⟩
    rcases Listing.named_of_page hm hx with ⟨hunnamed, hnone⟩ | ⟨htype, name, hname, hnamed⟩
    · exact .unnamed hunnamed hnone
    · refine .message htype hname ?_
      rcases hnamed with hknown | rfl | rfl
      · exact .inl hknown
      · exact .inr (hp.listed hlist _ List.mem_cons_self)
      · exact .inr hp.itself

/-- What a method takes and gives is well known, or the message of the entity, or for a listing
    its request and its response. -/
theorem named_of_method {m : Method} {r : Rpc × List Message} (h : EntityService.method e m = .ok r)
    (hr : r.1.name ∈ out.service.methods.map (·.name)) :
    ∀ name ∈ [r.1.input, r.1.output], name ∈ WellKnown.types.keys ∨
      name ∈ [e.name, Listing.requestName e.name, Listing.responseName e.name] ∧ name ∈ messages := by
  cases m with
  | create | update =>
    cases h
    simp [hp.itself]
  | get =>
    obtain ⟨input, hinput, h⟩ := bind_eq_ok.mp h
    cases h
    simp [wellKnown_of_identifierWrapper hinput, hp.itself]
  | delete =>
    obtain ⟨input, hinput, h⟩ := bind_eq_ok.mp h
    cases h
    have hempty : WellKnown.empty ∈ WellKnown.types.keys := by decide
    simp [wellKnown_of_identifierWrapper hinput, hempty]
  | list =>
    obtain ⟨_, _, h⟩ := bind_eq_ok.mp h
    cases h
    exact fun name hname => .inr ⟨List.mem_cons_of_mem _ hname, hp.listed hr name (List.mem_cons_of_mem _ hname)⟩

theorem named_of_service (hout : buildService e options = .ok out) :
    ∀ r ∈ out.service.methods, ∀ name ∈ [r.input, r.output], name ∈ WellKnown.types.keys ∨
      name ∈ [e.name, Listing.requestName e.name, Listing.responseName e.name] ∧ name ∈ messages := by
  obtain ⟨rs, hrs, rfl⟩ := buildService_ok hout
  intro r hr
  obtain ⟨r', hr', rfl⟩ := List.mem_map.mp hr
  obtain ⟨m, _, hmethod⟩ := exists_of_forall₂_right hrs hr'
  exact named_of_method hp hmethod (List.mem_map_of_mem hr)

theorem defined_of_service (hout : buildService e options = .ok out) {m : Message} (hm : m ∈ out.messages) :
    m.nested = [] ∧ ∀ x ∈ m.fields, x.Defined (e.name ++ ".") enums messages := by
  have hlisting := listing_of_buildService hout
  by_cases hlist : "List" ∈ out.service.methods.map (·.name)
  · rw [if_pos hlist] at hlisting
    exact defined_of_listing hp hlisting hlist hm
  · rw [if_neg hlist] at hlisting
    rw [hlisting] at hm
    cases hm

end Uses

/-! ## Whole outputs -/

/-- What messages and service of an entity refer to by names that the compiler writes is
    defined among them. -/
theorem selfContained_of_build (hown : buildMessages e p graph packages = .ok own) (hout : buildService e options = .ok out) :
    ∃ primary wrappers, own = primary :: wrappers ∧ e.SelfContained primary wrappers out := by
  have hnames := mem_names_iff hown hout
  obtain ⟨fields, edges, enums, rfl, hfields, hedges, _⟩ := buildMessages_ok hown
  have hp := provides_of_build hown hout
  refine ⟨_, _, rfl, rfl, ?_, ?_, ?_, named_of_service hp hout, hp.listed, ?_⟩
  · intro m hm
    rcases List.mem_append.mp hm with hm | hm
    · rcases List.mem_cons.mp hm with rfl | hm
      · rfl
      · obtain ⟨f, _, rfl⟩ := List.mem_map.mp hm
        rfl
    · exact (defined_of_service hp hout hm).1
  · refine ⟨fields, edges, rfl, map_eq_of_forall₂ (hedges.imp fun edge x hedge => ?_),
      (forall₂_mem hfields).imp fun f x hfield => ?_⟩
    · obtain ⟨_, _, _, _, _, _, rfl⟩ := resolveEdge_ok hedge
      rfl
    · obtain ⟨hf, _, t, n, ht, _, rfl⟩ := hfield
      exact ⟨rfl, fun hover => defined_of_mapField hp hf hover ht n⟩
  · intro m hm
    rcases List.mem_append.mp hm with hm | hm
    · obtain ⟨f, hf, rfl⟩ := List.mem_map.mp hm
      obtain ⟨hf, henum⟩ := List.mem_filter.mp hf
      exact defined_of_wrapper hp hf henum
    · exact (defined_of_service hp hout hm).2
  · intro hlist name hname hin
    rcases (hnames _).mp hin with rfl | ⟨f, _, _, rfl⟩ | ⟨hin, _⟩
    · exact name_not_listed _ hname
    · exact wrapper_not_listed _ _ hname
    · exact hlist hin

/-- An optional enumeration that can be filtered, in its wrapper and in a filter. -/
theorem selfContained_of_build_ticketEntity : ∃ primary wrappers out,
    buildMessages ticketEntity "desk" ⟨[ticketEntity], by decide⟩ [("Ticket", "desk")] = .ok (primary :: wrappers) ∧
    buildService ticketEntity {} = .ok out ∧ "List" ∈ out.service.methods.map (·.name) ∧
    ticketEntity.SelfContained primary wrappers out := by
  have hbuilds : (buildMessages ticketEntity "desk" ⟨[ticketEntity], by decide⟩ [("Ticket", "desk")]).toOption.any
      (fun _ => true) = true := by decide +kernel
  have hserves : (buildService ticketEntity {}).toOption.any
      (fun out => decide ("List" ∈ out.service.methods.map (·.name))) = true := by decide +kernel
  obtain ⟨own, hown, _⟩ := exists_ok_of_any hbuilds
  obtain ⟨out, hout, hlist⟩ := exists_ok_of_any hserves
  obtain ⟨primary, wrappers, rfl, hself⟩ := selfContained_of_build hown hout
  exact ⟨primary, wrappers, out, hown, hout, of_decide_eq_true hlist, hself⟩

end Compilation

end Protograph
