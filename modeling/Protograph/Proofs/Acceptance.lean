/-
  Protograph.Proofs.Acceptance — when the names that the compiler writes by itself go through.

  The messages and the service of an entity without edges, whose fields name no types, mention
  well-known messages, messages that stand among its own, and its own enumerations, bare or
  behind the name of the entity (`Entity.Mentions`). All of these are looked up in one flat
  list of names.

  Proved:
  - `mentions_of_output`: nothing else is mentioned.
  - `accepted_iff`: what is built goes through if and only if no message mentioned has the name
    of an enumeration of the entity, and the name of the entity, if it begins with a dot, is
    found without it.
  - `refused_status`: what is built need not go through. The enumeration of a field `status`
    also goes by its bare name `Status`, and not only inside the message: an entity `Status`
    with a method Get is refused for the name of its own message.
-/

import Protograph.Proofs.Synthesized
import Protograph.Proofs.Words

namespace Protograph

/-! ## Names mentioned -/

/-- The names that the enumerations of an entity go by. -/
def Entity.enumNames (e : Entity) : List String :=
  (e.ownFields.filter (·.isEnum)).flatMap fun f => [e.name ++ "." ++ enumTypeName f.name, enumTypeName f.name]

/-- A method is asked for that takes or gives the message of the entity, or a page of these. -/
def Entity.NamesItself (e : Entity) : Prop := ∃ m, e.Offers m ∧ m ≠ .delete

/-- A type name that the compiler writes for an entity without edges, and whether it is to be
    an enumeration. -/
inductive Entity.Mentions (e : Entity) : String → Bool → Prop
  | wellKnown {name : String} : name ∈ WellKnown.types.keys → Mentions e name false
  | itself : e.NamesItself → Mentions e e.name false
  | wrapper {f : FieldSpec} : f ∈ e.ownFields → f.isEnum = true → Mentions e (enumWrapperName e.name f.name) false
  | listed {name : String} : e.Offers .list →
      name ∈ [Listing.filterName e.name, Listing.requestName e.name, Listing.responseName e.name] → Mentions e name false
  | bare {f : FieldSpec} : f ∈ e.ownFields → f.isEnum = true → Mentions e (enumTypeName f.name) true
  | nested {f : FieldSpec} : f ∈ e.ownFields → f.isEnum = true → Mentions e (e.name ++ "." ++ enumTypeName f.name) true

/-- An entity is found without the dots in front of its name: nothing else is left of the name
    where there are enumerations, and what is left has a meaning where the message is named. -/
structure NameScope.FindsUndotted (s : NameScope) (e : Entity) : Prop where
  enumerations : ∀ f ∈ e.ownFields, f.isEnum = true → Text.withoutLeadingDots e.name = ""
  itself : e.NamesItself → ∃ m, s.Reads (Text.withoutLeadingDots e.name) false m

namespace Compilation

variable {e : Entity} {p : String} {graph : Graph} {packages : Table String} {own brought : List Message}
  {services : List Service}

/-! ## Nothing else is mentioned -/

/-- A field that names no type and brings no enumeration has a type that filters. -/
theorem filters_of_mapField {offered : List FieldSpec} {f : FieldSpec} {t : MappedType} (hover : f.override? = none)
    (hkind : f.kind ≠ .enumeration) (h : mapField e.name f = .ok t) : Listing.Filters e.name offered t := by
  unfold mapField at h
  rw [typed_of_override hover] at h
  dsimp only at h
  split at h
  · exact absurd ‹_› hkind
  · cases h
    cases f.json.getD .any with
    | any => exact Listing.filters_message (by decide)
    | _ => exact ⟨proper_mapShape _, fun hm => (by cases hm), fun he => (by cases he)⟩
  · exact Listing.filters_of_mapKind h

/-- A field that names no type has, if it is an enumeration, that one or its wrapper for a type,
    and otherwise a type that filters. -/
theorem mapField_cases {f : FieldSpec} {t : MappedType} (hover : f.override? = none) (h : mapField e.name f = .ok t) :
    (f.isEnum = true ∧ (t = .message (enumWrapperName e.name f.name) ∨ t = .enumeration (enumTypeName f.name))) ∨
      Listing.Filters e.name [] t := by
  by_cases hkind : f.kind = .enumeration
  · rw [mapField_of_enumeration hover hkind] at h
    obtain rfl := Except.ok.inj h
    refine .inl ⟨decide_eq_true hkind, ?_⟩
    split
    · exact .inl rfl
    · exact .inr rfl
  · exact .inr (filters_of_mapField hover hkind h)

/-- What filters is mentioned as a well-known message or as a nested enumeration. -/
theorem mentions_of_filters {offered : List FieldSpec} {t : MappedType} {name : String}
    (h : Listing.Filters e.name offered t) (hname : t.typeName = some name)
    (hoffered : ∀ f ∈ offered, f.kind = .enumeration → f ∈ e.ownFields) :
    e.Mentions name (t.type = .enumeration) := by
  have hnamed : t.type.isNamed = true := h.proper.2.mpr (Option.isSome_of_eq_some hname)
  cases htype : t.type with
  | message =>
    obtain ⟨_, hsome, hwell⟩ := h.wellKnown htype
    obtain rfl := Option.some.inj (hsome.symm.trans hname)
    exact .wellKnown hwell
  | enumeration =>
    obtain ⟨f, hf, hkind, hsome⟩ := h.nested htype
    obtain rfl := Option.some.inj (hsome.symm.trans hname)
    exact .nested (hoffered f hf hkind) (decide_eq_true hkind)
  | _ => rw [htype] at hnamed; cases hnamed

theorem mentions_of_mapField {f : FieldSpec} {t : MappedType} {name : String} (hf : f ∈ e.ownFields)
    (hover : f.override? = none) (ht : mapField e.name f = .ok t) (hname : t.typeName = some name) :
    e.Mentions name (t.type = .enumeration) := by
  rcases mapField_cases hover ht with ⟨henum, rfl | rfl⟩ | hfilters
  · obtain rfl := Option.some.inj hname
    exact .wrapper hf henum
  · obtain rfl := Option.some.inj hname
    exact .bare hf henum
  · exact mentions_of_filters hfilters hname (by simp)

/-- The fields that can be filtered are among those that the message has. -/
theorem mem_ownFields_of_candidates {f : FieldSpec} (h : f ∈ Listing.candidates e) : f ∈ e.ownFields := by
  obtain ⟨hin, hkept⟩ := List.mem_filter.mp h
  rcases List.mem_cons.mp hin with rfl | hin
  · exact List.mem_cons_self
  · exact List.mem_cons_of_mem _ (List.mem_filter.mpr ⟨hin, hkept⟩)

theorem mentions_of_own (hedges : e.keptEdges = []) (hover : ∀ f ∈ e.ownFields, f.override? = none)
    (hown : buildMessages e p graph packages = .ok own) {m : Message} (hm : m ∈ own) {x : Field} (hx : x ∈ m.fields)
    {name : String} (hname : x.typeName = some name) : e.Mentions name (x.type = .enumeration) := by
  obtain ⟨fields, edges, enums, rfl, hfields, hnone, _⟩ := buildMessages_ok hown
  rw [hedges, List.forall₂_nil_left_iff] at hnone
  rcases List.mem_cons.mp hm with rfl | hm
  · rw [hnone, List.append_nil] at hx
    obtain ⟨f, hf, t, n, ht, _, rfl⟩ := exists_of_forall₂_right hfields hx
    exact mentions_of_mapField hf (hover f hf) ht hname
  · obtain ⟨f, hf, rfl⟩ := List.mem_map.mp hm
    obtain ⟨hf, henum⟩ := List.mem_filter.mp hf
    obtain rfl := List.mem_singleton.mp hx
    cases hname
    exact .nested hf henum

theorem mentions_of_listing (hlist : e.Offers .list) {messages : List Message} (hbuild : Listing.build e = .ok messages)
    {m : Message} (hm : m ∈ messages) {x : Field} (hx : x ∈ m.fields) {name : String} (hname : x.typeName = some name) :
    e.Mentions name (x.type = .enumeration) := by
  obtain ⟨f, hfilter, rfl⟩ := Listing.build_ok hbuild
  rcases List.mem_cons.mp hm with rfl | hm
  · obtain ⟨fields, rfl, hpushed⟩ := Listing.filter_ok hfilter
    obtain ⟨t, n, ht, he⟩ := hpushed.types x hx
    rw [he] at hname ⊢
    exact mentions_of_filters ht hname fun g hg _ => mem_ownFields_of_candidates hg
  rcases Listing.named_of_page hm hx with ⟨_, hnone⟩ | ⟨htype, _, hsome, hnamed⟩
  · rw [hnone] at hname
    cases hname
  · obtain rfl := Option.some.inj (hsome.symm.trans hname)
    rw [htype]
    rcases hnamed with hknown | rfl | rfl
    · exact .wellKnown hknown
    · exact .listed hlist List.mem_cons_self
    · exact .itself ⟨.list, hlist, by decide⟩

theorem wellKnown_of_identifierWrapper {name : String} (h : EntityService.identifierWrapper e = .ok name) :
    name ∈ WellKnown.types.keys := by
  unfold EntityService.identifierWrapper at h
  split at h
  · rename_i hwrapper
    cases h
    exact Listing.wrapper_wellKnown hwrapper
  · cases h

theorem mentions_of_method {m : Method} (hoffers : e.Offers m) {r : Rpc} {more : List Message}
    (hmethod : EntityService.method e m = .ok (r, more)) : e.Mentions r.input false ∧ e.Mentions r.output false := by
  cases m with
  | create | update =>
    cases hmethod
    exact ⟨.itself ⟨_, hoffers, by decide⟩, .itself ⟨_, hoffers, by decide⟩⟩
  | get =>
    obtain ⟨input, hinput, hmethod⟩ := bind_eq_ok.mp hmethod
    cases hmethod
    exact ⟨.wellKnown (wellKnown_of_identifierWrapper hinput), .itself ⟨_, hoffers, by decide⟩⟩
  | delete =>
    obtain ⟨input, hinput, hmethod⟩ := bind_eq_ok.mp hmethod
    cases hmethod
    have hempty : WellKnown.empty ∈ WellKnown.types.keys := by decide
    exact ⟨.wellKnown (wellKnown_of_identifierWrapper hinput), .wellKnown hempty⟩
  | list =>
    obtain ⟨messages, _, hmethod⟩ := bind_eq_ok.mp hmethod
    cases hmethod
    exact ⟨.listed hoffers (by simp), .listed hoffers (by simp)⟩

/-- The messages and the service of an entity without edges, whose fields name no types,
    mention what they are made to mention and nothing else. -/
theorem mentions_of_output (hedges : e.keptEdges = []) (hover : ∀ f ∈ e.ownFields, f.override? = none)
    (hown : buildMessages e p graph packages = .ok own) (hservice : serviceOf e = .ok (services, brought))
    {x : Mention} (hx : x ∈ mentionsOf (own ++ brought) services) : e.Mentions x.typeName x.wantsEnum := by
  rcases List.mem_append.mp hx with hx | hx
  · obtain ⟨m, hm, hx⟩ := List.mem_flatMap.mp hx
    obtain ⟨f, hf, hx⟩ := List.mem_filterMap.mp hx
    obtain ⟨name, hname, rfl⟩ := Option.map_eq_some_iff.mp hx
    rcases List.mem_append.mp hm with hm | hm
    · exact mentions_of_own hedges hover hown hm hf hname
    · obtain ⟨hlist, messages, hbuild, hm⟩ := listed_of_serviceOf hservice hm
      exact mentions_of_listing hlist hbuild hm hf hname
  · obtain ⟨v, hv, hx⟩ := List.mem_flatMap.mp hx
    obtain ⟨r, hr, hx⟩ := List.mem_flatMap.mp hx
    obtain ⟨_, hmethods⟩ := methods_of_serviceOf hservice hv
    obtain ⟨m, more, hoffers, hmethod⟩ := hmethods r hr
    obtain ⟨hinput, houtput⟩ := mentions_of_method hoffers hmethod
    rcases List.mem_cons.mp hx with rfl | hx
    · exact hinput
    · obtain rfl := List.mem_singleton.mp hx
      exact houtput

/-! ## What is mentioned in any case -/

theorem nested_mentioned (brought : List Message) (services : List Service)
    (hown : buildMessages e p graph packages = .ok own) {f : FieldSpec} (hf : f ∈ e.ownFields) (henum : f.isEnum = true) :
    ∃ x ∈ mentionsOf (own ++ brought) services,
      x.typeName = e.name ++ "." ++ enumTypeName f.name ∧ x.wantsEnum = true := by
  obtain ⟨fields, edges, enums, rfl, _⟩ := buildMessages_ok hown
  have hm : Enumeration.wrapper e.name f ∈
      ({ name := e.name, fields := fields ++ edges, enums } :: (e.ownFields.filter (·.isEnum)).map
        (Enumeration.wrapper e.name)) ++ brought :=
    List.mem_append_left _ (List.mem_cons_of_mem _ (List.mem_map_of_mem (List.mem_filter.mpr ⟨hf, henum⟩)))
  exact ⟨_, mem_mentions_of_field services hm (List.mem_singleton_self _) rfl, rfl, rfl⟩

theorem itself_mentioned (own : List Message) (hservice : serviceOf e = .ok (services, brought))
    (hitself : e.NamesItself) :
    ∃ x ∈ mentionsOf (own ++ brought) services, x.typeName = e.name ∧ x.wantsEnum = false := by
  obtain ⟨m, hoffers, hm⟩ := hitself
  obtain ⟨v, hv, _, r, more, hmethod, hr, hmore⟩ := offered_of_serviceOf hservice hoffers
  have hout : r.output = e.name → ∃ x ∈ mentionsOf (own ++ brought) services, x.typeName = e.name ∧ x.wantsEnum = false := by
    intro houtput
    refine ⟨⟨v.name ++ "." ++ r.name, r.output, false⟩, List.mem_append_right _ ?_, houtput, rfl⟩
    exact List.mem_flatMap.mpr ⟨v, hv, List.mem_flatMap.mpr ⟨r, hr, by simp [Rpc.mentions]⟩⟩
  cases m with
  | create | update => cases hmethod; exact hout rfl
  | get =>
    obtain ⟨_, _, hmethod⟩ := bind_eq_ok.mp hmethod
    cases hmethod
    exact hout rfl
  | delete => exact absurd rfl hm
  | list =>
    obtain ⟨messages, hbuild, hmethod⟩ := bind_eq_ok.mp hmethod
    cases hmethod
    obtain ⟨f, _, rfl⟩ := Listing.build_ok hbuild
    have hresponse : Listing.response e.name ∈ own ++ brought := List.mem_append_right _ (hmore _ (by simp))
    exact ⟨_, mem_mentions_of_field services hresponse List.mem_cons_self rfl, rfl, rfl⟩

/-! ## The scope -/

/-- Messages that a service brings along nest no enumerations. -/
theorem enums_of_brought (hservice : serviceOf e = .ok (services, brought)) {m : Message} (hm : m ∈ brought) :
    m.enums = [] := by
  obtain ⟨_, messages, hbuild, hm⟩ := listed_of_serviceOf hservice hm
  obtain ⟨f, hfilter, rfl⟩ := Listing.build_ok hbuild
  obtain ⟨fields, rfl, _⟩ := Listing.filter_ok hfilter
  simp only [List.mem_cons, List.not_mem_nil, or_false] at hm
  rcases hm with rfl | rfl | rfl <;> rfl

/-- The enumerations in the scope of what is built are those of the entity. -/
theorem enums_of_output (hown : buildMessages e p graph packages = .ok own)
    (hservice : serviceOf e = .ok (services, brought)) :
    (NameScope.ofMessages e.name p (own ++ brought) packages).enums = e.enumNames := by
  obtain ⟨fields, edges, enums, rfl, _, _, henums, _⟩ := buildMessages_ok hown
  have hnames : enums.map (·.name) = (e.ownFields.filter (·.isEnum)).map fun f => enumTypeName f.name := by
    refine map_eq_of_forall₂ (henums.imp fun f en hbuild => ?_)
    obtain ⟨_, _, _, rfl, _⟩ := Enumeration.build_ok hbuild
    rfl
  have hrest : ∀ m ∈ (e.ownFields.filter (·.isEnum)).map (Enumeration.wrapper e.name) ++ brought, m.enums = [] := by
    intro m hm
    rcases List.mem_append.mp hm with hm | hm
    · obtain ⟨f, _, rfl⟩ := List.mem_map.mp hm
      rfl
    · exact enums_of_brought hservice hm
  have hnone : ((e.ownFields.filter (·.isEnum)).map (Enumeration.wrapper e.name) ++ brought).flatMap (fun m =>
      m.enums.flatMap fun en => (m.name ++ "." ++ en.name) :: (if m.name = e.name then [en.name] else [])) = [] := by
    refine List.flatMap_eq_nil_iff.mpr fun m hm => ?_
    rw [hrest m hm, List.flatMap_nil]
  unfold NameScope.ofMessages Entity.enumNames
  dsimp only
  rw [List.cons_append, List.flatMap_cons, hnone, List.append_nil]
  have hsame := congrArg (List.flatMap fun n => [e.name ++ "." ++ n, n]) hnames
  rw [List.flatMap_map, List.flatMap_map] at hsame
  simpa only [if_true] using hsame

/-- The messages that are mentioned, but for the entity's own, are among those built. -/
theorem wrapper_built (hown : buildMessages e p graph packages = .ok own) {f : FieldSpec} (hf : f ∈ e.ownFields)
    (henum : f.isEnum = true) : enumWrapperName e.name f.name ∈ own.map (·.name) := by
  obtain ⟨fields, edges, enums, rfl, _⟩ := buildMessages_ok hown
  have hin : Enumeration.wrapper e.name f ∈ (e.ownFields.filter (·.isEnum)).map (Enumeration.wrapper e.name) :=
    List.mem_map_of_mem (List.mem_filter.mpr ⟨hf, henum⟩)
  exact List.mem_map.mpr ⟨_, List.mem_cons_of_mem _ hin, rfl⟩

theorem listed_built (hservice : serviceOf e = .ok (services, brought)) (hlist : e.Offers .list) {name : String}
    (hname : name ∈ [Listing.filterName e.name, Listing.requestName e.name, Listing.responseName e.name]) :
    name ∈ brought.map (·.name) := by
  obtain ⟨_, _, _, _, _, hmethod, _, hmore⟩ := offered_of_serviceOf hservice hlist
  obtain ⟨messages, hbuild, hmethod⟩ := bind_eq_ok.mp hmethod
  cases hmethod
  obtain ⟨f, hfilter, rfl⟩ := Listing.build_ok hbuild
  obtain ⟨fields, rfl, _⟩ := Listing.filter_ok hfilter
  simp only [List.mem_cons, List.not_mem_nil, or_false] at hname
  rcases hname with rfl | rfl | rfl
  · exact List.mem_map.mpr ⟨_, hmore { name := Listing.filterName e.name, fields } (by simp), rfl⟩
  · exact List.mem_map.mpr ⟨_, hmore (Listing.request e.name) (by simp), rfl⟩
  · exact List.mem_map.mpr ⟨_, hmore (Listing.response e.name) (by simp), rfl⟩

/-- A message of the entity has a meaning, if not that of the message: its name may be that
    of a well-known one. -/
theorem reads_of_message {s : NameScope} {name : String} (hname : name ∈ s.messages) (henum : name ∉ s.enums) :
    ∃ m, s.Reads name false m := by
  cases hwell : WellKnown.types.get? name with
  | none => exact ⟨_, .own henum hwell hname⟩
  | some path => exact ⟨_, .wellKnown henum hwell⟩

/-! ## Names without their dots -/

theorem startsWithDot_of_not_mem {name : String} (h : '.' ∉ name.toList) : Text.startsWithDot name = false := by
  unfold Text.startsWithDot
  cases hname : name.toList with
  | nil => rfl
  | cons c cs =>
    rw [hname] at h
    have hc : c ≠ '.' := fun he => h (he ▸ List.mem_cons_self)
    simpa using hc

theorem withoutLeadingDots_of_not_mem {name : String} (h : '.' ∉ name.toList) : Text.withoutLeadingDots name = name :=
  Text.withoutLeadingDots_of_relative (startsWithDot_of_not_mem h)

/-- In front of another name, a name of nothing but dots is lost, and any other loses its own. -/
theorem withoutLeadingDots_append (name last : String) :
    Text.withoutLeadingDots (name ++ "." ++ last) =
      if Text.withoutLeadingDots name = "" then Text.withoutLeadingDots last
      else Text.withoutLeadingDots name ++ "." ++ last := by
  have hempty : Text.withoutLeadingDots name = "" ↔ (name.toList.dropWhile (· == '.')).isEmpty = true := by
    rw [List.isEmpty_iff, ← String.toList_inj]
    unfold Text.withoutLeadingDots
    simp
  have hlist : (name ++ "." ++ last).toList = name.toList ++ '.' :: last.toList := by simp
  unfold Text.withoutLeadingDots at hempty ⊢
  rw [hlist, List.dropWhile_append]
  by_cases hdots : (name.toList.dropWhile (· == '.')).isEmpty = true
  · rw [if_pos hdots, if_pos (hempty.mpr hdots), List.dropWhile_cons_of_pos rfl]
  · rw [if_neg hdots, if_neg (mt hempty.mp hdots), ← String.toList_inj]
    simp

/-! ## What goes through -/

theorem mem_enumNames {name : String} : name ∈ e.enumNames ↔ ∃ f ∈ e.ownFields, f.isEnum = true ∧
    (name = e.name ++ "." ++ enumTypeName f.name ∨ name = enumTypeName f.name) := by
  unfold Entity.enumNames
  simp only [List.mem_flatMap, List.mem_filter, List.mem_cons, List.not_mem_nil, or_false, and_assoc]

/-- An enumeration of the entity is found behind the name of the entity if and only if that
    name does not begin with a dot, or is all dots. -/
theorem nested_mem_enumNames_iff {f : FieldSpec} (hf : f ∈ e.ownFields) (henum : f.isEnum = true) :
    Text.withoutLeadingDots (e.name ++ "." ++ enumTypeName f.name) ∈ e.enumNames ↔
      (Text.startsWithDot e.name = true → Text.withoutLeadingDots e.name = "") := by
  have hplain : '.' ∉ (enumTypeName f.name).toList := Text.dot_not_mem_upperCamel f.name
  rw [withoutLeadingDots_append]
  by_cases hempty : Text.withoutLeadingDots e.name = ""
  · rw [if_pos hempty, withoutLeadingDots_of_not_mem hplain]
    exact ⟨fun _ _ => hempty, fun _ => mem_enumNames.mpr ⟨f, hf, henum, .inr rfl⟩⟩
  · rw [if_neg hempty, mem_enumNames]
    constructor
    · rintro ⟨g, _, _, hname⟩ hdot
      rcases hname with hname | hname
      · -- what is left of a name does not begin with a dot, but the name does
        have hleft := Text.startsWithDot_append hempty ("." ++ enumTypeName f.name)
        rw [← String.append_assoc, hname, String.append_assoc, Text.startsWithDot_withoutLeadingDots] at hleft
        have hne : e.name ≠ "" := by
          intro h
          rw [h] at hdot
          cases hdot
        rw [Text.startsWithDot_append hne, hdot] at hleft
        cases hleft
      · have hg : '.' ∉ (enumTypeName g.name).toList := Text.dot_not_mem_upperCamel g.name
        rw [← hname] at hg
        simp at hg
    · intro hdot
      have hrel : Text.startsWithDot e.name = false := by
        rw [← Bool.not_eq_true]
        exact fun h => hempty (hdot h)
      rw [Text.withoutLeadingDots_of_relative hrel]
      exact ⟨f, hf, henum, .inl rfl⟩

theorem relative_of_listed {name : String}
    (h : name ∈ [Listing.filterName e.name, Listing.requestName e.name, Listing.responseName e.name]) :
    Text.startsWithDot name = false := by
  have hlist : ∀ last : String, Text.startsWithDot ("List" ++ e.name ++ last) = false := by
    intro last
    rw [String.append_assoc, Text.startsWithDot_append (by decide)]
    decide
  simp only [List.mem_cons, List.not_mem_nil, or_false] at h
  rcases h with rfl | rfl | rfl <;> exact hlist _

/-- A mention has a meaning, unless it is of a message and has the name of an enumeration, or
    is looked up by a name that has lost its dots. -/
theorem reads_of_mentions (hown : buildMessages e p graph packages = .ok own)
    (hservice : serviceOf e = .ok (services, brought))
    (hdots : Text.startsWithDot e.name = true → (NameScope.ofMessages e.name p (own ++ brought) packages).FindsUndotted e)
    {name : String} {wantsEnum : Bool} (h : e.Mentions name wantsEnum)
    (hclash : wantsEnum = false → Text.withoutLeadingDots name ∉ e.enumNames) :
    ∃ m, (NameScope.ofMessages e.name p (own ++ brought) packages).Reads (Text.withoutLeadingDots name) wantsEnum m := by
  have henums : (NameScope.ofMessages e.name p (own ++ brought) packages).enums = e.enumNames :=
    enums_of_output hown hservice
  rw [← henums] at hclash
  have hmessage : ∀ {n : String}, Text.startsWithDot n = false → n ∈ (own ++ brought).map (·.name) →
      Text.withoutLeadingDots n ∉ (NameScope.ofMessages e.name p (own ++ brought) packages).enums →
      ∃ m, (NameScope.ofMessages e.name p (own ++ brought) packages).Reads (Text.withoutLeadingDots n) false m := by
    intro n hrel hin hno
    rw [Text.withoutLeadingDots_of_relative hrel] at hno ⊢
    exact reads_of_message hin hno
  cases h with
  | wellKnown hwell =>
    have hrel : ∀ n ∈ WellKnown.types.keys, Text.startsWithDot n = false := by decide
    have hno := hclash rfl
    rw [Text.withoutLeadingDots_of_relative (hrel name hwell)] at hno ⊢
    cases hfound : WellKnown.types.get? name with
    | none => exact absurd hwell (Table.get?_eq_none.mp hfound)
    | some path => exact ⟨_, .wellKnown hno hfound⟩
  | itself hitself =>
    by_cases hdot : Text.startsWithDot e.name = true
    · exact (hdots hdot).itself hitself
    · have hin : e.name ∈ (own ++ brought).map (·.name) := by
        obtain ⟨_, _, _, rfl, _⟩ := buildMessages_ok hown
        simp
      exact hmessage (Bool.not_eq_true _ ▸ hdot) hin (hclash rfl)
  | @wrapper f hf henum =>
    have hplain : '.' ∉ (enumWrapperName e.name f.name).toList := Text.dot_not_mem_upperCamel _
    refine hmessage (startsWithDot_of_not_mem hplain) ?_ (hclash rfl)
    rw [List.map_append]
    exact List.mem_append_left _ (wrapper_built hown hf henum)
  | listed hlist hname =>
    refine hmessage (relative_of_listed hname) ?_ (hclash rfl)
    rw [List.map_append]
    exact List.mem_append_right _ (listed_built hservice hlist hname)
  | @bare f hf henum =>
    have hplain : '.' ∉ (enumTypeName f.name).toList := Text.dot_not_mem_upperCamel _
    rw [withoutLeadingDots_of_not_mem hplain]
    exact ⟨_, .enumeration (henums ▸ mem_enumNames.mpr ⟨_, hf, henum, .inr rfl⟩)⟩
  | nested hf henum =>
    have hin := (nested_mem_enumNames_iff hf henum).mpr fun hdot => (hdots hdot).enumerations _ hf henum
    exact ⟨_, .enumeration (henums ▸ hin)⟩

/-- What is built for an entity without edges, whose fields name no types, goes through if and
    only if no message mentioned has the name of an enumeration of the entity, and the name of
    the entity does not begin with a dot or is found without it. The table of packages, which
    other entities may have brought anything into, makes no difference but for such a name. -/
theorem accepted_iff (hedges : e.keptEdges = []) (hover : ∀ f ∈ e.ownFields, f.override? = none)
    (hown : buildMessages e p graph packages = .ok own) (hservice : serviceOf e = .ok (services, brought)) :
    (∃ r, (NameScope.ofMessages e.name p (own ++ brought) packages).resolve (own ++ brought) services = .ok r) ↔
      (∀ x ∈ mentionsOf (own ++ brought) services, x.wantsEnum = false → x.name ∉ e.enumNames) ∧
      (Text.startsWithDot e.name = true → (NameScope.ofMessages e.name p (own ++ brought) packages).FindsUndotted e) := by
  have henums : (NameScope.ofMessages e.name p (own ++ brought) packages).enums = e.enumNames :=
    enums_of_output hown hservice
  rw [NameScope.exists_resolve_iff]
  constructor
  · intro hreads
    refine ⟨?_, fun hdot => ⟨?_, ?_⟩⟩
    · intro x hx hwants
      obtain ⟨m, hm⟩ := hreads x hx
      rw [hwants] at hm
      exact henums ▸ hm.not_mem_enums
    · intro f hf henum
      obtain ⟨x, hx, hname, hwants⟩ := nested_mentioned brought services hown hf henum
      obtain ⟨m, hm⟩ := hreads x hx
      rw [Mention.name, hname, hwants] at hm
      exact (nested_mem_enumNames_iff hf henum).mp (henums ▸ hm.mem_enums) hdot
    · intro hitself
      obtain ⟨x, hx, hname, hwants⟩ := itself_mentioned own hservice hitself
      obtain ⟨m, hm⟩ := hreads x hx
      rw [Mention.name, hname, hwants] at hm
      exact ⟨m, hm⟩
  · intro h
    obtain ⟨hclash, hdots⟩ := h
    intro x hx
    exact reads_of_mentions hown hservice hdots (mentions_of_output hedges hover hown hservice hx) (hclash x hx)

/-! ## An entity that is refused for its own name -/

/-- An optional enumeration, which can be filtered, and every method there is. -/
def ticketEntity : Entity :=
  { name := "Ticket"
    fields := [{ name := "state", kind := .enumeration, optional := true, values := ["open", "closed"]
                 annotations :=
                   { field := some { number := 2 }
                     enumeration := some { numbers := [("open", 1), ("closed", 2)] }
                     filter := some { mode := ⟨5⟩ } } }]
    annotations := { message := some {}, service := some {} } }

theorem accepted_iff_ticketEntity : ∃ own brought services,
    ticketEntity.keptEdges = [] ∧ (∀ f ∈ ticketEntity.ownFields, f.override? = none) ∧
    buildMessages ticketEntity "desk" ⟨[ticketEntity], by decide⟩ [("Ticket", "desk")] = .ok own ∧
    serviceOf ticketEntity = .ok (services, brought) ∧
    ((∃ r, (NameScope.ofMessages "Ticket" "desk" (own ++ brought) [("Ticket", "desk")]).resolve (own ++ brought) services =
        .ok r) ↔
      (∀ x ∈ mentionsOf (own ++ brought) services, x.wantsEnum = false → x.name ∉ ticketEntity.enumNames) ∧
      (Text.startsWithDot "Ticket" = true →
        (NameScope.ofMessages "Ticket" "desk" (own ++ brought) [("Ticket", "desk")]).FindsUndotted ticketEntity)) := by
  have hbuilds : (buildMessages ticketEntity "desk" ⟨[ticketEntity], by decide⟩ [("Ticket", "desk")]).toOption.any
      (fun _ => true) = true := by decide +kernel
  have hserves : (serviceOf ticketEntity).toOption.any (fun _ => true) = true := by decide +kernel
  obtain ⟨own, hown, _⟩ := exists_ok_of_any hbuilds
  obtain ⟨⟨services, brought⟩, hservice, _⟩ := exists_ok_of_any hserves
  exact ⟨own, brought, services, by decide, by decide, hown, hservice,
    accepted_iff (e := ticketEntity) (by decide) (by decide) hown hservice⟩

/-- The enumeration of the field goes by the name of the entity. -/
def statusEntity : Entity :=
  { name := "Status"
    fields := [{ name := "status", kind := .enumeration, values := ["open"]
                 annotations :=
                   { field := some { number := 2 }, enumeration := some { numbers := [("open", 1)] } } }]
    annotations := { message := some {}, service := some { methods := ⟨2⟩ } } }

def statusGraph : Graph := ⟨[statusEntity], by decide⟩

/-- What is built without edges and without types that the schema names need not go through. -/
theorem refused_status : ¬ ∀ (e : Entity) (p : String) (graph : Graph) (packages : Table String)
    (own brought : List Message) (services : List Service),
    e.keptEdges = [] → (∀ f ∈ e.ownFields, f.override? = none) → packages.get? e.name = some p →
      buildMessages e p graph packages = .ok own → serviceOf e = .ok (services, brought) →
        ∃ r, (NameScope.ofMessages e.name p (own ++ brought) packages).resolve (own ++ brought) services = .ok r := by
  intro hall
  have hrefused : (buildMessages statusEntity standardPackage statusGraph [("Status", standardPackage)]).toOption.any
      (fun own => (serviceOf statusEntity).toOption.any fun out =>
        !((NameScope.ofMessages "Status" standardPackage (own ++ out.2) [("Status", standardPackage)]).resolve
          (own ++ out.2) out.1).toOption.isSome) = true := by decide +kernel
  obtain ⟨own, hown, hrefused⟩ := exists_ok_of_any hrefused
  obtain ⟨⟨services, brought⟩, hservice, hrefused⟩ := exists_ok_of_any hrefused
  obtain ⟨r, hr⟩ := hall statusEntity standardPackage statusGraph [("Status", standardPackage)] own brought services
    (by decide) (by decide) (by decide) hown hservice
  have hr : (NameScope.ofMessages "Status" standardPackage (own ++ brought) [("Status", standardPackage)]).resolve
      (own ++ brought) services = .ok r := hr
  dsimp only at hrefused
  rw [hr] at hrefused
  cases hrefused

end Compilation

end Protograph
