/-
  Protograph.Proofs.Spelling — type names as a text spells them, and what they mean there.

  A text spells a name without its dots in front, and puts one dot back where the first
  part of the name is a namespace further in (`spell_of_shadows`, `spell_of_not_shadows`).
  The set goes by the name as it is written.

  Proved:
  - `agrees_iff`: what a place prints means what the set carries there if and only if the
    file is in the set, a name that gets a dot is meant at the root, and a name that loses
    its dot is found without it (`Compiled.Faithful`).
  - `disagrees_status`: they can differ. In the package `corp.app`, beside a package
    `corp.user`, the enumeration `user.Status` of the entity `user` is spelled with a dot
    in front, and there is nothing of that name.
-/

import Protograph.Descriptor.SourceText
import Protograph.Proofs.Synthesized

namespace Protograph

/-! ## Spelling -/

namespace Namespaces

variable {n : Namespaces} {package t : String}

/-- Inside the package, or one around it, the first part of a dotted name is a namespace. -/
def Shadows (n : Namespaces) (package name : String) : Prop :=
  ∃ cut ∈ Text.cutFirstDot name, ∃ scope ∈ ofPackage package, scope ++ "." ++ cut.1 ∈ n

instance : Decidable (n.Shadows package t) :=
  inferInstanceAs (Decidable (∃ cut ∈ Text.cutFirstDot t, ∃ scope ∈ ofPackage package, scope ++ "." ++ cut.1 ∈ n))

theorem spell_eq (n : Namespaces) (package t : String) : n.spell package t =
    if n.Shadows package (Text.withoutLeadingDots t) then "." ++ Text.withoutLeadingDots t
    else Text.withoutLeadingDots t := by
  cases hcut : Text.cutFirstDot (Text.withoutLeadingDots t) with
  | none => simp [spell, Shadows, hcut]
  | some cut => simp [spell, Shadows, hcut]

theorem spell_of_shadows (h : n.Shadows package (Text.withoutLeadingDots t)) :
    n.spell package t = "." ++ Text.withoutLeadingDots t := by
  rw [spell_eq, if_pos h]

theorem spell_of_not_shadows (h : ¬ n.Shadows package (Text.withoutLeadingDots t)) :
    n.spell package t = Text.withoutLeadingDots t := by
  rw [spell_eq, if_neg h]

end Namespaces

/-! ## What is found -/

namespace DescriptorSet

open Assembly (symbolsOf)

variable {set : DescriptorSet} {scope name full : String}

theorem defines_of_resolve {s : Symbol} (h : (symbolsOf set.all).resolve scope name = some s) : set.Defines s.name :=
  List.mem_map_of_mem (Symbols.mem_of_resolve h)

/-- A name with a dot in front finds what has the rest as its name. -/
theorem finds_full_iff : (∃ s, (symbolsOf set.all).resolve scope ("." ++ name) = some s ∧ s.name = full) ↔
    set.Defines full ∧ name = full := by
  rw [Symbols.resolve_full]
  constructor
  · intro h
    obtain ⟨s, hs, rfl⟩ := h
    have hname : s.name = name := eq_of_beq (List.find?_some hs :)
    exact ⟨List.mem_map_of_mem (List.mem_of_find?_eq_some hs), hname.symm⟩
  · intro h
    obtain ⟨hdefines, rfl⟩ := h
    cases hs : (symbolsOf set.all).find? name with
    | none => exact absurd hdefines (Symbols.find?_eq_none.mp hs)
    | some s => exact ⟨s, rfl, eq_of_beq (List.find?_some hs :)⟩

/-- A name without a dot in front finds what has its name in a scope around, if nothing
    further in captures it. -/
theorem finds_relative_iff (hrel : Text.startsWithDot name = false) :
    (∃ s, (symbolsOf set.all).resolve scope name = some s ∧ s.name = full) ↔
      set.Defines full ∧ ∃ home ∈ enclosingScopes scope, full = qualify home name ∧ ¬ set.Captures scope home name := by
  constructor
  · intro h
    obtain ⟨s, hs, rfl⟩ := h
    obtain ⟨_, home, hhome, hname, hinner⟩ := Symbols.resolve_eq_some hrel hs
    refine ⟨defines_of_resolve hs, home, hhome, hname, fun hcaptures => ?_⟩
    obtain ⟨inner, hin, hlt, hdefines⟩ := hcaptures
    exact hinner inner hin hlt hdefines
  · intro h
    obtain ⟨hdefines, home, hhome, rfl, hfree⟩ := h
    refine (Symbols.resolves_iff hrel hhome).mpr ⟨hdefines, fun inner hin hlt hdefines' => ?_⟩
    exact hfree ⟨inner, hin, hlt, hdefines'⟩

end DescriptorSet

/-! ## Texts and sets -/

namespace Place

/-- Every place in some messages and services that names a type, with the name. -/
def written (messages : List Message) (services : List Service) : List (Place × String) :=
  (messages.flatMap fun m => m.fields.filterMap fun f => f.typeName.map (.field m.name f.name, ·)) ++
    services.flatMap fun s => s.methods.flatMap fun r => [(.input s.name r.name, r.input), (.output s.name r.name, r.output)]

theorem mem_written {messages : List Message} {services : List Service} {place : Place} {t : String} :
    (place, t) ∈ written messages services ↔ place.Names messages services t := by
  unfold written
  simp only [List.mem_append, List.mem_flatMap, List.mem_filterMap, Option.map_eq_some_iff, List.mem_cons,
    List.not_mem_nil, or_false]
  constructor
  · intro h
    rcases h with ⟨m, hm, f, hf, t, ht, he⟩ | ⟨s, hs, r, hr, he⟩
    · cases he
      exact .field hm hf ht
    · rcases he with he | he
      · cases he
        exact .input hs hr
      · cases he
        exact .output hs hr
  · intro h
    cases h with
    | field hm hf ht => exact .inl ⟨_, hm, _, hf, _, ht, rfl⟩
    | input hs hr => exact .inr ⟨_, hs, _, hr, .inl rfl⟩
    | output hs hr => exact .inr ⟨_, hs, _, hr, .inr rfl⟩

instance (messages : List Message) (services : List Service) (place : Place) (t : String) :
    Decidable (place.Names messages services t) := decidable_of_iff _ mem_written

end Place

namespace Compiled

/-- A type name as the text of a package spells it. -/
def printed (c : Compiled) (package t : String) : String := (Namespaces.ofUnits c.units).spell package t

/-- What a name means that is printed at a place is what the set carries there. -/
def Agrees (c : Compiled) (package : String) (place : Place) (t : String) : Prop :=
  ∃ s, (Assembly.symbolsOf c.set.all).resolve (place.scope package) (c.printed package t) = some s ∧
    c.set.carried package place = some ("." ++ s.name)

instance (c : Compiled) (package : String) (place : Place) (t : String) : Decidable (c.Agrees package place t) :=
  decidable_of_iff (((Assembly.symbolsOf c.set.all).resolve (place.scope package) (c.printed package t)).any fun s =>
    c.set.carried package place = some ("." ++ s.name)) (by simp [Agrees, Option.any_eq_true])

/-- The name gets a dot: its first part is a namespace inside the package or one around it. -/
def Shadowed (c : Compiled) (package t : String) : Prop :=
  (Namespaces.ofUnits c.units).Shadows package (Text.withoutLeadingDots t)

/-- That a dot put in front of a name, or taken away, makes no difference. -/
structure Faithful (c : Compiled) (package : String) (place : Place) (t : String) : Prop where
  /-- The file of the package is in the set. -/
  present : ∃ f ∈ c.set.files, f.package = package
  /-- A relative name that gets a dot is found at the root. -/
  relative : Text.startsWithDot t = false → c.Shadowed package t →
    c.set.Defines t ∧ ¬ c.set.Captures (place.scope package) "" t
  /-- A full name that keeps a dot has only that one. -/
  kept : Text.startsWithDot t = true → c.Shadowed package t → t = "." ++ Text.withoutLeadingDots t
  /-- A full name that loses its dot is found without it. -/
  dropped : Text.startsWithDot t = true → ¬ c.Shadowed package t →
    ∃ home ∈ enclosingScopes (place.scope package), t = "." ++ qualify home (Text.withoutLeadingDots t) ∧
      ¬ c.set.Captures (place.scope package) home (Text.withoutLeadingDots t)

theorem printed_eq (c : Compiled) (package t : String) :
    (c.Shadowed package t ∧ c.printed package t = "." ++ Text.withoutLeadingDots t) ∨
      (¬ c.Shadowed package t ∧ c.printed package t = Text.withoutLeadingDots t) := by
  by_cases h : c.Shadowed package t
  · exact .inl ⟨h, Namespaces.spell_of_shadows h⟩
  · exact .inr ⟨h, Namespaces.spell_of_not_shadows h⟩

end Compiled

namespace Compilation

open Assembly (symbolsOf)

variable {graph : Graph} {standard : String}

/-- What a compilation puts together: units of distinct packages. -/
theorem assemble_of_compile {c : Compiled} (h : compile graph standard = .ok c) :
    assemble c.units = .ok c.set ∧ (c.units.map (·.package)).Nodup := by
  obtain ⟨hunits, hset, _⟩ := compile_ok h
  refine ⟨hset, ?_⟩
  rw [hunits]
  exact packages_group_nodup _

/-- What a place carries is what its name means, so that the printed name must mean the same. -/
theorem agrees_iff_found {c : Compiled} (h : compile graph standard = .ok c) {u : PackageUnit} (hu : u ∈ c.units)
    {place : Place} {t : String} (hnames : place.Names u.messages u.services t)
    (hfile : ∃ f ∈ c.set.files, f.package = u.package) :
    ∃ s, (symbolsOf c.set.all).resolve (place.scope u.package) t = some s ∧
      c.set.carried u.package place = some ("." ++ s.name) ∧
      (c.Agrees u.package place t ↔
        ∃ s', (symbolsOf c.set.all).resolve (place.scope u.package) (c.printed u.package t) = some s' ∧
          s'.name = s.name) := by
  obtain ⟨hset, hpackages⟩ := assemble_of_compile h
  obtain ⟨s, hs, hcarried⟩ := Assembly.carried_resolved hset hpackages hu hnames hfile
  refine ⟨s, hs, hcarried, ?_⟩
  unfold Compiled.Agrees
  simp only [hcarried, Option.some_inj, String.append_right_inj, eq_comm]

/-- A relative name that gets a dot. -/
theorem agrees_relative_iff {c : Compiled} (h : compile graph standard = .ok c) {u : PackageUnit} (hu : u ∈ c.units)
    {place : Place} {t : String} (hnames : place.Names u.messages u.services t)
    (hfile : ∃ f ∈ c.set.files, f.package = u.package) (hrel : Text.startsWithDot t = false) :
    c.Agrees u.package place t ↔
      (c.Shadowed u.package t → c.set.Defines t ∧ ¬ c.set.Captures (place.scope u.package) "" t) := by
  obtain ⟨hset, hpackages⟩ := assemble_of_compile h
  obtain ⟨s, hs, hcarried, hagrees⟩ := agrees_iff_found h hu hnames hfile
  have hbare := Text.withoutLeadingDots_of_relative hrel
  rw [hagrees]
  rcases c.printed_eq u.package t with ⟨hshadowed, hprinted⟩ | ⟨hplain, hprinted⟩
  · have hroot := Assembly.carried_iff hset hpackages hu hnames (root_mem_enclosingScopes _)
    rw [hcarried, Option.some_inj, String.append_right_inj, and_iff_right hfile, and_iff_right hrel] at hroot
    rw [hprinted, hbare, DescriptorSet.finds_full_iff, and_iff_right (DescriptorSet.defines_of_resolve hs), eq_comm,
      imp_iff_right hshadowed]
    exact hroot
  · rw [hprinted, hbare]
    exact iff_of_true ⟨s, hs, rfl⟩ fun hshadowed => absurd hshadowed hplain

/-- A full name, which keeps a dot or loses it. -/
theorem agrees_full_iff {c : Compiled} (h : compile graph standard = .ok c) {u : PackageUnit} (hu : u ∈ c.units)
    {place : Place} {t : String} (hnames : place.Names u.messages u.services t)
    (hfile : ∃ f ∈ c.set.files, f.package = u.package) (hdot : Text.startsWithDot t = true) :
    c.Agrees u.package place t ↔
      (c.Shadowed u.package t → t = "." ++ Text.withoutLeadingDots t) ∧
      (¬ c.Shadowed u.package t → ∃ home ∈ enclosingScopes (place.scope u.package),
        t = "." ++ qualify home (Text.withoutLeadingDots t) ∧
          ¬ c.set.Captures (place.scope u.package) home (Text.withoutLeadingDots t)) := by
  obtain ⟨full, ht⟩ := Text.startsWithDot_iff.mp hdot
  obtain ⟨s, hs, _, hagrees⟩ := agrees_iff_found h hu hnames hfile
  have hs' := hs
  rw [ht] at hs'
  obtain ⟨hdefines, hname⟩ := DescriptorSet.finds_full_iff.mp ⟨s, hs', rfl⟩
  -- one dot tells a full name, and what follows is the name, with any dots in front
  have hsame : ∀ name, t = "." ++ name ↔ s.name = name := by
    intro name
    rw [ht, String.append_right_inj, hname]
  rw [hagrees]
  simp only [hsame]
  rcases c.printed_eq u.package t with ⟨hshadowed, hprinted⟩ | ⟨hplain, hprinted⟩
  · rw [hprinted, DescriptorSet.finds_full_iff, and_iff_right hdefines, eq_comm, imp_iff_right hshadowed]
    exact (and_iff_left fun hplain => absurd hshadowed hplain).symm
  · rw [hprinted, DescriptorSet.finds_relative_iff (Text.startsWithDot_withoutLeadingDots t), and_iff_right hdefines,
      imp_iff_right hplain]
    exact (and_iff_right fun hshadowed => absurd hshadowed hplain).symm

/-- What a place prints means what the set carries there if and only if a dot that the name
    gets or loses makes no difference. -/
theorem agrees_iff {c : Compiled} (h : compile graph standard = .ok c) {u : PackageUnit} (hu : u ∈ c.units)
    {place : Place} {t : String} (hnames : place.Names u.messages u.services t) :
    c.Agrees u.package place t ↔ c.Faithful u.package place t := by
  by_cases hfile : ∃ f ∈ c.set.files, f.package = u.package
  · cases hdot : Text.startsWithDot t with
    | false =>
      rw [agrees_relative_iff h hu hnames hfile hdot]
      constructor
      · intro hrelative
        exact ⟨hfile, fun _ => hrelative, by simp [hdot], by simp [hdot]⟩
      · intro hfaithful
        exact hfaithful.relative hdot
    | true =>
      rw [agrees_full_iff h hu hnames hfile hdot]
      constructor
      · intro hparts
        obtain ⟨hkept, hdropped⟩ := hparts
        exact ⟨hfile, by simp [hdot], fun _ => hkept, fun _ => hdropped⟩
      · intro hfaithful
        exact ⟨hfaithful.kept hdot, hfaithful.dropped hdot⟩
  · have hnone : ¬ c.Agrees u.package place t := by
      intro hagrees
      obtain ⟨s, _, hcarried⟩ := hagrees
      rw [Assembly.carried_eq_none hfile] at hcarried
      cases hcarried
    exact iff_of_false hnone fun hfaithful => hfile hfaithful.present

/-- An entity `user` with an enumeration, and a package that has the same name inside the
    package around. -/
def spelledGraph : Graph :=
  ⟨[{ name := "user"
      fields := [{ name := "status", kind := .enumeration, values := ["active"]
                   annotations := { field := some { number := 2 }, enumeration := some { numbers := [("active", 1)] } } }]
      annotations := { message := some { package := some "corp.app" } } },
    { name := "Profile", annotations := { message := some { package := some "corp.user" } } }], by decide⟩

/-- The value in the wrapper of the enumeration. -/
def wrappedStatus : Place := .field "UserStatusEnumValue" "value"

theorem compile_spelledGraph : ∃ c, compile spelledGraph standardPackage = .ok c ∧ ∃ u ∈ c.units, u.package = "corp.app" ∧
    wrappedStatus.Names u.messages u.services "user.Status" ∧ ¬ c.Agrees "corp.app" wrappedStatus "user.Status" := by
  have h : (compileApart spelledGraph standardPackage).toOption.any
      (fun c => Assembly.namesApart c.set && decide (∃ u ∈ c.units, u.package = "corp.app" ∧
        wrappedStatus.Names u.messages u.services "user.Status" ∧ ¬ c.Agrees "corp.app" wrappedStatus "user.Status")) =
        true := by decide +kernel
  obtain ⟨c, hc, hunit⟩ := exists_compiled_of_apart h
  exact ⟨c, hc, of_decide_eq_true hunit⟩

theorem agrees_iff_spelledGraph : ∃ c, compile spelledGraph standardPackage = .ok c ∧ ∃ u ∈ c.units,
    wrappedStatus.Names u.messages u.services "user.Status" ∧
      (c.Agrees u.package wrappedStatus "user.Status" ↔ c.Faithful u.package wrappedStatus "user.Status") := by
  obtain ⟨c, hc, u, hu, _, hnames, _⟩ := compile_spelledGraph
  exact ⟨c, hc, u, hu, hnames, agrees_iff hc hu hnames⟩

/-- Not everything that is printed means what the set carries. -/
theorem disagrees_status : ¬ ∀ (graph : Graph) (standard : String) (c : Compiled), compile graph standard = .ok c →
    ∀ u ∈ c.units, ∀ place t, place.Names u.messages u.services t → c.Agrees u.package place t := by
  intro hall
  obtain ⟨c, hc, u, hu, hpackage, hnames, hdisagrees⟩ := compile_spelledGraph
  rw [← hpackage] at hdisagrees
  exact hdisagrees (hall _ _ c hc u hu _ _ hnames)

end Compilation

end Protograph
