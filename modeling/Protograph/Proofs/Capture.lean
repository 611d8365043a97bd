/-
  Protograph.Proofs.Capture — names in a text that are taken for something else.

  A reference to another package, or to a well-known message, is written as a name from the
  root (`Entity.Qualifies`). Whoever reads the text looks for the first segment of a name in
  the message around it, then in the package, and so on outwards, and the innermost message,
  enumeration, service or namespace of that name decides (`Place.Taken`).

  Proved:
  - `taken_iff`: a printed name without a dot in front is taken for something else if and
    only if a message, enumeration or service has the name of its first segment there. A
    namespace never has: not one inside a package around, for then the name gets a dot
    (`shadows_of_namespace`), nor one inside the message, for then two names are the same
    (`not_namespace_of_message`). Only names or packages that begin with a dot and units
    that share a path are not so guarded.
  - `taken_invoice`: names are taken. In a package `app` with an entity `billing` the entity
    `Invoice` of the package `billing` is printed as `billing.Invoice`.
-/

import Protograph.Proofs.Consistency
import Protograph.Proofs.Fatal
import Protograph.Proofs.Grouping
import Protograph.Proofs.Packages
import Protograph.Proofs.Spelling

namespace Protograph

/-! ## References from the root -/

/-- What stands before the first dot of a name, or all of it. -/
def firstSegment (name : String) : String := ((Text.cutFirstDot name).map (·.1)).getD name

/-- A name from the root that the compiler writes for an entity of package `p`, at a place,
    with what is meant by it. -/
inductive Entity.Qualifies (e : Entity) (p : String) (packages : Table String) : Place → String → String → Prop
  | edge {x : EdgeSpec} {q : String} : x ∈ e.keptEdges → packages.get? x.target = some q → p ≠ q →
      Qualifies e p packages (.field e.name x.name) (q ++ "." ++ x.target) (qualify q x.target)
  | wellKnown {place : Place} {name : String} : e.Writes p packages place "" name → name ∈ WellKnown.types.keys →
      Qualifies e p packages place name name

/-- The scopes around a place but the root, with the message or package that it is in. -/
def Place.around (package : String) (place : Place) : List String :=
  (place.scope package :: enclosingScopes package).filter (· ≠ "")

/-- In a scope around a place something of a kind has the name of the first segment of what
    is printed there, and the whole name does not lead from that scope to what is meant. -/
def Place.Taken (kind : String → Prop) (package : String) (place : Place) (printed meant : String) : Prop :=
  ∃ scope ∈ place.around package, kind (qualify scope (firstSegment printed)) ∧ qualify scope printed ≠ meant

instance (kind : String → Prop) [DecidablePred kind] (package : String) (place : Place) (printed meant : String) :
    Decidable (place.Taken kind package printed meant) :=
  inferInstanceAs (Decidable (∃ scope ∈ place.around package, _))

namespace Compiled

/-- The files that the texts of a compilation are read with. -/
def sources (c : Compiled) : List ProtoFile := WellKnown.files ++ c.units.map (·.toFile)

/-- There is a message, enumeration or service of the full name. -/
def Declares (c : Compiled) (name : String) : Prop :=
  ∃ f ∈ c.sources, name ∈ Symbols.names f.symbols ∨ name ∈ f.services.map fun s => qualify f.package s.name

instance (c : Compiled) : DecidablePred c.Declares := fun name =>
  inferInstanceAs (Decidable (∃ f ∈ c.sources, name ∈ Symbols.names f.symbols ∨ _))

/-- The name is that of a package, or of one around a package. -/
def IsNamespace (c : Compiled) (name : String) : Prop := ∃ f ∈ c.sources, name ∈ enclosingScopes f.package

/-- A package or a name that begins with a dot, or units that share a path. -/
def Unguarded (c : Compiled) (package name : String) : Prop :=
  Text.startsWithDot package = true ∨ Text.startsWithDot name = true ∨ ¬ (c.units.map (·.path)).Nodup

end Compiled

namespace Compilation

variable {graph : Graph} {standard : String} {c : Compiled} {e : Entity} {p : String} {packages : Table String}
  {place : Place} {name meant : String}

theorem writes_of_qualifies (h : e.Qualifies p packages place name meant) : e.Writes p packages place "" name := by
  cases h with
  | edge hx hq hne => exact .farEdge hx hq hne
  | wellKnown hw _ => exact hw

/-- A name from the root has a first segment before a dot. -/
theorem cutFirstDot_of_qualifies (h : e.Qualifies p packages place name meant) :
    ∃ first rest, Text.cutFirstDot name = some (first, rest) := by
  have hdot : '.' ∈ name.toList := by
    cases h with
    | edge _ _ _ => simp
    | wellKnown _ hkey =>
      have hall : ∀ key ∈ WellKnown.types.keys, '.' ∈ key.toList := by decide +kernel
      exact hall _ hkey
  cases hcut : Text.cutFirst '.' name.toList with
  | none => exact absurd hdot (Text.cutFirst_eq_none.mp hcut)
  | some cut => exact ⟨_, _, by rw [Text.cutFirstDot, hcut]; rfl⟩

/-! ## Namespaces inside packages -/

/-- What encloses the package of a file is a namespace to a text, if the package does not
    begin with a dot. -/
theorem mem_ofUnits {f : ProtoFile} (hf : f ∈ c.sources) {scope : String} (hscope : scope ∈ enclosingScopes f.package)
    (hne : scope ≠ "") (hrel : Text.startsWithDot scope = false) : scope ∈ Namespaces.ofUnits c.units := by
  have hpackage : Text.startsWithDot f.package = false := by
    rw [startsWithDot_of_mem_enclosingScopes hscope hne, hrel]
  have hown : scope ∈ Namespaces.ofPackage f.package := (Namespaces.mem_ofPackage_iff hpackage hne).mpr hscope
  refine List.mem_flatMap.mpr ⟨f.package, ?_, hown⟩
  rw [List.mem_append]
  rcases List.mem_append.mp hf with hf | hf
  · have hwell : ∀ f ∈ WellKnown.files, f.package = "google.protobuf" := by decide
    exact .inr (List.mem_singleton.mpr (hwell f hf))
  · obtain ⟨u, hu, rfl⟩ := List.mem_map.mp hf
    exact .inl (List.mem_map_of_mem hu)

/-- A namespace of the first segment, inside a package around, shadows a name. -/
theorem shadows_of_namespace (hp : Text.startsWithDot p = false) {scope first rest : String}
    (hscope : scope ∈ enclosingScopes p) (hne : scope ≠ "") (hcut : Text.cutFirstDot name = some (first, rest))
    (h : c.IsNamespace (qualify scope first)) : (Namespaces.ofUnits c.units).Shadows p name := by
  obtain ⟨f, hf, hin⟩ := h
  have hjoin : qualify scope first = scope ++ "." ++ first := by rw [qualify, if_neg hne]
  have hinside : scope ++ "." ++ first ≠ "" := by simp
  have hrel : Text.startsWithDot (scope ++ "." ++ first) = false := by
    rw [String.append_assoc, Text.startsWithDot_append hne, ← startsWithDot_of_mem_enclosingScopes hscope hne, hp]
  rw [hjoin] at hin
  exact ⟨_, hcut, scope, (Namespaces.mem_ofPackage_iff hp hne).mpr hscope, mem_ofUnits hf hin hinside hrel⟩

/-! ## Namespaces inside messages -/

theorem pairwise_sources (h : compile graph standard = .ok c) (hpaths : (c.units.map (·.path)).Nodup) :
    (c.sources.flatMap Pool.claimsOf).Pairwise Pool.Shares := by
  obtain ⟨hunits, _, _⟩ := compile_ok h
  obtain ⟨_, hcoherent⟩ := compile_ok_iff.mp ⟨c, h⟩
  have hfiles : Assembly.filesOf (unitsOf graph standard) = c.units.map (·.toFile) := by
    rw [← Assembly.filesOf_eq hpaths, hunits]
    rfl
  have hnames := hcoherent.names
  rwa [hfiles] at hnames

/-- A message of a unit claims its full name. -/
theorem claim_of_message {u : PackageUnit} (hu : u ∈ c.units) {m : Message} (hm : m ∈ u.messages) :
    (⟨qualify u.package m.name, u.path, false⟩ : Pool.Claim) ∈ c.sources.flatMap Pool.claimsOf := by
  have hunit : u.toFile ∈ c.sources := List.mem_append_right _ (List.mem_map_of_mem hu)
  refine List.mem_flatMap.mpr ⟨_, hunit, List.mem_append_right _ (List.mem_map_of_mem ?_)⟩
  have hdeclared : qualify u.package m.name ∈ Message.declaredAll u.package u.messages := by
    rw [Message.declaredAll_eq]
    exact List.mem_flatMap.mpr ⟨m, hm, m.name_mem_declared u.package⟩
  exact List.mem_append_left _ hdeclared

/-- Two claims of one name are for a package. -/
theorem isPackage_of_claims (h : compile graph standard = .ok c) (hpaths : (c.units.map (·.path)).Nodup)
    {a b : Pool.Claim} (ha : a ∈ c.sources.flatMap Pool.claimsOf) (hb : b ∈ c.sources.flatMap Pool.claimsOf)
    (hne : a ≠ b) (hname : a.name = b.name) : a.isPackage = true ∧ b.isPackage = true := by
  have hsymmetric : Std.Symm Pool.Shares := ⟨fun a b hab he => (hab he.symm).symm⟩
  exact (pairwise_sources h hpaths).forall ha hb hne hname

/-- A message is no namespace. -/
theorem not_namespace_of_message (h : compile graph standard = .ok c) (hpaths : (c.units.map (·.path)).Nodup)
    {u : PackageUnit} (hu : u ∈ c.units) {m : Message} (hm : m ∈ u.messages) (hne : qualify u.package m.name ≠ "") :
    ¬ c.IsNamespace (qualify u.package m.name) := by
  intro hnamespace
  obtain ⟨f, hf, hin⟩ := hnamespace
  have hpackage : (⟨qualify u.package m.name, f.path, true⟩ : Pool.Claim) ∈ c.sources.flatMap Pool.claimsOf :=
    List.mem_flatMap.mpr ⟨f, hf, List.mem_append_left _ (List.mem_map_of_mem ((Pool.mem_packagePrefixes_iff hne).mpr hin))⟩
  have hboth := isPackage_of_claims h hpaths (claim_of_message hu hm) hpackage (by simp) rfl
  cases hboth.1

/-! ## Printed names -/

/-- A place of a generated entity is in the unit of its package. -/
theorem unit_of_writes (h : compile graph standard = .ok c) (he : e ∈ graph.entities)
    (hgen : c.status? e.name = some (.generated p)) {home : String}
    (hw : e.Writes p (packagesOf graph standard) place home name) :
    ∃ u ∈ c.units, u.package = p ∧ place.Names u.messages u.services name := by
  obtain ⟨hunits, _, _⟩ := compile_ok h
  obtain ⟨o, ho, rfl⟩ := (status_generated_iff h).mp hgen
  obtain ⟨u, hu, hpackage, hmessages, hservices⟩ := unit_of_settled ho
  refine ⟨u, hunits ▸ hu, hpackage, ?_⟩
  exact (names_of_writes (buildEntity_of_settled he ho) hw).mono hmessages hservices

/-- A name without dots in front that is printed so is printed as it is written. -/
theorem printed_of_plain (hname : Text.startsWithDot name = false)
    (hplain : Text.startsWithDot (c.printed p name) = false) :
    c.printed p name = name ∧ ¬ (Namespaces.ofUnits c.units).Shadows p name := by
  have hbare := Text.withoutLeadingDots_of_relative hname
  have heither := c.printed_eq p name
  rw [Compiled.Shadowed, hbare] at heither
  rcases heither with ⟨_, hprinted⟩ | ⟨hshadows, hprinted⟩
  · rw [hprinted, Text.startsWithDot_iff.mpr ⟨name, rfl⟩] at hplain
    cases hplain
  · exact ⟨hprinted, hshadows⟩

/-- Where nothing is odd, no namespace takes a printed name. -/
theorem not_namespace_of_guarded (h : compile graph standard = .ok c) (he : e ∈ graph.entities)
    (hgen : c.status? e.name = some (.generated p)) (hq : e.Qualifies p (packagesOf graph standard) place name meant)
    (hplain : Text.startsWithDot (c.printed p name) = false) (hguarded : ¬ c.Unguarded p name) {scope : String}
    (hscope : scope ∈ place.around p) : ¬ c.IsNamespace (qualify scope (firstSegment (c.printed p name))) := by
  unfold Compiled.Unguarded at hguarded
  simp only [not_or, Bool.not_eq_true, not_not] at hguarded
  obtain ⟨hp, hname, hpaths⟩ := hguarded
  intro hnamespace
  obtain ⟨first, rest, hcut⟩ := cutFirstDot_of_qualifies hq
  obtain ⟨hprinted, hshadows⟩ := printed_of_plain hname hplain
  have hfirst : firstSegment name = first := by rw [firstSegment, hcut]; rfl
  rw [hprinted, hfirst] at hnamespace
  obtain ⟨hmem, hne⟩ := List.mem_filter.mp hscope
  have hne : scope ≠ "" := of_decide_eq_true hne
  have hpackage : scope ∉ enclosingScopes p := fun hin => hshadows (shadows_of_namespace hp hin hne hcut hnamespace)
  -- the scope is the message around the place, and then the message is a namespace too
  obtain rfl : scope = place.scope p := (List.mem_cons.mp hmem).resolve_right hpackage
  obtain ⟨u, hu, rfl, hnames⟩ := unit_of_writes h he hgen (writes_of_qualifies hq)
  cases hnames with
  | field hm _ _ =>
    obtain ⟨f, hf, hin⟩ := hnamespace
    have haround := enclosingScopes_trans (scope_mem_enclosingScopes hne first) hin
    exact not_namespace_of_message h hpaths hu hm hne ⟨f, hf, haround⟩
  | input _ _ | output _ _ => exact hpackage (self_mem_enclosingScopes _)

/-- A name from the root that is printed without a dot in front is taken for something else
    if and only if a message, an enumeration or a service takes it, but where it is not
    guarded against namespaces. -/
theorem taken_iff (h : compile graph standard = .ok c) (he : e ∈ graph.entities)
    (hgen : c.status? e.name = some (.generated p)) (hq : e.Qualifies p (packagesOf graph standard) place name meant)
    (hplain : Text.startsWithDot (c.printed p name) = false) :
    place.Taken (fun n => c.Declares n ∨ c.IsNamespace n) p (c.printed p name) meant ↔
      place.Taken c.Declares p (c.printed p name) meant ∨
        (c.Unguarded p name ∧ place.Taken c.IsNamespace p (c.printed p name) meant) := by
  constructor
  · intro htaken
    obtain ⟨scope, hscope, hdeclares | hnamespace, hmeant⟩ := htaken
    · exact .inl ⟨scope, hscope, hdeclares, hmeant⟩
    · have hodd : c.Unguarded p name := by
        by_contra hguarded
        exact not_namespace_of_guarded h he hgen hq hplain hguarded hscope hnamespace
      exact .inr ⟨hodd, scope, hscope, hnamespace, hmeant⟩
  · intro htaken
    rcases htaken with ⟨scope, hscope, hdeclares, hmeant⟩ | ⟨_, scope, hscope, hnamespace, hmeant⟩
    · exact ⟨scope, hscope, .inl hdeclares, hmeant⟩
    · exact ⟨scope, hscope, .inr hnamespace, hmeant⟩

/-! ## An invoice that is taken for part of a message -/

def invoiceEdge : EdgeSpec :=
  { name := "invoice", target := "Invoice", unique := true, annotations := { field := some { number := 2 } } }

/-- An entity with the name of a package that it refers to. -/
def billingEntity : Entity :=
  { name := "billing", edges := [invoiceEdge], annotations := { message := some { package := some "app" } } }

def invoiceGraph : Graph :=
  ⟨[billingEntity, { name := "Invoice", annotations := { message := some { package := some "billing" } } }], by decide⟩

theorem qualifies_invoiceEdge : billingEntity.Qualifies "app" (packagesOf invoiceGraph standardPackage)
    (.field "billing" "invoice") "billing.Invoice" "billing.Invoice" :=
  .edge (x := invoiceEdge) (q := "billing") (by decide) (by decide) (by decide)

theorem compile_invoiceGraph : ∃ c, compile invoiceGraph standardPackage = .ok c ∧
    c.status? "billing" = some (.generated "app") ∧ Text.startsWithDot (c.printed "app" "billing.Invoice") = false ∧
    Place.Taken c.Declares "app" (.field "billing" "invoice") (c.printed "app" "billing.Invoice") "billing.Invoice" := by
  have h : (compileApart invoiceGraph standardPackage).toOption.any (fun c => Assembly.namesApart c.set &&
      decide (c.packageOf? billingEntity = some "app" ∧ Text.startsWithDot (c.printed "app" "billing.Invoice") = false ∧
        Place.Taken c.Declares "app" (.field "billing" "invoice") (c.printed "app" "billing.Invoice") "billing.Invoice")) =
        true := by decide +kernel
  obtain ⟨c, hc, hparts⟩ := exists_compiled_of_apart h
  obtain ⟨hpackage, hplain, htaken⟩ := of_decide_eq_true hparts
  exact ⟨c, hc, Compiled.packageOf?_eq_some.mp hpackage, hplain, htaken⟩

theorem taken_iff_invoiceGraph : ∃ c, compile invoiceGraph standardPackage = .ok c ∧
    billingEntity ∈ invoiceGraph.entities ∧ c.status? billingEntity.name = some (.generated "app") ∧
    billingEntity.Qualifies "app" (packagesOf invoiceGraph standardPackage) (.field "billing" "invoice")
      "billing.Invoice" "billing.Invoice" ∧
    Text.startsWithDot (c.printed "app" "billing.Invoice") = false ∧
    (Place.Taken (fun n => c.Declares n ∨ c.IsNamespace n) "app" (.field "billing" "invoice")
        (c.printed "app" "billing.Invoice") "billing.Invoice" ↔
      Place.Taken c.Declares "app" (.field "billing" "invoice") (c.printed "app" "billing.Invoice") "billing.Invoice" ∨
        (c.Unguarded "app" "billing.Invoice" ∧ Place.Taken c.IsNamespace "app" (.field "billing" "invoice")
          (c.printed "app" "billing.Invoice") "billing.Invoice")) := by
  obtain ⟨c, hc, hgen, hplain, _⟩ := compile_invoiceGraph
  have htaken := taken_iff hc (by decide) hgen qualifies_invoiceEdge hplain
  exact ⟨c, hc, by decide, hgen, qualifies_invoiceEdge, hplain, htaken⟩

/-- Not every name from the root that is printed without a dot in front leads to what is meant. -/
theorem taken_invoice : ¬ ∀ (graph : Graph) (standard : String) (c : Compiled), compile graph standard = .ok c →
    ∀ e ∈ graph.entities, ∀ p, c.status? e.name = some (.generated p) →
      ∀ place name meant, e.Qualifies p (packagesOf graph standard) place name meant →
        Text.startsWithDot (c.printed p name) = false →
          ¬ place.Taken (fun n => c.Declares n ∨ c.IsNamespace n) p (c.printed p name) meant := by
  intro hall
  obtain ⟨c, hc, hgen, hplain, scope, hscope, hdeclares, hmeant⟩ := compile_invoiceGraph
  exact hall _ _ c hc billingEntity (by decide) "app" hgen _ _ _ qualifies_invoiceEdge hplain
    ⟨scope, hscope, .inl hdeclares, hmeant⟩

end Compilation

end Protograph
