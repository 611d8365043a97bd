/-
  Protograph.Proofs.FixedPoint — units that name types the way the set does.

  In a descriptor set every name of a type is a full one. A full name stands for the same
  symbol from every scope, so a unit may as well be written with the names that its file has
  in the set (`PackageUnit.canonical`): that changes none of its imports and none of its
  symbols, and the names in it become what they are already.

  Proved:
  - `ProtoFile.retype_eq_self`: a file with other names of types is the same file if every
    name stays.
  - `canonicalFile_canonical`: a canonical file is its own canonical file.
  - `assemble_canonical`: units of distinct paths with the names of their set make that set.
-/

import Protograph.Proofs.Completion

namespace Protograph

/-! ## Names that stay -/

section Stay

variable {g : String → String → String}

theorem Field.retype_eq_self {scope : String} {f : Field} (h : ∀ r ∈ f.reference? scope, g r.scope r.name = r.name) :
    f.retype (g scope) = f := by
  unfold Field.reference? at h
  unfold Field.retype
  cases hname : f.typeName with
  | none => rw [Option.map_none, ← hname]
  | some name =>
    rw [hname] at h
    have hstays : g scope name = name := h _ rfl
    rw [Option.map_some, hstays, ← hname]

/-- The induction is on the nesting, as for the references. -/
theorem Message.retypeAll_eq_self : ∀ (scope : String) (ms : List Message),
    (∀ r ∈ Message.referencesAll scope ms, g r.scope r.name = r.name) → Message.retypeAll g scope ms = ms
  | _, [], _ => rfl
  | scope, ⟨name, fields, enums, nested⟩ :: ms, h => by
    simp only [Message.referencesAll, Message.references, List.forall_mem_append] at h
    obtain ⟨⟨hfields, hnested⟩, hms⟩ := h
    have hfield : ∀ f ∈ fields, f.retype (g (qualify scope name)) = f :=
      fun f hf => Field.retype_eq_self fun r hr => hfields r (List.mem_filterMap.mpr ⟨f, hf, hr⟩)
    have hin := Message.retypeAll_eq_self (qualify scope name) nested hnested
    have hafter := Message.retypeAll_eq_self scope ms hms
    rw [Message.retypeAll, Message.retype, List.map_congr_left hfield, List.map_id', hin, hafter]

theorem Service.retype_eq_self {scope : String} {s : Service} (h : ∀ r ∈ s.references scope, g r.scope r.name = r.name) :
    s.retype (g scope) = s := by
  have hmethod : ∀ m ∈ s.methods, m.retype (g scope) = m := by
    intro m hm
    have hnames : ∀ r ∈ m.references scope, g r.scope r.name = r.name :=
      fun r hr => h r (List.mem_flatMap.mpr ⟨m, hm, hr⟩)
    have hinput : g scope m.input = m.input := hnames ⟨scope, m.input, false⟩ (by simp [Rpc.references])
    have houtput : g scope m.output = m.output := hnames ⟨scope, m.output, false⟩ (by simp [Rpc.references])
    rw [Rpc.retype, hinput, houtput]
  rw [Service.retype, List.map_congr_left hmethod, List.map_id']

/-- A file with other names of types is the same file if every name stays. -/
theorem ProtoFile.retype_eq_self {f : ProtoFile} (h : ∀ r ∈ f.references, g r.scope r.name = r.name) : f.retype g = f := by
  obtain ⟨hmessages, hservices⟩ := List.forall_mem_append.mp h
  have hservice : ∀ s ∈ f.services, s.retype (g f.package) = s :=
    fun s hs => Service.retype_eq_self fun r hr => hservices r (List.mem_flatMap.mpr ⟨s, hs, hr⟩)
  rw [ProtoFile.retype, Message.retypeAll_eq_self f.package f.messages hmessages, List.map_congr_left hservice,
    List.map_id']

end Stay

namespace Assembly

variable {symbols : Symbols} {file : ProtoFile} {units : List PackageUnit} {set : DescriptorSet}

/-! ## Canonical files -/

/-- The full name of a symbol stands for that symbol in every scope. -/
theorem resolve_full_of_mem (hnames : symbols.names.Nodup) {s : Symbol} (hs : s ∈ symbols) (scope : String) :
    symbols.resolve scope ("." ++ s.name) = some s := by
  rw [Symbols.resolve_full]
  exact (Symbols.find?_eq_some hnames).mpr ⟨hs, rfl⟩

/-- Where no two symbols have one name, a canonical file is its own canonical file. -/
theorem canonicalFile_canonical (hnames : symbols.names.Nodup) {f : ProtoFile} (h : canonicalFile symbols file = .ok f) :
    canonicalFile symbols f = .ok f := by
  have hfull : ∀ r ∈ f.references, Full symbols f r := references_canonical h
  have hfound : ∀ r ∈ f.references, Finds symbols f r := by
    intro r hr
    obtain ⟨s, hs, hname, hreach⟩ := hfull r hr
    exact ⟨s, hname ▸ resolve_full_of_mem hnames hs r.scope, hreach⟩
  have hstay : ∀ r ∈ f.references, fullName symbols r.scope r.name = r.name := by
    intro r hr
    obtain ⟨s, hs, hname, _⟩ := hfull r hr
    rw [hname, fullName_of_resolve (resolve_full_of_mem hnames hs r.scope)]
  obtain ⟨f', hf'⟩ := exists_canonical_iff.mpr hfound
  have hsame : f' = f := (canonicalFile_eq hf').trans (ProtoFile.retype_eq_self hstay)
  rw [hf', hsame]

end Assembly

/-! ## Units -/

/-- The unit with other names of types. -/
def PackageUnit.retype (g : String → String → String) (u : PackageUnit) : PackageUnit :=
  { u with
    messages := Message.retypeAll g u.package u.messages
    services := u.services.map (Service.retype (g u.package)) }

/-- The unit with the messages and services of its file in a set. -/
def PackageUnit.canonical (set : DescriptorSet) (u : PackageUnit) : PackageUnit :=
  match set.file? u.path with
  | some f => { u with messages := f.messages, services := f.services }
  | none => u

theorem PackageUnit.path_canonical (set : DescriptorSet) (u : PackageUnit) : (u.canonical set).path = u.path := by
  unfold canonical
  split <;> rfl

theorem PackageUnit.imports_canonical (set : DescriptorSet) (u : PackageUnit) : (u.canonical set).imports = u.imports := by
  unfold canonical
  split <;> rfl

/-! ## Imports that stay -/

section Map

variable {f : PackageUnit → PackageUnit} (hpath : ∀ u, (f u).path = u.path) (himports : ∀ u, (f u).imports = u.imports)

include hpath

theorem map_path_map (units : List PackageUnit) : (units.map f).map (·.path) = units.map (·.path) := by
  rw [List.map_map]
  exact List.map_congr_left fun u _ => hpath u

theorem find?_path_map (units : List PackageUnit) (path : String) :
    (units.map f).find? (·.path == path) = (units.find? (·.path == path)).map f := by
  rw [List.find?_map]
  congr 2
  funext u
  rw [Function.comp_apply, hpath]

include himports

namespace ImportOrder

theorem importsOf_map (units : List PackageUnit) : importsOf (units.map f) = importsOf units := by
  funext path
  have hunit : ∀ i, (units.map f).any (·.path == i) = units.any (·.path == i) := by
    intro i
    simp only [List.any_map, Function.comp_def, hpath]
  unfold importsOf
  rw [← List.map_reverse, find?_path_map hpath]
  cases units.reverse.find? (·.path == path) with
  | none => rfl
  | some u => simp only [Option.map_some, himports, hunit]

/-- The induction is on the fuel: a visit looks at nothing of the units but their imports. -/
theorem visit_map (units : List PackageUnit) (fuel : Nat) : visit (units.map f) fuel = visit units fuel := by
  induction fuel with
  | zero =>
    funext stack done path
    rw [visit, visit]
  | succ fuel ih =>
    funext stack done path
    rw [visit, visit, ih, importsOf_map hpath himports]

/-- Other units of the same paths and imports stand in the same order. -/
theorem order_map (units : List PackageUnit) : order (units.map f) = order units := by
  unfold order
  rw [map_path_map hpath, List.length_map, visit_map hpath himports]

end ImportOrder

end Map

namespace Assembly

variable {units : List PackageUnit} {set : DescriptorSet}

/-! ## Sets -/

/-- In the set of units of distinct paths, the file of a unit is its own with full names. -/
theorem file?_of_unit (h : assemble units = .ok set) (hpaths : (units.map (·.path)).Nodup) {u : PackageUnit}
    (hu : u ∈ units) :
    set.file? u.path = some (u.toFile.retype (fullName (symbolsOf set.all))) := by
  obtain ⟨files, hperm, hfiles⟩ := canonical_units h hpaths
  obtain ⟨_, _, _, _, _, _, hpool⟩ := assemble_eq_ok.mp h
  obtain ⟨f, hf, hcanonical⟩ := exists_of_forall₂_left hfiles (hperm.mem_iff.mpr (List.mem_map_of_mem hu))
  have hsame : f = u.toFile.retype (fullName (symbolsOf set.all)) := canonicalFile_eq hcanonical
  have hpath : f.path = u.path := by rw [hsame]; rfl
  rw [← hsame, ← hpath]
  exact find?_of_nodup hpool.paths (List.mem_append_right _ hf)

theorem canonical_eq (h : assemble units = .ok set) (hpaths : (units.map (·.path)).Nodup) {u : PackageUnit}
    (hu : u ∈ units) :
    u.canonical set = u.retype (fullName (symbolsOf set.all)) := by
  unfold PackageUnit.canonical
  rw [file?_of_unit h hpaths hu]
  rfl

/-- What a unit names is completed in the set by its full name. -/
theorem completes_fullName (h : assemble units = .ok set) (hpaths : (units.map (·.path)).Nodup) {u : PackageUnit}
    (hu : u ∈ units) {r : Reference} (hr : r ∈ u.toFile.references) :
    set.Completes r.scope r.name (fullName (symbolsOf set.all) r.scope r.name) := by
  obtain ⟨files, hperm, hfiles⟩ := canonical_units h hpaths
  obtain ⟨f, _, hcanonical⟩ := exists_of_forall₂_left hfiles (hperm.mem_iff.mpr (List.mem_map_of_mem hu))
  obtain ⟨s, hs, _⟩ := exists_canonical_iff.mp ⟨f, hcanonical⟩ r hr
  rw [fullName_of_resolve hs]
  exact completes_of_resolve hs

/-- With the names of the set, the files of the units are those of the set. -/
theorem filesAt_canonical (h : assemble units = .ok set) (hpaths : (units.map (·.path)).Nodup) {order : List String}
    (hfiles : List.Forall₂ (fun f f' => canonicalFile (symbolsOf set.all) f = .ok f') (filesAt units order) set.files) :
    filesAt (units.map (·.canonical set)) order = set.files := by
  have hretyped : set.files = (filesAt units order).map (ProtoFile.retype (fullName (symbolsOf set.all))) :=
    eq_map_of_forall₂ (hfiles.imp fun _ _ => canonicalFile_eq)
  rw [hretyped, filesAt, filesAt, List.map_filterMap]
  refine List.filterMap_congr fun path _ => ?_
  rw [find?_path_map (PackageUnit.path_canonical set)]
  cases hu : units.find? (·.path == path) with
  | none => rfl
  | some u =>
    have hcanonical := canonical_eq h hpaths (List.mem_of_find?_eq_some hu)
    simp only [Option.map_some, hcanonical]
    rfl

/-- Units with the names of their set go through the same steps as the units they are made of,
    and each of their files is canonical from the start. -/
theorem assemble_map_canonical (h : assemble units = .ok set) (hpaths : (units.map (·.path)).Nodup) :
    assemble (units.map (·.canonical set)) = .ok set := by
  obtain ⟨himports, _, _, _, hwellKnown, _, hpool⟩ := assemble_eq_ok.mp h
  obtain ⟨order, horder, hfiles⟩ := canonical_files h
  have hnames : (symbolsOf set.all).names.Nodup := names_nodup_of_pairwise hpool.names
  have hsame := filesAt_canonical h hpaths hfiles
  have hstanding : standing (units.map (·.canonical set)) = set.wellKnown := by
    rw [hwellKnown, standing, standing, List.isEmpty_map]
  have hsymbols : symbolsOf (standing (units.map (·.canonical set)) ++ filesAt (units.map (·.canonical set)) order) =
      symbolsOf set.all := by
    rw [hsame, hstanding, DescriptorSet.all]
  refine assemble_eq_ok.mpr ⟨?_, order, ?_, ?_, hstanding.symm, ?_, hpool⟩
  · intro u hu i hi
    obtain ⟨v, hv, rfl⟩ := List.mem_map.mp hu
    rw [map_path_map (PackageUnit.path_canonical set)]
    exact himports v hv i (PackageUnit.imports_canonical set v ▸ hi)
  · rw [ImportOrder.order_map (PackageUnit.path_canonical set) (PackageUnit.imports_canonical set), horder]
  · rw [hsymbols]
    exact hnames
  · rw [hsymbols, hsame, List.forall₂_same]
    intro f hf
    obtain ⟨_, u, _, hcanonical⟩ := canonical_of_mem h hf
    exact canonicalFile_canonical hnames hcanonical

/-- The files that a set has for some units, by path. -/
def builtFiles (units : List PackageUnit) (set : DescriptorSet) : Table ProtoFile :=
  (paths units).filterMap fun path => (set.file? path).map (path, ·)

/-- Units of distinct paths with the names that their files have in the set, each of which
    completes the one written, make that set again, and the same files. -/
theorem assemble_canonical (h : assemble units = .ok set) (hpaths : (units.map (·.path)).Nodup) :
    (∃ complete, ∀ u ∈ units, u.canonical set = u.retype complete ∧ set.file? u.path = some (u.canonical set).toFile ∧
        ∀ r ∈ u.toFile.references, set.Completes r.scope r.name (complete r.scope r.name)) ∧
      assemble (units.map (·.canonical set)) = .ok set ∧
      builtFiles (units.map (·.canonical set)) set = builtFiles units set := by
  refine ⟨⟨fullName (symbolsOf set.all), fun u hu => ⟨canonical_eq h hpaths hu, ?_, ?_⟩⟩, ?_, ?_⟩
  · rw [file?_of_unit h hpaths hu, canonical_eq h hpaths hu]
    rfl
  · intro r hr
    exact completes_fullName h hpaths hu hr
  · exact assemble_map_canonical h hpaths
  · rw [builtFiles, builtFiles, paths, paths, map_path_map (PackageUnit.path_canonical set)]

/-- The shelves and the books on them, with the names of their set. -/
theorem assemble_canonical_shelfUnits : ∃ set, assemble shelfUnits = .ok set ∧ (shelfUnits.map (·.path)).Nodup ∧
    ((shelfUnits.map (·.canonical set)).flatMap fun u => u.toFile.references.map (·.name)) =
      [".lib.Shelf.Slot", ".google.protobuf.Timestamp", ".lib.Shelf.State", ".app.books.Book", ".lib.Shelf",
        ".lib.Shelf.Slot", ".lib.Shelf.Slot.Mark", ".lib.Shelf", ".lib.Shelf.State"] ∧
    (∃ complete, ∀ u ∈ shelfUnits, u.canonical set = u.retype complete ∧
        set.file? u.path = some (u.canonical set).toFile ∧
        ∀ r ∈ u.toFile.references, set.Completes r.scope r.name (complete r.scope r.name)) ∧
      assemble (shelfUnits.map (·.canonical set)) = .ok set ∧
      builtFiles (shelfUnits.map (·.canonical set)) set = builtFiles shelfUnits set := by
  have h : (assembleApart shelfUnits).toOption.any (fun set => namesApart set &&
      decide (((shelfUnits.map (·.canonical set)).flatMap fun u => u.toFile.references.map (·.name)) =
        [".lib.Shelf.Slot", ".google.protobuf.Timestamp", ".lib.Shelf.State", ".app.books.Book", ".lib.Shelf",
          ".lib.Shelf.Slot", ".lib.Shelf.Slot.Mark", ".lib.Shelf", ".lib.Shelf.State"])) = true := by
    decide +kernel
  obtain ⟨set, hset, hnames⟩ := exists_assembled_of_apart h
  have hpaths : (shelfUnits.map (·.path)).Nodup := by decide +kernel
  exact ⟨set, hset, hpaths, of_decide_eq_true hnames, assemble_canonical hset hpaths⟩

end Assembly

end Protograph
