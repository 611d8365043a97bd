/-
  Protograph.Proofs.Consistency — what is true of a descriptor set by itself.

  Units of distinct paths that can be put together are all in the set, each once
  (`untyped_files_perm`): a file of the set is the file of a unit, but for the names of
  types. Those are full names (`references_canonical`), for messages nested to any depth,
  and the order of imports is the order of the files (`imports_before`).

  Proved: `selfConsistent_of_assemble`. The set has the well-known files in front and every
  unit once; whatever a unit's file names is a symbol of the set, of the kind wanted, in the
  file itself or in one that it imports; and all that a file imports stands before it.
-/

import Protograph.Proofs.Carried
import Protograph.Proofs.Evaluation
import Protograph.Proofs.Retyping

namespace Protograph

/-! ## Type names aside -/

/-- The field without the name of its type, though it may have one. -/
def Field.untyped (f : Field) : Field := { f with typeName := f.typeName.map fun _ => "" }

mutual

/-- The message without names of types, at any depth. -/
def Message.untyped : Message → Message
  | ⟨name, fields, enums, nested⟩ => ⟨name, fields.map Field.untyped, enums, Message.untypedAll nested⟩

def Message.untypedAll : List Message → List Message
  | [] => []
  | m :: ms => m.untyped :: Message.untypedAll ms

end

theorem Message.untypedAll_eq (ms : List Message) : Message.untypedAll ms = ms.map Message.untyped := by
  induction ms with
  | nil => rfl
  | cons m ms ih => rw [Message.untypedAll, ih, List.map_cons]

def Rpc.untyped (m : Rpc) : Rpc := { m with input := "", output := "" }

def Service.untyped (s : Service) : Service := { s with methods := s.methods.map Rpc.untyped }

/-- All of a file but the names of types. -/
def ProtoFile.untyped (f : ProtoFile) : ProtoFile :=
  { f with messages := Message.untypedAll f.messages, services := f.services.map Service.untyped }

theorem Field.untyped_retype (g : String → String) (f : Field) : (f.retype g).untyped = f.untyped := by
  unfold Field.retype Field.untyped
  rw [Option.map_map]
  rfl

theorem Message.untypedAll_retypeAll (g : String → String → String) : ∀ (scope : String) (ms : List Message),
    Message.untypedAll (Message.retypeAll g scope ms) = Message.untypedAll ms
  | _, [] => rfl
  | scope, ⟨name, fields, enums, nested⟩ :: ms => by
    have hfields : (fields.map (Field.retype (g (qualify scope name)))).map Field.untyped = fields.map Field.untyped := by
      rw [List.map_map]
      exact List.map_congr_left fun f _ => Field.untyped_retype _ f
    have hin := Message.untypedAll_retypeAll g (qualify scope name) nested
    have hafter := Message.untypedAll_retypeAll g scope ms
    simp only [Message.retypeAll, Message.retype, Message.untypedAll, Message.untyped, hfields, hin, hafter]

theorem Service.untyped_retype (g : String → String) (s : Service) : (s.retype g).untyped = s.untyped := by
  unfold Service.retype Service.untyped
  rw [List.map_map]
  rfl

/-- Files that differ in the names of types only are the same without these. -/
theorem ProtoFile.untyped_retype (g : String → String → String) (f : ProtoFile) : (f.retype g).untyped = f.untyped := by
  have hservices : (f.services.map (Service.retype (g f.package))).map Service.untyped = f.services.map Service.untyped := by
    rw [List.map_map]
    exact List.map_congr_left fun s _ => Service.untyped_retype _ s
  unfold ProtoFile.retype ProtoFile.untyped
  rw [Message.untypedAll_retypeAll, hservices]

/-- A set that some units make, and that leans on nothing outside itself. -/
structure DescriptorSet.SelfConsistent (set : DescriptorSet) (units : List PackageUnit) : Prop where
  /-- The well-known files stand in front, if there is any unit. -/
  wellKnown : set.wellKnown = if units.isEmpty then [] else WellKnown.files
  /-- Every unit follows once, in some order. -/
  units : (set.files.map ProtoFile.untyped).Perm (units.map fun u => u.toFile.untyped)
  paths : (set.all.map (·.path)).Nodup
  /-- Type names are full names, of something in the file or in an import. -/
  references : ∀ f ∈ set.files, ∀ r ∈ f.references,
    ∃ s ∈ Assembly.symbolsOf set.all, r.name = "." ++ s.name ∧ Assembly.Reaches f r.wantsEnum s
  /-- What a file imports stands before it. -/
  imports : ∀ front f back, set.all = front ++ f :: back → ∀ i ∈ f.imports, i ∈ front.map (·.path)

namespace Assembly

variable {symbols : Symbols} {file : ProtoFile} {units : List PackageUnit} {set : DescriptorSet}

/-! ## Canonical files -/

/-- A canonical file differs from the file it is made of in the names of types only. -/
theorem untyped_canonicalFile {f' : ProtoFile} (h : canonicalFile symbols file = .ok f') : f'.untyped = file.untyped := by
  rw [canonicalFile_eq h, ProtoFile.untyped_retype]

/-- A reference by the full name of a symbol that the file reaches. -/
def Full (symbols : Symbols) (file : ProtoFile) (r : Reference) : Prop :=
  ∃ s ∈ symbols, r.name = "." ++ s.name ∧ Reaches file r.wantsEnum s

/-- A canonical file refers to everything by its full name. -/
theorem references_canonical {f' : ProtoFile} (h : canonicalFile symbols file = .ok f') :
    ∀ r ∈ f'.references, Full symbols f' r := by
  have hfile : f' = file.retype (fullName symbols) := canonicalFile_eq h
  intro r hr
  rw [hfile, ProtoFile.references_retype] at hr
  obtain ⟨written, hwritten, rfl⟩ := List.mem_map.mp hr
  obtain ⟨s, hs, hreach⟩ := exists_canonical_iff.mp ⟨f', h⟩ written hwritten
  refine ⟨s, Symbols.mem_of_resolve hs, fullName_of_resolve hs, ?_⟩
  rw [hfile]
  exact hreach

/-! ## Units of distinct paths -/

theorem paths_eq (hpaths : (units.map (·.path)).Nodup) : paths units = units.map (·.path) := by
  have hall : ∀ ks seen : List String, Fresh seen ks → addAll seen ks = seen ++ ks := by
    intro ks
    induction ks with
    | nil => intro seen _; simp [addAll]
    | cons k ks ih =>
      intro seen hfresh
      obtain ⟨hk, hrest⟩ := fresh_cons.mp hfresh
      have hnext : Fresh (seen ++ [k]) ks := (fresh_congr (by simp [or_comm])).mp hrest
      show addAll (addNew seen k) ks = seen ++ k :: ks
      rw [addNew, if_neg hk, ih _ hnext]
      simp
  exact hall _ [] (fresh_of_none_seen.mpr hpaths)

theorem file_of_path (hpaths : (units.map (·.path)).Nodup) {u : PackageUnit} (hu : u ∈ units) :
    units.find? (·.path == u.path) = some u :=
  find?_of_nodup hpaths hu

/-- Where paths are distinct, every unit has its file. -/
theorem filesOf_eq (hpaths : (units.map (·.path)).Nodup) : filesOf units = units.map (·.toFile) := by
  unfold filesOf
  rw [paths_eq hpaths, filesAt, List.filterMap_map, ← List.filterMap_eq_map]
  refine List.filterMap_congr fun u hu => ?_
  show (units.find? (·.path == u.path)).map (·.toFile) = some u.toFile
  rw [file_of_path hpaths hu]
  rfl

/-- The files of a set are the canonical ones of all units. -/
theorem canonical_units (h : assemble units = .ok set) (hpaths : (units.map (·.path)).Nodup) :
    ∃ files, files.Perm (units.map (·.toFile)) ∧
      List.Forall₂ (fun f f' => canonicalFile (symbolsOf set.all) f = .ok f') files set.files := by
  obtain ⟨order, horder, hfiles⟩ := canonical_files h
  refine ⟨filesAt units order, ?_, hfiles⟩
  rw [← filesOf_eq hpaths]
  exact filesAt_perm horder

theorem untyped_files_perm (h : assemble units = .ok set) (hpaths : (units.map (·.path)).Nodup) :
    (set.files.map ProtoFile.untyped).Perm (units.map fun u => u.toFile.untyped) := by
  obtain ⟨files, hperm, hfiles⟩ := canonical_units h hpaths
  have hsame : set.files.map ProtoFile.untyped = files.map ProtoFile.untyped :=
    map_eq_of_forall₂ (hfiles.imp fun _ _ => untyped_canonicalFile)
  have hperm := hperm.map ProtoFile.untyped
  rw [hsame]
  rwa [List.map_map] at hperm

/-! ## Imports -/

theorem imports_of_unit (hpaths : (units.map (·.path)).Nodup) {u : PackageUnit} (hu : u ∈ units) {i : String}
    (hi : i ∈ u.imports) (hunit : i ∈ units.map (·.path)) : ImportOrder.Imports units u.path i := by
  have hreversed : (units.reverse.map (·.path)).Nodup := by
    rw [List.map_reverse, List.nodup_reverse]
    exact hpaths
  have hfound : units.reverse.find? (·.path == u.path) = some u :=
    find?_of_nodup hreversed (List.mem_reverse.mpr hu)
  obtain ⟨v, hv, rfl⟩ := List.mem_map.mp hunit
  unfold ImportOrder.Imports ImportOrder.importsOf
  rw [hfound]
  exact List.mem_filter.mpr ⟨hi, List.any_eq_true.mpr ⟨v, hv, beq_self_eq_true _⟩⟩

/-- A file that imports something follows the well-known files. -/
theorem split_of_imports {wellKnown files front back : List ProtoFile} {f : ProtoFile} {i : String}
    (hnone : ∀ w ∈ wellKnown, w.imports = []) (hsplit : wellKnown ++ files = front ++ f :: back) (hi : i ∈ f.imports) :
    ∃ before, front = wellKnown ++ before ∧ files = before ++ f :: back := by
  rcases List.append_eq_append_iff.mp hsplit with ⟨before, hfront, hfiles⟩ | ⟨rest, hwell, hrest⟩
  · exact ⟨before, hfront, hfiles⟩
  · cases rest with
    | nil => exact ⟨[], by simpa using hwell.symm, by simpa using hrest.symm⟩
    | cons w rest =>
      obtain ⟨rfl, _⟩ := List.cons.inj hrest
      rw [hnone f (by rw [hwell]; simp)] at hi
      cases hi

/-- The files of a set are in the order of imports. -/
theorem paths_of_order {order : List String} (horder : ImportOrder.order units = .ok order) {symbols : Symbols}
    {files : List ProtoFile} (hfiles : List.Forall₂ (fun f f' => canonicalFile symbols f = .ok f') (filesAt units order) files) :
    files.map (·.path) = order := by
  obtain ⟨_, hmem⟩ := ImportOrder.order_ok horder
  have hsame : files.map (·.path) = (filesAt units order).map (·.path) :=
    map_eq_of_forall₂ (hfiles.imp fun _ _ hf => (alike_canonical hf).path)
  rw [hsame, map_path_filesAt fun p hp => (hmem p).mp hp]

/-- In a set all that a file imports stands before the file. -/
theorem imports_before (h : assemble units = .ok set) (hpaths : (units.map (·.path)).Nodup) {front back : List ProtoFile}
    {f : ProtoFile} (hsplit : set.all = front ++ f :: back) {i : String} (hi : i ∈ f.imports) :
    i ∈ front.map (·.path) := by
  obtain ⟨himports, order, horder, _, hwellKnown, hfiles, _⟩ := assemble_eq_ok.mp h
  obtain ⟨hsorted, _⟩ := ImportOrder.order_ok horder
  have hnone : ∀ w ∈ set.wellKnown, w.imports = [] := by
    have hall : ∀ w ∈ WellKnown.files, w.imports = [] := by decide
    intro w hw
    rw [hwellKnown, standing] at hw
    split at hw
    · cases hw
    · exact hall w hw
  obtain ⟨before, rfl, hbefore⟩ := split_of_imports hnone hsplit hi
  have hf : f ∈ set.files := by rw [hbefore]; simp
  obtain ⟨_, u, hu, hcanonical⟩ := canonical_of_mem h hf
  obtain ⟨hfile, _, _⟩ := canonicalFile_eq_ok.mp hcanonical
  rw [hfile] at hi
  rw [List.map_append, List.mem_append]
  rcases himports u hu i hi with hwell | hunit
  · left
    have hsome : set.wellKnown = WellKnown.files := by
      rw [hwellKnown, standing, if_neg (by rw [List.isEmpty_iff]; rintro rfl; cases hu)]
    rw [hsome, ← paths_wellKnown]
    exact hwell
  · right
    have hpath : f.path = u.path := (alike_canonical hcanonical).path
    have hplaces : order = before.map (·.path) ++ u.path :: back.map (·.path) := by
      rw [← paths_of_order horder hfiles, hbefore, List.map_append, List.map_cons, hpath]
    exact hsorted.before hplaces (imports_of_unit hpaths hu hi hunit)

/-! ## Sets -/

/-- A set that units of distinct paths are put together to is consistent by itself. -/
theorem selfConsistent_of_assemble (h : assemble units = .ok set) (hpaths : (units.map (·.path)).Nodup) :
    set.SelfConsistent units := by
  obtain ⟨_, order, _, _, hwellKnown, _, hpool⟩ := assemble_eq_ok.mp h
  refine ⟨hwellKnown, untyped_files_perm h hpaths, hpool.paths, ?_, ?_⟩
  · intro f hf r hr
    obtain ⟨_, u, _, hcanonical⟩ := canonical_of_mem h hf
    exact references_canonical hcanonical r hr
  · intro front f back hsplit i hi
    exact imports_before h hpaths hsplit hi

/-- A unit that imports the other one, in which a message is nested two levels deep. -/
def shelfUnits : List PackageUnit :=
  [{ package := "app.books"
     messages :=
       [{ name := "Book"
          fields :=
            [{ name := "slot", number := 1, type := .message, typeName := some "lib.Shelf.Slot" },
             { name := "since", number := 2, type := .message, typeName := some "google.protobuf.Timestamp" },
             { name := "state", number := 3, type := .enumeration, typeName := some "lib.Shelf.State" }] }]
     services := [{ name := "BookService", methods := [{ name := "Put", input := "Book", output := "lib.Shelf" }] }]
     imports := ["lib/lib.proto", "google/protobuf/timestamp.proto"] },
   { package := "lib"
     messages :=
       [{ name := "Shelf"
          fields := [{ name := "slots", number := 1, repeated := true, type := .message, typeName := some "Slot" }]
          enums := [{ name := "State", values := [⟨"FREE", 0⟩, ⟨"TAKEN", 1⟩] }]
          nested :=
            [{ name := "Slot"
               fields := [{ name := "marks", number := 1, repeated := true, type := .message, typeName := some "Mark" }]
               nested :=
                 [{ name := "Mark"
                    fields :=
                      [{ name := "shelf", number := 1, type := .message, typeName := some "Shelf" },
                       { name := "state", number := 2, type := .enumeration, typeName := some "State" }] }] }] }] }]

theorem selfConsistent_shelfUnits : ∃ set, assemble shelfUnits = .ok set ∧ (shelfUnits.map (·.path)).Nodup ∧
    set.files.map (·.package) = ["lib", "app.books"] ∧ set.SelfConsistent shelfUnits := by
  have h : (assembleApart shelfUnits).toOption.any
      (fun set => namesApart set && decide (set.files.map (·.package) = ["lib", "app.books"])) = true := by decide +kernel
  obtain ⟨set, hset, horder⟩ := exists_assembled_of_apart h
  have hpaths : (shelfUnits.map (·.path)).Nodup := by decide +kernel
  exact ⟨set, hset, hpaths, of_decide_eq_true horder, selfConsistent_of_assemble hset hpaths⟩

end Assembly

end Protograph
