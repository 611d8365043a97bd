/-
  Protograph.Proofs.Assembly — which units can be put together.

  `assemble_eq_ok` says what a descriptor set goes through. Of several units of one path
  the first one is in the set (`filesOf`). From there `exists_assembled_iff`: units can be
  put together if and only if they import what there is, no imports form a cycle, and their
  files fit together (`Fits`): a pool accepts them beside the well-known files, and whatever
  they refer to is found. In which order imports put the files makes no difference to that.
-/

import Protograph.Proofs.Canonical
import Protograph.Proofs.ImportOrder

namespace Protograph

/-! ## Symbols and claims -/

mutual

theorem Message.symbols_sublist (m : Message) (path scope : String) :
    (Symbols.names (m.symbols path scope)).Sublist (m.declared scope) := by
  obtain ⟨name, fields, enums, nested⟩ := m
  simp only [Symbols.names, Message.symbols, Message.declared, List.map_cons, List.map_append, List.map_map]
  have hnested := Message.symbolsAll_sublist nested path (qualify scope name)
  have henums := map_sublist_flatMap (Enum.name_mem_declared · (qualify scope name)) enums
  exact List.Sublist.cons_cons _ (List.Sublist.trans (hnested.append henums) (List.sublist_append_right _ _))

theorem Message.symbolsAll_sublist (ms : List Message) (path scope : String) :
    (Symbols.names (Message.symbolsAll path scope ms)).Sublist (Message.declaredAll scope ms) := by
  cases ms with
  | nil => exact List.Sublist.slnil
  | cons m ms =>
    simp only [Symbols.names, Message.symbolsAll, Message.declaredAll, List.map_append]
    exact (m.symbols_sublist path scope).append (Message.symbolsAll_sublist ms path scope)

end

theorem ProtoFile.symbols_sublist (f : ProtoFile) : (Symbols.names f.symbols).Sublist f.declared := by
  simp only [Symbols.names, ProtoFile.symbols, ProtoFile.declared, List.map_append, List.map_map]
  have henums := (map_sublist_flatMap (Enum.name_mem_declared · f.package) f.enums).trans
    (List.sublist_append_left _ (f.services.flatMap (Service.declared f.package)))
  exact (Message.symbolsAll_sublist f.messages f.path f.package).append
    (henums.trans (List.sublist_append_right _ _))

/-- Where claims are apart no two symbols have one name. -/
theorem names_nodup_of_pairwise {files : List ProtoFile} (h : (files.flatMap Pool.claimsOf).Pairwise Pool.Shares) :
    (Symbols.names (files.flatMap ProtoFile.symbols)).Nodup := by
  have hsublist : (files.flatMap fun f => (Symbols.names f.symbols).map (Pool.Claim.mk · f.path false)).Sublist
      (files.flatMap Pool.claimsOf) :=
    List.Sublist.flatMap_right files fun f _ =>
      (f.symbols_sublist.map _).trans (List.sublist_append_right _ _)
  have hnames := Pool.nodup_of_pairwise_shares (h.sublist hsublist) fun c hc => by
    obtain ⟨f, _, hf⟩ := List.mem_flatMap.mp hc
    obtain ⟨n, _, rfl⟩ := List.mem_map.mp hf
    rfl
  simpa [Symbols.names, List.map_flatMap, Function.comp_def] using hnames

/-- The order of files makes no difference to a pool. -/
theorem Pool.accepts_perm {files files' : List ProtoFile} (hp : files.Perm files') (h : Accepts files) :
    Accepts files' := by
  refine ⟨(hp.map _).nodup_iff.mp h.paths, ?_, fun f hf => h.named f (hp.mem_iff.mpr hf),
    fun f hf => h.numbered f (hp.mem_iff.mpr hf)⟩
  refine (hp.flatMap_right claimsOf).pairwise h.names ?_
  intro a b hab he
  exact (hab he.symm).symm

namespace Assembly

variable {units : List PackageUnit}

/-! ## Sets -/

/-- The files of some paths, of each path that of the first unit. -/
def filesAt (units : List PackageUnit) (paths : List String) : List ProtoFile :=
  paths.filterMap fun path => (units.find? (·.path == path)).map (·.toFile)

/-- The files of some units, in the order in which their paths first come. -/
def filesOf (units : List PackageUnit) : List ProtoFile := filesAt units (paths units)

theorem exists_of_mem_filesAt {paths : List String} {f : ProtoFile} (hf : f ∈ filesAt units paths) :
    ∃ u ∈ units, u.toFile = f := by
  obtain ⟨p, _, hp⟩ := List.mem_filterMap.mp hf
  obtain ⟨u, hu, hfile⟩ := Option.map_eq_some_iff.mp hp
  exact ⟨u, List.mem_of_find?_eq_some hu, hfile⟩

/-- The files of some paths of units have these paths. -/
theorem map_path_filesAt {paths : List String} (hall : ∀ p ∈ paths, p ∈ units.map (·.path)) :
    (filesAt units paths).map (·.path) = paths := by
  induction paths with
  | nil => rfl
  | cons p paths ih =>
    obtain ⟨v, hv, hpath⟩ := List.mem_map.mp (hall p List.mem_cons_self)
    cases hfound : units.find? (·.path == p) with
    | none => exact absurd hpath (by simpa using List.find?_eq_none.mp hfound v hv)
    | some u =>
      have hu : u.toFile.path = p := eq_of_beq (List.find?_some hfound :)
      have hrest := ih fun q hq => hall q (List.mem_cons_of_mem _ hq)
      unfold filesAt at hrest ⊢
      rw [List.filterMap_cons_some (by rw [hfound]; rfl), List.map_cons, hu, hrest]

/-- The well-known files, if there is any unit. -/
def standing (units : List PackageUnit) : List ProtoFile := if units.isEmpty then [] else WellKnown.files

def symbolsOf (files : List ProtoFile) : Symbols := files.flatMap ProtoFile.symbols

theorem symbolsOf_alike {front files files' : List ProtoFile} (h : List.Forall₂ Alike files files') :
    symbolsOf (front ++ files') = symbolsOf (front ++ files) := by
  unfold symbolsOf
  rw [List.flatMap_append, List.flatMap_append, List.flatMap_def (l := files'), List.flatMap_def (l := files),
    map_eq_of_forall₂ (h.imp fun _ _ => Alike.symbols)]

/-- Every import is of a well-known file or a unit. -/
def ImportsKnown (units : List PackageUnit) : Prop :=
  ∀ u ∈ units, ∀ i ∈ u.imports, i ∈ WellKnown.paths ∨ i ∈ units.map (·.path)

theorem checkImports_eq_ok {u : PackageUnit} {x : Unit} :
    checkImports units u = .ok x ↔ ∀ i ∈ u.imports, i ∈ WellKnown.paths ∨ i ∈ units.map (·.path) := by
  unfold checkImports
  split
  · rename_i i hi
    have hmem := List.mem_of_find?_eq_some hi
    have hno := List.find?_some hi
    simp only [reduceCtorEq, false_iff]
    intro hall
    rcases hall i hmem with hwell | hunit
    · simp [hwell] at hno
    · obtain ⟨v, hv, rfl⟩ := List.mem_map.mp hunit
      simp only [Bool.not_eq_true', Bool.or_eq_false_iff, List.any_eq_false] at hno
      exact hno.2 v hv (by simp)
  · rename_i hnone
    simp only [true_iff]
    intro i hi
    have hknown := List.find?_eq_none.mp hnone i hi
    simpa [← or_iff_not_imp_left] using hknown

theorem importOrder_eq_ok {order : List String} : importOrder units = .ok order ↔ ImportOrder.order units = .ok order := by
  unfold importOrder
  split
  · rename_i ps hps
    rw [hps]
    simp
  · rename_i chain hchain
    rw [hchain]
    simp

theorem checkPool_eq_ok {set : DescriptorSet} {x : Unit} : checkPool set = .ok x ↔ Pool.Accepts set.all := by
  rw [← Pool.check_eq_ok_iff]
  unfold checkPool
  cases Pool.check set.all with
  | error fault => simp
  | ok u => simp

/-- What a descriptor set goes through. -/
theorem assemble_eq_ok {set : DescriptorSet} :
    assemble units = .ok set ↔
      ImportsKnown units ∧ ∃ order, ImportOrder.order units = .ok order ∧
        (Symbols.names (symbolsOf (standing units ++ filesAt units order))).Nodup ∧
        set.wellKnown = standing units ∧
        List.Forall₂ (fun f f' => canonicalFile (symbolsOf (standing units ++ filesAt units order)) f = .ok f')
          (filesAt units order) set.files ∧
        Pool.Accepts set.all := by
  obtain ⟨wellKnown, files⟩ := set
  unfold assemble
  simp only [bind_eq_ok, pure_eq_ok, forM_eq_ok, checkImports_eq_ok, importOrder_eq_ok, Symbols.ofFiles_eq_ok,
    mapM_eq_ok, checkPool_eq_ok, DescriptorSet.mk.injEq]
  constructor
  · intro h
    obtain ⟨_, himports, order, horder, _, ⟨rfl, hnames⟩, _, hfiles, _, hpool, rfl, rfl⟩ := h
    exact ⟨himports, order, horder, hnames, rfl, hfiles, hpool⟩
  · intro h
    obtain ⟨himports, order, horder, hnames, rfl, hfiles, hpool⟩ := h
    exact ⟨⟨⟩, himports, order, horder, _, ⟨rfl, hnames⟩, _, hfiles, ⟨⟩, hpool, rfl, rfl⟩

/-- A cycle of imports is reported ahead of what else is wrong with units that import what
    there is. -/
theorem assemble_of_order_error {chain : List String} (himports : ImportsKnown units)
    (horder : ImportOrder.order units = .error chain) :
    assemble units = .error (.assembly (chain.getLast?.getD "") (.importCycle chain)) := by
  have hknown : units.forM (checkImports units) = .ok ⟨⟩ :=
    forM_eq_ok.mpr fun u hu => checkImports_eq_ok.mpr (himports u hu)
  unfold assemble importOrder
  simp only [hknown, horder]
  rfl

/-! ## Units that fit -/

/-- Files that a pool accepts beside the well-known files, with all their references found. -/
structure Fits (files : List ProtoFile) : Prop where
  accepted : Pool.Accepts (WellKnown.files ++ files)
  found : ∀ f ∈ files, ∀ r ∈ f.references, Finds (symbolsOf (WellKnown.files ++ files)) f r

theorem accepts_wellKnown : Pool.Accepts WellKnown.files := by
  have h : (Pool.check WellKnown.files).toOption.any (fun _ => true) = true := by decide +kernel
  obtain ⟨u, hu, _⟩ := exists_ok_of_any h
  exact Pool.check_eq_ok_iff.mp ⟨u, hu⟩

theorem paths_nodup (units : List PackageUnit) : (paths units).Nodup := nodup_addAll List.nodup_nil _

theorem mem_paths {path : String} : path ∈ paths units ↔ path ∈ units.map (·.path) := by
  unfold paths
  rw [mem_addAll]
  simp

/-- An order of imports puts the files of the units in another order. -/
theorem filesAt_perm {order : List String} (h : ImportOrder.order units = .ok order) :
    (filesAt units order).Perm (filesOf units) := by
  obtain ⟨hsorted, hmem⟩ := ImportOrder.order_ok h
  refine List.Perm.filterMap _ ((List.perm_ext_iff_of_nodup hsorted.nodup (paths_nodup units)).mpr ?_)
  intro p
  rw [hmem, mem_paths]

theorem fits_perm {files files' : List ProtoFile} (hp : files.Perm files') (h : Fits files) : Fits files' := by
  have hall : (WellKnown.files ++ files).Perm (WellKnown.files ++ files') := hp.append_left _
  refine ⟨Pool.accepts_perm hall h.accepted, fun f hf r hr => ?_⟩
  obtain ⟨s, hs, hreach⟩ := h.found f (hp.mem_iff.mpr hf) r hr
  refine ⟨s, ?_, hreach⟩
  rw [← hs]
  exact (Symbols.resolve_perm (names_nodup_of_pairwise h.accepted.names) (hall.flatMap_right _) _ _).symm

theorem fits_iff_canonical {files : List ProtoFile} :
    Fits files ↔ (Symbols.names (symbolsOf (WellKnown.files ++ files))).Nodup ∧
      ∃ files', List.Forall₂ (fun f f' => canonicalFile (symbolsOf (WellKnown.files ++ files)) f = .ok f') files files' ∧
        Pool.Accepts (WellKnown.files ++ files') := by
  have haccepts : ∀ {files'},
      List.Forall₂ (fun f f' => canonicalFile (symbolsOf (WellKnown.files ++ files)) f = .ok f') files files' →
        (Pool.Accepts (WellKnown.files ++ files') ↔ Pool.Accepts (WellKnown.files ++ files)) :=
    fun h => accepts_alike (h.imp fun _ _ => alike_canonical)
  constructor
  · intro h
    obtain ⟨files', hfiles'⟩ := exists_mapM_iff.mpr fun f hf => exists_canonical_iff.mpr (h.found f hf)
    rw [mapM_eq_ok] at hfiles'
    exact ⟨names_nodup_of_pairwise h.accepted.names, files', hfiles', (haccepts hfiles').mpr h.accepted⟩
  · intro hparts
    obtain ⟨_, files', hfiles', hpool⟩ := hparts
    refine ⟨(haccepts hfiles').mp hpool, fun f hf => exists_canonical_iff.mp ?_⟩
    obtain ⟨f', _, hf'⟩ := exists_of_forall₂_left hfiles' hf
    exact ⟨f', hf'⟩

/-- Units can be put together if and only if they import what there is, no imports form a
    cycle, and the files fit together. -/
theorem exists_assembled_iff :
    (∃ set, assemble units = .ok set) ↔
      ImportsKnown units ∧ ¬ ImportOrder.Cyclic units ∧ Fits (filesOf units) := by
  cases hunits : units with
  | nil =>
    have hempty : Fits [] := ⟨by simpa using accepts_wellKnown, by simp⟩
    have hacyclic : ¬ ImportOrder.Cyclic [] := ImportOrder.order_ok_iff.mp ⟨[], rfl⟩
    exact iff_of_true ⟨⟨[], []⟩, rfl⟩ ⟨by simp [ImportsKnown], hacyclic, hempty⟩
  | cons u us =>
    rw [← hunits]
    have hstanding : standing units = WellKnown.files := by rw [hunits]; rfl
    simp only [assemble_eq_ok, hstanding, ← ImportOrder.order_ok_iff]
    constructor
    · intro h
      obtain ⟨set, himports, order, horder, hnames, hwellKnown, hfiles, hpool⟩ := h
      rw [DescriptorSet.all, hwellKnown] at hpool
      exact ⟨himports, ⟨order, horder⟩, fits_perm (filesAt_perm horder) (fits_iff_canonical.mpr ⟨hnames, _, hfiles, hpool⟩)⟩
    · intro h
      obtain ⟨himports, ⟨order, horder⟩, hfits⟩ := h
      obtain ⟨hnames, files', hfiles, hpool⟩ := fits_iff_canonical.mp (fits_perm (filesAt_perm horder).symm hfits)
      exact ⟨⟨WellKnown.files, files'⟩, himports, order, horder, hnames, rfl, hfiles, hpool⟩

end Assembly

end Protograph
