/-
  Protograph.Proofs.Runs — what a run of the program does to the files.

  A run loads and compiles, and may stop there (`Stops`). Only then does it write: the
  descriptor set, if it is asked for, and then the units, if they are not printed. The tree
  after that is known from what was written, in order (`Published`).

  Proved:
  - `ends_loadGraph`: loading looks at the files and changes none of them.
  - `stops_iff`: a run stops for one of three reasons, and reports which.
  - `run_effects`: a run that stops changes no file and prints nothing. A run that goes
    through changes the file of the descriptor set and those of the units only. The units
    have their texts if and only if no two of them put different texts in one place. None do
    where packages are dotted.
  - `text_overwritten`: where they are not, a unit may be lost, though it has a path of its
    own. The packages `a.b` and `a..b` have the paths `a/b/b.proto` and `a//b/b.proto`.
-/

import Protograph.CommandLine
import Protograph.Proofs.Evaluation
import Protograph.Proofs.Retention
import Protograph.Proofs.Writing

namespace Protograph

open FileTree (Wrote place)

variable {t t' : FileTree} {a : Arguments} {c : Compiled}

/-! ## Loading -/

namespace FileTree

/-- The document in a file of the tree. -/
def document (t : FileTree) (path : String) : Except LoadError Document :=
  match t.readText path with
  | none => .error (.unreadable path)
  | some text => (Document.ofText (Path.isJson path) text).mapError (.invalid path (Path.isJson path))

/-- The graph of the documents in some files of the tree. -/
def load (t : FileTree) (paths : List String) : Except LoadError Graph := do
  let documents ← paths.mapM t.document
  (Graph.ofDocuments documents).mapError .duplicateEntity

end FileTree

theorem ends_loadDocument (t : FileTree) (path : String) :
    Ends (loadDocument FileTree.store path) t (t.document path) t := by
  unfold loadDocument FileTree.document
  refine ends_bind.mpr (.inl ⟨t.readText path, t, rfl, ?_⟩)
  cases hread : t.readText path with
  | none => rfl
  | some text =>
    dsimp only
    cases Document.ofText (Path.isJson path) text <;> rfl

/-- Loading reads the files and changes nothing. -/
theorem ends_loadGraph (t : FileTree) (paths : List String) :
    Ends (loadGraph FileTree.store paths) t (t.load paths) t := by
  refine ends_bind_same (ends_mapM_same (ends_loadDocument t) paths) fun documents => ?_
  cases Graph.ofDocuments documents <;> rfl

/-! ## Whole runs -/

namespace Run

/-- Why a run ends before it writes anything. -/
inductive Stops (a : Arguments) (t : FileTree) : RunError → Prop
  | load {e : LoadError} : t.load a.inputs = .error e → Stops a t (.load e)
  | compile {g : Graph} {e : CompileError} : t.load a.inputs = .ok g →
      compile g (a.standardPackage.getD standardPackage) = .error e → Stops a t (.compile e)
  | entities {g : Graph} {c : Compiled} : t.load a.inputs = .ok g →
      compile g (a.standardPackage.getD standardPackage) = .ok c → c.errors ≠ [] → a.allowPartial = false →
      Stops a t (.entities c.errors.length (failures c))

/-- What is loaded compiles, and is to be written. -/
def Compiles (a : Arguments) (t : FileTree) (c : Compiled) : Prop :=
  ∃ g, t.load a.inputs = .ok g ∧ compile g (a.standardPackage.getD standardPackage) = .ok c ∧
    (c.errors = [] ∨ a.allowPartial = true)

theorem ends_lift {ε α : Type} {act : ExceptT ε (StateM FileTree) α} {r : Except ε α} (wrap : ε → RunError)
    (h : Ends act t r t') : Ends (lift wrap act) t (r.mapError wrap) t' := by
  have hresult : Ends (liftM act.run : ExceptT RunError (StateM FileTree) _) t (.ok r) t' :=
    Protograph.ends_lift.mpr ⟨(congrArg (Except.ok ·.1) h).symm, (congrArg Prod.snd h).symm⟩
  refine hresult.bind_iff.mpr ?_
  cases r <;> rfl

theorem of_ends_lift {ε α : Type} {act : ExceptT ε (StateM FileTree) α} {wrap : ε → RunError} {r : Except RunError α}
    (h : Ends (lift wrap act) t r t') : ∃ r', Ends act t r' t' ∧ r = r'.mapError wrap := by
  obtain ⟨r', s, hact⟩ := exists_ends act t
  obtain ⟨rfl, rfl⟩ := h.unique (ends_lift wrap hact)
  exact ⟨r', hact, rfl⟩

theorem stops_or_compiles (a : Arguments) (t : FileTree) : (∃ e, Stops a t e) ∨ ∃ c, Compiles a t c := by
  cases hg : t.load a.inputs with
  | error e => exact .inl ⟨_, .load hg⟩
  | ok g =>
    cases hc : compile g (a.standardPackage.getD standardPackage) with
    | error e => exact .inl ⟨_, .compile hg hc⟩
    | ok c =>
      by_cases hnone : c.errors = []
      · exact .inr ⟨c, g, hg, hc, .inl hnone⟩
      · cases hpartial : a.allowPartial with
        | true => exact .inr ⟨c, g, hg, hc, .inr hpartial⟩
        | false => exact .inl ⟨_, .entities hg hc hnone hpartial⟩

theorem ends_loaded {g : Graph} (hg : t.load a.inputs = .ok g) :
    Ends (lift .load (loadGraph FileTree.store a.inputs)) t (.ok g) t := by
  have hload := ends_lift .load (ends_loadGraph t a.inputs)
  rw [hg] at hload
  exact hload

/-- A run that stops leaves the tree as it was. -/
theorem ends_of_stops {e : RunError} (h : Stops a t e) : Ends (run FileTree.store a) t (.error e) t := by
  cases h with
  | load hg =>
    have hload := ends_lift .load (ends_loadGraph t a.inputs)
    rw [hg] at hload
    exact hload.bind_error_iff.mpr ⟨rfl, rfl⟩
  | compile hg hc =>
    refine (ends_loaded hg).bind_iff.mpr ?_
    rw [hc]
    rfl
  | entities hg hc hnone hpartial =>
    refine (ends_loaded hg).bind_iff.mpr ?_
    rw [hc]
    dsimp only
    rw [if_pos (by simpa [hpartial] using hnone)]
    rfl

/-- Any other run goes on to write what was compiled. -/
theorem ends_of_compiles {r : Except RunError Printed} (h : Compiles a t c) (hemit : Ends (emit FileTree.store a c) t r t') :
    Ends (run FileTree.store a) t r t' := by
  obtain ⟨g, hg, hc, hgoes⟩ := h
  refine (ends_loaded hg).bind_iff.mpr ?_
  rw [hc]
  dsimp only
  rw [if_neg]
  · exact hemit
  · rcases hgoes with hnone | hpartial
    · simp [hnone]
    · simp [hpartial]

end Run

/-! ## Files -/

namespace Arguments

/-- The descriptor set and its path, if it is asked for and there is a unit. -/
def setFile (a : Arguments) (c : Compiled) : List (String × Bytes) :=
  if c.units = [] then [] else a.setPath.toList.map (·, c.set.encode)

theorem setFile_unique {v w : String × Bytes} (hv : v ∈ a.setFile c) (hw : w ∈ a.setFile c) : v = w := by
  unfold setFile at hv hw
  split at hv
  · cases hv
  · rename_i hunits
    rw [if_neg hunits] at hw
    cases hpath : a.setPath with
    | none => simp [hpath] at hv
    | some path =>
      simp only [hpath, Option.toList_some, List.map_cons, List.map_nil, List.mem_singleton] at hv hw
      rw [hv, hw]

/-- The texts of the units and their paths. -/
def unitFiles (a : Arguments) (c : Compiled) : List (String × Bytes) :=
  c.units.map (·.fileBelow (a.output.getD "proto") (Namespaces.ofUnits c.units))

end Arguments

namespace Run

/-- Units are written after the descriptor set, unless they are printed. What cannot be
    written is all that can fail. -/
def Emits (a : Arguments) (c : Compiled) (t t' : FileTree) (r : Except RunError Printed) : Prop :=
  (∃ e, r = .error (.write e)) ∨ ∃ p, r = .ok p ∧ (a.stdout = false →
    p.stdout = "" ∧ ∃ s, Wrote t (a.setFile c) s ∧ Wrote s (a.unitFiles c) t')

theorem wrote_of_lift_publish {r : Except RunError (List String)}
    (h : Ends (lift .write (publish FileTree.store c.units (a.output.getD "proto"))) t r t') :
    (∃ e, r = .error (.write e)) ∨ ∃ paths, r = .ok paths ∧ Wrote t (a.unitFiles c) t' := by
  obtain ⟨r', hpublish, rfl⟩ := of_ends_lift h
  rcases wrote_of_publish hpublish with ⟨rfl, hwrote⟩ | ⟨_, _, ⟨e, rfl⟩, _⟩
  · exact .inr ⟨_, rfl, hwrote⟩
  · exact .inl ⟨e, rfl⟩

/-- What comes after the descriptor set. -/
theorem emits_of_rest {s : FileTree} {r : Except RunError Printed} (hset : Wrote t (a.setFile c) s)
    (h : Ends (if a.stdout then
        return ({ stdout := printed c.units } : Printed)
      else do
        let written ← lift .write (publish FileTree.store c.units (a.output.getD "proto"))
        return { summary := some (summary written.length (a.output.getD "proto") c.units) }) s r t') :
    Emits a c t t' r := by
  split at h
  · rename_i hstdout
    obtain ⟨rfl, rfl⟩ := ends_pure.mp h
    exact .inr ⟨_, rfl, fun hnot => absurd hstdout (by simp [hnot])⟩
  · rcases ends_bind.mp h with ⟨paths, s', hpublish, h⟩ | ⟨e, rfl, hpublish⟩
    · obtain ⟨rfl, rfl⟩ := ends_pure.mp h
      rcases wrote_of_lift_publish hpublish with ⟨e, he⟩ | ⟨_, _, hwrote⟩
      · cases he
      · exact .inr ⟨_, rfl, fun _ => ⟨rfl, s, hset, hwrote⟩⟩
    · rcases wrote_of_lift_publish hpublish with ⟨w, hw⟩ | ⟨_, hpaths, _⟩
      · cases hw
        exact .inl ⟨w, rfl⟩
      · cases hpaths

theorem emits_of_emit {r : Except RunError Printed} (h : Ends (emit FileTree.store a c) t r t') : Emits a c t t' r := by
  unfold emit at h
  split at h
  · rename_i hempty
    have hempty : c.units = [] := List.isEmpty_iff.mp hempty
    obtain ⟨rfl, rfl⟩ := ends_pure.mp h
    refine .inr ⟨_, rfl, fun _ => ⟨rfl, t', ?_, ?_⟩⟩
    · rw [Arguments.setFile, if_pos hempty]
      exact .refl t'
    · rw [Arguments.unitFiles, hempty]
      exact .refl t'
  · rename_i hunits
    have hset : a.setFile c = a.setPath.toList.map (·, c.set.encode) :=
      if_neg fun hempty => hunits (List.isEmpty_iff.mpr hempty)
    cases hpath : a.setPath with
    | none =>
      rw [hpath] at h hset
      exact emits_of_rest (hset ▸ .refl t) h
    | some path =>
      rw [hpath] at h hset
      rcases FileTree.of_ends_write h with ⟨s, hwrote, h⟩ | ⟨he, _⟩
      · exact emits_of_rest (hset ▸ hwrote) h
      · exact .inl ⟨_, he⟩

/-- The files after a run that wrote units. -/
structure Published (a : Arguments) (c : Compiled) (t t' : FileTree) : Prop where
  elsewhere : ∀ l, (∀ w ∈ a.setFile c ++ a.unitFiles c, place w.1 ≠ l) → t'.bytes? l = t.bytes? l
  /-- The descriptor set is at its path, unless a unit is written there. -/
  set : ∀ w ∈ a.setFile c, (∀ v ∈ a.unitFiles c, place v.1 ≠ place w.1) → t'.read w.1 = some w.2
  /-- The path of a unit has the text of a unit in the same place. -/
  unit : ∀ w ∈ a.unitFiles c, ∃ v ∈ a.unitFiles c, place v.1 = place w.1 ∧ t'.read w.1 = some v.2
  /-- It has the text of that unit itself, if no other text is written to the same place. -/
  all_units : (∀ w ∈ a.unitFiles c, t'.read w.1 = some w.2) ↔
    ∀ v ∈ a.unitFiles c, ∀ w ∈ a.unitFiles c, place v.1 = place w.1 → v.2 = w.2

theorem published_of_wrote {s : FileTree} (hset : Wrote t (a.setFile c) s) (hunits : Wrote s (a.unitFiles c) t') :
    Published a c t t' := by
  have hboth := hset.trans hunits
  refine ⟨fun l => hboth.elsewhere, fun w hw hfree => ?_, fun w => hunits.read, hunits.read_iff⟩
  obtain ⟨v, hv, hplace, hread⟩ := hboth.read (List.mem_append_left _ hw)
  rcases List.mem_append.mp hv with hv | hv
  · rw [hread, Arguments.setFile_unique hv hw]
  · exact absurd hplace (hfree v hv)

/-- Packages without empty segments and slashes have their units in distinct places. -/
theorem distinct_of_dotted {graph : Graph} {standard : String} (h : compile graph standard = .ok c)
    (hdotted : ∀ u ∈ c.units, FileTree.IsDotted u.package) :
    ∀ v ∈ a.unitFiles c, ∀ w ∈ a.unitFiles c, place v.1 = place w.1 → v.2 = w.2 := by
  intro v hv w hw hplace
  obtain ⟨u, hu, rfl⟩ := List.mem_map.mp hv
  obtain ⟨u', hu', rfl⟩ := List.mem_map.mp hw
  rw [PackageUnit.fileBelow_path, PackageUnit.fileBelow_path] at hplace
  have hpackage : u.package = u'.package := FileTree.package_of_place (hdotted u hu) (hdotted u' hu') hplace
  rw [List.inj_on_of_nodup_map (Compilation.packages_nodup h) hu hu' hpackage]

theorem published_of_run {p : Printed} (h : Ends (run FileTree.store a) t (.ok p) t') (hc : Compiles a t c)
    (hstdout : a.stdout = false) : p.stdout = "" ∧ Published a c t t' := by
  obtain ⟨r, s, hemit⟩ := exists_ends (emit FileTree.store a c) t
  obtain ⟨rfl, rfl⟩ := h.unique (ends_of_compiles hc hemit)
  rcases emits_of_emit hemit with ⟨e, he⟩ | ⟨p', hp', hwrote⟩
  · cases he
  · cases hp'
    obtain ⟨hp, s, hset, hunits⟩ := hwrote hstdout
    exact ⟨hp, published_of_wrote hset hunits⟩

/-- A run stops for a reason that it reports, or goes on and fails at most to write. -/
theorem stops_iff {r : Except RunError Printed} (h : Ends (run FileTree.store a) t r t') (e : RunError) :
    Stops a t e ↔ r = .error e ∧ ∀ w, e ≠ .write w := by
  constructor
  · intro hstops
    obtain ⟨rfl, _⟩ := h.unique (ends_of_stops hstops)
    refine ⟨rfl, fun w he => ?_⟩
    cases hstops <;> cases he
  · rintro ⟨rfl, hwrite⟩
    rcases stops_or_compiles a t with ⟨e', hstops⟩ | ⟨c, hc⟩
    · cases (h.unique (ends_of_stops hstops)).1
      exact hstops
    · obtain ⟨r, s, hemit⟩ := exists_ends (emit FileTree.store a c) t
      obtain ⟨rfl, _⟩ := h.unique (ends_of_compiles hc hemit)
      rcases emits_of_emit hemit with ⟨w, hw⟩ | ⟨_, hp, _⟩
      · cases hw
        exact absurd rfl (hwrite w)
      · cases hp

/-- A run that fails to load or to compile, or because entities failed, changes no file and
    prints nothing. A run that goes through without printing the units changes no file but that
    of the descriptor set and those of the units. Each of these has its text if and only if no
    two units put different texts in one place, and none do where packages are dotted. -/
theorem run_effects {r : Except RunError Printed} (h : Ends (run FileTree.store a) t r t') :
    (∀ e, (Stops a t e ↔ r = .error e ∧ ∀ w, e ≠ .write w) ∧ (Stops a t e → t' = t ∧ Printed.stdoutOf r = "")) ∧
    (∀ p, r = .ok p → a.stdout = false → Printed.stdoutOf r = "" ∧ ∃ c, Compiles a t c ∧ Published a c t t' ∧
      ((∀ u ∈ c.units, FileTree.IsDotted u.package) → ∀ w ∈ a.unitFiles c, t'.read w.1 = some w.2)) := by
  constructor
  · intro e
    refine ⟨stops_iff h e, fun hstops => ?_⟩
    obtain ⟨rfl, rfl⟩ := h.unique (ends_of_stops hstops)
    exact ⟨rfl, rfl⟩
  · rintro p rfl hstdout
    rcases stops_or_compiles a t with ⟨e, hstops⟩ | ⟨c, hc⟩
    · cases (h.unique (ends_of_stops hstops)).1
    · obtain ⟨hp, hpublished⟩ := published_of_run h hc hstdout
      refine ⟨hp, c, hc, hpublished, fun hdotted => hpublished.all_units.mpr ?_⟩
      obtain ⟨g, _, hcompile, _⟩ := hc
      exact distinct_of_dotted hcompile hdotted

/-! ## A file written twice -/

/-- A document with entities of two packages, whose units have distinct paths that lead to the
    same file. -/
def doubledText : String :=
  "\x7b\"entities\":[\x7b\"name\":\"A\",\"annotations\":\x7b\"message\":\x7b\"package\":\"a.b\"\x7d\x7d\x7d,"
    ++ "\x7b\"name\":\"B\",\"annotations\":\x7b\"message\":\x7b\"package\":\"a..b\"\x7d\x7d\x7d]\x7d"

def doubledTree : FileTree := ⟨[(["s.json"], doubledText.toUTF8.toList)], []⟩

def doubledGraph : Graph :=
  ⟨[{ name := "A", annotations := { message := some { package := some "a.b" } } },
    { name := "B", annotations := { message := some { package := some "a..b" } } }], by decide⟩

theorem load_doubledTree : doubledTree.load ["s.json"] = .ok doubledGraph := by
  have hlocate : doubledTree.locate "s.json" = some (["s.json"], false) := by decide +kernel
  have hread : doubledTree.read "s.json" = some doubledText.toUTF8.toList := by
    rw [FileTree.read, hlocate]
    rfl
  have hjson : Path.isJson "s.json" = true := by decide +kernel
  have hparse : (Document.ofText true doubledText).toOption.any (· = ⟨doubledGraph.entities⟩) = true := by decide +kernel
  obtain ⟨d, hd, hentities⟩ := exists_ok_of_any hparse
  have hdocument : doubledTree.document "s.json" = .ok d := by
    rw [FileTree.document, FileTree.readText_of_read hread, hjson]
    dsimp only
    rw [hd]
    rfl
  obtain rfl : d = ⟨doubledGraph.entities⟩ := of_decide_eq_true hentities
  rw [FileTree.load, List.mapM_cons, hdocument]
  rfl

def doubledArguments : Arguments := { inputs := ["s.json"] }

/-- Units of distinct paths, two of which have different texts but one place. -/
def clashes (a : Arguments) (c : Compiled) : Bool :=
  decide ((c.units.map (·.path)).Nodup) &&
    (a.unitFiles c).any fun v => (a.unitFiles c).any fun w => decide (place v.1 = place w.1 ∧ v.2 ≠ w.2)

theorem ends_doubled : ∃ c p t', Compiles doubledArguments doubledTree c ∧
    Ends (run FileTree.store doubledArguments) doubledTree (.ok p) t' ∧ clashes doubledArguments c = true := by
  have hcompile : ∃ c, compile doubledGraph standardPackage = .ok c ∧ (c.errors.isEmpty && clashes doubledArguments c &&
      ((emit FileTree.store doubledArguments c).run.run doubledTree).1.toOption.isSome) = true :=
    Compilation.exists_compiled_of_apart (by decide +kernel)
  obtain ⟨c, hc, htests⟩ := hcompile
  simp only [Bool.and_eq_true, List.isEmpty_iff] at htests
  obtain ⟨⟨hnone, hclashes⟩, hsome⟩ := htests
  obtain ⟨p, hp⟩ := Option.isSome_iff_exists.mp hsome
  obtain ⟨t', hemit⟩ := exists_ends_ok hp
  have hcompiles : Compiles doubledArguments doubledTree c := ⟨doubledGraph, load_doubledTree, hc, .inl hnone⟩
  exact ⟨c, p, t', hcompiles, ends_of_compiles hcompiles hemit, hclashes⟩

theorem run_effects_doubled : ∃ r t', Ends (run FileTree.store doubledArguments) doubledTree r t' ∧
    (∀ e, (Stops doubledArguments doubledTree e ↔ r = .error e ∧ ∀ w, e ≠ .write w) ∧
      (Stops doubledArguments doubledTree e → t' = doubledTree ∧ Printed.stdoutOf r = "")) ∧
    (∀ p, r = .ok p → doubledArguments.stdout = false → Printed.stdoutOf r = "" ∧
      ∃ c, Compiles doubledArguments doubledTree c ∧ Published doubledArguments c doubledTree t' ∧
        ((∀ u ∈ c.units, FileTree.IsDotted u.package) →
          ∀ w ∈ doubledArguments.unitFiles c, t'.read w.1 = some w.2)) := by
  obtain ⟨_, p, t', _, h, _⟩ := ends_doubled
  exact ⟨.ok p, t', h, run_effects h⟩

/-- Not every unit of a path of its own has its text there after a run that went through. -/
theorem text_overwritten : ¬ ∀ (a : Arguments) (t t' : FileTree) (p : Printed) (c : Compiled),
    Ends (run FileTree.store a) t (.ok p) t' → a.stdout = false → Compiles a t c → (c.units.map (·.path)).Nodup →
      ∀ w ∈ a.unitFiles c, t'.read w.1 = some w.2 := by
  intro hall
  obtain ⟨c, p, t', hc, h, hclashes⟩ := ends_doubled
  obtain ⟨_, hpublished⟩ := published_of_run h hc rfl
  simp only [clashes, Bool.and_eq_true, decide_eq_true_eq, List.any_eq_true] at hclashes
  obtain ⟨hpaths, v, hv, w, hw, hplace, hne⟩ := hclashes
  exact hne (hpublished.all_units.mp (hall _ _ _ _ _ h rfl hc hpaths) v hv w hw hplace)

end Run

end Protograph
