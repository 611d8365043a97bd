/-
  Protograph.Proofs.Walk — visiting units with nothing to bound how deep it goes.

  `ImportOrder.visit` is given fuel. `Walks` has the same rules without fuel: a path is
  passed over when it is done, closes a cycle when it is being visited, and is otherwise done
  after all that it imports. A walk that went on for ever would come to nothing, and one that
  the fuel cut short to something else than the order.

  Proved, for all units:
  - `Walks.unique`: a walk comes to one thing at most.
  - `walks_visit`, `walks_order`: the walk over the units ends, in their order.
  - `importOrder_arranged`: where each unit has a path of its own, the order has every unit
    once, after those it imports, and there is none if and only if units import each other in
    a cycle. The chain reported then is one of units that import each other.
-/

import Protograph.Proofs.Arrangement

namespace Protograph.ImportOrder

variable {units : List PackageUnit}

/-! ## Walks -/

/-- What visiting some paths comes to: the paths done after it, or the chain that closes a
    cycle. `stack` has the paths being visited, `done` those done before. -/
inductive Walks (units : List PackageUnit) :
    List String → List String → List String → Except (List String) (List String) → Prop
  | nil {stack done : List String} : Walks units stack done [] (.ok done)
  | pass {stack done rest : List String} {path : String} {r : Except (List String) (List String)} :
      path ∈ done → Walks units stack done rest r → Walks units stack done (path :: rest) r
  | close {stack done rest : List String} {path : String} :
      path ∉ done → path ∈ stack → Walks units stack done (path :: rest) (.error (stack ++ [path]))
  | fail {stack done rest chain : List String} {path : String} :
      path ∉ done → path ∉ stack → Walks units (stack ++ [path]) done (importsOf units path) (.error chain) →
      Walks units stack done (path :: rest) (.error chain)
  | finish {stack done next rest : List String} {path : String} {r : Except (List String) (List String)} :
      path ∉ done → path ∉ stack → Walks units (stack ++ [path]) done (importsOf units path) (.ok next) →
      Walks units stack (next ++ [path]) rest r → Walks units stack done (path :: rest) r

theorem Walks.unique {stack done paths : List String} {r r' : Except (List String) (List String)}
    (h : Walks units stack done paths r) (h' : Walks units stack done paths r') : r = r' := by
  induction h generalizing r' with
  | nil =>
    cases h'
    rfl
  | pass hdone _ ih =>
    cases h' with
    | pass _ hrest => exact ih hrest
    | close hnew _ => exact absurd hdone hnew
    | fail hnew _ _ => exact absurd hdone hnew
    | finish hnew _ _ _ => exact absurd hdone hnew
  | close hnew hopen =>
    cases h' with
    | pass hdone _ => exact absurd hdone hnew
    | close _ _ => rfl
    | fail _ hclosed _ => exact absurd hopen hclosed
    | finish _ hclosed _ _ => exact absurd hopen hclosed
  | fail hnew hclosed _ ih =>
    cases h' with
    | pass hdone _ => exact absurd hdone hnew
    | close _ hopen => exact absurd hopen hclosed
    | fail _ _ himports => exact ih himports
    | finish _ _ himports _ => cases ih himports
  | finish hnew hclosed _ _ ihimports ihrest =>
    cases h' with
    | pass hdone _ => exact absurd hdone hnew
    | close _ hopen => exact absurd hopen hclosed
    | fail _ _ himports => cases ihimports himports
    | finish _ _ himports hrest =>
      cases ihimports himports
      exact ihrest hrest

/-! ## Visits with enough fuel -/

theorem visit_of_done {fuel : Nat} {stack done : List String} {path : String} (h : path ∈ done) :
    visit units fuel stack done path = .ok done := by
  unfold visit
  rw [if_pos h]

theorem visit_of_open {fuel : Nat} {stack done : List String} {path : String} (hnew : path ∉ done) (h : path ∈ stack) :
    visit units fuel stack done path = .error (stack ++ [path]) := by
  unfold visit
  rw [if_neg hnew, if_pos h]

theorem visit_of_new {fuel : Nat} {stack done : List String} {path : String} (hnew : path ∉ done)
    (hclosed : path ∉ stack) :
    visit units (fuel + 1) stack done path =
      (do let next ← (importsOf units path).foldlM (visit units fuel (stack ++ [path])) done
          return next ++ [path]) := by
  rw [visit, if_neg hnew, if_neg hclosed]

/-- What a walk may set out from: each of the paths is one of a unit, and the last path being
    visited imports it. -/
structure Setting (units : List PackageUnit) (stack done paths : List String) : Prop where
  visiting : Visiting units stack
  visited : Visited units stack done
  chain : ∀ p ∈ paths, (stack ++ [p]).IsChain (Imports units)
  known : ∀ p ∈ paths, p ∈ units.map (·.path)

theorem Setting.rest {stack done next rest : List String} {path : String}
    (h : Setting units stack done (path :: rest)) (hnext : Visited units stack next) : Setting units stack next rest :=
  ⟨h.visiting, hnext, fun p hp => h.chain p (List.mem_cons_of_mem _ hp), fun p hp => h.known p (List.mem_cons_of_mem _ hp)⟩

/-- A walk goes on to what a new path imports. -/
theorem Setting.imports {stack done rest : List String} {path : String} (h : Setting units stack done (path :: rest))
    (hnew : path ∉ done) (hclosed : path ∉ stack) : Setting units (stack ++ [path]) done (importsOf units path) := by
  have hchain := h.chain path List.mem_cons_self
  refine ⟨visiting_snoc h.visiting hchain (h.known path List.mem_cons_self) hclosed, ?_, ?_, ?_⟩
  · refine ⟨h.visited.sorted, h.visited.known, ?_⟩
    intro p hp
    rcases List.mem_append.mp hp with hp | hp
    · exact h.visited.apart p hp
    · rw [List.mem_singleton.mp hp]
      exact hnew
  · intro i hi
    rw [List.append_assoc, List.singleton_append, List.isChain_append_cons_cons]
    exact ⟨hchain, hi, List.isChain_singleton i⟩
  · exact fun i hi => path_of_imports hi

/-- Visiting paths one after another is a walk over them if that is so of what a new path
    imports, where one unit of fuel is used up. -/
theorem walks_foldlM {fuel : Nat} {stack done paths : List String} (hfuel : units.length ≤ fuel + stack.length)
    (himports : ∀ done path, path ∉ done → path ∉ stack → Setting units (stack ++ [path]) done (importsOf units path) →
      ∃ left, fuel = left + 1 ∧ Walks units (stack ++ [path]) done (importsOf units path)
        ((importsOf units path).foldlM (visit units left (stack ++ [path])) done))
    (h : Setting units stack done paths) : Walks units stack done paths (paths.foldlM (visit units fuel stack) done) := by
  induction paths generalizing done with
  | nil => exact .nil
  | cons path rest ih =>
    rw [List.foldlM_cons]
    by_cases hdone : path ∈ done
    · rw [visit_of_done hdone]
      exact .pass hdone (ih (h.rest h.visited))
    by_cases hopen : path ∈ stack
    · rw [visit_of_open hdone hopen]
      exact .close hdone hopen
    have hvisit := visit_spec fuel hfuel h.visiting (h.chain path List.mem_cons_self)
      (h.known path List.mem_cons_self) h.visited
    obtain ⟨left, rfl, hwalk⟩ := himports done path hdone hopen (h.imports hdone hopen)
    rw [visit_of_new hdone hopen] at hvisit ⊢
    cases hr : (importsOf units path).foldlM (visit units left (stack ++ [path])) done with
    | error chain =>
      rw [hr] at hwalk
      exact .fail hdone hopen hwalk
    | ok next =>
      rw [hr] at hwalk hvisit
      exact .finish hdone hopen hwalk (ih (h.rest hvisit.1))

/-- With fuel for every unit that is not on the stack, visiting paths one after another is a
    walk over them. -/
theorem walks_visit (fuel : Nat) {stack done paths : List String} (hfuel : units.length ≤ fuel + stack.length)
    (h : Setting units stack done paths) : Walks units stack done paths (paths.foldlM (visit units fuel stack) done) := by
  induction fuel generalizing stack done paths with
  | zero =>
    refine walks_foldlM hfuel (fun done path _ _ hnext => ?_) h
    -- with a new path the stack would be longer than there are units
    have hle := length_le_of_visiting hnext.visiting
    rw [List.length_append, List.length_singleton] at hle
    omega
  | succ fuel ih =>
    refine walks_foldlM hfuel (fun done path _ _ hnext => ⟨fuel, rfl, ih ?_ hnext⟩) h
    rw [List.length_append, List.length_singleton]
    omega

/-- The walk over all units comes to their order. -/
theorem walks_order (units : List PackageUnit) : Walks units [] [] (units.map (·.path)) (order units) :=
  walks_visit units.length (Nat.le_refl _)
    ⟨⟨List.isChain_nil, by simp, List.nodup_nil⟩, ⟨.nil, by simp, by simp⟩, fun p _ => List.isChain_singleton p,
      fun _ hp => hp⟩

end Protograph.ImportOrder

namespace Protograph.Assembly

open ImportOrder (Walks Cyclic Closes)

variable {units : List PackageUnit}

/-! ## Units that import each other -/

/-- One of the units imports another, or itself. -/
def Needs (units : List PackageUnit) (u v : PackageUnit) : Prop := u ∈ units ∧ v ∈ units ∧ v.path ∈ u.imports

/-- Paths that have each unit once, after the units that it imports. -/
structure Arranged (units : List PackageUnit) (paths : List String) : Prop where
  once : paths.Perm (units.map (·.path))
  after : ∀ {front back : List String} {u v : PackageUnit}, paths = front ++ u.path :: back → Needs units u v →
    v.path ∈ front

/-- A chain of paths of units each of which imports the next, the last one being in it before. -/
structure Chained (units : List PackageUnit) (chain : List String) : Prop where
  links : chain.IsChain fun a b => ∃ u v, u.path = a ∧ v.path = b ∧ Needs units u v
  closes : ∃ front p, chain = front ++ [p] ∧ p ∈ front

theorem imports_of_needs (hpaths : (units.map (·.path)).Nodup) {u v : PackageUnit} (h : Needs units u v) :
    ImportOrder.Imports units u.path v.path :=
  imports_of_unit hpaths h.1 h.2.2 (List.mem_map_of_mem h.2.1)

/-- Paths import each other as units do. -/
theorem exists_needs_of_imports (hpaths : (units.map (·.path)).Nodup) {a b : String} (h : ImportOrder.Imports units a b) :
    ∃ u v, u.path = a ∧ v.path = b ∧ Needs units u v := by
  obtain ⟨hunit, u, hu, rfl, hlisted⟩ := (imports_iff_unit hpaths).mp h
  obtain ⟨v, hv, rfl⟩ := List.mem_map.mp hunit
  exact ⟨u, v, rfl, rfl, hu, hv, hlisted⟩

theorem unit_eq_of_path (hpaths : (units.map (·.path)).Nodup) {u v : PackageUnit} (hu : u ∈ units) (hv : v ∈ units)
    (h : u.path = v.path) : u = v :=
  List.inj_on_of_nodup_map hpaths hu hv h

/-- What paths lead to through imports, their units do. -/
theorem exists_needs_of_transGen (hpaths : (units.map (·.path)).Nodup) {a b : String}
    (h : Relation.TransGen (ImportOrder.Imports units) a b) :
    ∃ u v, u ∈ units ∧ v ∈ units ∧ u.path = a ∧ v.path = b ∧ Relation.TransGen (Needs units) u v := by
  induction h with
  | single hab =>
    obtain ⟨u, v, hu, hv, hneeds⟩ := exists_needs_of_imports hpaths hab
    exact ⟨u, v, hneeds.1, hneeds.2.1, hu, hv, .single hneeds⟩
  | tail _ hbc ih =>
    obtain ⟨u, v, hu, hv, hua, hvb, hlead⟩ := ih
    obtain ⟨v', w, hv', hwc, hneeds⟩ := exists_needs_of_imports hpaths hbc
    obtain rfl := unit_eq_of_path hpaths hv hneeds.1 (hvb.trans hv'.symm)
    exact ⟨u, w, hu, hneeds.2.1, hua, hwc, hlead.tail hneeds⟩

theorem cyclic_iff_needs (hpaths : (units.map (·.path)).Nodup) :
    Cyclic units ↔ ∃ u, Relation.TransGen (Needs units) u u := by
  constructor
  · rintro ⟨p, hp⟩
    obtain ⟨u, v, hu, hv, hup, hvp, hlead⟩ := exists_needs_of_transGen hpaths hp
    obtain rfl := unit_eq_of_path hpaths hu hv (hup.trans hvp.symm)
    exact ⟨u, hlead⟩
  · rintro ⟨u, hu⟩
    exact ⟨u.path, hu.lift PackageUnit.path fun _ _ h => imports_of_needs hpaths h⟩

/-! ## Orders and cycles -/

theorem arranged_of_order (hpaths : (units.map (·.path)).Nodup) {paths : List String}
    (h : ImportOrder.order units = .ok paths) : Arranged units paths := by
  obtain ⟨hsorted, hmem⟩ := ImportOrder.order_ok h
  refine ⟨(List.perm_ext_iff_of_nodup hsorted.nodup hpaths).mpr hmem, ?_⟩
  intro front back u v hsplit hneeds
  exact hsorted.before hsplit (imports_of_needs hpaths hneeds)

theorem chained_of_closes (hpaths : (units.map (·.path)).Nodup) {chain : List String} (h : Closes units chain) :
    Chained units chain :=
  ⟨h.1.imp fun _ _ himports => exists_needs_of_imports hpaths himports, h.2⟩

theorem importOrder_eq_error {x : CompileError} (h : importOrder units = .error x) :
    ∃ file chain, ImportOrder.order units = .error chain ∧ chain.getLast? = some file ∧
      x = .assembly file (.importCycle chain) := by
  unfold importOrder at h
  split at h
  · cases h
  · rename_i chain hchain
    cases h
    obtain ⟨_, front, p, rfl, _⟩ := ImportOrder.order_error hchain
    exact ⟨p, front ++ [p], hchain, List.getLast?_concat, by rw [List.getLast?_concat, Option.getD_some]⟩

/-- Where each unit has a path of its own, the walk over the units ends, in an order that has
    every unit once, after those it imports, or in a chain of units that import each other and
    the last of which is in it before. It ends in a chain if and only if there is a cycle. -/
theorem importOrder_arranged (hpaths : (units.map (·.path)).Nodup) :
    (∀ r, Walks units [] [] (units.map (·.path)) r ↔ r = ImportOrder.order units) ∧
    (∀ paths, importOrder units = .ok paths → Arranged units paths) ∧
    (∀ x, importOrder units = .error x → ∃ file chain, x = .assembly file (.importCycle chain) ∧
      chain.getLast? = some file ∧ Chained units chain) ∧
    ((∃ x, importOrder units = .error x) ↔ ∃ u, Relation.TransGen (Needs units) u u) := by
  have hwalks := ImportOrder.walks_order units
  refine ⟨fun r => ⟨fun h => h.unique hwalks, fun h => h ▸ hwalks⟩, ?_, ?_, ?_⟩
  · intro paths h
    exact arranged_of_order hpaths (importOrder_eq_ok.mp h)
  · intro x h
    obtain ⟨file, chain, horder, hlast, rfl⟩ := importOrder_eq_error h
    exact ⟨file, chain, rfl, hlast, chained_of_closes hpaths (ImportOrder.order_error horder)⟩
  · have hnone : (∃ x, importOrder units = .error x) ↔ ¬ ∃ paths, ImportOrder.order units = .ok paths := by
      simp only [← importOrder_eq_ok]
      cases importOrder units with
      | error x => simp
      | ok paths => simp
    rw [hnone, ImportOrder.order_ok_iff, not_not, cyclic_iff_needs hpaths]

/-- Units two of which import each other. -/
def ringUnits : List PackageUnit :=
  [{ package := "app", imports := ["google/protobuf/empty.proto", "lib/lib.proto"] },
   { package := "lib", imports := ["base/base.proto"] },
   { package := "base", imports := ["lib/lib.proto"] }]

theorem importOrder_arranged_ringUnits : (ringUnits.map (·.path)).Nodup ∧
    importOrder ringUnits = .error (.assembly "lib/lib.proto"
      (.importCycle ["app/app.proto", "lib/lib.proto", "base/base.proto", "lib/lib.proto"])) ∧
    Chained ringUnits ["app/app.proto", "lib/lib.proto", "base/base.proto", "lib/lib.proto"] ∧
    ∃ u, Relation.TransGen (Needs ringUnits) u u := by
  have hpaths : (ringUnits.map (·.path)).Nodup := by decide +kernel
  have h : importOrder ringUnits = .error (.assembly "lib/lib.proto"
      (.importCycle ["app/app.proto", "lib/lib.proto", "base/base.proto", "lib/lib.proto"])) := by decide +kernel
  obtain ⟨_, _, hchain, hcycle⟩ := importOrder_arranged hpaths
  obtain ⟨_, _, hx, _, hchained⟩ := hchain _ h
  cases hx
  exact ⟨hpaths, h, hchained, hcycle.mp ⟨_, h⟩⟩

end Protograph.Assembly
