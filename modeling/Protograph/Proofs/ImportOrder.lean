/-
  Protograph.Proofs.ImportOrder — the order of imports, and the cycles that rule one out.

  A path imports another if its unit does and both are paths of units (`Imports`). Paths
  are sorted when each comes after all it imports and none comes twice (`Sorted`); a chain
  closes a cycle when each path of it imports the next and the last is in it before
  (`Closes`).

  Proved, for all units, also where several have one path:
  - `visit_spec`: a visit appends to sorted paths and keeps them sorted, or closes a cycle.
    Its fuel lasts, because the paths on the stack are distinct.
  - `order_ok`, `order_error`: so the order has every path of a unit once and is sorted, and
    a chain that comes instead is a real one.
  - `order_ok_iff`: there is an order if and only if there is no cycle.
-/

import Protograph.Descriptor.ImportOrder
import Protograph.Proofs.Steps
import Mathlib.Data.List.Chain
import Mathlib.Data.List.Nodup
import Mathlib.Data.List.Perm.Subperm
import Mathlib.Logic.Relation

namespace Protograph.ImportOrder

variable {units : List PackageUnit}

/-- One unit imports another, by their paths. -/
def Imports (units : List PackageUnit) (a b : String) : Prop := b ∈ importsOf units a

/-- Some unit imports itself, directly or through others. -/
def Cyclic (units : List PackageUnit) : Prop := ∃ p, Relation.TransGen (Imports units) p p

/-- Paths each of which comes after all that it imports, none of them twice. -/
inductive Sorted (units : List PackageUnit) : List String → Prop
  | nil : Sorted units []
  | snoc {done : List String} {p : String} : Sorted units done → (∀ i, Imports units p i → i ∈ done) → p ∉ done →
      Sorted units (done ++ [p])

/-- Each path of the chain imports the next, and the last one is in it before. -/
def Closes (units : List PackageUnit) (chain : List String) : Prop :=
  chain.IsChain (Imports units) ∧ ∃ before p, chain = before ++ [p] ∧ p ∈ before

theorem path_of_imports {a b : String} (h : Imports units a b) : b ∈ units.map (·.path) := by
  unfold Imports importsOf at h
  split at h
  · have hany := (List.mem_filter.mp h).2
    obtain ⟨u, hu, hp⟩ := List.any_eq_true.mp hany
    exact List.mem_map.mpr ⟨u, hu, by simpa using hp⟩
  · cases h

/-! ## Sorted paths -/

theorem Sorted.nodup {done : List String} (h : Sorted units done) : done.Nodup := by
  induction h with
  | nil => exact List.nodup_nil
  | snoc _ _ hp ih =>
    rw [← List.concat_eq_append]
    exact ih.concat hp

theorem Sorted.closed {done : List String} (h : Sorted units done) {a b : String} (ha : a ∈ done)
    (hab : Imports units a b) : b ∈ done := by
  induction h with
  | nil => cases ha
  | snoc _ himports _ ih =>
    refine List.mem_append_left _ ?_
    rcases List.mem_append.mp ha with ha | ha
    · exact ih ha
    · rw [List.mem_singleton.mp ha] at hab
      exact himports b hab

theorem Sorted.reaches {done : List String} (h : Sorted units done) {a b : String} (ha : a ∈ done)
    (hab : Relation.TransGen (Imports units) a b) : b ∈ done := by
  induction hab with
  | single hab => exact h.closed ha hab
  | tail _ hbc ih => exact h.closed ih hbc

theorem Sorted.acyclic {done : List String} (h : Sorted units done) {a : String} (ha : a ∈ done) :
    ¬ Relation.TransGen (Imports units) a a := by
  induction h with
  | nil => cases ha
  | @snoc done p hsorted himports hp ih =>
    rcases List.mem_append.mp ha with ha | ha
    · exact ih ha
    · rw [List.mem_singleton.mp ha]
      intro hcycle
      -- the first step of the cycle leads to paths that are closed under imports without `p`
      obtain ⟨i, hi, hip⟩ := Relation.TransGen.head'_iff.mp hcycle
      rcases Relation.reflTransGen_iff_eq_or_transGen.mp hip with rfl | hip
      · exact hp (himports _ hi)
      · exact hp (hsorted.reaches (himports i hi) hip)

/-- What a sorted path imports stands before it. -/
theorem Sorted.before {done : List String} (h : Sorted units done) :
    ∀ {front back : List String} {p i : String}, done = front ++ p :: back → Imports units p i → i ∈ front := by
  induction h with
  | nil =>
    intro front back p i hsplit _
    simp at hsplit
  | @snoc done q _ himports _ ih =>
    intro front back p i hsplit hi
    rcases List.eq_nil_or_concat back with rfl | ⟨back, last, rfl⟩
    · obtain ⟨rfl, hlast⟩ := List.append_inj' hsplit rfl
      obtain rfl : q = p := by simpa using hlast
      exact himports i hi
    · have hsplit : done ++ [q] = (front ++ p :: back) ++ [last] := by simpa using hsplit
      obtain ⟨rfl, _⟩ := List.append_inj' hsplit rfl
      exact ih rfl hi

/-- A chain that closes has a cycle in it. -/
theorem cyclic_of_closes {chain : List String} (h : Closes units chain) : Cyclic units := by
  obtain ⟨hchain, before, p, rfl, hp⟩ := h
  obtain ⟨front, back, rfl⟩ := List.append_of_mem hp
  refine ⟨p, ?_⟩
  rw [List.append_assoc, List.cons_append, List.isChain_split] at hchain
  have hround := hchain.2
  cases back with
  | nil => exact .single (List.isChain_pair.mp hround)
  | cons q back =>
    rw [List.cons_append, List.isChain_cons_cons] at hround
    have hrest : Relation.ReflTransGen (Imports units) q p :=
      List.relationReflTransGen_of_exists_isChain_cons _ hround.2 (by simp)
    exact Relation.TransGen.head' hround.1 hrest

/-! ## Visits -/

/-- Sorted paths of units, none of which is on the stack. -/
structure Visited (units : List PackageUnit) (stack done : List String) : Prop where
  sorted : Sorted units done
  known : ∀ p ∈ done, p ∈ units.map (·.path)
  apart : ∀ p ∈ stack, p ∉ done

/-- Paths being visited, each of which imports the next. -/
structure Visiting (units : List PackageUnit) (stack : List String) : Prop where
  chain : stack.IsChain (Imports units)
  known : ∀ p ∈ stack, p ∈ units.map (·.path)
  nodup : stack.Nodup

/-- What visiting some paths may come to: they are visited beside those done before, or a
    cycle closes. -/
def Visits (units : List PackageUnit) (stack done paths : List String) : Except (List String) (List String) → Prop
  | .ok done' => Visited units stack done' ∧ (∀ p ∈ done, p ∈ done') ∧ ∀ p ∈ paths, p ∈ done'
  | .error chain => Closes units chain

/-- Visiting paths one after another comes to what each visit comes to. -/
theorem visits_foldlM {visit : List String → String → Except (List String) (List String)} {stack paths : List String}
    (hvisit : ∀ done, ∀ p ∈ paths, Visited units stack done → Visits units stack done [p] (visit done p))
    {done : List String} (hdone : Visited units stack done) :
    Visits units stack done paths (paths.foldlM visit done) := by
  induction paths generalizing done with
  | nil => exact ⟨hdone, fun _ hp => hp, fun _ hp => by cases hp⟩
  | cons p paths ih =>
    have hfirst := hvisit done p List.mem_cons_self hdone
    rw [List.foldlM_cons]
    cases hp : visit done p with
    | error chain =>
      rw [hp] at hfirst
      exact hfirst
    | ok next =>
      rw [hp] at hfirst
      obtain ⟨hnext, hmore, hpnext⟩ := hfirst
      have hrest := ih (fun d q hq => hvisit d q (List.mem_cons_of_mem _ hq)) hnext
      show Visits units stack done (p :: paths) (paths.foldlM visit next)
      cases hr : paths.foldlM visit next with
      | error chain =>
        rw [hr] at hrest
        exact hrest
      | ok last =>
        rw [hr] at hrest
        obtain ⟨hlast, hmore', hall⟩ := hrest
        refine ⟨hlast, fun q hq => hmore' q (hmore q hq), ?_⟩
        intro q hq
        rcases List.mem_cons.mp hq with rfl | hq
        · exact hmore' _ (hpnext _ List.mem_cons_self)
        · exact hall q hq

theorem length_le_of_visiting {stack : List String} (h : Visiting units stack) : stack.length ≤ units.length := by
  have hle := (h.nodup.subperm h.known).length_le
  rwa [List.length_map] at hle

theorem visiting_snoc {stack : List String} {path : String} (h : Visiting units stack)
    (hchain : (stack ++ [path]).IsChain (Imports units)) (hpath : path ∈ units.map (·.path)) (hnew : path ∉ stack) :
    Visiting units (stack ++ [path]) := by
  refine ⟨hchain, ?_, ?_⟩
  · intro p hp
    rcases List.mem_append.mp hp with hp | hp
    · exact h.known p hp
    · rw [List.mem_singleton.mp hp]
      exact hpath
  · rw [← List.concat_eq_append]
    exact h.nodup.concat hnew

/-- With fuel for every unit that is not on the stack a visit never runs out of it. -/
theorem visit_spec (fuel : Nat) {stack done : List String} {path : String} (hfuel : units.length ≤ fuel + stack.length)
    (hstack : Visiting units stack) (hchain : (stack ++ [path]).IsChain (Imports units))
    (hpath : path ∈ units.map (·.path)) (hdone : Visited units stack done) :
    Visits units stack done [path] (visit units fuel stack done path) := by
  induction fuel generalizing stack done path with
  | zero =>
    unfold visit
    split
    · rename_i hmem
      exact ⟨hdone, fun _ hp => hp, by simpa using hmem⟩
    split
    · rename_i hclosed
      exact ⟨hchain, stack, path, rfl, hclosed⟩
    rename_i hnew
    -- otherwise the stack with the path would have more distinct paths than there are units
    have hle := length_le_of_visiting (visiting_snoc hstack hchain hpath hnew)
    rw [List.length_append, List.length_singleton] at hle
    omega
  | succ fuel ih =>
    unfold visit
    split
    · rename_i hmem
      exact ⟨hdone, fun _ hp => hp, by simpa using hmem⟩
    split
    · rename_i hclosed
      exact ⟨hchain, stack, path, rfl, hclosed⟩
    rename_i hmem hnew
    have hlonger := visiting_snoc hstack hchain hpath hnew
    have hapart : ∀ p ∈ stack ++ [path], p ∉ done := by
      intro p hp
      rcases List.mem_append.mp hp with hp | hp
      · exact hdone.apart p hp
      · rw [List.mem_singleton.mp hp]
        exact hmem
    have himports : Visits units (stack ++ [path]) done (importsOf units path)
        ((importsOf units path).foldlM (visit units fuel (stack ++ [path])) done) := by
      refine visits_foldlM ?_ ⟨hdone.sorted, hdone.known, hapart⟩
      intro d i hi hd
      refine ih (by rw [List.length_append, List.length_singleton]; omega) hlonger ?_ (path_of_imports hi) hd
      rw [List.append_assoc, List.singleton_append, List.isChain_append_cons_cons]
      exact ⟨hchain, hi, List.isChain_singleton i⟩
    dsimp only
    cases hr : (importsOf units path).foldlM (visit units fuel (stack ++ [path])) done with
    | error chain =>
      rw [hr] at himports
      exact himports
    | ok next =>
      rw [hr] at himports
      obtain ⟨hnext, hmore, hall⟩ := himports
      have hfresh : path ∉ next := hnext.apart path (List.mem_append_right _ (List.mem_singleton_self _))
      refine ⟨⟨.snoc hnext.sorted hall hfresh, ?_, ?_⟩, fun p hp => List.mem_append_left _ (hmore p hp), ?_⟩
      · intro p hp
        rcases List.mem_append.mp hp with hp | hp
        · exact hnext.known p hp
        · rw [List.mem_singleton.mp hp]
          exact hpath
      · intro p hp hin
        rcases List.mem_append.mp hin with hin | hin
        · exact hnext.apart p (List.mem_append_left _ hp) hin
        · exact hnew (List.mem_singleton.mp hin ▸ hp)
      · intro p hp
        exact List.mem_append_right _ hp

/-! ## Orders -/

theorem visits_order (units : List PackageUnit) : Visits units [] [] (units.map (·.path)) (order units) := by
  have hfirst : Visited units [] [] := ⟨.nil, by simp, by simp⟩
  refine visits_foldlM ?_ hfirst
  intro done p hp hdone
  have hnone : Visiting units [] := ⟨List.isChain_nil, by simp, List.nodup_nil⟩
  exact visit_spec units.length (Nat.le_refl _) hnone (List.isChain_singleton p) hp hdone

/-- An order has the path of every unit once, after all that the unit imports. -/
theorem order_ok {paths : List String} (h : order units = .ok paths) :
    Sorted units paths ∧ ∀ p, p ∈ paths ↔ p ∈ units.map (·.path) := by
  have hvisits := visits_order units
  rw [h] at hvisits
  obtain ⟨hvisited, _, hall⟩ := hvisits
  exact ⟨hvisited.sorted, fun p => ⟨hvisited.known p, hall p⟩⟩

/-- A chain that comes instead of an order closes a cycle. -/
theorem order_error {chain : List String} (h : order units = .error chain) : Closes units chain := by
  have hvisits := visits_order units
  rw [h] at hvisits
  exact hvisits

/-- There is an order if and only if there is no cycle. -/
theorem order_ok_iff : (∃ paths, order units = .ok paths) ↔ ¬ Cyclic units := by
  constructor
  · rintro ⟨paths, h⟩ ⟨p, hp⟩
    obtain ⟨hsorted, hmem⟩ := order_ok h
    obtain ⟨i, _, hip⟩ := Relation.TransGen.tail'_iff.mp hp
    exact hsorted.acyclic ((hmem p).mpr (path_of_imports hip)) hp
  · intro hacyclic
    cases h : order units with
    | ok paths => exact ⟨paths, rfl⟩
    | error chain => exact absurd (cyclic_of_closes (order_error h)) hacyclic

end Protograph.ImportOrder
