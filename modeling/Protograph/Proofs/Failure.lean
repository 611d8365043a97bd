/-
  Protograph.Proofs.Failure — how failure spreads along references.

  An entity with output refers to others (`Refers`). It is doomed when a chain of such
  references, of any length and through cycles or not, leads from it to an entity that has
  failed (`Doomed`). `Settles` is the loop of rounds with no bound on their number.

  Proved, for every table of outputs:
  - `settles_propagate`: the loop ends, and `propagate` gives what it ends with.
  - `outcome_of_settles`: a run fails nothing without cause; who had failed keeps the error.
  - `failed_iff_doomed`: after a run exactly the doomed have failed.
  - `propagate_least_failing`: all of this entry by entry, where names are distinct. The
    ring (`propagate_least_failing_ring`) has a cycle with one way out to a failure.
-/

import Protograph.Compile.Compilation
import Protograph.Proofs.Tables
import Mathlib.Logic.Relation

namespace Protograph.Compilation

/-- An entity with output refers to another one. -/
def Refers (outputs : Outputs) (a b : String) : Prop := ∃ o, (a, .ok o) ∈ outputs ∧ b ∈ o.references.entities

/-- A chain of references leads from the entity to one that has failed. -/
def Doomed (outputs : Outputs) (a : String) : Prop :=
  ∃ b, Relation.ReflTransGen (Refers outputs) a b ∧ b ∈ failedNames outputs

/-- Rounds for as long as a round fails something. -/
inductive Settles : Outputs → Outputs → Prop
  | done {outputs : Outputs} : spread outputs = outputs → Settles outputs outputs
  | round {outputs settled : Outputs} : spread outputs ≠ outputs → Settles (spread outputs) settled →
      Settles outputs settled

/-- What a run may make of an entry: an error stays, and an output stays or gives way to
    the blame on a doomed entity that it refers to. -/
inductive Outcome (outputs : Outputs) : String × Except EntityError EntityOutput →
    String × Except EntityError EntityOutput → Prop
  | failed {e : String} {x : EntityError} : Outcome outputs (e, .error x) (e, .error x)
  | kept {e : String} {o : EntityOutput} : Outcome outputs (e, .ok o) (e, .ok o)
  | blamed {e t : String} {o : EntityOutput} : t ∈ o.references.entities → Doomed outputs t →
      Outcome outputs (e, .ok o) (e, .error (.unresolvedReference e t .failed))

/-! ## Who has failed -/

theorem mem_failedNames {outputs : Outputs} {e : String} :
    e ∈ failedNames outputs ↔ ∃ x, (e, .error x) ∈ outputs := by
  unfold failedNames
  rw [List.mem_filterMap]
  constructor
  · intro h
    obtain ⟨⟨a, r⟩, hm, h⟩ := h
    cases r with
    | error x => cases h; exact ⟨x, hm⟩
    | ok o => cases h
  · intro hparts
    obtain ⟨x, hm⟩ := hparts
    exact ⟨_, hm, rfl⟩

theorem failedNames_cons_error (e : String) (x : EntityError) (rest : Outputs) :
    failedNames ((e, .error x) :: rest) = e :: failedNames rest := rfl

theorem failedNames_cons_ok (e : String) (o : EntityOutput) (rest : Outputs) :
    failedNames ((e, .ok o) :: rest) = failedNames rest := rfl

theorem length_failedNames_le (outputs : Outputs) : (failedNames outputs).length ≤ outputs.length :=
  List.length_filterMap_le _ _

/-! ## One round -/

/-- An output survives a round when none of those it refers to has failed. -/
theorem spreadTo_eq_ok {failed : List String} {e : String} {o : EntityOutput}
    (h : ∀ t ∈ o.references.entities, t ∉ failed) : spreadTo failed e (.ok o) = .ok o := by
  have hn : (o.references.entities.find? fun t => failed.contains t) = none := by
    rw [List.find?_eq_none]
    intro t ht
    simpa using h t ht
  simp only [spreadTo, hn]

/-- The two things a round can do to an output. -/
theorem spreadTo_ok_cases (failed : List String) (e : String) (o : EntityOutput) :
    (spreadTo failed e (.ok o) = .ok o ∧ ∀ t ∈ o.references.entities, t ∉ failed) ∨
      ∃ t ∈ o.references.entities, t ∈ failed ∧
        spreadTo failed e (.ok o) = .error (.unresolvedReference e t .failed) := by
  cases hf : o.references.entities.find? fun t => failed.contains t with
  | none =>
    left
    have hno : ∀ t ∈ o.references.entities, t ∉ failed := by
      intro t ht
      simpa using List.find?_eq_none.mp hf t ht
    exact ⟨spreadTo_eq_ok hno, hno⟩
  | some t =>
    right
    have ht : t ∈ failed := by simpa using List.find?_some hf
    exact ⟨t, List.mem_of_find?_eq_some hf, ht, by simp only [spreadTo, hf]⟩

/-- A round against a given list of failed entities. -/
def spreadWith (failed : List String) (outputs : Outputs) : Outputs :=
  outputs.map fun (e, r) => (e, spreadTo failed e r)

theorem spread_eq (outputs : Outputs) : spread outputs = spreadWith (failedNames outputs) outputs := rfl

theorem length_failedNames_spreadWith (failed : List String) (outputs : Outputs) :
    (failedNames outputs).length ≤ (failedNames (spreadWith failed outputs)).length := by
  induction outputs with
  | nil => exact Nat.le_refl _
  | cons entry rest ih =>
    obtain ⟨e, r⟩ := entry
    cases r with
    | error x => exact Nat.succ_le_succ ih
    | ok o =>
      have hcons : spreadWith failed ((e, .ok o) :: rest) =
        (e, spreadTo failed e (.ok o)) :: spreadWith failed rest := rfl
      rw [hcons, failedNames_cons_ok]
      rcases spreadTo_ok_cases failed e o with ⟨h, _⟩ | ⟨t, _, _, h⟩
      · rw [h, failedNames_cons_ok]; exact ih
      · rw [h, failedNames_cons_error, List.length_cons]; omega

/-- A round that leaves the number of failed entities as it was changes nothing. -/
theorem spreadWith_eq_self {failed : List String} {outputs : Outputs}
    (h : (failedNames (spreadWith failed outputs)).length = (failedNames outputs).length) :
    spreadWith failed outputs = outputs := by
  induction outputs with
  | nil => rfl
  | cons entry rest ih =>
    obtain ⟨e, r⟩ := entry
    have hcons : spreadWith failed ((e, r) :: rest) = (e, spreadTo failed e r) :: spreadWith failed rest := rfl
    rw [hcons] at h ⊢
    cases r with
    | error x =>
      have hr : spreadTo failed e (.error x) = .error x := rfl
      rw [hr, failedNames_cons_error, failedNames_cons_error, List.length_cons, List.length_cons] at h
      rw [hr, ih (by omega)]
    | ok o =>
      rcases spreadTo_ok_cases failed e o with ⟨hr, _⟩ | ⟨t, _, _, hr⟩
      · rw [hr, failedNames_cons_ok, failedNames_cons_ok] at h
        rw [hr, ih h]
      · rw [hr, failedNames_cons_error, failedNames_cons_ok, List.length_cons] at h
        have := length_failedNames_spreadWith failed rest
        omega

/-! ## The loop ends -/

/-- With a round to spare for every entity that has not failed, the bound on the number of
    rounds is never what ends them. -/
theorem settles_spreadFor (n : Nat) (outputs : Outputs)
    (hn : outputs.length ≤ n + (failedNames outputs).length) : Settles outputs (spreadFor n outputs) := by
  induction n generalizing outputs with
  | zero =>
    have hle := length_failedNames_le (spread outputs)
    have hlen : (spread outputs).length = outputs.length := List.length_map _
    have hge := length_failedNames_spreadWith (failedNames outputs) outputs
    rw [← spread_eq] at hge
    exact .done (spreadWith_eq_self (by rw [← spread_eq]; omega))
  | succ n ih =>
    simp only [spreadFor]
    split
    · rename_i heq
      exact .done (spreadWith_eq_self (by rw [← spread_eq, heq]))
    · rename_i hne
      have hge := length_failedNames_spreadWith (failedNames outputs) outputs
      rw [← spread_eq] at hge
      have hgrows : (failedNames (spread outputs)).length ≠ (failedNames outputs).length := by
        intro hlen
        exact hne (by rw [spread_eq, spreadWith_eq_self hlen])
      have hlen : (spread outputs).length = outputs.length := List.length_map _
      refine .round (fun h => hne (by rw [h])) (ih (spread outputs) ?_)
      omega

/-- The loop ends, and `propagate` gives what it ends with. -/
theorem settles_propagate (outputs : Outputs) : Settles outputs (propagate outputs) :=
  settles_spreadFor outputs.length outputs (by omega)

theorem spread_of_settles {outputs settled : Outputs} (h : Settles outputs settled) : spread settled = settled := by
  induction h with
  | done h => exact h
  | round _ _ ih => exact ih

theorem Settles.unique {outputs settled settled' : Outputs} (h : Settles outputs settled)
    (h' : Settles outputs settled') : settled = settled' := by
  induction h with
  | done hfixed =>
    cases h' with
    | done _ => rfl
    | round hmoves _ => exact absurd hfixed hmoves
  | round hmoves _ ih =>
    cases h' with
    | done hfixed => exact absurd hfixed hmoves
    | round _ hrest => exact ih hrest

/-- A round changes nothing if and only if it changes no entry. -/
theorem spread_eq_self_iff {outputs : Outputs} :
    spread outputs = outputs ↔ ∀ entry ∈ outputs, (entry.1, spreadTo (failedNames outputs) entry.1 entry.2) = entry := by
  have hmap : spread outputs = outputs ↔
      outputs.map (fun (e, r) => (e, spreadTo (failedNames outputs) e r)) = outputs.map id := by
    rw [List.map_id]
    rfl
  rw [hmap, List.map_inj_left]
  rfl

/-! ## Nothing fails without cause -/

theorem Outcome.name_eq {outputs : Outputs} {a b : String × Except EntityError EntityOutput}
    (h : Outcome outputs a b) : a.1 = b.1 := by cases h <;> rfl

theorem doomed_of_refers {outputs : Outputs} {e t : String} (h : Refers outputs e t) (ht : Doomed outputs t) :
    Doomed outputs e := by
  obtain ⟨b, hb, hfail⟩ := ht
  exact ⟨b, hb.head h, hfail⟩

theorem doomed_of_failed {outputs now : Outputs} (h : List.Forall₂ (Outcome outputs) outputs now) {t : String}
    (ht : t ∈ failedNames now) : Doomed outputs t := by
  obtain ⟨x, hx⟩ := mem_failedNames.mp ht
  obtain ⟨a, ha, hout⟩ := exists_of_forall₂_right h hx
  cases hout with
  | failed => exact ⟨t, .refl, mem_failedNames.mpr ⟨x, ha⟩⟩
  | blamed hmem hd => exact doomed_of_refers ⟨_, ha, hmem⟩ hd

theorem outcome_spread {outputs now : Outputs} (h : List.Forall₂ (Outcome outputs) outputs now) :
    List.Forall₂ (Outcome outputs) outputs (spread now) := by
  have hfailed : ∀ t ∈ failedNames now, Doomed outputs t := fun t ht => doomed_of_failed h ht
  rw [spread_eq]
  unfold spreadWith
  rw [List.forall₂_map_right_iff]
  refine h.imp ?_
  intro a b hab
  cases hab with
  | failed => exact .failed
  | blamed hmem hd => exact .blamed hmem hd
  | @kept e o =>
    rcases spreadTo_ok_cases (failedNames now) e o with ⟨hr, _⟩ | ⟨t, hmem, ht, hr⟩
    · simp only [hr]; exact .kept
    · simp only [hr]; exact .blamed hmem (hfailed t ht)

theorem outcome_refl (outputs : Outputs) : List.Forall₂ (Outcome outputs) outputs outputs := by
  rw [List.forall₂_same]
  rintro ⟨e, r⟩ _
  cases r with
  | error x => exact .failed
  | ok o => exact .kept

theorem outcome_of_settles {outputs settled : Outputs} (h : Settles outputs settled) :
    List.Forall₂ (Outcome outputs) outputs settled := by
  suffices ∀ now, Settles now settled → List.Forall₂ (Outcome outputs) outputs now →
      List.Forall₂ (Outcome outputs) outputs settled from this outputs h (outcome_refl outputs)
  intro now hrun
  induction hrun with
  | done _ => exact fun hnow => hnow
  | round _ _ ih => exact fun hnow => ih h (outcome_spread hnow)

/-! ## Nothing doomed survives -/

/-- Where a round changes nothing, no output refers to a failed entity. -/
theorem not_failed_of_fixed {outputs : Outputs} (h : spread outputs = outputs) {e t : String} {o : EntityOutput}
    (he : (e, .ok o) ∈ outputs) (ht : t ∈ o.references.entities) : t ∉ failedNames outputs := by
  have hentry := spread_eq_self_iff.mp h _ he
  have hr : spreadTo (failedNames outputs) e (.ok o) = .ok o := congrArg Prod.snd hentry
  rcases spreadTo_ok_cases (failedNames outputs) e o with ⟨_, hno⟩ | ⟨s, _, _, hs⟩
  · exact hno t ht
  · rw [hr] at hs; cases hs

/-- After a run exactly the doomed have failed. -/
theorem failed_iff_doomed {outputs settled : Outputs} (h : Settles outputs settled) (e : String) :
    e ∈ failedNames settled ↔ Doomed outputs e := by
  have hall := outcome_of_settles h
  refine ⟨doomed_of_failed hall, ?_⟩
  intro hparts
  obtain ⟨b, hchain, hb⟩ := hparts
  -- along the chain, from the entity that had failed back to `e`
  induction hchain using Relation.ReflTransGen.head_induction_on with
  | refl =>
    obtain ⟨x, hx⟩ := mem_failedNames.mp hb
    obtain ⟨_, hmem, hout⟩ := exists_of_forall₂_left hall hx
    cases hout
    exact mem_failedNames.mpr ⟨x, hmem⟩
  | @head a c hac _ ih =>
    obtain ⟨o, ho, hc⟩ := hac
    obtain ⟨_, hmem, hout⟩ := exists_of_forall₂_left hall ho
    cases hout with
    | kept => exact absurd ih (not_failed_of_fixed (spread_of_settles h) hmem hc)
    | blamed _ _ => exact mem_failedNames.mpr ⟨_, hmem⟩

/-- Entities that have output and refer to each other only are not doomed. -/
theorem not_doomed_of_closed {outputs : Outputs} (hkeys : outputs.keys.Nodup) {P : String → Prop}
    (hclosed : ∀ a, P a → ∃ o, (a, .ok o) ∈ outputs ∧ ∀ t ∈ o.references.entities, P t) {a : String} (ha : P a) :
    ¬ Doomed outputs a := by
  intro hd
  obtain ⟨b, hchain, hb⟩ := hd
  have hP : P b := by
    clear hb
    induction hchain with
    | refl => exact ha
    | tail _ hbc ih =>
      obtain ⟨o, ho, ht⟩ := hbc
      obtain ⟨o', ho', hall⟩ := hclosed _ ih
      obtain rfl : o = o' := Except.ok.inj (Table.value_eq hkeys ho ho')
      exact hall _ ht
  obtain ⟨o, ho, _⟩ := hclosed b hP
  obtain ⟨x, hx⟩ := mem_failedNames.mp hb
  cases Table.value_eq hkeys ho hx

/-- What has not failed and does not lead to a failure stays as it is, whatever comes after. -/
theorem propagate_append {front back : Outputs} (hkeys : (Table.keys (front ++ back)).Nodup)
    (hclosed : ∀ entry ∈ front, ∃ o, entry = (entry.1, .ok o) ∧ ∀ t ∈ o.references.entities, t ∈ Table.keys front) :
    ∃ rest, propagate (front ++ back) = front ++ rest := by
  have houtcome := outcome_of_settles (settles_propagate (front ++ back))
  have hsafe : ∀ t ∈ Table.keys front, ¬ Doomed (front ++ back) t := by
    refine fun t ht => not_doomed_of_closed (P := (· ∈ Table.keys front)) hkeys ?_ ht
    intro a ha
    obtain ⟨entry, hin, rfl⟩ := List.mem_map.mp ha
    obtain ⟨o, he, hall⟩ := hclosed entry hin
    exact ⟨o, he ▸ List.mem_append_left _ hin, hall⟩
  have htake := List.forall₂_take front.length houtcome
  rw [List.take_left] at htake
  have hfront : front = (propagate (front ++ back)).take front.length := by
    refine eq_of_forall₂ htake fun a ha b _ hab => ?_
    obtain ⟨o, he, hall⟩ := hclosed a ha
    rw [he] at hab ⊢
    cases hab with
    | kept => rfl
    | blamed ht hd => exact absurd hd (hsafe _ (hall _ ht))
  refine ⟨(propagate (front ++ back)).drop front.length, ?_⟩
  calc propagate (front ++ back)
      = (propagate (front ++ back)).take front.length ++ (propagate (front ++ back)).drop front.length :=
        (List.take_append_drop _ _).symm
    _ = front ++ (propagate (front ++ back)).drop front.length := by rw [← hfront]

/-- Where nothing has failed, nothing fails. -/
theorem propagate_of_none_failed {outputs : Outputs} (h : failedNames outputs = []) : propagate outputs = outputs := by
  refine (settles_propagate outputs).unique (.done (spread_eq_self_iff.mpr ?_))
  rintro ⟨e, r⟩ hentry
  cases r with
  | error x => rfl
  | ok o => rw [spreadTo_eq_ok fun t _ => by simp [h]]

/-! ## Entry by entry -/

/-- What has to become of an entry: an error stays, an output that is not doomed stays,
    and a doomed one gives way to the blame on a doomed entity that it refers to. -/
inductive Fate (outputs : Outputs) : String × Except EntityError EntityOutput →
    String × Except EntityError EntityOutput → Prop
  | failed {e : String} {x : EntityError} : Fate outputs (e, .error x) (e, .error x)
  | survives {e : String} {o : EntityOutput} : ¬ Doomed outputs e → Fate outputs (e, .ok o) (e, .ok o)
  | blamed {e t : String} {o : EntityOutput} : Doomed outputs e → t ∈ o.references.entities →
      Doomed outputs t → Fate outputs (e, .ok o) (e, .error (.unresolvedReference e t .failed))

theorem keys_eq_of_outcome {outputs all now : Outputs} (h : List.Forall₂ (Outcome outputs) all now) :
    Table.keys now = Table.keys all := by
  induction h with
  | nil => rfl
  | cons hab _ ih =>
    simp only [Table.keys, List.map_cons] at ih ⊢
    rw [hab.name_eq, ih]

theorem not_doomed_of_ok {outputs settled : Outputs} (hkeys : outputs.keys.Nodup) (h : Settles outputs settled)
    {e : String} {o : EntityOutput} (he : (e, .ok o) ∈ settled) : ¬ Doomed outputs e := by
  intro hd
  obtain ⟨x, hx⟩ := mem_failedNames.mp ((failed_iff_doomed h e).mpr hd)
  have hnodup : settled.keys.Nodup := by rw [keys_eq_of_outcome (outcome_of_settles h)]; exact hkeys
  cases Table.value_eq hnodup he hx

/-- The rounds of failure end, and what they end with is the least that can fail: an entity
    has failed if and only if a chain of references leads from it to one that had failed
    before. Every entry stays in its place; errors and survivors are as they were, and an
    entity that failed on the way has the blame on a failed entity it refers to. -/
theorem propagate_least_failing (outputs : Outputs) (hkeys : outputs.keys.Nodup) :
    Settles outputs (propagate outputs) ∧
      (∀ e, e ∈ failedNames (propagate outputs) ↔ Doomed outputs e) ∧
      List.Forall₂ (Fate outputs) outputs (propagate outputs) := by
  have hrun := settles_propagate outputs
  refine ⟨hrun, failed_iff_doomed hrun, ?_⟩
  refine (forall₂_mem (outcome_of_settles hrun)).imp ?_
  rintro a b ⟨ha, hb, hout⟩
  cases hout with
  | failed => exact .failed
  | kept => exact .survives (not_doomed_of_ok hkeys hrun hb)
  | blamed hmem hd => exact .blamed (doomed_of_refers ⟨_, ha, hmem⟩ hd) hmem hd

/-- Two entities that refer to each other, one of them also to a third that has failed, and
    a fourth that refers to itself only. -/
def ringOutputs : Outputs :=
  let output (refs : List String) : EntityOutput :=
    { package := "shop", messages := [], services := [], references := { entities := refs } }
  [("Order", .ok (output ["Item"])), ("Item", .ok (output ["Order", "Price"])),
   ("Price", .error (.unsupportedType "amount" "other")), ("Shelf", .ok (output ["Shelf"]))]

theorem propagate_least_failing_ring :
    ringOutputs.keys.Nodup ∧ Settles ringOutputs (propagate ringOutputs) ∧
      (∀ e, e ∈ failedNames (propagate ringOutputs) ↔ Doomed ringOutputs e) ∧
      List.Forall₂ (Fate ringOutputs) ringOutputs (propagate ringOutputs) :=
  ⟨by decide, propagate_least_failing ringOutputs (by decide)⟩

/-- The failure goes round the ring and leaves the fourth alone. -/
example : failedNames (propagate ringOutputs) = ["Order", "Item", "Price"] := by decide

end Protograph.Compilation
