/-
  Protograph.Proofs.Blame — whom an entity that fails on the way is blamed on.

  A round looks only at failures of the rounds before it. So an entity fails in the round
  that is its distance from the failures there were at first, in references along a
  shortest chain (`Distance`), and the first of its references that has failed by then is
  the first that is one nearer.

  Proved, for every table of outputs with distinct names:
  - `rounds_spread`: what a round adds, when the rounds before it have failed exactly what
    is that near (`Rounds`).
  - `blame_leads_back`: the blame on an entity that fails on the way is on the first of its
    references that is one nearer, which has failed too. To follow the blame from entity to
    entity is to come, in as many steps as the distance, to one that had failed by itself;
    there are no more of them than entities. In the ring (`blame_leads_back_ring`) the blame
    goes out of the cycle.
-/

import Protograph.Proofs.Failure

namespace Protograph.Compilation

/-! ## Distance -/

/-- A chain of so many references leads from the entity to one that has failed. -/
inductive Leads (outputs : Outputs) : Nat → String → Prop
  | failed {e : String} : e ∈ failedNames outputs → Leads outputs 0 e
  | refers {n : Nat} {e t : String} : Refers outputs e t → Leads outputs n t → Leads outputs (n + 1) e

/-- The number of references in a shortest chain to an entity that has failed. -/
structure Distance (outputs : Outputs) (n : Nat) (e : String) : Prop where
  leads : Leads outputs n e
  least : ∀ m < n, ¬ Leads outputs m e

/-- The first member of a list with a property. -/
def First (p : String → Prop) (xs : List String) (x : String) : Prop :=
  ∃ front back, xs = front ++ x :: back ∧ p x ∧ ∀ y ∈ front, ¬ p y

theorem First.holds {p : String → Prop} {xs : List String} {x : String} (h : First p xs x) : p x := by
  obtain ⟨_, _, _, hx, _⟩ := h
  exact hx

theorem Distance.unique {outputs : Outputs} {m n : Nat} {e : String} (h : Distance outputs m e)
    (h' : Distance outputs n e) : m = n := by
  have hmn : ¬ m < n := fun hlt => h'.least m hlt h.leads
  have hnm : ¬ n < m := fun hlt => h.least n hlt h'.leads
  omega

theorem leads_zero {outputs : Outputs} {e : String} : Leads outputs 0 e ↔ e ∈ failedNames outputs :=
  ⟨fun h => by cases h; assumption, .failed⟩

theorem Leads.exists_entry {outputs : Outputs} {n : Nat} {e : String} (h : Leads outputs n e) : ∃ r, (e, r) ∈ outputs := by
  cases h with
  | failed hfail =>
    obtain ⟨x, hx⟩ := mem_failedNames.mp hfail
    exact ⟨_, hx⟩
  | refers hrefers _ =>
    obtain ⟨o, ho, _⟩ := hrefers
    exact ⟨_, ho⟩

/-- An output leads to a failure by way of one of its references. -/
theorem leads_succ {outputs : Outputs} (hkeys : outputs.keys.Nodup) {n : Nat} {e : String} {o : EntityOutput}
    (he : (e, .ok o) ∈ outputs) : Leads outputs (n + 1) e ↔ ∃ t ∈ o.references.entities, Leads outputs n t := by
  constructor
  · intro h
    cases h with
    | refers hrefers hlead =>
      obtain ⟨o', ho', ht⟩ := hrefers
      obtain rfl : o = o' := Except.ok.inj (Table.value_eq hkeys he ho')
      exact ⟨_, ht, hlead⟩
  · intro h
    obtain ⟨t, ht, hlead⟩ := h
    exact .refers ⟨o, he, ht⟩ hlead

/-! ## Rounds -/

/-- What so many rounds make of an entry: an output that is farther from a failure stays,
    and one as near as that is blamed on the first of its references that is one nearer. -/
inductive Rounds (outputs : Outputs) (rounds : Nat) : String × Except EntityError EntityOutput →
    String × Except EntityError EntityOutput → Prop
  | failed {e : String} {x : EntityError} : Rounds outputs rounds (e, .error x) (e, .error x)
  | kept {e : String} {o : EntityOutput} : (∀ n ≤ rounds, ¬ Leads outputs n e) → Rounds outputs rounds (e, .ok o) (e, .ok o)
  | blamed {n : Nat} {e t : String} {o : EntityOutput} : n < rounds → Distance outputs (n + 1) e →
      First (Distance outputs n) o.references.entities t →
      Rounds outputs rounds (e, .ok o) (e, .error (.unresolvedReference e t .failed))

section

variable {outputs now : Outputs} {k : Nat}

theorem rounds_zero (hkeys : outputs.keys.Nodup) : List.Forall₂ (Rounds outputs 0) outputs outputs := by
  rw [List.forall₂_same]
  rintro ⟨e, r⟩ he
  cases r with
  | error x => exact .failed
  | ok o =>
    refine .kept fun n hn hlead => ?_
    obtain rfl : n = 0 := by omega
    obtain ⟨x, hx⟩ := mem_failedNames.mp (leads_zero.mp hlead)
    cases Table.value_eq hkeys he hx

/-- What has failed after so many rounds is what is that near to a failure. -/
theorem failed_iff_leads (h : List.Forall₂ (Rounds outputs k) outputs now) {t : String} :
    t ∈ failedNames now ↔ ∃ n ≤ k, Leads outputs n t := by
  constructor
  · intro ht
    obtain ⟨x, hx⟩ := mem_failedNames.mp ht
    obtain ⟨a, ha, hab⟩ := exists_of_forall₂_right h hx
    cases hab with
    | failed => exact ⟨0, Nat.zero_le k, .failed (mem_failedNames.mpr ⟨x, ha⟩)⟩
    | blamed hn hd _ => exact ⟨_, hn, hd.leads⟩
  · intro hparts
    obtain ⟨n, hn, hlead⟩ := hparts
    obtain ⟨r, hr⟩ := hlead.exists_entry
    obtain ⟨b, hb, hab⟩ := exists_of_forall₂_left h hr
    cases hab with
    | failed => exact mem_failedNames.mpr ⟨_, hb⟩
    | kept hno => exact absurd hlead (hno n hn)
    | blamed _ _ _ => exact mem_failedNames.mpr ⟨_, hb⟩

/-- A reference that is near enough to have failed, of an entity that is not, is one nearer. -/
theorem distance_of_refers {e t : String} (hno : ∀ n ≤ k, ¬ Leads outputs n e) (ht : Refers outputs e t) {n : Nat}
    (hn : n ≤ k) (hlead : Leads outputs n t) : Distance outputs k t ∧ Distance outputs (k + 1) e := by
  have hnear : ∀ m < k, ¬ Leads outputs m t := fun m hm hlead => hno (m + 1) hm (.refers ht hlead)
  obtain rfl : n = k := by
    by_contra hne
    exact hnear n (by omega) hlead
  exact ⟨⟨hlead, hnear⟩, .refers ht hlead, fun m hm => hno m (by omega)⟩

/-- One more round fails what is one reference farther off. -/
theorem rounds_spread (hkeys : outputs.keys.Nodup) (h : List.Forall₂ (Rounds outputs k) outputs now) :
    List.Forall₂ (Rounds outputs (k + 1)) outputs (spread now) := by
  rw [spread_eq, spreadWith, List.forall₂_map_right_iff]
  refine (forall₂_mem h).imp ?_
  rintro a b ⟨ha, _, hab⟩
  cases hab with
  | failed => exact .failed
  | blamed hn hd hfirst => exact .blamed (by omega) hd hfirst
  | @kept e o hno =>
    show Rounds outputs (k + 1) (e, .ok o) (e, spreadTo (failedNames now) e (.ok o))
    cases hfound : o.references.entities.find? fun t => (failedNames now).contains t with
    | none =>
      have hfine : ∀ t ∈ o.references.entities, t ∉ failedNames now := by
        intro t ht
        simpa using List.find?_eq_none.mp hfound t ht
      rw [spreadTo_eq_ok hfine]
      refine .kept fun n hn hlead => ?_
      by_cases hk : n ≤ k
      · exact hno n hk hlead
      · obtain rfl : n = k + 1 := by omega
        obtain ⟨t, ht, hlead⟩ := (leads_succ hkeys ha).mp hlead
        exact hfine t ht ((failed_iff_leads h).mpr ⟨k, Nat.le_refl k, hlead⟩)
    | some t =>
      have hspread : spreadTo (failedNames now) e (.ok o) = .error (.unresolvedReference e t .failed) := by
        simp only [spreadTo, hfound]
      obtain ⟨ht, front, back, hsplit, hfront⟩ := List.find?_eq_some_iff_append.mp hfound
      obtain ⟨n, hn, hlead⟩ := (failed_iff_leads h).mp (by simpa using ht)
      obtain ⟨hnear, hfar⟩ := distance_of_refers hno ⟨o, ha, by simp [hsplit]⟩ hn hlead
      rw [hspread]
      refine .blamed (Nat.lt_succ_self k) hfar ⟨front, back, hsplit, hnear, fun s hs hd => ?_⟩
      have hs : s ∉ failedNames now := by simpa using hfront s hs
      exact hs ((failed_iff_leads h).mpr ⟨k, Nat.le_refl k, hd.leads⟩)

/-- The loop takes no more rounds than it may. -/
theorem rounds_spreadFor (hkeys : outputs.keys.Nodup) (n : Nat) (h : List.Forall₂ (Rounds outputs k) outputs now) :
    ∃ k' ≤ k + n, List.Forall₂ (Rounds outputs k') outputs (spreadFor n now) := by
  induction n generalizing k now with
  | zero => exact ⟨k, Nat.le_refl k, h⟩
  | succ n ih =>
    simp only [spreadFor]
    split
    · exact ⟨k, by omega, h⟩
    · obtain ⟨k', hle, hall⟩ := ih (rounds_spread hkeys h)
      exact ⟨k', by omega, hall⟩

theorem rounds_propagate (hkeys : outputs.keys.Nodup) :
    ∃ k ≤ outputs.length, List.Forall₂ (Rounds outputs k) outputs (propagate outputs) := by
  obtain ⟨k, hle, hall⟩ := rounds_spreadFor hkeys outputs.length (rounds_zero hkeys)
  exact ⟨k, by omega, hall⟩

theorem keys_propagate_nodup (hkeys : outputs.keys.Nodup) : (propagate outputs).keys.Nodup := by
  rw [keys_eq_of_outcome (outcome_of_settles (settles_propagate outputs))]
  exact hkeys

end

/-! ## The blame -/

/-- The entity that the failure of an entity is blamed on. -/
def blameOf (outputs : Outputs) (e : String) : Option String :=
  match outputs.get? e with
  | some (.error (.unresolvedReference _ t .failed)) => some t
  | _ => none

/-- Where the blame leads in so many steps. -/
def followBlame (outputs : Outputs) : Nat → String → Option String
  | 0, e => some e
  | n + 1, e => (blameOf outputs e).bind (followBlame outputs n)

/-- In as many steps as the distance the blame leads to an entity that had failed by itself. -/
theorem followBlame_of_distance {outputs : Outputs} (hkeys : outputs.keys.Nodup) {k : Nat}
    (h : List.Forall₂ (Rounds outputs k) outputs (propagate outputs)) {n : Nat} {e : String} (hn : n ≤ k)
    (hd : Distance outputs n e) : ∃ root ∈ failedNames outputs, followBlame (propagate outputs) n e = some root := by
  induction n generalizing e with
  | zero => exact ⟨e, leads_zero.mp hd.leads, rfl⟩
  | succ n ih =>
    cases hd.leads with
    | refers hrefers _ =>
      obtain ⟨o, ho, _⟩ := hrefers
      obtain ⟨b, hb, hab⟩ := exists_of_forall₂_left h ho
      cases hab with
      | kept hno => exact absurd hd.leads (hno _ hn)
      | @blamed m _ t _ _ hd' hfirst =>
        obtain rfl : n = m := Nat.succ.inj (hd.unique hd')
        obtain ⟨root, hroot, hfollow⟩ := ih (by omega) hfirst.holds
        have hblame : blameOf (propagate outputs) e = some t := by
          rw [blameOf, (Table.get?_eq_some (keys_propagate_nodup hkeys)).mpr hb]
        exact ⟨root, hroot, by rw [followBlame, hblame, Option.bind_some, hfollow]⟩

/-- An entity that fails on the way is blamed on the first of its references that is one
    nearer to a failure there was at first, and that has failed as well. Following the blame
    leads to such a failure in as many steps as there are references in a shortest chain to
    one, and these are no more than the entities. -/
theorem blame_leads_back (outputs : Outputs) (hkeys : outputs.keys.Nodup) {e : String} {o : EntityOutput} {x : EntityError}
    (he : (e, .ok o) ∈ outputs) (hx : (e, .error x) ∈ propagate outputs) :
    ∃ n t, x = .unresolvedReference e t .failed ∧ t ∈ failedNames (propagate outputs) ∧ Distance outputs (n + 1) e ∧
      First (Distance outputs n) o.references.entities t ∧ n + 1 ≤ outputs.length ∧
      ∃ root ∈ failedNames outputs, followBlame (propagate outputs) (n + 1) e = some root := by
  obtain ⟨k, hk, hall⟩ := rounds_propagate hkeys
  obtain ⟨⟨e', r⟩, hb, hab⟩ := exists_of_forall₂_left hall he
  cases hab with
  | kept _ => cases Table.value_eq (keys_propagate_nodup hkeys) hb hx
  | @blamed n _ t _ hn hd hfirst =>
    obtain rfl : _ = x := Except.error.inj (Table.value_eq (keys_propagate_nodup hkeys) hb hx)
    have hfailed : t ∈ failedNames (propagate outputs) :=
      (failed_iff_leads hall).mpr ⟨n, by omega, hfirst.holds.leads⟩
    exact ⟨n, t, rfl, hfailed, hd, hfirst, by omega, followBlame_of_distance hkeys hall hn hd⟩

theorem blame_leads_back_ring :
    ringOutputs.keys.Nodup ∧ ∃ o x, ("Order", .ok o) ∈ ringOutputs ∧ ("Order", .error x) ∈ propagate ringOutputs ∧
      ∃ n t, x = .unresolvedReference "Order" t .failed ∧ t ∈ failedNames (propagate ringOutputs) ∧
        Distance ringOutputs (n + 1) "Order" ∧ First (Distance ringOutputs n) o.references.entities t ∧
        n + 1 ≤ ringOutputs.length ∧
        ∃ root ∈ failedNames ringOutputs, followBlame (propagate ringOutputs) (n + 1) "Order" = some root := by
  have hkeys : ringOutputs.keys.Nodup := by decide
  have he : ("Order", .ok _) ∈ ringOutputs := List.mem_cons_self
  have hx : ("Order", .error (.unresolvedReference "Order" "Item" .failed)) ∈ propagate ringOutputs := List.mem_cons_self
  exact ⟨hkeys, _, _, he, hx, blame_leads_back ringOutputs hkeys he hx⟩

/-- Order and Item refer to each other, and Item is the one nearer to Price. -/
example : followBlame (propagate ringOutputs) 2 "Order" = some "Price" := by decide

end Protograph.Compilation
