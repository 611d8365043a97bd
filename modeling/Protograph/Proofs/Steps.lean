/-
  Protograph.Proofs.Steps — steps that can fail, one after another: what has to hold for all
  of them to go through.
-/

import Mathlib.Data.List.Forall2

namespace Protograph

variable {ε α β σ : Type}

theorem bind_eq_ok {x : Except ε α} {f : α → Except ε β} {b : β} :
    (x >>= f) = .ok b ↔ ∃ a, x = .ok a ∧ f a = .ok b := by
  cases x with
  | error e =>
    constructor
    · intro h; cases h
    · rintro ⟨_, h, _⟩; cases h
  | ok a =>
    constructor
    · intro h; exact ⟨a, rfl, h⟩
    · rintro ⟨_, h, hf⟩; cases h; exact hf

theorem pure_eq_ok {a b : α} : (pure a : Except ε α) = .ok b ↔ a = b := by
  constructor
  · intro h; cases h; rfl
  · rintro rfl; rfl

theorem map_eq_ok {x : Except ε α} {f : α → β} {b : β} : x.map f = .ok b ↔ ∃ a, x = .ok a ∧ f a = b := by
  cases x with
  | error e => exact ⟨nofun, nofun⟩
  | ok a => exact ⟨fun h => ⟨a, rfl, Except.ok.inj h⟩, fun ⟨_, ha, h⟩ => by cases ha; exact congrArg Except.ok h⟩

/-- What is tested of a result, if there is one, holds of some result. -/
theorem exists_ok_of_any {x : Except ε α} {p : α → Bool} (h : x.toOption.any p = true) :
    ∃ a, x = .ok a ∧ p a = true := by
  cases x with
  | error e => cases h
  | ok a => exact ⟨a, rfl, h⟩

theorem mapM_eq_ok {f : α → Except ε β} {as : List α} {bs : List β} :
    as.mapM f = .ok bs ↔ List.Forall₂ (fun a b => f a = .ok b) as bs := by
  induction as generalizing bs with
  | nil =>
    rw [List.mapM_nil, pure_eq_ok, List.forall₂_nil_left_iff]
    exact eq_comm
  | cons a as ih =>
    simp only [List.mapM_cons, bind_eq_ok, pure_eq_ok, List.forall₂_cons_left_iff, ih]
    constructor
    · intro h
      obtain ⟨b, hb, bs', hbs, rfl⟩ := h
      exact ⟨b, bs', hb, hbs, rfl⟩
    · intro h
      obtain ⟨b, bs', hb, hbs, rfl⟩ := h
      exact ⟨b, hb, bs', hbs, rfl⟩

/-- Something comes of every element if and only if all of it comes together. -/
theorem exists_mapM_iff {f : α → Except ε β} {as : List α} :
    (∃ bs, as.mapM f = .ok bs) ↔ ∀ a ∈ as, ∃ b, f a = .ok b := by
  induction as with
  | nil => simp [pure, Except.pure]
  | cons a as ih =>
    simp only [List.mapM_cons, bind_eq_ok, pure_eq_ok, List.forall_mem_cons, ← ih]
    constructor
    · intro h
      obtain ⟨_, b, hb, bs, hbs, _⟩ := h
      exact ⟨⟨b, hb⟩, bs, hbs⟩
    · intro h
      obtain ⟨⟨b, hb⟩, bs, hbs⟩ := h
      exact ⟨_, b, hb, bs, hbs, rfl⟩

theorem mapM_congr {f g : α → Except ε β} {as : List α} (h : ∀ a ∈ as, f a = g a) : as.mapM f = as.mapM g := by
  induction as with
  | nil => rfl
  | cons a as ih =>
    rw [List.mapM_cons, List.mapM_cons, h a List.mem_cons_self, ih fun b hb => h b (List.mem_cons_of_mem _ hb)]

theorem forM_eq_ok {f : α → Except ε Unit} {as : List α} {u : Unit} :
    as.forM f = .ok u ↔ ∀ a ∈ as, f a = .ok ⟨⟩ := by
  induction as with
  | nil => simp [List.forM_eq_forM, pure_eq_ok]
  | cons a as ih =>
    have hcons : (a :: as).forM f = (f a >>= fun _ => as.forM f) := List.forM_cons
    rw [hcons, bind_eq_ok, List.forall_mem_cons, ih]
    exact ⟨fun ⟨_, h, hs⟩ => ⟨h, hs⟩, fun ⟨h, hs⟩ => ⟨_, h, hs⟩⟩

theorem foldlM_cons_eq_ok {f : σ → α → Except ε σ} {s s' : σ} {a : α} {as : List α} :
    (a :: as).foldlM f s = .ok s' ↔ ∃ t, f s a = .ok t ∧ as.foldlM f t = .ok s' := by
  rw [List.foldlM_cons, bind_eq_ok]

theorem foldlM_nil_eq_ok {f : σ → α → Except ε σ} {s s' : σ} : ([] : List α).foldlM f s = .ok s' ↔ s = s' :=
  pure_eq_ok

/-- What holds at first and is kept by each step holds after all of them; the steps taken
    so far are given to the invariant. -/
theorem foldlM_invariant {f : σ → α → Except ε σ} {P : List α → σ → Prop} {as : List α} {s s' : σ}
    (h : as.foldlM f s = .ok s') {seen : List α} (hs : P seen s)
    (step : ∀ seen s a t, P seen s → f s a = .ok t → P (seen ++ [a]) t) : P (seen ++ as) s' := by
  induction as generalizing s seen with
  | nil =>
    rw [foldlM_nil_eq_ok] at h
    subst h
    simpa using hs
  | cons a as ih =>
    obtain ⟨t, ht, hrest⟩ := foldlM_cons_eq_ok.mp h
    have := ih hrest (step seen s a t hs ht)
    simpa using this

/-- Steps each of which goes through wherever it is taken go through one after another. -/
theorem exists_foldlM {f : σ → α → Except ε σ} {as : List α} (step : ∀ s, ∀ a ∈ as, ∃ t, f s a = .ok t) (s : σ) :
    ∃ s', as.foldlM f s = .ok s' := by
  induction as generalizing s with
  | nil => exact ⟨s, rfl⟩
  | cons a as ih =>
    obtain ⟨t, ht⟩ := step s a List.mem_cons_self
    obtain ⟨s', hs'⟩ := ih (fun s b hb => step s b (List.mem_cons_of_mem _ hb)) t
    exact ⟨s', foldlM_cons_eq_ok.mpr ⟨t, ht, hs'⟩⟩

/-- Steps that go through do so under any other function that takes each of them alike. -/
theorem foldlM_eq_ok_of_steps {f g : σ → α → Except ε σ} {as : List α} {s s' : σ} (h : as.foldlM f s = .ok s')
    (step : ∀ s, ∀ a ∈ as, ∀ t, f s a = .ok t → g s a = .ok t) : as.foldlM g s = .ok s' := by
  induction as generalizing s with
  | nil => exact h
  | cons a as ih =>
    obtain ⟨t, ht, hrest⟩ := foldlM_cons_eq_ok.mp h
    refine foldlM_cons_eq_ok.mpr ⟨t, step s a List.mem_cons_self t ht, ?_⟩
    exact ih hrest fun s b hb => step s b (List.mem_cons_of_mem _ hb)

theorem foldlM_append_eq_ok {f : σ → α → Except ε σ} {s s' : σ} {as bs : List α} :
    (as ++ bs).foldlM f s = .ok s' ↔ ∃ t, as.foldlM f s = .ok t ∧ bs.foldlM f t = .ok s' := by
  rw [List.foldlM_append, bind_eq_ok]

/-- Steps that each go through if a condition holds and some smaller steps go through, all
    go through if all conditions hold and all the smaller steps go through. -/
theorem foldlM_eq_ok_flatMap (cond : α → Prop) (steps : α → List β) {f : σ → α → Except ε σ} {g : σ → β → Except ε σ}
    (h : ∀ s a s', f s a = .ok s' ↔ cond a ∧ (steps a).foldlM g s = .ok s') {as : List α} {s s' : σ} :
    as.foldlM f s = .ok s' ↔ (∀ a ∈ as, cond a) ∧ (as.flatMap steps).foldlM g s = .ok s' := by
  induction as generalizing s with
  | nil => simp
  | cons a as ih =>
    simp only [foldlM_cons_eq_ok, h, ih, List.flatMap_cons, foldlM_append_eq_ok, List.forall_mem_cons]
    constructor
    · intro hparts
      obtain ⟨t, ⟨ha, ht⟩, has, hs⟩ := hparts
      exact ⟨⟨ha, has⟩, t, ht, hs⟩
    · intro hparts
      obtain ⟨⟨ha, has⟩, t, ht, hs⟩ := hparts
      exact ⟨t, ⟨ha, ht⟩, has, hs⟩

/-- Folding over what each of some things brings is folding over all of it. -/
theorem foldlM_flatMap {f : σ → β → Except ε σ} (g : α → List β) (as : List α) (s : σ) :
    (as.flatMap g).foldlM f s = as.foldlM (fun s a => (g a).foldlM f s) s := by
  induction as generalizing s with
  | nil => rfl
  | cons a as ih =>
    rw [List.flatMap_cons, List.foldlM_append, List.foldlM_cons]
    exact bind_congr fun t => ih t

end Protograph
