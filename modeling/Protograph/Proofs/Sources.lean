/-
  Protograph.Proofs.Sources — how the actions of a source end.

  Reading a JSON value gives a value or a fault; reading a node of a YAML document counts the
  aliases that were followed, too. What is proved of every source (`RunSource`) is said by how
  actions end (`Finishes`): from one state, with a value, in another state.

  Proved:
  - `finishes_mapM`: what the same action finishes with for each element of a list, one after
    another.
  - `yields_bind` and the lemmas beside it: what is said of all that an action gives (`Yields`)
    holds of all that a longer one gives.
  - JSON and YAML are such sources.
-/

import Protograph.Document.JsonSource
import Protograph.Document.Yaml.Source
import Protograph.Proofs.Steps

namespace Protograph

/-- A source whose actions are known by how they end. States of type `σ` are kept from one
    action to the next. -/
class RunSource (m : outParam (Type → Type)) (ν : Type) (σ : outParam Type) [Monad m] [Source m ν] where
  /-- From the first state the action finishes with the value in the second state. -/
  Finishes {α : Type} : m α → σ → α → σ → Prop
  finishes_pure {α : Type} {a b : α} {s s' : σ} : Finishes (pure a) s b s' ↔ a = b ∧ s = s'
  finishes_bind {α β : Type} {x : m α} {f : α → m β} {s s' : σ} {b : β} :
    Finishes (x >>= f) s b s' ↔ ∃ a t, Finishes x s a t ∧ Finishes (f a) t b s'
  not_finishes_fail {α : Type} {c : Cause} {s s' : σ} {a : α} : ¬ Finishes (Source.fail ν c) s a s'

namespace RunSource

variable {m : Type → Type} {ν σ : Type} [Monad m] [Source m ν] [RunSource m ν σ]

/-- An action for each element of a list, one after another. -/
inductive FinishesEach (ν : Type) [Source m ν] [RunSource m ν σ] {α β : Type} (f : α → m β) :
    List α → σ → List β → σ → Prop
  | nil {s : σ} : FinishesEach ν f [] s [] s
  | cons {a : α} {as : List α} {b : β} {bs : List β} {s t s' : σ} :
    Finishes ν (f a) s b t → FinishesEach ν f as t bs s' → FinishesEach ν f (a :: as) s (b :: bs) s'

theorem finishes_mapM [LawfulMonad m] {α β : Type} {f : α → m β} {as : List α} {bs : List β} {s s' : σ} :
    Finishes ν (as.mapM f) s bs s' ↔ FinishesEach ν f as s bs s' := by
  induction as generalizing bs s s' with
  | nil =>
    rw [List.mapM_nil, finishes_pure]
    constructor
    · rintro ⟨rfl, rfl⟩
      exact .nil
    · intro h
      cases h
      exact ⟨rfl, rfl⟩
  | cons a as ih =>
    simp only [List.mapM_cons, finishes_bind, finishes_pure, ih]
    constructor
    · rintro ⟨b, t, hb, bs, _, hbs, rfl, rfl⟩
      exact .cons hb hbs
    · intro h
      cases h with
      | cons hb hbs => exact ⟨_, _, hb, _, _, hbs, rfl, rfl⟩

/-! ## All that an action gives -/

section Yields

variable {α β γ : Type} {P : α → Prop} {Q : β → Prop}

/-- Whatever comes of the action has the property. -/
def Yields (ν : Type) [Source m ν] [RunSource m ν σ] (act : m α) (P : α → Prop) : Prop :=
  ∀ s a s', Finishes ν act s a s' → P a

theorem yields_trivially {act : m α} (h : ∀ a, P a) : Yields ν act P := fun _ a _ _ => h a

theorem yields_pure {a : α} (h : P a) : Yields ν (pure a) P := by
  intro s b s' hb
  obtain ⟨rfl, _⟩ := finishes_pure.mp hb
  exact h

theorem yields_fail {c : Cause} : Yields ν (Source.fail ν c : m α) P := fun _ _ _ h => absurd h not_finishes_fail

theorem yields_bind {x : m α} {f : α → m β} (hx : Yields ν x P) (hf : ∀ a, P a → Yields ν (f a) Q) :
    Yields ν (x >>= f) Q := by
  intro s b s' hb
  obtain ⟨a, t, ha, hb⟩ := finishes_bind.mp hb
  exact hf a (hx s a t ha) t b s' hb

/-- After an action of which nothing is said. -/
theorem yields_after {x : m α} {f : α → m β} (hf : ∀ a, Yields ν (f a) Q) : Yields ν (x >>= f) Q :=
  yields_bind (P := fun _ => True) (yields_trivially fun _ => trivial) fun a _ => hf a

theorem yields_some [LawfulMonad m] {x : m α} (hx : Yields ν x P) : Yields ν (some <$> x) fun o => ∀ a ∈ o, P a := by
  rw [map_eq_pure_bind]
  refine yields_bind hx fun a ha => yields_pure ?_
  rintro b ⟨⟩
  exact ha

theorem yields_mapM [LawfulMonad m] {read : γ → m α} {cs : List γ} (h : ∀ c, Yields ν (read c) P) :
    Yields ν (cs.mapM read) fun as => ∀ a ∈ as, P a := by
  intro s as s' has
  rw [finishes_mapM] at has
  induction has with
  | nil => simp
  | cons ha _ ih => exact List.forall_mem_cons.mpr ⟨h _ _ _ _ ha, ih⟩

theorem yields_foldlM {P : γ → Prop} {step : γ → α → m γ} {as : List α} {start : γ} (hstart : P start)
    (hstep : ∀ s a, P s → Yields ν (step s a) P) : Yields ν (as.foldlM step start) P := by
  induction as generalizing start with
  | nil => exact yields_pure hstart
  | cons a as ih =>
    rw [List.foldlM_cons]
    exact yields_bind (hstep start a hstart) fun s hs => ih hs

end Yields

end RunSource

/-! ## JSON -/

instance : RunSource Json.Read Json.Input Unit where
  Finishes act _ a _ := act = .ok a
  finishes_pure := by simp [pure_eq_ok]
  finishes_bind := by simp [bind_eq_ok]
  not_finishes_fail := nofun

theorem Json.not_mismatch {α : Type} {v : Json} {wanted : String} {a : α} : v.mismatch wanted ≠ .ok a := by
  unfold mismatch
  split <;> exact nofun

/-! ## YAML -/

namespace Yaml

open RunSource (Finishes)

/-- The state is how many aliases were followed. -/
instance : RunSource Read Input Nat where
  Finishes act n a n' := act n = .ok (a, n')
  finishes_pure := by
    intro α a b n n'
    show (pure (a, n) : Except ReadError (α × Nat)) = .ok (b, n') ↔ _
    rw [pure_eq_ok, Prod.mk.injEq]
  finishes_bind := by
    intro α β x f n n' b
    show (x n >>= fun r => f r.1 r.2) = .ok (b, n') ↔ _
    rw [bind_eq_ok, Prod.exists]
  not_finishes_fail := nofun

/-- Where a fault is makes no difference to how an action finishes. -/
theorem finishes_located {α : Type} {i : Input} {act : Read α} {n n' : Nat} {a : α} :
    Finishes Input (i.located act) n a n' ↔ Finishes Input act n a n' := by
  show i.located act n = .ok (a, n') ↔ act n = .ok (a, n')
  unfold Input.located
  cases act n with
  | error e => exact ⟨nofun, nofun⟩
  | ok r => rfl

end Yaml

end Protograph
