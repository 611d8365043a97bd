/-
  Protograph.Proofs.Effects — what runs over a tree of files leave behind.

  A run ends with a result and a tree (`Ends`). Runs only write files and make directories,
  and nothing is ever removed. So the tree is known from the writes, in order: a place holds
  what was written to it last, or else what it held before (`Wrote`).

  Proved:
  - `ends_bind`, `Ends.bind_iff`, `Ends.bind_error_iff`: what two actions do one after the other.
  - `wrote_of_makeDirectory`, `wrote_of_write` and `Wrote.trans`: directories made and files
    written, and one after the other.
  - `Wrote.elsewhere`, `Wrote.read` and `Wrote.read_iff`: what the tree holds then. Every
    path reads as the bytes written to it if and only if no two writes put different bytes
    in one place.
-/

import Protograph.Proofs.Placement

namespace Protograph

/-! ## Runs -/

section Runs

variable {ε α β : Type} {t t' : FileTree}

/-- An action on a tree ends with a result and the tree that it leaves. -/
def Ends (act : ExceptT ε (StateM FileTree) α) (t : FileTree) (result : Except ε α) (t' : FileTree) : Prop :=
  act.run.run t = (result, t')

theorem exists_ends (act : ExceptT ε (StateM FileTree) α) (t : FileTree) : ∃ result t', Ends act t result t' :=
  ⟨_, _, rfl⟩

/-- An action that gives a value, when it is tried, ends with that value. -/
theorem exists_ends_ok {act : ExceptT ε (StateM FileTree) α} {a : α} (h : (act.run.run t).1.toOption = some a) :
    ∃ t', Ends act t (.ok a) t' := by
  obtain ⟨r, t', hend⟩ := exists_ends act t
  have hresult : (act.run.run t).1 = r := congrArg Prod.fst hend
  rw [hresult] at h
  cases r with
  | error e => cases h
  | ok b =>
    cases h
    exact ⟨t', hend⟩

theorem Ends.unique {act : ExceptT ε (StateM FileTree) α} {r r' : Except ε α} {s s' : FileTree} (h : Ends act t r s)
    (h' : Ends act t r' s') : r = r' ∧ s = s' :=
  Prod.mk.inj (h.symm.trans h')

theorem ends_pure {a : α} {r : Except ε α} : Ends (pure a) t r t' ↔ r = .ok a ∧ t' = t := by
  constructor
  · intro h
    cases h
    exact ⟨rfl, rfl⟩
  · rintro ⟨rfl, rfl⟩
    rfl

theorem ends_throw {e : ε} {r : Except ε α} : Ends (throw e) t r t' ↔ r = .error e ∧ t' = t := by
  constructor
  · intro h
    cases h
    exact ⟨rfl, rfl⟩
  · rintro ⟨rfl, rfl⟩
    rfl

/-- An action that cannot fail. -/
theorem ends_lift {act : StateM FileTree α} {r : Except ε α} :
    Ends (liftM act : ExceptT ε (StateM FileTree) α) t r t' ↔ r = .ok (act.run t).1 ∧ t' = (act.run t).2 := by
  constructor
  · intro h
    cases h
    exact ⟨rfl, rfl⟩
  · rintro ⟨rfl, rfl⟩
    rfl

theorem run_bind (x : ExceptT ε (StateM FileTree) α) (f : α → ExceptT ε (StateM FileTree) β) (t : FileTree) :
    (x >>= f).run.run t = match x.run.run t with
      | (.ok a, s) => (f a).run.run s
      | (.error e, s) => (.error e, s) := by
  rw [ExceptT.run_bind, StateT.run_bind]
  rcases x.run.run t with ⟨e | a, s⟩ <;> rfl

/-- What follows an action that succeeds. -/
theorem Ends.bind_iff {x : ExceptT ε (StateM FileTree) α} {f : α → ExceptT ε (StateM FileTree) β} {a : α} {s : FileTree}
    {r : Except ε β} (hx : Ends x t (.ok a) s) : Ends (x >>= f) t r t' ↔ Ends (f a) s r t' := by
  unfold Ends at hx ⊢
  rw [run_bind, hx]

/-- Nothing follows an action that fails. -/
theorem Ends.bind_error_iff {x : ExceptT ε (StateM FileTree) α} {f : α → ExceptT ε (StateM FileTree) β} {e : ε}
    {s : FileTree} {r : Except ε β} (hx : Ends x t (.error e) s) : Ends (x >>= f) t r t' ↔ r = .error e ∧ t' = s := by
  unfold Ends at hx ⊢
  rw [run_bind, hx, Prod.mk.injEq]
  exact and_congr eq_comm eq_comm

/-- The second action begins with the tree that the first one leaves, unless that one fails. -/
theorem ends_bind {x : ExceptT ε (StateM FileTree) α} {f : α → ExceptT ε (StateM FileTree) β} {r : Except ε β} :
    Ends (x >>= f) t r t' ↔
      (∃ a s, Ends x t (.ok a) s ∧ Ends (f a) s r t') ∨ ∃ e, r = .error e ∧ Ends x t (.error e) t' := by
  constructor
  · intro h
    obtain ⟨result, s, hx⟩ := exists_ends x t
    cases result with
    | ok a => exact .inl ⟨a, s, hx, hx.bind_iff.mp h⟩
    | error e =>
      obtain ⟨rfl, rfl⟩ := hx.bind_error_iff.mp h
      exact .inr ⟨e, rfl, hx⟩
  · rintro (⟨a, s, hx, hrest⟩ | ⟨e, rfl, hx⟩)
    · exact hx.bind_iff.mpr hrest
    · exact hx.bind_error_iff.mpr ⟨rfl, rfl⟩

/-- Two actions that leave the tree as it is. -/
theorem ends_bind_same {x : ExceptT ε (StateM FileTree) α} {k : α → ExceptT ε (StateM FileTree) β}
    {f : Except ε α} {g : α → Except ε β} (hx : Ends x t f t) (hk : ∀ a, Ends (k a) t (g a) t) :
    Ends (x >>= k) t (f >>= g) t := by
  cases f with
  | error e => exact hx.bind_error_iff.mpr ⟨rfl, rfl⟩
  | ok a => exact hx.bind_iff.mpr (hk a)

theorem ends_mapM_same {k : α → ExceptT ε (StateM FileTree) β} {f : α → Except ε β}
    (h : ∀ a, Ends (k a) t (f a) t) (as : List α) : Ends (as.mapM k) t (as.mapM f) t := by
  induction as with
  | nil => rfl
  | cons a as ih =>
    rw [List.mapM_cons, List.mapM_cons]
    exact ends_bind_same (h a) fun b => ends_bind_same ih fun bs => rfl

end Runs

/-- A change to the tree, without which the rest is not done. -/
theorem ends_attempt {ε α : Type} {t t' : FileTree} {change : FileTree → Option FileTree} {e : ε}
    {rest : ExceptT ε (StateM FileTree) α} {r : Except ε α} :
    Ends (do
      let done ← FileTree.attempt change
      if done then rest
      else do
        throw e
        rest) t r t' ↔
      (∃ s, change t = some s ∧ Ends rest s r t') ∨ (change t = none ∧ r = .error e ∧ t' = t) := by
  cases hchange : change t with
  | some s =>
    have hattempt : (FileTree.attempt change).run t = (true, s) := by
      show FileTree.attempt change t = _
      rw [FileTree.attempt, hchange]
    have hdone : Ends (liftM (FileTree.attempt change) : ExceptT ε (StateM FileTree) Bool) t (.ok true) s :=
      ends_lift.mpr (by simp [hattempt])
    rw [hdone.bind_iff]
    simp
  | none =>
    have hattempt : (FileTree.attempt change).run t = (false, t) := by
      show FileTree.attempt change t = _
      rw [FileTree.attempt, hchange]
    have hdone : Ends (liftM (FileTree.attempt change) : ExceptT ε (StateM FileTree) Bool) t (.ok false) t :=
      ends_lift.mpr (by simp [hattempt])
    have hthrow : Ends (throw e : ExceptT ε (StateM FileTree) PUnit) t (.error e) t := ends_throw.mpr ⟨rfl, rfl⟩
    rw [hdone.bind_iff, if_neg Bool.false_ne_true, hthrow.bind_error_iff]
    simp

namespace FileTree

variable {t t' s : FileTree} {path : String} {bs : Bytes}

/-! ## Directories made -/

theorem walk_eq {l l' : Location} {ss : List String} (h : t.walk l ss = some l') : l' = ss.foldl step l := by
  induction ss generalizing l with
  | nil => exact (Option.some.inj h).symm
  | cons s ss ih =>
    unfold walk at h
    split at h
    · exact ih h
    · cases h

/-- A path that leads somewhere leads to its place. -/
theorem locate_eq {l : Location} {isDir : Bool} (h : t.locate path = some (l, isDir)) : l = place path := by
  unfold locate at h
  split at h
  · obtain ⟨l', hwalk, he⟩ := Option.map_eq_some_iff.mp h
    cases he
    exact walk_eq hwalk
  · cases h

theorem isDirectory_mono (h : t.directories ⊆ t'.directories) {l : Location} (hl : t.isDirectory l = true) :
    t'.isDirectory l = true := by
  simp only [isDirectory, Bool.or_eq_true, List.contains_iff_mem] at hl ⊢
  exact hl.imp_right fun hin => h hin

theorem walk_mono (h : t.directories ⊆ t'.directories) {l l' : Location} {ss : List String}
    (hwalk : t.walk l ss = some l') : t'.walk l ss = some l' := by
  induction ss generalizing l with
  | nil => exact hwalk
  | cons s ss ih =>
    unfold walk at hwalk ⊢
    split at hwalk
    · rename_i hdir
      rw [if_pos (isDirectory_mono h hdir)]
      exact ih hwalk
    · cases hwalk

/-- With more directories a path leads where it led before. -/
theorem locate_mono (h : t.directories ⊆ t'.directories) {x : Location × Bool} (hx : t.locate path = some x) :
    t'.locate path = some x := by
  unfold locate at hx ⊢
  split at hx
  · rename_i husable
    obtain ⟨l, hwalk, rfl⟩ := Option.map_eq_some_iff.mp hx
    rw [if_pos husable, walk_mono h hwalk]
    rfl
  · cases hx

theorem makeAlong_ok {l : Location} {ss : List String} (h : t.makeAlong l ss = some t') :
    t'.files = t.files ∧ t.directories ⊆ t'.directories := by
  induction ss generalizing t l with
  | nil =>
    cases h
    exact ⟨rfl, fun _ hin => hin⟩
  | cons s ss ih =>
    unfold makeAlong at h
    dsimp only at h
    split at h
    · exact ih h
    split at h
    · cases h
    · obtain ⟨hfiles, hdirectories⟩ := ih h
      exact ⟨hfiles, fun d hd => hdirectories (List.mem_cons_of_mem _ hd)⟩

theorem makeDirectory_ok (h : t.makeDirectory path = some t') : t'.files = t.files ∧ t.directories ⊆ t'.directories := by
  unfold makeDirectory at h
  split at h
  · cases h
    exact ⟨rfl, fun _ hin => hin⟩
  split at h
  · exact makeAlong_ok h
  · cases h

/-! ## Files written -/

theorem bytes?_put (t : FileTree) (l k : Location) (bs : Bytes) :
    (t.put l bs).bytes? k = if k = l then some bs else t.bytes? k := by
  unfold put bytes?
  dsimp only
  split
  · rename_i hsome
    obtain ⟨old, hold⟩ := Option.isSome_iff_exists.mp hsome
    rw [lookup_update, hold]
    rfl
  · rename_i hnone
    have hnone : t.files.lookup l = none := Option.not_isSome_iff_eq_none.mp hnone
    rw [List.lookup_append, lookup_cons_eq]
    by_cases hk : k = l
    · simp [hk, hnone]
    · simp [hk]

/-! ## Texts -/

/-- A file that has the bytes of a text reads as that text. -/
theorem readText_of_read {text : String} (h : t.read path = some text.toUTF8.toList) : t.readText path = some text := by
  rw [readText, h, Option.bind_some, fromUTF8?_toUTF8]

/-! ## What was written -/

/-- What is written to a place last, if anything is. -/
def lastAt (l : Location) (writes : List (String × Bytes)) : Option Bytes :=
  (writes.filter fun w => place w.1 = l).getLast?.map (·.2)

theorem lastAt_append (l : Location) (first second : List (String × Bytes)) :
    lastAt l (first ++ second) = (lastAt l second).or (lastAt l first) := by
  unfold lastAt
  rw [List.filter_append, List.getLast?_append, Option.map_or]

theorem lastAt_eq_none {l : Location} {writes : List (String × Bytes)} :
    lastAt l writes = none ↔ ∀ w ∈ writes, place w.1 ≠ l := by
  simp [lastAt]

theorem mem_of_lastAt {l : Location} {writes : List (String × Bytes)} (h : lastAt l writes = some bs) :
    ∃ w ∈ writes, place w.1 = l ∧ w.2 = bs := by
  obtain ⟨w, hw, rfl⟩ := Option.map_eq_some_iff.mp h
  obtain ⟨hin, hplace⟩ := List.mem_filter.mp (List.mem_of_getLast? hw)
  exact ⟨w, hin, of_decide_eq_true hplace, rfl⟩

/-- A tree after some bytes were written to some paths, one after another, and directories
    were made. -/
structure Wrote (t : FileTree) (writes : List (String × Bytes)) (t' : FileTree) : Prop where
  directories : t.directories ⊆ t'.directories
  bytes : ∀ l, t'.bytes? l = (lastAt l writes).or (t.bytes? l)
  located : ∀ w ∈ writes, t'.locate w.1 = some (place w.1, false)

theorem wrote_nil (hfiles : t'.files = t.files) (hdirectories : t.directories ⊆ t'.directories) : Wrote t [] t' := by
  refine ⟨hdirectories, fun l => ?_, by simp⟩
  rw [bytes?, hfiles]
  rfl

theorem Wrote.refl (t : FileTree) : Wrote t [] t := wrote_nil rfl fun _ hin => hin

theorem wrote_of_makeDirectory (h : t.makeDirectory path = some t') : Wrote t [] t' := by
  obtain ⟨hfiles, hdirectories⟩ := makeDirectory_ok h
  exact wrote_nil hfiles hdirectories

theorem wrote_of_write (h : t.write path bs = some t') : Wrote t [(path, bs)] t' := by
  unfold write at h
  split at h
  · rename_i l hlocate
    obtain rfl := locate_eq hlocate
    split at h
    · cases h
    · cases h
      have hdirectories : t.directories ⊆ (t.put (place path) bs).directories := fun _ hin => hin
      refine ⟨hdirectories, fun l => ?_, ?_⟩
      · rw [bytes?_put]
        by_cases hl : l = place path
        · simp [lastAt, hl]
        · simp [lastAt, hl, Ne.symm hl]
      · intro w hw
        obtain rfl := List.mem_singleton.mp hw
        exact locate_mono hdirectories hlocate
  · cases h

theorem Wrote.trans {first second : List (String × Bytes)} (h : Wrote t first s) (h' : Wrote s second t') :
    Wrote t (first ++ second) t' := by
  refine ⟨fun d hd => h'.directories (h.directories hd), fun l => ?_, ?_⟩
  · rw [h'.bytes, h.bytes, lastAt_append, Option.or_assoc]
  · intro w hw
    rcases List.mem_append.mp hw with hw | hw
    · exact locate_mono h'.directories (h.located w hw)
    · exact h'.located w hw

section Steps

variable {ε α : Type} {e : ε} {rest : ExceptT ε (StateM FileTree) α} {r : Except ε α}

/-- A directory is made, or the rest is not done. -/
theorem of_ends_makeDirectory (h : Ends (do
      let done ← store.makeDirectory path
      if done then rest
      else do
        throw e
        rest) t r t') :
    (∃ s, Wrote t [] s ∧ Ends rest s r t') ∨ (r = .error e ∧ t' = t) := by
  rcases ends_attempt.mp h with ⟨s, hmake, hrest⟩ | ⟨_, hfailed⟩
  · exact .inl ⟨s, wrote_of_makeDirectory hmake, hrest⟩
  · exact .inr hfailed

/-- A file is written, or the rest is not done. -/
theorem of_ends_write (h : Ends (do
      let done ← store.write path bs
      if done then rest
      else do
        throw e
        rest) t r t') :
    (∃ s, Wrote t [(path, bs)] s ∧ Ends rest s r t') ∨ (r = .error e ∧ t' = t) := by
  rcases ends_attempt.mp h with ⟨s, hwrite, hrest⟩ | ⟨_, hfailed⟩
  · exact .inl ⟨s, wrote_of_write hwrite, hrest⟩
  · exact .inr hfailed

end Steps

namespace Wrote

variable {writes : List (String × Bytes)} (h : Wrote t writes t')
include h

/-- A place that nothing is written to is as it was. -/
theorem elsewhere {l : Location} (hl : ∀ w ∈ writes, place w.1 ≠ l) : t'.bytes? l = t.bytes? l := by
  rw [h.bytes, lastAt_eq_none.mpr hl, Option.none_or]

theorem read_eq {w : String × Bytes} (hw : w ∈ writes) : t'.read w.1 = lastAt (place w.1) writes := by
  have hlocated : t'.read w.1 = t'.bytes? (place w.1) := by rw [FileTree.read, h.located w hw]
  rw [hlocated, h.bytes]
  cases hlast : lastAt (place w.1) writes with
  | none => exact absurd rfl (lastAt_eq_none.mp hlast w hw)
  | some bs => rfl

/-- A path that was written to reads as something written to the same place. -/
theorem read {w : String × Bytes} (hw : w ∈ writes) :
    ∃ v ∈ writes, place v.1 = place w.1 ∧ t'.read w.1 = some v.2 := by
  rw [h.read_eq hw]
  cases hlast : lastAt (place w.1) writes with
  | none => exact absurd rfl (lastAt_eq_none.mp hlast w hw)
  | some bs =>
    obtain ⟨v, hv, hplace, rfl⟩ := mem_of_lastAt hlast
    exact ⟨v, hv, hplace, rfl⟩

/-- Every path reads as what was written to it if and only if no two writes put different
    bytes in one place. -/
theorem read_iff : (∀ w ∈ writes, t'.read w.1 = some w.2) ↔
    ∀ v ∈ writes, ∀ w ∈ writes, place v.1 = place w.1 → v.2 = w.2 := by
  constructor
  · intro hall v hv w hw hplace
    have hsame : t'.read v.1 = t'.read w.1 := by rw [h.read_eq hv, h.read_eq hw, hplace]
    rw [hall v hv, hall w hw] at hsame
    exact Option.some.inj hsame
  · intro hall w hw
    obtain ⟨v, hv, hplace, hread⟩ := h.read hw
    rw [hread, hall v hv w hw hplace]

end Wrote

end FileTree

end Protograph
