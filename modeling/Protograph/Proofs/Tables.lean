/-
  Protograph.Proofs.Tables — tables and lists in which no key comes twice, members added
  once each, tables made of entries, keys not seen before, and lists matched entry by entry.
-/

import Protograph.Ordered
import Mathlib.Data.List.Flatten
import Mathlib.Data.List.Forall2
import Mathlib.Data.List.Induction
import Mathlib.Data.List.Nodup

namespace Protograph

/-! ## Lookup -/

section Lookup

variable {κ α : Type} [BEq κ] [LawfulBEq κ] [DecidableEq κ]

theorem lookup_cons_eq (k l : κ) (x : α) (xs : List (κ × α)) :
    List.lookup k ((l, x) :: xs) = if k = l then some x else xs.lookup k := by
  rw [List.lookup_cons]
  by_cases hk : k = l
  · simp [hk]
  · rw [if_neg hk, beq_eq_false_iff_ne.mpr hk]

theorem lookup_update (xs : List (κ × α)) (l k : κ) (y : α) :
    (xs.map fun x => if x.1 = l then (l, y) else x).lookup k =
      if k = l then (xs.lookup l).map fun _ => y else xs.lookup k := by
  induction xs with
  | nil => simp
  | cons x xs ih =>
    obtain ⟨m, old⟩ := x
    rw [List.map_cons, lookup_cons_eq, lookup_cons_eq]
    by_cases hm : m = l
    · subst hm
      rw [if_pos rfl, lookup_cons_eq, ih]
      by_cases hk : k = m <;> simp [hk]
    · rw [if_neg hm, lookup_cons_eq, ih, if_neg (Ne.symm hm)]
      by_cases hk : k = l
      · subst hk
        simp [Ne.symm hm]
      · simp [hk]

end Lookup

/-! ## Tables -/

namespace Table

variable {α : Type}

/-- Of one key a table with distinct keys has one value. -/
theorem value_eq {t : Table α} (h : t.keys.Nodup) {k : String} {v w : α} (hv : (k, v) ∈ t) (hw : (k, w) ∈ t) :
    v = w :=
  congrArg Prod.snd (List.inj_on_of_nodup_map h hv hw rfl)

theorem mem_of_get? {t : Table α} {k : String} {v : α} (h : t.get? k = some v) : (k, v) ∈ t := by
  induction t with
  | nil => cases h
  | cons e t ih =>
    obtain ⟨a, w⟩ := e
    unfold get? at h ih
    rw [List.lookup_cons] at h
    by_cases hk : k = a
    · subst hk
      simp at h
      subst h
      exact List.mem_cons_self
    · have hne : (k == a) = false := by simpa using hk
      simp only [hne] at h
      exact List.mem_cons_of_mem _ (ih h)

theorem get?_eq_none {t : Table α} {k : String} : t.get? k = none ↔ k ∉ t.keys := by
  unfold get? keys
  rw [List.lookup_eq_none_iff, List.mem_map]
  constructor
  · rintro h ⟨e, he, rfl⟩
    simpa using h e he
  · intro h e he
    have hne : e.1 ≠ k := by
      rintro rfl
      exact h ⟨e, he, rfl⟩
    simpa using Ne.symm hne

theorem mem_keys {t : Table α} {k : String} {v : α} (h : (k, v) ∈ t) : k ∈ t.keys := List.mem_map_of_mem h

theorem get?_eq_some {t : Table α} (h : t.keys.Nodup) {k : String} {v : α} : t.get? k = some v ↔ (k, v) ∈ t := by
  refine ⟨mem_of_get?, fun hm => ?_⟩
  cases hg : t.get? k with
  | none => exact absurd (mem_keys hm) (get?_eq_none.mp hg)
  | some w => rw [value_eq h hm (mem_of_get? hg)]

/-- Where keys are distinct, a value is found in any order of the entries. -/
theorem get?_perm {t t' : Table α} (h : t.keys.Nodup) (hp : t.Perm t') (k : String) : t.get? k = t'.get? k := by
  have h' : t'.keys.Nodup := (hp.map _).nodup_iff.mp h
  ext v
  rw [get?_eq_some h, get?_eq_some h', hp.mem_iff]

end Table

/-- Where keys are distinct, what has a key is found by it. -/
theorem find?_of_nodup {α β : Type*} [BEq β] [LawfulBEq β] {key : α → β} {xs : List α} (h : (xs.map key).Nodup) {x : α}
    (hx : x ∈ xs) : xs.find? (fun y => key y == key x) = some x := by
  cases hf : xs.find? fun y => key y == key x with
  | none => exact absurd (List.find?_eq_none.mp hf x hx) (by simp)
  | some y =>
    have hy : key y = key x := by simpa using List.find?_some hf
    rw [List.inj_on_of_nodup_map h (List.mem_of_find?_eq_some hf) hx hy]

/-- Where keys are distinct, nothing else has the key of a member. -/
theorem filter_of_nodup {α β : Type} [BEq β] [LawfulBEq β] {key : α → β} {xs : List α} (h : (xs.map key).Nodup) {x : α}
    (hx : x ∈ xs) : xs.filter (fun y => key y == key x) = [x] := by
  obtain ⟨front, back, rfl⟩ := List.append_of_mem hx
  rw [List.map_append, List.map_cons, List.nodup_middle, List.nodup_cons, ← List.map_append] at h
  have hnone : ∀ ys : List α, (∀ y ∈ ys, y ∈ front ++ back) → ys.filter (fun y => key y == key x) = [] := by
    intro ys hys
    rw [List.filter_eq_nil_iff]
    intro y hy hkey
    exact h.1 (List.mem_map.mpr ⟨y, hys y hy, eq_of_beq hkey⟩)
  have hself : (x :: back).filter (fun y => key y == key x) = x :: back.filter (fun y => key y == key x) := by simp
  rw [List.filter_append, hself, hnone front fun y hy => List.mem_append_left _ hy,
    hnone back fun y hy => List.mem_append_right _ hy]
  rfl

theorem map_sublist_flatMap {α β : Type} {g : α → β} {f : α → List β} (h : ∀ x, g x ∈ f x) (xs : List α) :
    (xs.map g).Sublist (xs.flatMap f) := by
  rw [List.map_eq_flatMap]
  exact List.Sublist.flatMap_right xs fun x _ => List.singleton_sublist.mpr (h x)

theorem filterMap_sublist_map {α β : Type} {f : α → Option β} {g : α → β} (h : ∀ x y, f x = some y → y = g x)
    (xs : List α) : (xs.filterMap f).Sublist (xs.map g) := by
  induction xs with
  | nil => exact List.Sublist.slnil
  | cons x xs ih =>
    cases hx : f x with
    | none => simpa [hx] using ih.cons (g x)
    | some y =>
      obtain rfl := h x y hx
      simpa [hx] using ih.cons_cons (g x)

/-! ## Members added once each -/

section Added

variable {α β : Type} [DecidableEq α] {s xs ys : List α} {x : α}

theorem addAll_snoc : addAll s (xs ++ [x]) = addNew (addAll s xs) x := by
  simp [addAll]

theorem addAll_append : addAll s (xs ++ ys) = addAll (addAll s xs) ys := by
  simp [addAll]

/-- What was there comes first. -/
theorem prefix_addAll (s xs : List α) : s <+: addAll s xs := by
  induction xs generalizing s with
  | nil => exact List.prefix_refl s
  | cons x xs ih =>
    have hnew : s <+: addNew s x := by
      unfold addNew
      split
      · exact List.prefix_refl s
      · exact List.prefix_append s [x]
    exact hnew.trans (ih (addNew s x))

theorem addAll_addNew : addAll s (addNew xs x) = addNew (addAll s xs) x := by
  by_cases hx : x ∈ xs
  · have hthere : x ∈ addAll s xs := mem_addAll.mpr (.inr hx)
    rw [addNew, if_pos hx, addNew, if_pos hthere]
  · rw [addNew, if_neg hx, addAll_snoc]

theorem addAll_addAll (s xs : List α) : addAll s (addAll [] xs) = addAll s xs := by
  induction xs using List.reverseRecOn with
  | nil => rfl
  | append_singleton xs x ih => rw [addAll_snoc, addAll_addNew, ih, addAll_snoc]

/-- Lists are added alike whether their own members were added once each before or not. -/
theorem addAll_flatMap (f : β → List α) (s : List α) (as : List β) :
    addAll s (as.flatMap fun a => addAll [] (f a)) = addAll s (as.flatMap f) := by
  induction as generalizing s with
  | nil => rfl
  | cons a as ih => rw [List.flatMap_cons, List.flatMap_cons, addAll_append, addAll_append, addAll_addAll, ih]

end Added

/-! ## Tables made of entries -/

namespace Table

variable {α : Type}

theorem get?_put (t : Table α) (k key : String) (x : α) :
    (t.put k x).get? key = if key = k then some x else t.get? key := by
  unfold put
  split
  · rename_i hthere
    have hsome : t.get? k ≠ none := fun h => get?_eq_none.mp h (has_iff.mp hthere)
    obtain ⟨old, hold⟩ := Option.ne_none_iff_exists'.mp hsome
    unfold get? at hold ⊢
    rw [lookup_update, hold]
    rfl
  · rename_i hnew
    have hnone : t.get? k = none := get?_eq_none.mpr fun h => hnew (has_iff.mpr h)
    unfold get? at hnone ⊢
    rw [List.lookup_append, lookup_cons_eq]
    by_cases hkey : key = k
    · simp [hkey, hnone]
    · simp [hkey]

theorem ofList_snoc (entries : List (String × α)) (e : String × α) :
    ofList (entries ++ [e]) = (ofList entries).put e.1 e.2 := by
  simp [ofList]

/-- Keys stand in the order in which they first come. -/
theorem keys_ofList (entries : List (String × α)) : (ofList entries).keys = addAll [] (entries.map (·.1)) := by
  induction entries using List.reverseRecOn with
  | nil => rfl
  | append_singleton entries e ih =>
    rw [ofList_snoc, keys_put, ih, List.map_append, List.map_singleton, addAll_snoc]
    rfl

/-- A key has the last value that comes with it. -/
theorem get?_ofList (entries : List (String × α)) (key : String) :
    (ofList entries).get? key = entries.reverse.lookup key := by
  induction entries using List.reverseRecOn with
  | nil => rfl
  | append_singleton entries e ih => rw [ofList_snoc, get?_put, ih, List.reverse_concat, lookup_cons_eq]

end Table

/-! ## Keys not seen before -/

section Fresh

variable {κ : Type} {seen ks : List κ} {k : κ}

/-- Keys that come once each and are not among those seen. -/
def Fresh (seen ks : List κ) : Prop := ks.Nodup ∧ ∀ k ∈ ks, k ∉ seen

theorem fresh_nil : Fresh seen [] := ⟨List.nodup_nil, by simp⟩

theorem fresh_of_none_seen : Fresh [] ks ↔ ks.Nodup := by simp [Fresh]

theorem fresh_cons : Fresh seen (k :: ks) ↔ k ∉ seen ∧ Fresh (k :: seen) ks := by
  unfold Fresh
  simp only [List.nodup_cons, List.mem_cons, forall_eq_or_imp, not_or]
  constructor
  · intro h
    obtain ⟨⟨hk, hd⟩, hseen, hs⟩ := h
    exact ⟨hseen, hd, fun x hx => ⟨fun he => hk (he ▸ hx), hs x hx⟩⟩
  · intro h
    obtain ⟨hseen, hd, hs⟩ := h
    exact ⟨⟨fun hk => (hs k hk).1 rfl, hd⟩, hseen, fun x hx => (hs x hx).2⟩

theorem fresh_append {ks' : List κ} : Fresh seen (ks ++ ks') ↔ Fresh seen ks ∧ Fresh (seen ++ ks) ks' := by
  unfold Fresh
  simp only [List.nodup_append', List.mem_append, not_or]
  constructor
  · intro h
    obtain ⟨⟨hd, hd', hapart⟩, hnew⟩ := h
    exact ⟨⟨hd, fun x hx => hnew x (.inl hx)⟩, hd', fun x hx => ⟨hnew x (.inr hx), fun hk => hapart hk hx⟩⟩
  · intro h
    obtain ⟨⟨hd, hs⟩, hd', hs'⟩ := h
    exact ⟨⟨hd, hd', fun x hk hx => (hs' x hx).2 hk⟩, fun x hx => hx.elim (hs x) fun hx => (hs' x hx).1⟩

theorem fresh_congr {seen' : List κ} (h : ∀ x, x ∈ seen ↔ x ∈ seen') : Fresh seen ks ↔ Fresh seen' ks := by
  simp only [Fresh, h]

end Fresh

/-! ## Lists matched entry by entry -/

section Forall₂

variable {α β : Type*} {R : α → β → Prop} {as : List α} {bs : List β}

theorem exists_of_forall₂_right (h : List.Forall₂ R as bs) {b : β} (hb : b ∈ bs) : ∃ a ∈ as, R a b := by
  induction h with
  | nil => cases hb
  | cons hab _ ih =>
    rcases List.mem_cons.mp hb with rfl | hb
    · exact ⟨_, List.mem_cons_self, hab⟩
    · obtain ⟨a, ha, hR⟩ := ih hb
      exact ⟨a, List.mem_cons_of_mem _ ha, hR⟩

theorem exists_of_forall₂_left (h : List.Forall₂ R as bs) {a : α} (ha : a ∈ as) : ∃ b ∈ bs, R a b :=
  exists_of_forall₂_right h.flip ha

/-- What is matched are members of the two lists. -/
theorem forall₂_mem (h : List.Forall₂ R as bs) : List.Forall₂ (fun a b => a ∈ as ∧ b ∈ bs ∧ R a b) as bs := by
  induction h with
  | nil => exact .nil
  | cons hab _ ih =>
    refine .cons ⟨List.mem_cons_self, List.mem_cons_self, hab⟩ (ih.imp ?_)
    rintro a b ⟨ha, hb, hR⟩
    exact ⟨List.mem_cons_of_mem _ ha, List.mem_cons_of_mem _ hb, hR⟩

/-- Lists are one and the same if whatever is matched is. -/
theorem eq_of_forall₂ {R : α → α → Prop} {as bs : List α} (h : List.Forall₂ R as bs)
    (hsame : ∀ a ∈ as, ∀ b ∈ bs, R a b → a = b) : as = bs := by
  rw [← List.forall₂_eq_eq_eq]
  refine (forall₂_mem h).imp ?_
  rintro a b ⟨ha, hb, hR⟩
  exact hsame a ha b hb hR

theorem map_eq_of_forall₂ {γ : Type*} {f : α → γ} {g : β → γ} (h : List.Forall₂ (fun a b => g b = f a) as bs) :
    bs.map g = as.map f := by
  induction h with
  | nil => rfl
  | cons hab _ ih => rw [List.map_cons, List.map_cons, hab, ih]

theorem eq_map_of_forall₂ {f : α → β} (h : List.Forall₂ (fun a b => b = f a) as bs) : bs = as.map f := by
  have hsame := map_eq_of_forall₂ (g := id) h
  rwa [List.map_id] at hsame

theorem filterMap_eq_of_forall₂ {γ : Type*} {f : α → Option γ} {g : β → Option γ}
    (h : List.Forall₂ (fun a b => g b = f a) as bs) : bs.filterMap g = as.filterMap f := by
  have hsame := congrArg (List.filterMap id) (map_eq_of_forall₂ h)
  rwa [List.filterMap_map, List.filterMap_map] at hsame

end Forall₂

end Protograph
