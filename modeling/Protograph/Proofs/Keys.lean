/-
  Protograph.Proofs.Keys — what the keys of an object have to do with the record that is read
  from it.

  A `Layout` says which parts of a value are records and which keys these have. A reader follows
  a layout (`Follows`) if it takes no record but one with known keys, none twice and none missing
  that must be there, and if neither the order of the keys nor a default that is left out makes
  a difference to it.

  Proved:
  - `record_obj_eq_ok`: which objects a record is read from, and what comes of it.
  - `follows_record`: reading a record follows the layout of its slots, if storing in one slot
    has nothing to do with storing in another and each default is what the record starts with.
  - `eq_of_edits`: what follows a layout reads the same however many objects are changed.
  - `inOrder_of_table`: a table has its keys in the order of the object, and of a repeated key
    the last value.
-/

import Mathlib.Logic.Relation
import Protograph.Schema.Reading
import Protograph.Proofs.Ranges

namespace Protograph

/-- One of two things that are matched alike can stand for the other. -/
theorem forall₂_replace {α β : Type} {R : α → β → Prop} {a a' : α} (h : ∀ b, R a b ↔ R a' b) (front back : List α)
    {bs : List β} : List.Forall₂ R (front ++ a :: back) bs ↔ List.Forall₂ R (front ++ a' :: back) bs := by
  induction front generalizing bs with
  | nil => simp only [List.nil_append, List.forall₂_cons_left_iff, h]
  | cons x front ih => simp only [List.cons_append, List.forall₂_cons_left_iff, ih]

namespace Json

/-! ## Layouts -/

abbrev Members := List (String × Json)

/-- The keys of an object, in its order. -/
def names (ms : Members) : List String := ms.map (·.1)

theorem names_replaced (front back : Members) (key : String) (v v' : Json) :
    names (front ++ (key, v) :: back) = names (front ++ (key, v') :: back) := by
  simp [names]

/-- A key of a record: what stands under it, and which values are its default; a key without a
    default must be there. -/
structure Key (α : Type) where
  name : String
  holds : α
  standard : Option (Json → Prop) := none

/-- Which parts of a value are records. Of a leaf nothing is said. -/
inductive Layout
  | leaf
  | optional (l : Layout)
  | list (l : Layout)
  | record (keys : List (Key Layout))

namespace Key

/-- A key that must be there. -/
def required (name : String) (l : Layout) : Key Layout := ⟨name, l, none⟩

/-- A key whose default is written in one way. -/
def defaulted (name : String) (l : Layout) (d : Json) : Key Layout := ⟨name, l, some (· = d)⟩

/-- A key whose default is written in any way that reads as the value. -/
def reading {α : Type} (name : String) (l : Layout) (read : Input → Read α) (x : α) : Key Layout :=
  ⟨name, l, some fun d => ∀ t, read ⟨t, d⟩ = .ok x⟩

/-- A key under which there may be nothing, as if the key was not there. -/
def nullable (name : String) (l : Layout) : Key Layout := defaulted name (.optional l) .null

end Key

/-- Every record that is written as an object has known keys only, none twice, and all of those
    that must be there. -/
inductive Keyed : Layout → Json → Prop
  | leaf {v : Json} : Keyed .leaf v
  | absent {l : Layout} : Keyed (.optional l) .null
  | present {l : Layout} {v : Json} : Keyed l v → Keyed (.optional l) v
  | list {l : Layout} {vs : List Json} : (∀ v ∈ vs, Keyed l v) → Keyed (.list l) (.arr vs)
  | object {keys : List (Key Layout)} {ms : Members} : (names ms).Nodup → (∀ n ∈ names ms, n ∈ keys.map (·.name)) →
      (∀ k ∈ keys, k.standard = none → k.name ∈ names ms) → (∀ e ∈ ms, ∀ k ∈ keys, k.name = e.1 → Keyed k.holds e.2) →
      Keyed (.record keys) (.obj ms none)
  /-- A record written as a sequence has no keys. -/
  | sequence {keys : List (Key Layout)} {vs : List Json} : Keyed (.record keys) (.arr vs)

/-- A change to one object: its keys stand in another order, or a default that was written is
    left out. -/
inductive Edit (keys : List (Key Layout)) : Members → Members → Prop
  | permuted {ms ms' : Members} : ms.Perm ms' → Edit keys ms ms'
  | omitted {key : Key Layout} {isStandard : Json → Prop} {d : Json} {front back : Members} : key ∈ keys →
      key.standard = some isStandard → isStandard d → key.name ∉ names (front ++ back) →
      Edit keys (front ++ (key.name, d) :: back) (front ++ back)

/-- Somewhere in the value, at any depth, a record written as an object is changed. -/
inductive Edited : Layout → Json → Json → Prop
  | here {keys : List (Key Layout)} {ms ms' : Members} {rest : Option Json} : Edit keys ms ms' →
      Edited (.record keys) (.obj ms rest) (.obj ms' rest)
  | member {keys : List (Key Layout)} {key : Key Layout} {v v' : Json} {front back : Members} {rest : Option Json} :
      key ∈ keys → Edited key.holds v v' →
      Edited (.record keys) (.obj (front ++ (key.name, v) :: back) rest) (.obj (front ++ (key.name, v') :: back) rest)
  | item {l : Layout} {v v' : Json} {front back : List Json} : Edited l v v' →
      Edited (.list l) (.arr (front ++ v :: back)) (.arr (front ++ v' :: back))
  | present {l : Layout} {v v' : Json} : Edited l v v' → Edited (.optional l) v v'

/-- A reader that is strict about the keys of the layout, and to which the changes make no
    difference: neither to whether the value is read nor to what comes of it. -/
structure Follows {α : Type} (read : Input → Read α) (l : Layout) : Prop where
  keyed : ∀ t v a, read ⟨t, v⟩ = .ok a → Keyed l v
  edited : ∀ t v v', Edited l v v' → ∀ a, read ⟨t, v⟩ = .ok a ↔ read ⟨t, v'⟩ = .ok a

/-- Any number of changes, made or undone, makes no difference either. -/
theorem eq_of_edits {α : Type} {read : Input → Read α} {l : Layout} (h : Follows read l) (t : Bool) {v v' : Json}
    (hedits : Relation.EqvGen (Edited l) v v') (a : α) : read ⟨t, v⟩ = .ok a ↔ read ⟨t, v'⟩ = .ok a := by
  induction hedits with
  | rel v v' hedit => exact h.edited t v v' hedit a
  | refl v => exact Iff.rfl
  | symm v v' _ ih => exact ih.symm
  | trans v v' v'' _ _ ih ih' => exact ih.trans ih'

/-! ## Parts -/

theorem follows_leaf {α : Type} (read : Input → Read α) : Follows read .leaf :=
  ⟨fun _ _ _ _ => .leaf, fun _ _ _ h => nomatch h⟩

theorem Edited.not_null {l : Layout} {v v' : Json} (h : Edited l v v') : v ≠ .null ∧ v' ≠ .null := by
  induction h with
  | here | member | item => exact ⟨nofun, nofun⟩
  | present _ ih => exact ih

theorem optional_eq {α : Type} (read : Input → Read α) (t : Bool) {v : Json} (hv : v ≠ .null) :
    Source.optional read (⟨t, v⟩ : Input) = some <$> read ⟨t, v⟩ := by
  cases v with
  | null => exact absurd rfl hv
  | _ => rfl

theorem some_map_eq_ok {α : Type} {x : Read α} {o : Option α} : some <$> x = .ok o ↔ ∃ a, x = .ok a ∧ some a = o := by
  rw [map_eq_pure_bind, bind_eq_ok]
  simp only [pure_eq_ok]

theorem follows_optional {α : Type} {read : Input → Read α} {l : Layout} (h : Follows read l) :
    Follows (Source.optional read) (.optional l) where
  keyed t v o ho := by
    by_cases hv : v = .null
    · subst hv
      exact .absent
    · rw [optional_eq read t hv, some_map_eq_ok] at ho
      obtain ⟨a, ha, _⟩ := ho
      exact .present (h.keyed t v a ha)
  edited t v v' hedit o := by
    cases hedit with
    | present hedit =>
      obtain ⟨hv, hv'⟩ := hedit.not_null
      simp only [optional_eq read t hv, optional_eq read t hv', some_map_eq_ok, h.edited t v v' hedit]

theorem follows_list {α : Type} {read : Input → Read α} {l : Layout} (h : Follows read l) :
    Follows (Source.list read) (.list l) where
  keyed t v as has := by
    cases v with
    | arr vs =>
      refine .list fun v hv => ?_
      obtain ⟨a, _, ha⟩ := exists_of_forall₂_left (mapM_eq_ok.mp has) hv
      exact h.keyed t v a ha
    | _ => exact absurd has not_mismatch
  edited t v v' hedit as := by
    cases hedit with
    | @item _ v v' front back hedit =>
      show (front ++ v :: back).mapM (fun v => read ⟨t, v⟩) = .ok as ↔
        (front ++ v' :: back).mapM (fun v => read ⟨t, v⟩) = .ok as
      rw [mapM_eq_ok, mapM_eq_ok]
      exact forall₂_replace (h.edited t v v' hedit) front back

/-! ## Records -/

section Record

variable {ρ : Type} {r : Record Read Input ρ} {t : Bool}

/-- What a member of an object does to the record. -/
def Puts (r : Record Read Input ρ) (t : Bool) (e : String × Json) (u : ρ → ρ) : Prop :=
  ∃ s, r.slots.find? (·.name == e.1) = some s ∧ ∃ x, s.read ⟨t, e.2⟩ = .ok x ∧ s.store x = u

/-- Does one thing after another to a record. -/
def through (us : List (ρ → ρ)) (a : ρ) : ρ := us.foldl (fun a u => u a) a

theorem Puts.unique {e : String × Json} {u w : ρ → ρ} (hu : Puts r t e u) (hw : Puts r t e w) : u = w := by
  obtain ⟨s, hs, x, hx, rfl⟩ := hu
  obtain ⟨s', hs', y, hy, rfl⟩ := hw
  rw [hs] at hs'
  cases hs'
  rw [hx] at hy
  cases hy
  rfl

theorem visit_eq_ok {p p' : Record.Progress ρ} {e : String × Json} :
    r.visit fail p e.1 ⟨t, e.2⟩ = .ok p' ↔ e.1 ∉ p.seen ∧ ∃ u, Puts r t e u ∧ ⟨e.1 :: p.seen, u p.value⟩ = p' := by
  unfold Record.visit Puts
  cases hs : r.slots.find? (·.name == e.1) with
  | none => simp [fail]
  | some s =>
    by_cases hseen : e.1 ∈ p.seen
    · simp [hseen, fail]
    · simp only [hseen, if_false, bind_eq_ok, pure_eq_ok, not_false_eq_true, true_and]
      constructor
      · rintro ⟨x, hx, rfl⟩
        exact ⟨s.store x, ⟨s, rfl, x, hx, rfl⟩, rfl⟩
      · rintro ⟨_, ⟨_, ⟨⟩, x, hx, rfl⟩, rfl⟩
        exact ⟨x, hx, rfl⟩

/-- Members are visited one after another if their keys come once each and each has a slot that
    reads it. -/
theorem visits_eq_ok {ms : Members} {p p' : Record.Progress ρ} :
    ms.foldlM (fun p e => r.visit fail p e.1 ⟨t, e.2⟩) p = .ok p' ↔
      Fresh p.seen (names ms) ∧ ∃ us, List.Forall₂ (Puts r t) ms us ∧
        ⟨(names ms).reverse ++ p.seen, through us p.value⟩ = p' := by
  induction ms generalizing p with
  | nil =>
    rw [foldlM_nil_eq_ok]
    simp [names, fresh_nil, through]
  | cons e ms ih =>
    simp only [foldlM_cons_eq_ok, visit_eq_ok, ih, names, List.map_cons, fresh_cons, List.forall₂_cons_left_iff,
      List.reverse_cons, List.append_assoc, List.singleton_append]
    constructor
    · rintro ⟨_, ⟨hnew, u, hu, rfl⟩, hfresh, us, hus, rfl⟩
      exact ⟨⟨hnew, hfresh⟩, u :: us, ⟨u, us, hu, hus, rfl⟩, rfl⟩
    · rintro ⟨⟨hnew, hfresh⟩, _, ⟨u, us, hu, hus, rfl⟩, rfl⟩
      exact ⟨_, ⟨hnew, u, hu, rfl⟩, hfresh, us, hus, rfl⟩

theorem close_eq_ok {p : Record.Progress ρ} {a : ρ} :
    r.close fail p = .ok a ↔ (∀ s ∈ r.slots, s.required = true → s.name ∈ p.seen) ∧ p.value = a := by
  have hnone : r.missing? p = none ↔ ∀ s ∈ r.slots, s.required = true → s.name ∈ p.seen := by
    simp [Record.missing?]
  unfold Record.close
  cases hmissing : r.missing? p with
  | none => simp only [← hnone, hmissing, pure_eq_ok, true_and]
  | some name => simp [← hnone, hmissing, fail]

/-- A record is read from an object whose keys come once each, with all those that must be there,
    and of which each member has a slot that reads it. What comes of it is the record without any
    member, to which the members are put. -/
theorem record_obj_eq_ok {ms : Members} {rest : Option Json} {a : ρ} :
    Source.record r (⟨t, .obj ms rest⟩ : Input) = .ok a ↔ rest = none ∧ (names ms).Nodup ∧
      (∀ s ∈ r.slots, s.required = true → s.name ∈ names ms) ∧
      ∃ us, List.Forall₂ (Puts r t) ms us ∧ through us r.start = a := by
  show (ms.foldlM (fun p e => r.visit fail p e.1 ⟨t, e.2⟩) r.begin >>=
    fun p => if rest.isSome then Except.error ReadError.malformed else r.close fail p) = .ok a ↔ _
  cases rest with
  | some v => simp [bind_eq_ok]
  | none =>
    simp only [bind_eq_ok, visits_eq_ok, Record.begin, fresh_of_none_seen, Option.isSome_none, Bool.false_eq_true,
      if_false, close_eq_ok, List.append_nil]
    constructor
    · rintro ⟨_, ⟨hnames, us, hus, rfl⟩, hrequired, rfl⟩
      exact ⟨trivial, hnames, fun s hs h => List.mem_reverse.mp (hrequired s hs h), us, hus, rfl⟩
    · rintro ⟨-, hnames, hrequired, us, hus, rfl⟩
      exact ⟨_, ⟨hnames, us, hus, rfl⟩, fun s hs h => List.mem_reverse.mpr (hrequired s hs h), rfl⟩

/-- Storing in one of two slots has nothing to do with storing in the other. -/
def Independent (s s' : Slot Read Input ρ) : Prop := ∀ x y a, s.store x (s'.store y a) = s'.store y (s.store x a)

instance : Std.Symm (@Independent ρ) := ⟨fun _ _ h x y a => (h y x a).symm⟩

/-- No two slots have to do with each other. -/
def Apart (r : Record Read Input ρ) : Prop := r.slots.Pairwise Independent

theorem commute_of_puts (hapart : Apart r) {ms : Members} (hnames : (names ms).Nodup) {e e' : String × Json}
    (he : e ∈ ms) (he' : e' ∈ ms) {u w : ρ → ρ} (hu : Puts r t e u) (hw : Puts r t e' w) (a : ρ) : w (u a) = u (w a) := by
  by_cases hsame : e.1 = e'.1
  · -- of one name there is one member, and what it does is one thing
    obtain rfl := List.inj_on_of_nodup_map hnames he he' hsame
    rw [hu.unique hw]
  · obtain ⟨s, hs, x, _, rfl⟩ := hu
    obtain ⟨s', hs', y, _, rfl⟩ := hw
    have hname : s.name = e.1 := by simpa using List.find?_some hs
    have hname' : s'.name = e'.1 := by simpa using List.find?_some hs'
    have hne : s' ≠ s := fun h => hsame (by rw [← hname, ← hname', h])
    exact hapart.forall (List.mem_of_find?_eq_some hs') (List.mem_of_find?_eq_some hs) hne y x a

/-- The order of the members makes no difference. -/
theorem record_of_perm (hapart : Apart r) {ms ms' : Members} (hperm : ms.Perm ms') {rest : Option Json} {a : ρ}
    (h : Source.record r (⟨t, .obj ms rest⟩ : Input) = .ok a) :
    Source.record r (⟨t, .obj ms' rest⟩ : Input) = .ok a := by
  obtain ⟨rfl, hnames, hrequired, us, hus, rfl⟩ := record_obj_eq_ok.mp h
  have hkeys : (names ms).Perm (names ms') := hperm.map _
  obtain ⟨us', hus', hperm'⟩ := List.perm_comp_forall₂ hperm.symm hus
  have hnames' : (names ms').Nodup := hkeys.nodup_iff.mp hnames
  have hsame : through us' r.start = through us r.start := by
    refine hperm'.foldl_eq' (fun u hu w hw a => ?_) r.start
    obtain ⟨e, he, hputs⟩ := exists_of_forall₂_right hus' hu
    obtain ⟨e', he', hputs'⟩ := exists_of_forall₂_right hus' hw
    exact commute_of_puts hapart hnames' he he' hputs hputs' a
  exact record_obj_eq_ok.mpr ⟨rfl, hnames', fun s hs h => hkeys.mem_iff.mp (hrequired s hs h), us', hus', hsame⟩

theorem record_perm_iff (hapart : Apart r) {ms ms' : Members} (hperm : ms.Perm ms') {rest : Option Json} {a : ρ} :
    Source.record r (⟨t, .obj ms rest⟩ : Input) = .ok a ↔ Source.record r (⟨t, .obj ms' rest⟩ : Input) = .ok a :=
  ⟨record_of_perm hapart hperm, record_of_perm hapart hperm.symm⟩

/-- What stands under a key is read and stored in the slot of the key. -/
theorem exists_stored (hapart : Apart r) {ms : Members} {e : String × Json} (he : e ∈ ms) {rest : Option Json} {a : ρ}
    (h : Source.record r (⟨t, .obj ms rest⟩ : Input) = .ok a) : ∃ u a', Puts r t e u ∧ a = u a' := by
  obtain ⟨front, back, rfl⟩ := List.append_of_mem he
  -- a member that comes last is stored last
  have hlast : (front ++ e :: back).Perm ((front ++ back) ++ [e]) :=
    List.perm_middle.trans (List.perm_append_singleton e _).symm
  obtain ⟨_, _, _, us, hus, rfl⟩ := record_obj_eq_ok.mp (record_of_perm hapart hlast h)
  have hdrop := List.forall₂_drop_append us (front ++ back) [e] hus.flip
  obtain ⟨u, _, hu, hnil, hus⟩ := List.forall₂_cons_right_iff.mp hdrop
  rw [List.forall₂_nil_right_iff] at hnil
  rw [← List.take_append_drop (front ++ back).length us, hus, hnil]
  exact ⟨u, through (us.take (front ++ back).length) r.start, hu, by simp [through]⟩

/-- The slot that reads a key. Its default, when written, is what the record starts with. -/
structure Serves (start : ρ) (s : Slot Read Input ρ) (k : Key Layout) : Prop where
  name : s.name = k.name
  required : s.required = k.standard.isNone
  standard : ∀ isStandard ∈ k.standard, ∀ d, isStandard d → ∀ t, ∃ x, s.read ⟨t, d⟩ = .ok x ∧ s.store x start = start
  follows : Follows s.read k.holds

/-- A record with a slot for each of some keys. -/
structure LaidOut (r : Record Read Input ρ) (keys : List (Key Layout)) : Prop where
  serves : List.Forall₂ (Serves r.start) r.slots keys
  distinct : (keys.map (·.name)).Nodup
  apart : Apart r

variable {keys : List (Key Layout)}

theorem LaidOut.key_of_slot (h : LaidOut r keys) {name : String} {s : Slot Read Input ρ}
    (hs : r.slots.find? (·.name == name) = some s) : ∃ k ∈ keys, k.name = name ∧ Serves r.start s k := by
  obtain ⟨k, hk, hserves⟩ := exists_of_forall₂_left h.serves (List.mem_of_find?_eq_some hs)
  have hname : s.name = name := by simpa using List.find?_some hs
  exact ⟨k, hk, hserves.name ▸ hname, hserves⟩

theorem LaidOut.slot_of_key (h : LaidOut r keys) {k : Key Layout} (hk : k ∈ keys) :
    ∃ s, r.slots.find? (·.name == k.name) = some s ∧ Serves r.start s k := by
  obtain ⟨s, hs, hserves⟩ := exists_of_forall₂_right h.serves hk
  have hnames : r.slots.map (·.name) = keys.map (·.name) :=
    (map_eq_of_forall₂ (h.serves.imp fun _ _ hserves => hserves.name.symm)).symm
  have hfind := find?_of_nodup (hnames ▸ h.distinct) hs
  exact ⟨s, hserves.name ▸ hfind, hserves⟩

theorem LaidOut.key_eq (h : LaidOut r keys) {k k' : Key Layout} (hk : k ∈ keys) (hk' : k' ∈ keys)
    (hname : k.name = k'.name) : k = k' :=
  List.inj_on_of_nodup_map h.distinct hk hk' hname

theorem keyed_of_record (h : LaidOut r keys) {v : Json} {a : ρ} (ha : Source.record r (⟨t, v⟩ : Input) = .ok a) :
    Keyed (.record keys) v := by
  cases v with
  | obj ms rest =>
    obtain ⟨rfl, hnames, hrequired, us, hus, _⟩ := record_obj_eq_ok.mp ha
    refine .object hnames ?_ ?_ ?_
    · intro n hn
      obtain ⟨e, he, rfl⟩ := List.mem_map.mp hn
      obtain ⟨u, _, s, hs, _⟩ := exists_of_forall₂_left hus he
      obtain ⟨k, hk, hname, _⟩ := h.key_of_slot hs
      exact List.mem_map.mpr ⟨k, hk, hname⟩
    · intro k hk hstandard
      obtain ⟨s, hs, hserves⟩ := h.slot_of_key hk
      rw [← hserves.name]
      exact hrequired s (List.mem_of_find?_eq_some hs) (by rw [hserves.required, hstandard]; rfl)
    · intro e he k hk hname
      obtain ⟨u, _, s, hs, x, hx, _⟩ := exists_of_forall₂_left hus he
      obtain ⟨k', hk', hname', hserves⟩ := h.key_of_slot hs
      obtain rfl := h.key_eq hk hk' (hname.trans hname'.symm)
      exact hserves.follows.keyed t e.2 x hx
  | arr vs => exact .sequence
  | _ => exact absurd ha not_mismatch

/-- No key that has a default must be there. -/
theorem LaidOut.required_cons_iff (h : LaidOut r keys) {key : Key Layout} (hkey : key ∈ keys) {isStandard : Json → Prop}
    (hstandard : key.standard = some isStandard) {d : Json} {ms : Members} :
    (∀ s ∈ r.slots, s.required = true → s.name ∈ names ((key.name, d) :: ms)) ↔
      ∀ s ∈ r.slots, s.required = true → s.name ∈ names ms := by
  refine forall₂_congr fun s hs => imp_congr_right fun hrequired => ?_
  simp only [names, List.map_cons, List.mem_cons, or_iff_right_iff_imp]
  intro hname
  obtain ⟨k, hk, hserves⟩ := exists_of_forall₂_left h.serves hs
  obtain rfl := h.key_eq hk hkey (hserves.name ▸ hname)
  rw [hserves.required, hstandard] at hrequired
  cases hrequired

/-- A default that is written at the front makes no difference. -/
theorem record_standard_iff (h : LaidOut r keys) {key : Key Layout} (hkey : key ∈ keys) {isStandard : Json → Prop}
    (hstandard : key.standard = some isStandard) {d : Json} (hd : isStandard d) {ms : Members}
    (hnew : key.name ∉ names ms) {rest : Option Json} {a : ρ} :
    Source.record r (⟨t, .obj ((key.name, d) :: ms) rest⟩ : Input) = .ok a ↔
      Source.record r (⟨t, .obj ms rest⟩ : Input) = .ok a := by
  obtain ⟨s, hs, hserves⟩ := h.slot_of_key hkey
  obtain ⟨x, hx, hstart⟩ := hserves.standard _ hstandard d hd t
  have hputs : Puts r t (key.name, d) (s.store x) := ⟨s, hs, x, hx, rfl⟩
  rw [record_obj_eq_ok, record_obj_eq_ok, h.required_cons_iff hkey hstandard]
  refine and_congr_right fun _ => and_congr ?_ (and_congr_right fun _ => ?_)
  · exact List.nodup_cons.trans (and_iff_right hnew)
  · constructor
    · rintro ⟨_, hus, rfl⟩
      obtain ⟨u, us, hu, hrest, rfl⟩ := List.forall₂_cons_left_iff.mp hus
      refine ⟨us, hrest, ?_⟩
      rw [hu.unique hputs]
      exact (congrArg (through us) hstart).symm
    · rintro ⟨us, hus, rfl⟩
      exact ⟨s.store x :: us, .cons hputs hus, congrArg (through us) hstart⟩

theorem record_edit_iff (h : LaidOut r keys) {ms ms' : Members} (hedit : Edit keys ms ms') {rest : Option Json}
    {a : ρ} : Source.record r (⟨t, .obj ms rest⟩ : Input) = .ok a ↔ Source.record r (⟨t, .obj ms' rest⟩ : Input) = .ok a := by
  cases hedit with
  | permuted hperm => exact record_perm_iff h.apart hperm
  | omitted hkey hstandard hd hnew =>
    exact (record_perm_iff h.apart List.perm_middle).trans (record_standard_iff h hkey hstandard hd hnew)

/-- What is put of a member stays the same if what stands under its key is read the same. -/
theorem puts_edited (h : LaidOut r keys) {key : Key Layout} (hkey : key ∈ keys) {v v' : Json}
    (hedit : Edited key.holds v v') (u : ρ → ρ) : Puts r t (key.name, v) u ↔ Puts r t (key.name, v') u := by
  refine exists_congr fun s => and_congr_right fun hs => exists_congr fun x => and_congr_left fun _ => ?_
  obtain ⟨k, hk, hname, hserves⟩ := h.key_of_slot hs
  obtain rfl := h.key_eq hk hkey hname
  exact hserves.follows.edited t v v' hedit x

/-- Reading a record follows the layout of its slots. -/
theorem follows_record (h : LaidOut r keys) : Follows (Source.record r) (.record keys) where
  keyed _ _ _ := keyed_of_record h
  edited t v v' hedit a := by
    cases hedit with
    | here hedit => exact record_edit_iff h hedit
    | @member _ key v v' front back rest hkey hedit =>
      rw [record_obj_eq_ok, record_obj_eq_ok, names_replaced front back key.name v v']
      simp only [forall₂_replace (puts_edited h hkey hedit) front back]

end Record

/-! ## Tables -/

section Tables

variable {α : Type}

/-- A table keeps the order of an object: a key stands where it came first, and has what is read
    of the last value under it. -/
structure InOrder (read : Json → Read α) (ms : Members) (tab : Table α) : Prop where
  keys : tab.keys = addAll [] (names ms)
  last : ∀ key, (tab.get? key).map .ok = (ms.reverse.lookup key).map read

/-- A table is filled with what is read of the members, one after another. -/
theorem puts_eq_ok (read : Json → Read α) {ms : Members} {start tab : Table α} :
    ms.foldlM (fun tab e => return tab.put e.1 (← read e.2)) start = .ok tab ↔
      ∃ xs : List (String × α), List.Forall₂ (fun e x => x.1 = e.1 ∧ read e.2 = .ok x.2) ms xs ∧
        xs.foldl (fun tab x => tab.put x.1 x.2) start = tab := by
  induction ms generalizing start with
  | nil =>
    rw [foldlM_nil_eq_ok]
    simp
  | cons e ms ih =>
    simp only [foldlM_cons_eq_ok, bind_eq_ok, pure_eq_ok, ih, List.forall₂_cons_left_iff]
    constructor
    · rintro ⟨_, ⟨x, hx, rfl⟩, xs, hxs, rfl⟩
      exact ⟨(e.1, x) :: xs, ⟨_, xs, ⟨rfl, hx⟩, hxs, rfl⟩, rfl⟩
    · rintro ⟨_, ⟨⟨_, x⟩, xs, ⟨rfl, hx⟩, hxs, rfl⟩, rfl⟩
      exact ⟨_, ⟨x, hx, rfl⟩, xs, hxs, rfl⟩

theorem lookup_of_forall₂ {read : Json → Read α} {ms : Members} {xs : List (String × α)}
    (h : List.Forall₂ (fun e x => x.1 = e.1 ∧ read e.2 = .ok x.2) ms xs) (key : String) :
    (xs.lookup key).map .ok = (ms.lookup key).map read := by
  induction h with
  | nil => rfl
  | @cons e x _ _ hx _ ih =>
    obtain ⟨hname, hread⟩ := hx
    rw [List.lookup_cons, List.lookup_cons, hname]
    split
    · exact congrArg some hread.symm
    · exact ih

/-- What is read as a table is an object, whose order the table keeps. -/
theorem inOrder_of_table {read : Input → Read α} {t : Bool} {v : Json} {tab : Table α}
    (h : Reading.table read (⟨t, v⟩ : Input) = .ok tab) :
    ∃ ms, v = .obj ms none ∧ InOrder (fun v => read ⟨t, v⟩) ms tab := by
  unfold Reading.table at h
  cases v with
  | obj ms rest =>
    obtain ⟨tab', htab, h⟩ := bind_eq_ok.mp h
    cases rest with
    | some v => cases h
    | none =>
      obtain rfl := pure_eq_ok.mp h
      obtain ⟨xs, hxs, rfl⟩ := (puts_eq_ok fun v => read ⟨t, v⟩).mp htab
      refine ⟨ms, rfl, ⟨?_, fun key => ?_⟩⟩
      · have hnames : xs.map (·.1) = names ms := map_eq_of_forall₂ (hxs.imp fun _ _ h => h.1)
        exact (Table.keys_ofList xs).trans (congrArg _ hnames)
      · exact (congrArg _ (Table.get?_ofList xs key)).trans (lookup_of_forall₂ (List.forall₂_reverse_iff.mpr hxs) key)
  | _ => exact absurd h not_mismatch

end Tables

end Json

end Protograph
