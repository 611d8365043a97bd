/-
  Protograph.Proofs.Claiming — which entities lose a name to another one.

  Names are claimed in the order of the graph, messages before services, in each package by
  itself. An output keeps its names if none of them comes twice or is a name that an earlier
  survivor of the package has (`Fresh`); otherwise it gives way to a conflict about the first
  such name and claims nothing (`Claims`).

  Proved, for every table of outputs:
  - `firstTaken_eq_none`, `firstTaken_eq_some`: what is found is the first name to clash.
  - `claimFrom_append`: what is claimed so far are the names of the survivors so far.
  - `claimNames_first_come`: every entry comes out as the rule says, the survivors of a package
    have all their names to themselves, and other packages make no difference.
-/

import Protograph.Proofs.Outputs
import Protograph.Proofs.Units

namespace Protograph

section Fresh

variable {κ : Type} {seen front back : List κ} {k : κ}

theorem fresh_snoc : Fresh seen (front ++ [k]) ↔ Fresh seen front ∧ k ∉ seen ∧ k ∉ front := by
  unfold Fresh
  simp only [List.nodup_append, List.mem_append, List.mem_singleton, List.nodup_singleton, true_and, or_imp,
    forall_and, forall_eq]
  constructor
  · rintro ⟨⟨hnodup, happart⟩, hfront, hk⟩
    exact ⟨⟨hnodup, hfront⟩, hk, fun hin => happart k hin rfl⟩
  · rintro ⟨⟨hnodup, hfront⟩, hk, hin⟩
    exact ⟨⟨hnodup, fun a ha he => hin (he ▸ ha)⟩, hfront, hk⟩

theorem Fresh.before (h : Fresh seen (front ++ back)) : Fresh seen front :=
  ⟨(List.nodup_append.mp h.1).1, fun k hk => h.2 k (List.mem_append_left _ hk)⟩

/-- A list that is fresh up to a key that is not has no other such key. -/
theorem first_clash_unique {front' back' : List κ} {k' : κ} (h : front ++ k :: back = front' ++ k' :: back')
    (hfront : Fresh seen front) (hk : k ∈ seen ∨ k ∈ front) (hfront' : Fresh seen front') (hk' : k' ∈ seen ∨ k' ∈ front') :
    k = k' := by
  have hno : ∀ {front k}, k ∈ seen ∨ k ∈ front → ¬ Fresh seen (front ++ [k]) := by
    intro front k hclash hfresh
    obtain ⟨_, hseen, hin⟩ := fresh_snoc.mp hfresh
    exact hclash.elim hseen hin
  rcases List.append_eq_append_iff.mp h with ⟨mid, rfl, hrest⟩ | ⟨mid, rfl, hrest⟩
  · cases mid with
    | nil => exact (List.cons.inj hrest).1
    | cons m mid =>
      obtain ⟨rfl, _⟩ := List.cons.inj hrest
      rw [List.append_cons front k mid] at hfront'
      exact absurd hfront'.before (hno hk)
  · cases mid with
    | nil => exact (List.cons.inj hrest).1.symm
    | cons m mid =>
      obtain ⟨rfl, _⟩ := List.cons.inj hrest
      rw [List.append_cons front' k' mid] at hfront
      exact absurd hfront.before (hno hk')

end Fresh

namespace Compilation

/-- The names that the outputs of a package have, in order. -/
def namesIn (outputs : Outputs) (package : String) : List String :=
  (within (survivors outputs) package).flatMap (·.2.names)

/-- What has to become of an entry when names were claimed for those before it: an error
    stays, an output with fresh names stays, and otherwise there is a conflict about the
    first of its names that is taken or comes again. -/
inductive Claims (before : Outputs) : String × Except EntityError EntityOutput →
    String × Except EntityError EntityOutput → Prop
  | failed {e : String} {x : EntityError} : Claims before (e, .error x) (e, .error x)
  | kept {e : String} {o : EntityOutput} : Fresh (namesIn before o.package) o.names →
      Claims before (e, .ok o) (e, .ok o)
  | lost {e name : String} {o : EntityOutput} {front back : List String} : o.names = front ++ name :: back →
      Fresh (namesIn before o.package) front → name ∈ namesIn before o.package ∨ name ∈ front →
      Claims before (e, .ok o) (e, .error (.nameConflict o.package name))

/-- The entry is an output of the package. -/
def isOf (package : String) : String × Except EntityError EntityOutput → Bool
  | (_, .ok o) => o.package = package
  | (_, .error _) => false

/-! ## The first name to clash -/

theorem firstTaken_eq_none {taken names : List String} : firstTaken taken names = none ↔ Fresh taken names := by
  induction names generalizing taken with
  | nil => simp [firstTaken, fresh_nil]
  | cons n names ih =>
    rw [fresh_cons, firstTaken]
    split
    · rename_i hn
      simp [hn]
    · rename_i hn
      simp [hn, ih]

theorem firstTaken_eq_some {taken names : List String} {name : String} (h : firstTaken taken names = some name) :
    ∃ front back, names = front ++ name :: back ∧ Fresh taken front ∧ (name ∈ taken ∨ name ∈ front) := by
  induction names generalizing taken with
  | nil => cases h
  | cons n names ih =>
    rw [firstTaken] at h
    split at h
    · rename_i hn
      cases h
      exact ⟨[], names, rfl, fresh_nil, .inl hn⟩
    · rename_i hn
      obtain ⟨front, back, rfl, hfront, hclash⟩ := ih h
      refine ⟨n :: front, back, rfl, fresh_cons.mpr ⟨hn, hfront⟩, ?_⟩
      rcases hclash with hclash | hclash
      · rcases List.mem_cons.mp hclash with rfl | htaken
        · exact .inr List.mem_cons_self
        · exact .inl htaken
      · exact .inr (List.mem_cons_of_mem _ hclash)

/-- The rule leaves no choice. -/
theorem Claims.unique {before : Outputs} {entry now now' : String × Except EntityError EntityOutput}
    (h : Claims before entry now) (h' : Claims before entry now') : now = now' := by
  have hno : ∀ {o : EntityOutput} {name : String} {front back : List String}, o.names = front ++ name :: back →
      name ∈ namesIn before o.package ∨ name ∈ front → ¬ Fresh (namesIn before o.package) o.names := by
    intro o name front back hnames hclash hfresh
    rw [hnames, List.append_cons] at hfresh
    obtain ⟨_, htaken, hin⟩ := fresh_snoc.mp hfresh.before
    exact hclash.elim htaken hin
  cases h with
  | failed => cases h'; rfl
  | kept hfresh =>
    cases h' with
    | kept _ => rfl
    | lost hnames _ hclash => exact absurd hfresh (hno hnames hclash)
  | lost hnames hfront hclash =>
    cases h' with
    | kept hfresh => exact absurd hfresh (hno hnames hclash)
    | lost hnames' hfront' hclash' =>
      rw [first_clash_unique (hnames.symm.trans hnames') hfront hclash hfront' hclash']

/-! ## One entry after the other -/

/-- The names that an entry claims, with its package. -/
def namesOf : String × Except EntityError EntityOutput → List (String × String)
  | (_, .ok o) => o.names.map (o.package, ·)
  | (_, .error _) => []

/-- What claiming makes of one entry. -/
def claimEntry (claimed : List (String × String)) :
    String × Except EntityError EntityOutput → String × Except EntityError EntityOutput
  | (e, .error x) => (e, .error x)
  | (e, .ok o) => match firstTaken ((claimed.filter (·.1 = o.package)).map (·.2)) o.names with
    | some name => (e, .error (.nameConflict o.package name))
    | none => (e, .ok o)

theorem claimFrom_cons (claimed : List (String × String)) (entry : String × Except EntityError EntityOutput)
    (rest : Outputs) : claimFrom claimed (entry :: rest) =
      claimEntry claimed entry :: claimFrom (claimed ++ namesOf (claimEntry claimed entry)) rest := by
  obtain ⟨e, r⟩ := entry
  cases r with
  | error x => simp [claimFrom, claimEntry, namesOf]
  | ok o =>
    rw [claimFrom, claimEntry]
    cases firstTaken ((claimed.filter (·.1 = o.package)).map (·.2)) o.names with
    | none => rfl
    | some name => simp [namesOf]

theorem claimFrom_append (claimed : List (String × String)) (front back : Outputs) :
    claimFrom claimed (front ++ back) =
      claimFrom claimed front ++ claimFrom (claimed ++ (claimFrom claimed front).flatMap namesOf) back := by
  induction front generalizing claimed with
  | nil => simp [claimFrom]
  | cons entry front ih =>
    rw [List.cons_append, claimFrom_cons, claimFrom_cons, ih]
    simp only [List.cons_append, List.flatMap_cons, List.append_assoc]

theorem namesIn_append (front back : Outputs) (package : String) :
    namesIn (front ++ back) package = namesIn front package ++ namesIn back package := by
  simp [namesIn, within, survivors]

/-- What is claimed in a package are the names of its survivors. -/
theorem claimed_eq_namesIn (outputs : Outputs) (package : String) :
    ((outputs.flatMap namesOf).filter (·.1 = package)).map (·.2) = namesIn outputs package := by
  induction outputs with
  | nil => rfl
  | cons entry outputs ih =>
    rw [List.flatMap_cons, List.filter_append, List.map_append, ih, ← List.singleton_append, namesIn_append]
    congr 1
    obtain ⟨e, r⟩ := entry
    cases r with
    | error x => rfl
    | ok o =>
      by_cases hp : o.package = package
      · simp [namesOf, namesIn, within, survivors, hp, List.filter_map, Function.comp_def]
      · simp [namesOf, namesIn, within, survivors, hp]

theorem claims_claimEntry (before : Outputs) (entry : String × Except EntityError EntityOutput) :
    Claims before entry (claimEntry (before.flatMap namesOf) entry) := by
  obtain ⟨e, r⟩ := entry
  cases r with
  | error x => exact .failed
  | ok o =>
    simp only [claimEntry, claimed_eq_namesIn]
    split
    · rename_i name hname
      obtain ⟨front, back, hnames, hfront, hclash⟩ := firstTaken_eq_some hname
      exact .lost hnames hfront hclash
    · rename_i hnone
      exact .kept (firstTaken_eq_none.mp hnone)

/-- An entry is claimed for after those before it, whatever comes later. -/
theorem claimNames_split (front back : Outputs) (entry : String × Except EntityError EntityOutput) :
    ∃ now rest, claimNames (front ++ entry :: back) = claimNames front ++ now :: rest ∧
      Claims (claimNames front) entry now := by
  unfold claimNames
  rw [claimFrom_append, claimFrom_cons]
  exact ⟨_, _, rfl, by simpa using claims_claimEntry (claimFrom [] front) entry⟩

theorem claimNames_snoc (front : Outputs) (entry : String × Except EntityError EntityOutput) :
    ∃ now, claimNames (front ++ [entry]) = claimNames front ++ [now] ∧ Claims (claimNames front) entry now := by
  unfold claimNames
  rw [claimFrom_append, claimFrom_cons]
  exact ⟨_, rfl, by simpa using claims_claimEntry (claimFrom [] front) entry⟩

/-! ## Survivors -/

/-- The survivors of a package have all their names to themselves. -/
theorem nodup_namesIn_claimNames (outputs : Outputs) (package : String) :
    (namesIn (claimNames outputs) package).Nodup := by
  induction outputs using List.reverseRecOn with
  | nil => exact List.nodup_nil
  | append_singleton outputs entry ih =>
    obtain ⟨now, hnow, hclaims⟩ := claimNames_snoc outputs entry
    rw [hnow, namesIn_append]
    cases hclaims with
    | failed => simpa [namesIn, within, survivors] using ih
    | lost _ _ _ => simpa [namesIn, within, survivors] using ih
    | @kept e o hfresh =>
      by_cases hp : o.package = package
      · subst hp
        have hown : namesIn [(e, .ok o)] o.package = o.names := by simp [namesIn, within, survivors]
        rw [hown, List.nodup_append]
        exact ⟨ih, hfresh.1, fun a ha b hb he => hfresh.2 b hb (he ▸ ha)⟩
      · simpa [namesIn, within, survivors, hp] using ih

/-! ## Outputs without clashes -/

theorem mem_namesIn {outputs : Outputs} {package name : String} :
    name ∈ namesIn outputs package ↔ ∃ e o, (e, .ok o) ∈ outputs ∧ o.package = package ∧ name ∈ o.names := by
  unfold namesIn within
  simp only [List.mem_flatMap, List.mem_filter, decide_eq_true_eq, Prod.exists, mem_survivors, and_assoc]

/-- Outputs that have all their names to themselves lose none. -/
theorem claimNames_of_nodup {outputs : Outputs} (h : ∀ package, (namesIn outputs package).Nodup) :
    claimNames outputs = outputs := by
  induction outputs using List.reverseRecOn with
  | nil => rfl
  | append_singleton outputs entry ih =>
    simp only [namesIn_append, List.nodup_append] at h
    obtain ⟨now, hnow, hclaims⟩ := claimNames_snoc outputs entry
    rw [ih fun package => (h package).1] at hnow hclaims
    have hkept : Claims outputs entry entry := by
      obtain ⟨e, r⟩ := entry
      cases r with
      | error x => exact .failed
      | ok o =>
        have hown : namesIn [(e, .ok o)] o.package = o.names := by simp [namesIn, within, survivors]
        obtain ⟨_, hnodup, hfree⟩ := h o.package
        rw [hown] at hnodup hfree
        exact .kept ⟨hnodup, fun name hname htaken => hfree name htaken name hname rfl⟩
    rw [hnow, hclaims.unique hkept]

/-- No two outputs of a package have a name in common. -/
def NamesApart (outputs : Outputs) : Prop :=
  (survivors outputs).Pairwise fun a b => a.2.package = b.2.package → ∀ name ∈ a.2.names, name ∉ b.2.names

instance (outputs : Outputs) : Decidable (NamesApart outputs) :=
  inferInstanceAs (Decidable (List.Pairwise (fun a b : String × EntityOutput =>
    a.2.package = b.2.package → ∀ name ∈ a.2.names, name ∉ b.2.names) (survivors outputs)))

/-- An entry whose names no one else has is claimed for as if it came first. -/
theorem Claims.of_apart {before : Outputs} {entry now : String × Except EntityError EntityOutput}
    (h : Claims [] entry now) (hno : ∀ e o, entry = (e, .ok o) → ∀ name ∈ o.names, name ∉ namesIn before o.package) :
    Claims before entry now := by
  cases h with
  | failed => exact .failed
  | kept hfresh => exact .kept ⟨hfresh.1, hno _ _ rfl⟩
  | @lost e name o front back hnames hfront hclash =>
    have hfree : ∀ n ∈ front, n ∉ namesIn before o.package := by
      intro n hn
      exact hno _ _ rfl n (hnames ▸ List.mem_append_left _ hn)
    rcases hclash with hnone | hin
    · cases hnone
    · exact .lost hnames ⟨hfront.1, hfree⟩ (.inr hin)

/-- Where no two outputs of a package have a name in common, names are claimed for each entry
    by itself. -/
theorem claimNames_of_apart {outputs : Outputs} (h : NamesApart outputs) :
    claimNames outputs = outputs.map (claimEntry []) := by
  induction outputs using List.reverseRecOn with
  | nil => rfl
  | append_singleton outputs entry ih =>
    have hsplit : survivors (outputs ++ [entry]) = survivors outputs ++ survivors [entry] := List.filterMap_append
    unfold NamesApart at h
    rw [hsplit, List.pairwise_append] at h
    obtain ⟨hfront, _, hcross⟩ := h
    have hno : ∀ e o, entry = (e, .ok o) → ∀ name ∈ o.names, name ∉ namesIn (claimNames outputs) o.package := by
      rintro e o rfl name hname htaken
      obtain ⟨a, o', ho', hpackage, hname'⟩ := mem_namesIn.mp htaken
      obtain ⟨_, hbuilt, hclaimed⟩ := exists_of_forall₂_right (claimed_claimNames outputs) ho'
      cases hclaimed
      exact hcross (a, o') (mem_survivors.mpr hbuilt) (e, o) (mem_survivors.mpr List.mem_cons_self) hpackage name hname'
        hname
    obtain ⟨now, hnow, hclaims⟩ := claimNames_snoc outputs entry
    have hentry : now = claimEntry [] entry := hclaims.unique ((claims_claimEntry [] entry).of_apart hno)
    rw [hnow, ih hfront, List.map_append, List.map_singleton, hentry]

/-! ## Other packages -/

/-- What became of the outputs of a package. -/
def outcomesOf (package : String) (outputs now : Outputs) : Outputs :=
  ((outputs.zip now).filter fun pair => isOf package pair.1).map (·.2)

theorem outcomesOf_snoc {outputs now : Outputs} (hlength : outputs.length = now.length) (package : String)
    (a b : String × Except EntityError EntityOutput) :
    outcomesOf package (outputs ++ [a]) (now ++ [b]) =
      outcomesOf package outputs now ++ if isOf package a then [b] else [] := by
  unfold outcomesOf
  rw [List.zip_append hlength, List.filter_append, List.map_append]
  congr 1
  by_cases ha : isOf package a <;> simp [ha]

/-- The survivors of a package are all among what became of its outputs. -/
theorem namesIn_outcomesOf {outputs now : Outputs} (h : List.Forall₂ Claimed outputs now) (package : String) :
    namesIn (outcomesOf package outputs now) package = namesIn now package := by
  induction h with
  | nil => rfl
  | cons hab _ ih =>
    cases hab with
    | failed => simpa [outcomesOf, isOf, namesIn, within, survivors] using ih
    | taken | kept =>
      rename_i o
      by_cases hp : o.package = package <;> simpa [outcomesOf, isOf, namesIn, within, survivors, hp] using ih

/-- The rule looks at the names taken in the package of the entry and at no others. -/
theorem Claims.congr {before before' : Outputs} {package : String} {entry now : String × Except EntityError EntityOutput}
    (h : Claims before entry now) (hentry : isOf package entry = true)
    (hnames : namesIn before package = namesIn before' package) : Claims before' entry now := by
  cases h with
  | failed => exact .failed
  | kept hfresh =>
    obtain rfl := of_decide_eq_true hentry
    exact .kept (hnames ▸ hfresh)
  | lost ho hfront hclash =>
    obtain rfl := of_decide_eq_true hentry
    exact .lost ho (hnames ▸ hfront) (hnames ▸ hclash)

/-- What becomes of the outputs of a package is what becomes of them by themselves. -/
theorem claimNames_filter (outputs : Outputs) (package : String) :
    claimNames (outputs.filter (isOf package)) = outcomesOf package outputs (claimNames outputs) := by
  induction outputs using List.reverseRecOn with
  | nil => rfl
  | append_singleton outputs entry ih =>
    obtain ⟨now, hnow, hclaims⟩ := claimNames_snoc outputs entry
    rw [hnow, outcomesOf_snoc (claimed_claimNames outputs).length_eq, List.filter_append, ← ih]
    by_cases hentry : isOf package entry = true
    · obtain ⟨now', hnow', hclaims'⟩ := claimNames_snoc (outputs.filter (isOf package)) entry
      have hsame : namesIn (claimNames outputs) package = namesIn (claimNames (outputs.filter (isOf package))) package := by
        rw [ih, namesIn_outcomesOf (claimed_claimNames outputs)]
      rw [List.filter_cons_of_pos hentry, List.filter_nil, hnow', if_pos hentry,
        hclaims'.unique (hclaims.congr hentry hsame)]
    · rw [List.filter_cons_of_neg hentry, List.filter_nil, if_neg hentry, List.append_nil, List.append_nil]

/-! ## Tables -/

/-- Names go to whoever comes first. Each entry comes out as the rule says after the entries
    before it, and the rule leaves no choice; the survivors of a package have all their names
    to themselves; and what becomes of the outputs of a package is what becomes of them where
    there is no other package. -/
theorem claimNames_first_come :
    (∀ (front back : Outputs) (entry : String × Except EntityError EntityOutput), ∃ now rest,
      claimNames (front ++ entry :: back) = claimNames front ++ now :: rest ∧ rest.length = back.length ∧
        Claims (claimNames front) entry now ∧ ∀ other, Claims (claimNames front) entry other → other = now) ∧
    (∀ (outputs : Outputs) (package : String), (namesIn (claimNames outputs) package).Nodup) ∧
    ∀ (outputs : Outputs) (package : String),
      claimNames (outputs.filter (isOf package)) = outcomesOf package outputs (claimNames outputs) := by
  refine ⟨?_, nodup_namesIn_claimNames, claimNames_filter⟩
  intro front back entry
  obtain ⟨now, rest, hsplit, hclaims⟩ := claimNames_split front back entry
  refine ⟨now, rest, hsplit, ?_, hclaims, fun other hother => hother.unique hclaims⟩
  have hwhole := (claimed_claimNames (front ++ entry :: back)).length_eq
  have hfront := (claimed_claimNames front).length_eq
  rw [hsplit] at hwhole
  simp only [List.length_append, List.length_cons] at hwhole
  omega

/-- The second entity wants a name of the first one. The third would too, but its package is
    another. -/
example :
    let output (package : String) (names : List String) : Except EntityError EntityOutput :=
      .ok { package, messages := names.map ({ name := · }), services := [], references := {} }
    failedNames (claimNames [("User", output "shop" ["User", "ListUserRequest"]),
      ("ListUserRequest", output "shop" ["ListUserRequest"]), ("Twin", output "twins" ["Twin", "User"])]) =
        ["ListUserRequest"] := by
  decide

end Compilation

end Protograph
