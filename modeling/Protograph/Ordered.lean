/-
  Protograph.Ordered — tables and sets that remember the order in which things came in,
  as lists without repetitions. A key put again keeps its place and takes the new value;
  a member added again changes nothing.
-/

namespace Protograph

/-- Keys and values, in the order in which the keys first came. -/
abbrev Table (α : Type) := List (String × α)

namespace Table

variable {α : Type}

def get? (t : Table α) (k : String) : Option α := t.lookup k

def has (t : Table α) (k : String) : Bool := t.any (·.1 == k)

def keys (t : Table α) : List String := t.map (·.1)

def put (t : Table α) (k : String) (v : α) : Table α :=
  if t.has k then t.map fun e => if e.1 = k then (k, v) else e else t ++ [(k, v)]

def ofList (entries : List (String × α)) : Table α := entries.foldl (fun t e => t.put e.1 e.2) []

theorem has_iff {t : Table α} {k : String} : t.has k = true ↔ k ∈ t.keys := by
  simp [has, keys]

theorem keys_put (t : Table α) (k : String) (v : α) :
    (t.put k v).keys = if k ∈ t.keys then t.keys else t.keys ++ [k] := by
  unfold put
  by_cases h : t.has k = true
  · have hk : k ∈ t.keys := has_iff.1 h
    simp only [h, hk, if_true]
    unfold keys
    rw [List.map_map]
    apply List.map_congr_left
    intro e _
    by_cases he : e.1 = k <;> simp [he]
  · have hk : k ∉ t.keys := fun hk => h (has_iff.2 hk)
    rw [if_neg h, if_neg hk]
    simp [keys]

end Table

/-- Adds a member at the end unless it is there already. -/
def addNew [DecidableEq α] (s : List α) (x : α) : List α := if x ∈ s then s else s ++ [x]

/-- Adds the members of a list one after another. -/
def addAll [DecidableEq α] (s xs : List α) : List α := xs.foldl addNew s

theorem mem_addNew [DecidableEq α] {s : List α} {x y : α} : y ∈ addNew s x ↔ y ∈ s ∨ y = x := by
  unfold addNew
  split
  · rename_i hx
    exact ⟨Or.inl, fun h => h.elim id (fun e => e ▸ hx)⟩
  · simp

theorem mem_addAll [DecidableEq α] {s xs : List α} {y : α} : y ∈ addAll s xs ↔ y ∈ s ∨ y ∈ xs := by
  induction xs generalizing s with
  | nil => simp [addAll]
  | cons x xs ih =>
    have : addAll s (x :: xs) = addAll (addNew s x) xs := rfl
    rw [this, ih, mem_addNew, List.mem_cons, or_assoc]

theorem nodup_addNew [DecidableEq α] {s : List α} (h : s.Nodup) (x : α) : (addNew s x).Nodup := by
  unfold addNew
  split
  · exact h
  · rename_i hx
    rw [List.nodup_append]
    exact ⟨h, by simp, by simpa using fun a ha => by rintro rfl; exact hx ha⟩

theorem nodup_addAll [DecidableEq α] {s : List α} (h : s.Nodup) (xs : List α) : (addAll s xs).Nodup := by
  induction xs generalizing s with
  | nil => exact h
  | cons x xs ih => exact ih (nodup_addNew h x)

end Protograph
