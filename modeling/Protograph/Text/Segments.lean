/-
  Protograph.Text.Segments — cutting a text at a separator and at its blank margins.

  `pieces` and `split` cut at every separator (`pieces_append`, `split_append`) and leave none
  (`not_mem_of_mem_pieces`), `cutFirst` and `cutLast` cut at one of them; what is cut at the last
  can be put together again (`cutLast_eq_some`, `cutLast_append`), and a text in which nothing is
  found has no separator (`cutFirst_eq_none`, `cutLast_eq_none`). A name
  without its dots in front begins with none (`startsWithDot_withoutLeadingDots`), and so does
  a dotted one if what stands in front of the dot does (`startsWithDot_dotted_iff`).
-/

namespace Protograph.Text

/-- The stretches between separators, at least one; neighbours are one separator apart. -/
def pieces (sep : Char) : List Char → List (List Char)
  | [] => [[]]
  | c :: cs =>
    if c = sep then [] :: pieces sep cs
    else match pieces sep cs with
      | [] => [[c]]
      | p :: ps => (c :: p) :: ps

/-- What stands before and after the first separator. -/
def cutFirst (sep : Char) : List Char → Option (List Char × List Char)
  | [] => none
  | c :: cs =>
    if c = sep then some ([], cs)
    else (cutFirst sep cs).map fun (a, b) => (c :: a, b)

/-- What stands before and after the last separator. -/
def cutLast (sep : Char) : List Char → Option (List Char × List Char)
  | [] => none
  | c :: cs => match cutLast sep cs with
    | some (a, b) => some (c :: a, b)
    | none => if c = sep then some ([], cs) else none

theorem pieces_ne_nil (sep : Char) (t : List Char) : pieces sep t ≠ [] := by
  cases t with
  | nil => simp [pieces]
  | cons c cs =>
    unfold pieces
    split
    · simp
    · split <;> simp

theorem pieces_of_not_mem {sep : Char} {t : List Char} (h : sep ∉ t) : pieces sep t = [t] := by
  induction t with
  | nil => rfl
  | cons c cs ih =>
    obtain ⟨hc, hcs⟩ : sep ≠ c ∧ sep ∉ cs := by simpa using h
    rw [pieces, if_neg (Ne.symm hc), ih hcs]

/-- The stretches before a separator, then those after it. -/
theorem pieces_append (sep : Char) (a b : List Char) : pieces sep (a ++ sep :: b) = pieces sep a ++ pieces sep b := by
  induction a with
  | nil => simp [pieces]
  | cons c a ih =>
    rw [List.cons_append, pieces, pieces, ih]
    split
    · rfl
    · cases ha : pieces sep a with
      | nil => exact absurd ha (pieces_ne_nil sep a)
      | cons p ps => rfl

theorem not_mem_of_mem_pieces {sep : Char} {t p : List Char} (h : p ∈ pieces sep t) : sep ∉ p := by
  induction t generalizing p with
  | nil =>
    rw [pieces, List.mem_singleton] at h
    simp [h]
  | cons c cs ih =>
    unfold pieces at h
    split at h
    · rcases List.mem_cons.mp h with rfl | h
      · simp
      · exact ih h
    · rename_i hc
      split at h
      · rw [List.mem_singleton.mp h, List.mem_singleton]
        exact Ne.symm hc
      · rename_i q ps hps
        rcases List.mem_cons.mp h with rfl | h
        · rw [List.mem_cons, not_or]
          exact ⟨Ne.symm hc, ih (by simp [hps])⟩
        · exact ih (by simp [hps, h])

theorem mem_of_mem_pieces {sep c : Char} {t p : List Char} (h : p ∈ pieces sep t) (hc : c ∈ p) : c ∈ t := by
  induction t generalizing p with
  | nil =>
    rw [pieces, List.mem_singleton] at h
    rwa [h] at hc
  | cons d t ih =>
    unfold pieces at h
    split at h
    · rcases List.mem_cons.mp h with rfl | h
      · cases hc
      · exact List.mem_cons_of_mem _ (ih h hc)
    · split at h
      · rw [List.mem_singleton.mp h, List.mem_singleton] at hc
        exact hc ▸ List.mem_cons_self
      · rename_i q ps hps
        rcases List.mem_cons.mp h with rfl | h
        · rcases List.mem_cons.mp hc with rfl | hc
          · exact List.mem_cons_self
          · exact List.mem_cons_of_mem _ (ih (by simp [hps]) hc)
        · exact List.mem_cons_of_mem _ (ih (by simp [hps, h]) hc)

/-- A text without separators goes to the last stretch of what it is put behind. -/
theorem exists_pieces_append {sep : Char} (a : List Char) {b : List Char} (h : sep ∉ b) :
    ∃ front last, pieces sep a = front ++ [last] ∧ pieces sep (a ++ b) = front ++ [last ++ b] := by
  induction a with
  | nil => exact ⟨[], [], rfl, by rw [List.nil_append, pieces_of_not_mem h]; rfl⟩
  | cons c a ih =>
    obtain ⟨front, last, ha, hab⟩ := ih
    rw [List.cons_append, pieces, pieces, ha, hab]
    split
    · exact ⟨[] :: front, last, rfl, rfl⟩
    · cases front with
      | nil => exact ⟨[], c :: last, rfl, rfl⟩
      | cons p front => exact ⟨(c :: p) :: front, last, rfl, rfl⟩

theorem cutFirst_eq_none {sep : Char} {t : List Char} : cutFirst sep t = none ↔ sep ∉ t := by
  induction t with
  | nil => simp [cutFirst]
  | cons c cs ih =>
    by_cases hc : c = sep
    · simp [cutFirst, hc]
    · simp [cutFirst, hc, ih, Ne.symm hc]

theorem cutLast_eq_none {sep : Char} {t : List Char} : cutLast sep t = none ↔ sep ∉ t := by
  induction t with
  | nil => simp [cutLast]
  | cons c cs ih =>
    unfold cutLast
    split
    · rename_i h
      have : sep ∈ cs := by
        rw [← Decidable.not_not (p := sep ∈ cs), ← ih]; simp [h]
      simp [this]
    · rename_i h
      have : sep ∉ cs := ih.1 h
      by_cases hc : c = sep
      · simp [hc]
      · simp [hc, this, Ne.symm hc]

theorem cutLast_eq_some {sep : Char} {t a b : List Char} (h : cutLast sep t = some (a, b)) :
    t = a ++ sep :: b ∧ sep ∉ b := by
  induction t generalizing a b with
  | nil => simp [cutLast] at h
  | cons c cs ih =>
    unfold cutLast at h
    split at h
    · rename_i x y hxy
      obtain ⟨rfl, hy⟩ := ih hxy
      obtain ⟨rfl, rfl⟩ : c :: x = a ∧ y = b := by simpa using h
      exact ⟨rfl, hy⟩
    · rename_i hn
      split at h
      · obtain ⟨rfl, rfl⟩ : [] = a ∧ cs = b := by simpa using h
        rename_i hc
        exact ⟨by simp [hc], cutLast_eq_none.1 hn⟩
      · simp at h

theorem cutLast_append {sep : Char} {a b : List Char} (h : sep ∉ b) : cutLast sep (a ++ sep :: b) = some (a, b) := by
  induction a with
  | nil => simp [cutLast, cutLast_eq_none.2 h]
  | cons c a ih => simp [cutLast, ih]

/-- The white space of Unicode: the ASCII blanks, no-break and typographic spaces,
    and the line and paragraph separators. -/
def isBlank (c : Char) : Bool :=
  let n := c.toNat
  (0x09 ≤ n && n ≤ 0x0D) || n == 0x20 || n == 0x85 || n == 0xA0 || n == 0x1680 ||
  (0x2000 ≤ n && n ≤ 0x200A) || n == 0x2028 || n == 0x2029 || n == 0x202F || n == 0x205F || n == 0x3000

def dropBlanks (t : List Char) : List Char := t.dropWhile isBlank

/-- The text without the blanks at its two ends. -/
def trimmed (t : List Char) : List Char := (dropBlanks (dropBlanks t).reverse).reverse

def split (sep : Char) (s : String) : List String := (pieces sep s.toList).map String.ofList

theorem split_of_not_mem {sep : Char} {s : String} (h : sep ∉ s.toList) : split sep s = [s] := by
  rw [split, pieces_of_not_mem h, List.map_singleton, String.ofList_toList]

theorem not_mem_of_mem_split {sep : Char} {s part : String} (h : part ∈ split sep s) : sep ∉ part.toList := by
  obtain ⟨p, hp, rfl⟩ := List.mem_map.mp h
  rw [String.toList_ofList]
  exact not_mem_of_mem_pieces hp

theorem mem_of_mem_split {sep c : Char} {s part : String} (h : part ∈ split sep s) (hc : c ∈ part.toList) : c ∈ s.toList := by
  obtain ⟨p, hp, rfl⟩ := List.mem_map.mp h
  rw [String.toList_ofList] at hc
  exact mem_of_mem_pieces hp hc

theorem split_append {sep : Char} {between : String} (h : between.toList = [sep]) (a b : String) :
    split sep (a ++ between ++ b) = split sep a ++ split sep b := by
  simp only [split, String.toList_append, h, List.append_assoc, List.singleton_append, pieces_append, List.map_append]

def trim (s : String) : String := String.ofList (trimmed s.toList)

/-- The text in lower case, as far as ASCII letters go. -/
def asciiLower (s : String) : String := String.ofList (s.toList.map Char.toLower)

/-- The text in upper case, as far as ASCII letters go. -/
def asciiUpper (s : String) : String := String.ofList (s.toList.map Char.toUpper)

/-- The parts of a dotted name before and after its last dot. -/
def cutLastDot (s : String) : Option (String × String) :=
  (cutLast '.' s.toList).map fun (a, b) => (String.ofList a, String.ofList b)

/-- The parts of a dotted name before and after its first dot. -/
def cutFirstDot (s : String) : Option (String × String) :=
  (cutFirst '.' s.toList).map fun (a, b) => (String.ofList a, String.ofList b)

def startsWithDot (s : String) : Bool := s.toList.head? == some '.'

/-- The name without its first character, if that is a dot. -/
def withoutLeadingDot (s : String) : String :=
  match s.toList with
  | '.' :: cs => String.ofList cs
  | _ => s

/-- The name without any of its leading dots. -/
def withoutLeadingDots (s : String) : String := String.ofList (s.toList.dropWhile (· == '.'))

theorem startsWithDot_iff {s : String} : startsWithDot s = true ↔ ∃ rest, s = "." ++ rest := by
  unfold startsWithDot
  constructor
  · intro h
    cases hs : s.toList with
    | nil => simp [hs] at h
    | cons c cs =>
      obtain rfl : c = '.' := by simpa [hs] using h
      exact ⟨String.ofList cs, by rw [← String.toList_inj, hs]; simp⟩
  · intro h
    obtain ⟨rest, rfl⟩ := h
    simp

theorem startsWithDot_append {front : String} (h : front ≠ "") (rest : String) :
    startsWithDot (front ++ rest) = startsWithDot front := by
  unfold startsWithDot
  cases hfront : front.toList with
  | nil => exact absurd (by simpa using hfront) h
  | cons c cs => simp [hfront]

/-- A dotted name begins with no dot if and only if something stands in front of its dot that
    begins with none. -/
theorem startsWithDot_dotted_iff (front last : String) :
    startsWithDot (front ++ "." ++ last) = false ↔ front ≠ "" ∧ startsWithDot front = false := by
  rw [String.append_assoc]
  by_cases hfront : front = ""
  · subst hfront
    simp [startsWithDot]
  · rw [startsWithDot_append hfront]
    exact (and_iff_right hfront).symm

theorem withoutLeadingDots_of_relative {s : String} (h : startsWithDot s = false) : withoutLeadingDots s = s := by
  unfold startsWithDot at h
  unfold withoutLeadingDots
  cases hs : s.toList with
  | nil => rw [← String.toList_inj, hs]; simp
  | cons c cs =>
    have hc : (c == '.') = false := by simpa [hs] using h
    rw [List.dropWhile_cons_of_neg (by simp [hc]), ← hs, String.ofList_toList]

theorem startsWithDot_withoutLeadingDots (s : String) : startsWithDot (withoutLeadingDots s) = false := by
  unfold startsWithDot withoutLeadingDots
  rw [String.toList_ofList]
  induction s.toList with
  | nil => rfl
  | cons c cs ih =>
    rw [List.dropWhile_cons]
    split
    · exact ih
    · rename_i hc
      simpa using hc

end Protograph.Text
