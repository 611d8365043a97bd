/-
  Protograph.Proofs.Words — what the words of an identifier are made of.

  Words are not empty, and together they are the letters and digits of the identifier
  (`flatten_words`); no change of case makes a dot of one of these. So a name in camel case has
  no dot (`dot_not_mem_upperCamel`), whatever it was made from. Across a character that is
  neither a letter nor a digit there are no words (`words_append`), and a word in small letters
  and digits stays as it is in snake case (`snake_of_plain`).
-/

import Protograph.Text.Words

namespace Protograph.Text

/-! ## Letters and digits -/

theorem flatten_stretches (t : List Char) : (stretches t).flatten = t.filter isWordChar := by
  induction t with
  | nil => rfl
  | cons c t ih =>
    unfold stretches
    cases hc : isWordChar c with
    | false => simpa [hc] using ih
    | true =>
      rw [List.filter_cons_of_pos hc, ← ih]
      cases stretches t <;> rfl

theorem flatten_cutWords (run : Run) (word cs : List Char) : (cutWords run word cs).flatten = word.reverse ++ cs := by
  induction cs generalizing run word with
  | nil =>
    unfold cutWords
    cases word <;> simp
  | cons c cs ih =>
    unfold cutWords
    split
    · rename_i hlast
      rw [List.head?_eq_none_iff.mp hlast]
      simp
    · split
      · simp [ih]
      · split <;> simp [ih]

/-- The words are all the letters and digits, in order. -/
theorem flatten_words (s : String) : (words s).flatten = s.toList.filter isWordChar := by
  have hcut : ∀ p, (cutWords .start [] p).flatten = p := fun p => flatten_cutWords .start [] p
  rw [words, List.flatMap_def, List.flatten_flatten, List.map_map, ← flatten_stretches]
  simp only [Function.comp_def, hcut, List.map_id']

theorem isWordChar_of_words {s : String} {w : List Char} (hw : w ∈ words s) : ∀ c ∈ w, isWordChar c = true := by
  intro c hc
  have hin : c ∈ (words s).flatten := List.mem_flatten.mpr ⟨w, hw, hc⟩
  rw [flatten_words] at hin
  exact (List.mem_filter.mp hin).2

/-- No word is empty: when capitals have come, there is a word under way. -/
theorem ne_nil_of_cutWords {run : Run} {word cs : List Char} (hrun : run = .upper → word ≠ []) {w : List Char}
    (hw : w ∈ cutWords run word cs) : w ≠ [] := by
  induction cs generalizing run word with
  | nil =>
    unfold cutWords at hw
    split at hw
    · cases hw
    · rename_i hword
      rw [List.mem_singleton.mp hw]
      simpa using hword
  | cons c cs ih =>
    unfold cutWords at hw
    split at hw
    · rw [List.mem_singleton.mp hw]
      simp
    · split at hw
      · rcases List.mem_cons.mp hw with rfl | hw
        · simp
        · exact ih (fun h => by cases h) hw
      · split at hw
        · rename_i hupper
          rcases List.mem_cons.mp hw with rfl | hw
          · have hcapitals : run = .upper := by simp_all
            simpa using hrun hcapitals
          · exact ih (fun h => by cases h) hw
        · exact ih (fun _ => by simp) hw

theorem ne_nil_of_words {s : String} {w : List Char} (hw : w ∈ words s) : w ≠ [] := by
  obtain ⟨p, _, hw⟩ := List.mem_flatMap.mp hw
  exact ne_nil_of_cutWords (fun h => by cases h) hw

/-! ## Names put together -/

theorem stretches_ne_nil (t : List Char) : stretches t ≠ [] := by
  cases t with
  | nil => simp [stretches]
  | cons c t =>
    unfold stretches
    split
    · simp
    · split <;> simp

theorem stretches_append {sep : Char} (hsep : isWordChar sep = false) (a b : List Char) :
    stretches (a ++ sep :: b) = stretches a ++ stretches b := by
  induction a with
  | nil => simp [stretches, hsep]
  | cons c a ih =>
    rw [List.cons_append, stretches, stretches, ih]
    split
    · rfl
    · cases ha : stretches a with
      | nil => exact absurd ha (stretches_ne_nil a)
      | cons p ps => rfl

/-- The words before a character that is neither a letter nor a digit, then those after it. -/
theorem words_append {between : String} {sep : Char} (h : between.toList = [sep]) (hsep : isWordChar sep = false)
    (a b : String) : words (a ++ between ++ b) = words a ++ words b := by
  simp only [words, String.toList_append, h, List.append_assoc, List.singleton_append, stretches_append hsep,
    List.flatMap_append]

theorem upperCamel_append {between : String} {sep : Char} (h : between.toList = [sep]) (hsep : isWordChar sep = false)
    (a b : String) : upperCamel (a ++ between ++ b) = upperCamel a ++ upperCamel b := by
  rw [upperCamel, words_append h hsep, List.flatMap_append, String.ofList_append]
  rfl

/-! ## One word -/

theorem stretches_of_word {t : List Char} (h : ∀ c ∈ t, isWordChar c = true) : stretches t = [t] := by
  induction t with
  | nil => rfl
  | cons c t ih =>
    obtain ⟨hc, ht⟩ := List.forall_mem_cons.mp h
    rw [stretches, ih ht, hc]
    rfl

/-- Where there are no capitals a stretch is one word. -/
theorem cutWords_of_no_upper {cs : List Char} (h : ∀ c ∈ cs, isUpper c = false) (run : Run) {word : List Char}
    (hne : word ++ cs ≠ []) : cutWords run word cs = [word.reverse ++ cs] := by
  induction cs generalizing run word with
  | nil =>
    unfold cutWords
    simp_all
  | cons c cs ih =>
    obtain ⟨hc, hcs⟩ := List.forall_mem_cons.mp h
    have hrest : cutWords (run.next c) (c :: word) cs = [(c :: word).reverse ++ cs] := ih hcs _ (by simp)
    unfold cutWords
    cases cs with
    | nil => simp
    | cons d cs =>
      have hd : isUpper d = false := hcs d List.mem_cons_self
      simp only [List.head?_cons, hc, hd, Bool.and_false, Bool.false_and, Bool.false_eq_true, if_false]
      simpa using hrest

theorem toNat_lt_of_isAlphanum {c : Char} (h : c.isAlphanum = true) : c.toNat < 0x80 := by
  have hranges : (decide (65 ≤ c.val ∧ c.val ≤ 90) || (decide (97 ≤ c.val) && decide (c.val ≤ 122)) ||
      (decide (48 ≤ c.val) && decide (c.val ≤ 57))) = true := h
  simp only [Bool.or_eq_true, Bool.and_eq_true, decide_eq_true_eq, UInt32.le_iff_toNat_le, UInt32.reduceToNat] at hranges
  show c.val.toNat < 128
  omega

/-- What holds of the first 128 characters holds of each of ASCII. -/
theorem of_ascii {P : Char → Prop} (h : ∀ n < 0x80, P (Char.ofNat n)) {c : Char} (hc : c.toNat < 0x80) : P c := by
  have hof := h c.toNat hc
  rwa [Char.ofNat_toNat] at hof

theorem plain_fixed {c : Char} (h : c.isLower = true ∨ c.isDigit = true) :
    isWordChar c = true ∧ isUpper c = false ∧ lowerChars c = [c] ∧ c ≠ 'Σ' := by
  have halphanum : c.isAlphanum = true := by
    have hparts : c.isAlphanum = (c.isUpper || c.isLower || c.isDigit) := rfl
    rw [hparts]
    rcases h with h | h <;> simp [h]
  have hall : ∀ n < 0x80, (Char.ofNat n).isLower = true ∨ (Char.ofNat n).isDigit = true →
      (Char.ofNat n).isUpper = false ∧ (Char.ofNat n).toLower = Char.ofNat n ∧ Char.ofNat n ≠ 'Σ' := by
    decide +kernel
  have hascii := toNat_lt_of_isAlphanum halphanum
  obtain ⟨hupper, hlower, hsigma⟩ := of_ascii (P := fun c => c.isLower = true ∨ c.isDigit = true →
    c.isUpper = false ∧ c.toLower = c ∧ c ≠ 'Σ') hall hascii h
  unfold isWordChar isUpper lowerChars
  simp only [hascii, if_true, halphanum, hupper, hlower]
  exact ⟨trivial, trivial, trivial, hsigma⟩

theorem lowerWord_of_plain {w : List Char} (h : ∀ c ∈ w, c.isLower = true ∨ c.isDigit = true) : lowerWord w = w := by
  induction w with
  | nil => rfl
  | cons c cs ih =>
    obtain ⟨hc, hcs⟩ := List.forall_mem_cons.mp h
    obtain ⟨_, _, hlower, hsigma⟩ := plain_fixed hc
    cases cs with
    | nil => rw [lowerWord, if_neg hsigma, hlower]
    | cons d cs =>
      unfold lowerWord
      rw [hlower, ih hcs, List.singleton_append]

theorem snake_of_plain {s : String} (hne : s ≠ "") (h : ∀ c ∈ s.toList, c.isLower = true ∨ c.isDigit = true) :
    snake s = s := by
  have hlist : s.toList ≠ [] := by simpa using hne
  have hwords : words s = [s.toList] := by
    rw [words, stretches_of_word fun c hc => (plain_fixed (h c hc)).1, List.flatMap_singleton,
      cutWords_of_no_upper (fun c hc => (plain_fixed (h c hc)).2.1) _ (by simpa using hlist)]
    rfl
  rw [snake, hwords, List.map_singleton, String.intercalate_singleton, lowerWord_of_plain h, String.ofList_toList]

/-! ## Other cases -/

theorem toList_shoutySnake (s : String) : (shoutySnake s).toList = ['_'].intercalate ((words s).map upperWord) := by
  unfold shoutySnake
  rw [String.toList_intercalate, List.map_map]
  simp [Function.comp_def]

theorem dot_of_ofNat {n : Nat} (h : Char.ofNat n = '.') : n = 46 := by
  unfold Char.ofNat at h
  by_cases hvalid : n.isValidChar
  · rw [dif_pos hvalid] at h
    exact congrArg Char.toNat h
  · rw [dif_neg hvalid] at h
    cases h

theorem le_of_image {s : Cased.Shift} {n m : Nat} (h : s.image n = some m) : s.target ≤ m := by
  unfold Cased.Shift.image at h
  split at h
  · cases h
    omega
  · cases h

/-- Tables that never name the dot make none of another character. -/
theorem dot_not_mem_remapped {single : List Cased.Shift} {many : List (Nat × List Nat)}
    (hsingle : ∀ s ∈ single, 46 < s.target) (hmany : ∀ e ∈ many, 46 ∉ e.2) {c : Char} (hc : c ≠ '.') :
    '.' ∉ remapped single many c := by
  unfold remapped
  intro hdot
  split at hdot
  · rename_i ns hns
    obtain ⟨n, hn, he⟩ := List.mem_map.mp hdot
    obtain ⟨front, back, hmem, _⟩ := List.lookup_eq_some_iff.mp hns
    exact hmany _ (hmem ▸ List.mem_append_right _ List.mem_cons_self) (dot_of_ofNat he ▸ hn)
  · have hdot := dot_of_ofNat (List.mem_singleton.mp hdot).symm
    cases hfind : single.findSome? (·.image c.toNat) with
    | none =>
      rw [hfind] at hdot
      exact hc (Char.toNat_inj.mp hdot)
    | some m =>
      obtain ⟨s, hs, himage⟩ := List.exists_of_findSome?_eq_some hfind
      have hlow := le_of_image himage
      have hhigh := hsingle s hs
      rw [hfind, Option.getD_some] at hdot
      omega

theorem ascii_ne_dot {c : Char} (hc : c ≠ '.') (hascii : c.toNat < 0x80) : c.toLower ≠ '.' ∧ c.toUpper ≠ '.' := by
  have hall : ∀ n < 0x80, Char.ofNat n ≠ '.' → (Char.ofNat n).toLower ≠ '.' ∧ (Char.ofNat n).toUpper ≠ '.' := by
    decide +kernel
  exact of_ascii (P := fun c => c ≠ '.' → c.toLower ≠ '.' ∧ c.toUpper ≠ '.') hall hascii hc

theorem dot_not_mem_lowerChars {c : Char} (hc : c ≠ '.') : '.' ∉ lowerChars c := by
  unfold lowerChars
  split
  · rename_i hascii
    simpa using (ascii_ne_dot hc hascii).1.symm
  · exact dot_not_mem_remapped (by decide +kernel) (by decide +kernel) hc

theorem dot_not_mem_upperChars {c : Char} (hc : c ≠ '.') : '.' ∉ upperChars c := by
  unfold upperChars
  split
  · rename_i hascii
    simpa using (ascii_ne_dot hc hascii).2.symm
  · exact dot_not_mem_remapped (by decide +kernel) (by decide +kernel) hc

theorem dot_not_mem_lowerWord {w : List Char} (hw : '.' ∉ w) : '.' ∉ lowerWord w := by
  induction w with
  | nil => exact hw
  | cons c cs ih =>
    obtain ⟨hc, hcs⟩ : '.' ≠ c ∧ '.' ∉ cs := by simpa using hw
    cases cs with
    | nil =>
      unfold lowerWord
      split
      · decide
      · exact dot_not_mem_lowerChars hc.symm
    | cons d cs =>
      unfold lowerWord
      rw [List.mem_append, not_or]
      exact ⟨dot_not_mem_lowerChars hc.symm, ih hcs⟩

theorem dot_not_mem_capitalWord {w : List Char} (hw : '.' ∉ w) : '.' ∉ capitalWord w := by
  cases w with
  | nil => exact hw
  | cons c cs =>
    obtain ⟨hc, hcs⟩ : '.' ≠ c ∧ '.' ∉ cs := by simpa using hw
    unfold capitalWord
    rw [List.mem_append, not_or]
    exact ⟨dot_not_mem_upperChars hc.symm, dot_not_mem_lowerWord hcs⟩

theorem dot_not_mem_upperCamel (s : String) : '.' ∉ (upperCamel s).toList := by
  unfold upperCamel
  rw [String.toList_ofList, List.mem_flatMap]
  intro hdot
  obtain ⟨w, hw, hdot⟩ := hdot
  have hplain : '.' ∉ w := by
    intro hin
    have hword := isWordChar_of_words hw _ hin
    revert hword
    decide
  exact dot_not_mem_capitalWord hplain hdot

end Protograph.Text
