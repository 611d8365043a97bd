/-
  Protograph.Proofs.Masks — one set of flags in the three ways to write it.

  Proved:
  - `lower_trim_iff`: what is left of a text between its blanks is a name, case aside, if and
    only if the text spells it.
  - `split_intercalate`: texts without bars, joined with bars, are the stretches between them.
  - `bitsOf_eq_ok`, `bitsOf_namesIn_eq_ok`: which lists of names and which joined texts a
    vocabulary takes, and that they give the union of the bits of the names.
  - `finishes_mask`: a set is read, in any source, of the values whose form the vocabulary takes.
  - `readAlike`: so the three ways are read alike, whatever values a source has for them.
  - `setsAlike`: filter modes and methods are read so, and where nothing is written the modes
    are none and the methods all.
-/

import Mathlib.Data.List.TakeWhile
import Protograph.Schema.Reading
import Protograph.Proofs.Sources
import Protograph.Proofs.Tables

namespace Protograph

/-! ## Blanks -/

namespace Text

/-- Nothing but blanks, if anything. -/
def isBlankText (s : String) : Bool := s.toList.all isBlank

theorem dropBlanks_append {front : List Char} (h : ∀ c ∈ front, isBlank c = true) (t : List Char) :
    dropBlanks (front ++ t) = dropBlanks t :=
  List.dropWhile_append_of_pos h

/-- Blanks around a text make no difference to what is left of it. -/
theorem trimmed_surrounded {front back : List Char} (hfront : ∀ c ∈ front, isBlank c = true)
    (hback : ∀ c ∈ back, isBlank c = true) (core : List Char) : trimmed (front ++ core ++ back) = trimmed core := by
  have hreversed : ∀ c ∈ back.reverse, isBlank c = true := fun c hc => hback c (List.mem_reverse.mp hc)
  have hdropped : dropBlanks (core ++ back) =
      if (dropBlanks core).isEmpty then dropBlanks back else dropBlanks core ++ back :=
    List.dropWhile_append
  rw [List.append_assoc, trimmed, trimmed, dropBlanks_append hfront, hdropped]
  split
  · rename_i hcore
    have hback : dropBlanks back = [] := List.dropWhile_eq_nil_iff.mpr hback
    rw [List.isEmpty_iff.mp hcore, hback]
  · rw [List.reverse_append, dropBlanks_append hreversed]

theorem exists_blanks_dropBlanks (t : List Char) : ∃ front, (∀ c ∈ front, isBlank c = true) ∧ t = front ++ dropBlanks t :=
  ⟨t.takeWhile isBlank, fun _ hc => List.mem_takeWhile_imp hc, List.takeWhile_append_dropWhile.symm⟩

/-- A text is what is left of it between blanks. -/
theorem exists_surrounded (t : List Char) : ∃ front back, (∀ c ∈ front, isBlank c = true) ∧
    (∀ c ∈ back, isBlank c = true) ∧ t = front ++ trimmed t ++ back := by
  obtain ⟨front, hfront, ht⟩ := exists_blanks_dropBlanks t
  obtain ⟨back, hback, hrest⟩ := exists_blanks_dropBlanks (dropBlanks t).reverse
  refine ⟨front, back.reverse, hfront, fun c hc => hback c (List.mem_reverse.mp hc), ?_⟩
  rw [trimmed, List.append_assoc, ← List.reverse_append, ← hrest, List.reverse_reverse]
  exact ht

theorem trimmed_trimmed (t : List Char) : trimmed (trimmed t) = trimmed t := by
  obtain ⟨front, back, hfront, hback, ht⟩ := exists_surrounded t
  rw [← trimmed_surrounded hfront hback (trimmed t), ← ht]

theorem dropBlanks_of_solid {t : List Char} (h : ∀ c ∈ t, isBlank c = false) : dropBlanks t = t := by
  cases t with
  | nil => rfl
  | cons c t => rw [dropBlanks, List.dropWhile_cons_of_neg (by simp [h c])]

/-- Nothing is taken from a text without blanks. -/
theorem trimmed_of_solid {t : List Char} (h : ∀ c ∈ t, isBlank c = false) : trimmed t = t := by
  have hreversed : ∀ c ∈ t.reverse, isBlank c = false := fun c hc => h c (List.mem_reverse.mp hc)
  rw [trimmed, dropBlanks_of_solid h, dropBlanks_of_solid hreversed, List.reverse_reverse]

theorem trim_trim (s : String) : trim (trim s) = trim s := by
  rw [trim, trim, String.toList_ofList, trimmed_trimmed]

/-- Nothing is left of a blank text, and of no other. -/
theorem trim_eq_empty_iff {s : String} : trim s = "" ↔ isBlankText s = true := by
  obtain ⟨front, back, hfront, hback, hs⟩ := exists_surrounded s.toList
  rw [trim, String.ofList_eq_empty_iff, isBlankText, List.all_eq_true]
  constructor
  · intro hnil
    rw [hnil] at hs
    intro c hc
    rw [hs, List.append_nil] at hc
    exact (List.mem_append.mp hc).elim (hfront c) (hback c)
  · intro hall
    have hnil : trimmed [] = [] := rfl
    have hnone : ∀ c ∈ ([] : List Char), isBlank c = true := nofun
    simpa [hnil] using trimmed_surrounded hall hnone []

/-- A text is a name in any case of ASCII letters, between blanks. -/
def Spells (text name : String) : Prop :=
  ∃ front core back : String, isBlankText front = true ∧ isBlankText back = true ∧ text = front ++ core ++ back ∧
    asciiLower core = name

/-- No ASCII letter is a blank. -/
theorem toLower_of_isBlank {c : Char} (h : isBlank c = true) : c.toLower = c := by
  unfold Char.toLower
  split
  · rename_i hupper
    have hlow : 65 ≤ c.toNat := hupper.1
    have hhigh : c.toNat ≤ 90 := hupper.2
    simp [isBlank] at h
    omega
  · rfl

/-- What is left of a text is a name without blanks, case aside, if and only if the text
    spells it. -/
theorem lower_trim_iff {text name : String} (hsolid : ∀ c ∈ name.toList, isBlank c = false) :
    asciiLower (trim text) = name ↔ Spells text name := by
  constructor
  · intro h
    obtain ⟨front, back, hfront, hback, ht⟩ := exists_surrounded text.toList
    refine ⟨String.ofList front, trim text, String.ofList back, ?_, ?_, ?_, h⟩
    · simpa [isBlankText] using hfront
    · simpa [isBlankText] using hback
    · rw [← String.toList_inj]
      simpa [trim] using ht
  · rintro ⟨front, core, back, hfront, hback, rfl, rfl⟩
    have hcore : ∀ c ∈ core.toList, isBlank c = false := by
      intro c hc
      by_contra hblank
      rw [Bool.not_eq_false] at hblank
      have hin : c ∈ (asciiLower core).toList := by
        rw [asciiLower, String.toList_ofList]
        exact List.mem_map.mpr ⟨c, hc, toLower_of_isBlank hblank⟩
      rw [hsolid c hin] at hblank
      cases hblank
    have htrim : trim (front ++ core ++ back) = core := by
      rw [trim, String.toList_append, String.toList_append, trimmed_surrounded (List.all_eq_true.mp hfront)
        (List.all_eq_true.mp hback), trimmed_of_solid hcore, String.ofList_toList]
    rw [htrim]

theorem bar_not_mem_of_isBlankText {text : String} (h : isBlankText text = true) : '|' ∉ text.toList := by
  intro hin
  have hblank : isBlank '|' = true := List.all_eq_true.mp h _ hin
  exact absurd hblank (by decide)

/-- What spells a name without bars has none itself. -/
theorem bar_not_mem_of_spells {text name : String} (h : Spells text name) (hbar : '|' ∉ name.toList) :
    '|' ∉ text.toList := by
  obtain ⟨front, core, back, hfront, hback, rfl, rfl⟩ := h
  simp only [String.toList_append, List.mem_append, not_or]
  refine ⟨⟨bar_not_mem_of_isBlankText hfront, fun hin => hbar ?_⟩, bar_not_mem_of_isBlankText hback⟩
  rw [asciiLower, String.toList_ofList]
  exact List.mem_map.mpr ⟨'|', hin, by decide⟩

/-- Texts without bars, joined with bars, are the stretches between the bars. -/
theorem split_intercalate {parts : List String} (hne : parts ≠ []) (h : ∀ p ∈ parts, '|' ∉ p.toList) :
    split '|' (String.intercalate "|" parts) = parts := by
  induction parts with
  | nil => exact absurd rfl hne
  | cons p parts ih =>
    obtain ⟨hp, hparts⟩ := List.forall_mem_cons.mp h
    by_cases hrest : parts = []
    · subst hrest
      simpa using split_of_not_mem hp
    · rw [String.intercalate_cons_of_ne_nil hrest, split_append rfl, split_of_not_mem hp, ih hrest hparts]
      rfl

end Text

namespace Vocabulary

open Text (isBlankText Spells)
open RunSource (Finishes finishes_pure finishes_bind not_finishes_fail)

variable {v : Vocabulary}

/-! ## Names and bits -/

/-- A text spells one of the names, which has these bits. -/
def Gives (v : Vocabulary) (text : String) (bits : UInt8) : Prop := ∃ name, (name, bits) ∈ v.names ∧ Spells text name

/-- All bits of some sets. -/
def union (bs : List UInt8) : UInt8 := bs.foldr (· ||| ·) 0

/-- No two names are the same, none is empty or has blanks or bars in it, and all their bits are
    bits of the set. -/
structure Plain (v : Vocabulary) : Prop where
  distinct : (Table.keys v.names).Nodup
  solid : ∀ e ∈ v.names, e.1 ≠ "" ∧ ∀ c ∈ e.1.toList, Text.isBlank c = false ∧ c ≠ '|'
  valid : ∀ e ∈ v.names, e.2 &&& ~~~v.valid = 0

/-- The characters of names are gone through one by one, not all characters there are. -/
theorem solid_of_all {names : List (String × UInt8)}
    (h : (names.all fun e => e.1 != "" && e.1.toList.all fun c => !Text.isBlank c && c != '|') = true) :
    ∀ e ∈ names, e.1 ≠ "" ∧ ∀ c ∈ e.1.toList, Text.isBlank c = false ∧ c ≠ '|' := by
  simpa using h

theorem bit?_eq_some (hv : v.Plain) {text : String} {bits : UInt8} : v.bit? text = some bits ↔ v.Gives text bits := by
  show Table.get? v.names (Text.asciiLower (Text.trim text)) = some bits ↔ _
  rw [Table.get?_eq_some hv.distinct]
  constructor
  · intro h
    exact ⟨_, h, (Text.lower_trim_iff fun c hc => ((hv.solid _ h).2 c hc).1).mp rfl⟩
  · rintro ⟨name, hname, hspells⟩
    rwa [(Text.lower_trim_iff fun c hc => ((hv.solid _ hname).2 c hc).1).mpr hspells]

theorem gives_trim_iff (hv : v.Plain) {text : String} {bits : UInt8} :
    v.Gives (Text.trim text) bits ↔ v.Gives text bits := by
  rw [← bit?_eq_some hv, ← bit?_eq_some hv, bit?, bit?, Text.trim_trim]

theorem bar_not_mem_of_gives (hv : v.Plain) {text : String} {bits : UInt8} (h : v.Gives text bits) :
    '|' ∉ text.toList := by
  obtain ⟨name, hname, hspells⟩ := h
  exact Text.bar_not_mem_of_spells hspells fun hbar => ((hv.solid _ hname).2 _ hbar).2 rfl

/-- Names are taken if each is known, and give the union of their bits. -/
theorem bitsOf_eq_ok (hv : v.Plain) {names : List String} {bits : UInt8} :
    v.bitsOf names = .ok bits ↔ ∃ bs, List.Forall₂ v.Gives names bs ∧ bits = union bs := by
  induction names generalizing bits with
  | nil =>
    simp only [bitsOf, List.forall₂_nil_left_iff, Except.ok.injEq]
    exact ⟨fun h => ⟨[], rfl, h.symm⟩, fun ⟨_, hbs, h⟩ => by rw [h, hbs]; rfl⟩
  | cons n names ih =>
    unfold bitsOf
    cases hn : v.bit? n with
    | none =>
      simp only [reduceCtorEq, false_iff]
      rintro ⟨bs, hbs, -⟩
      obtain ⟨b, _, hb, _⟩ := List.forall₂_cons_left_iff.mp hbs
      rw [← bit?_eq_some hv, hn] at hb
      cases hb
    | some b =>
      have hb : v.Gives n b := (bit?_eq_some hv).mp hn
      constructor
      · intro h
        obtain ⟨rest, hrest, rfl⟩ := map_eq_ok.mp h
        obtain ⟨bs, hbs, rfl⟩ := ih.mp hrest
        exact ⟨b :: bs, .cons hb hbs, rfl⟩
      · rintro ⟨bs, hbs, rfl⟩
        obtain ⟨b', bs', hb', hbs', rfl⟩ := List.forall₂_cons_left_iff.mp hbs
        have hsame : b = b' := Option.some.inj (hn.symm.trans ((bit?_eq_some hv).mpr hb'))
        exact map_eq_ok.mpr ⟨union bs', ih.mpr ⟨bs', hbs', rfl⟩, by rw [hsame]; rfl⟩

theorem namesIn_eq (text : String) :
    namesIn text = ((Text.split '|' text).filter (!isBlankText ·)).map Text.trim := by
  unfold namesIn
  rw [List.filter_map]
  congr 1
  refine List.filter_congr fun part _ => ?_
  cases hblank : isBlankText part with
  | true => simp [Text.trim_eq_empty_iff.mpr hblank]
  | false =>
    have hleft : Text.trim part ≠ "" := fun hempty => by
      rw [Text.trim_eq_empty_iff, hblank] at hempty
      cases hempty
    simp [hleft]

/-- A joined text is taken if each of its parts is known that is not blank, and gives the union
    of their bits. -/
theorem bitsOf_namesIn_eq_ok (hv : v.Plain) {text : String} {bits : UInt8} : v.bitsOf (namesIn text) = .ok bits ↔
    ∃ bs, List.Forall₂ v.Gives ((Text.split '|' text).filter (!isBlankText ·)) bs ∧ bits = union bs := by
  rw [namesIn_eq, bitsOf_eq_ok hv]
  simp only [List.forall₂_map_left_iff, gives_trim_iff hv]

theorem or_and (a b c : UInt8) : (a ||| b) &&& c = (a &&& c) ||| (b &&& c) := by
  apply UInt8.toBitVec_inj.mp
  ext i
  simp [Bool.and_or_distrib_right]

/-- Names give no bits but those of the set. -/
theorem valid_union (hv : v.Plain) {names : List String} {bs : List UInt8} (h : List.Forall₂ v.Gives names bs) :
    union bs &&& ~~~v.valid = 0 := by
  induction h with
  | nil => simp [union]
  | cons hb _ ih =>
    obtain ⟨name, hname, _⟩ := hb
    have hbit := hv.valid _ hname
    rw [union, List.foldr_cons, or_and, hbit]
    simpa [union] using ih

/-- Known names with any blank parts among them, joined with bars, are the parts of the text. -/
theorem parts_of_joined (hv : v.Plain) {parts : List String} {bs : List UInt8}
    (h : List.Forall₂ v.Gives (parts.filter (!isBlankText ·)) bs) :
    (Text.split '|' (String.intercalate "|" parts)).filter (!isBlankText ·) = parts.filter (!isBlankText ·) := by
  by_cases hne : parts = []
  · subst hne
    decide +kernel
  have hbar : ∀ p ∈ parts, '|' ∉ p.toList := by
    intro p hp
    cases hblank : isBlankText p with
    | true => exact Text.bar_not_mem_of_isBlankText hblank
    | false =>
      obtain ⟨b, _, hgives⟩ := exists_of_forall₂_left h (List.mem_filter.mpr ⟨hp, by simp [hblank]⟩)
      exact bar_not_mem_of_gives hv hgives
  rw [Text.split_intercalate hne hbar]

/-! ## Forms -/

/-- The forms of known names that have these bits in all: a list of them, one text with bars
    between them and any blank parts among them, and the number of the bits. -/
inductive Form (names : List String) (bits : UInt8) : Written → Prop
  | names : Form names bits (.names names)
  | joined {parts : List String} : parts.filter (!isBlankText ·) = names →
    Form names bits (.joined (String.intercalate "|" parts))
  | number : Form names bits (.number bits)

/-- A form in which no flag is written: no name in a list, none between bars, or the number of
    none. -/
inductive WritesNone : Written → Prop
  | names : WritesNone (.names [])
  | joined {text : String} : (∀ part ∈ Text.split '|' text, isBlankText part = true) → WritesNone (.joined text)
  | number : WritesNone (.number 0)

/-- Each name of a list is known, each part of a text is known or blank, and a number has no
    bits but those there are. -/
def Knows (v : Vocabulary) : Written → Prop
  | .names names => ∀ name ∈ names, ∃ b, v.Gives name b
  | .joined text => ∀ part ∈ Text.split '|' text, isBlankText part = false → ∃ b, v.Gives part b
  | .number bits => bits &&& ~~~v.valid = 0

theorem read_of_form (hv : v.Plain) {names : List String} {bs : List UInt8} (h : List.Forall₂ v.Gives names bs)
    {w : Written} (hw : Form names (union bs) w) : v.read w = .ok (union bs) := by
  cases hw with
  | names => exact (bitsOf_eq_ok hv).mpr ⟨bs, h, rfl⟩
  | joined hparts =>
    subst hparts
    exact (bitsOf_namesIn_eq_ok hv).mpr ⟨bs, (parts_of_joined hv h).symm ▸ h, rfl⟩
  | number => exact if_pos (valid_union hv h)

theorem read_of_writesNone (hv : v.Plain) {w : Written} (h : WritesNone w) : v.read w = .ok 0 := by
  cases h with
  | names => rfl
  | @joined text hblank =>
    have hnone : (Text.split '|' text).filter (!isBlankText ·) = [] :=
      List.filter_eq_nil_iff.mpr fun part hpart => by simp [hblank part hpart]
    exact (bitsOf_namesIn_eq_ok hv).mpr ⟨[], hnone ▸ .nil, rfl⟩
  | number => exact if_pos UInt8.zero_and

theorem knows_of_read (hv : v.Plain) {w : Written} {b : UInt8} (h : v.read w = .ok b) : v.Knows w := by
  cases w with
  | names names =>
    obtain ⟨bs, hbs, _⟩ := (bitsOf_eq_ok hv).mp h
    intro name hname
    obtain ⟨b, _, hgives⟩ := exists_of_forall₂_left hbs hname
    exact ⟨b, hgives⟩
  | joined text =>
    obtain ⟨bs, hbs, _⟩ := (bitsOf_namesIn_eq_ok hv).mp h
    intro part hpart hblank
    obtain ⟨b, _, hgives⟩ := exists_of_forall₂_left hbs (List.mem_filter.mpr ⟨hpart, by simp [hblank]⟩)
    exact ⟨b, hgives⟩
  | number bits =>
    rw [Vocabulary.read] at h
    split at h
    · assumption
    · cases h

theorem valid_of_read (hv : v.Plain) {w : Written} {b : UInt8} (h : v.read w = .ok b) : b &&& ~~~v.valid = 0 := by
  cases w with
  | names names =>
    obtain ⟨bs, hbs, rfl⟩ := (bitsOf_eq_ok hv).mp h
    exact valid_union hv hbs
  | joined text =>
    obtain ⟨bs, hbs, rfl⟩ := (bitsOf_namesIn_eq_ok hv).mp h
    exact valid_union hv hbs
  | number bits =>
    have hvalid : bits &&& ~~~v.valid = 0 := knows_of_read hv h
    rw [Vocabulary.read, if_pos hvalid] at h
    cases h
    exact hvalid

/-! ## Readers -/

section Readers

variable {m : Type → Type} {ν σ α : Type} [Monad m] [Source m ν] [RunSource m ν σ]

/-- A reader of sets that takes the forms of one set for the same. `Writes` says which form a
    value has, with the states before and after it is read. -/
structure ReadAlike (v : Vocabulary) (set : UInt8 → α) (bits : α → UInt8) (Writes : ν → σ → Written → σ → Prop)
    (read : ν → m α) : Prop where
  /-- In every form of known names the set of all their bits is read. -/
  alike : ∀ names bs, List.Forall₂ v.Gives names bs → ∀ w, Form names (union bs) w →
    ∀ i s s', Writes i s w s' → Finishes ν (read i) s (set (union bs)) s'
  /-- Nothing is read but a form of known names, or of bits there are. -/
  known : ∀ i s a s', Finishes ν (read i) s a s' → ∃ w, Writes i s w s' ∧ v.Knows w
  /-- A set that is read has no bits but those there are. -/
  valid : ∀ i s a s', Finishes ν (read i) s a s' → bits a &&& ~~~v.valid = 0

variable {set : UInt8 → α} {ofWritten : Written → Except MaskFault α} {Writes : ν → σ → Written → σ → Prop}

/-- A set is read of a value if it has one of the forms, and what is written in it is taken. -/
theorem finishes_mask (hset : ∀ w, ofWritten w = (v.read w).map set) {i : ν} {s s' : σ} {a : α} :
    Finishes ν (Source.mask ofWritten i) s a s' ↔
      ∃ w b, Finishes ν (Source.written i) s (some w) s' ∧ v.read w = .ok b ∧ set b = a := by
  unfold Source.mask
  rw [finishes_bind]
  constructor
  · rintro ⟨o, t, ho, h⟩
    cases o with
    | none => exact absurd h not_finishes_fail
    | some w =>
      dsimp only at h
      rw [hset] at h
      cases hb : v.read w with
      | error fault =>
        rw [hb] at h
        cases fault <;> exact absurd h not_finishes_fail
      | ok b =>
        rw [hb] at h
        obtain ⟨rfl, rfl⟩ := finishes_pure.mp h
        exact ⟨w, b, ho, hb, rfl⟩
  · rintro ⟨w, b, hw, hb, rfl⟩
    refine ⟨some w, s', hw, ?_⟩
    dsimp only
    rw [hset, hb]
    exact finishes_pure.mpr ⟨rfl, rfl⟩

/-- Wherever reading is that of a plain vocabulary, the forms are read alike. -/
theorem readAlike (hv : v.Plain) (hset : ∀ w, ofWritten w = (v.read w).map set) {bits : α → UInt8}
    (hbits : ∀ b, b &&& ~~~v.valid = 0 → bits (set b) &&& ~~~v.valid = 0)
    (hwrites : ∀ i s w s', Finishes ν (Source.written i) s (some w) s' ↔ Writes i s w s') :
    v.ReadAlike set bits Writes (Source.mask ofWritten) where
  alike names bs h w hw i s s' hi :=
    (finishes_mask hset).mpr ⟨w, union bs, (hwrites i s w s').mpr hi, read_of_form hv h hw, rfl⟩
  known i s a s' h := by
    obtain ⟨w, b, hw, hb, _⟩ := (finishes_mask hset).mp h
    exact ⟨w, (hwrites i s w s').mp hw, knows_of_read hv hb⟩
  valid i s a s' h := by
    obtain ⟨w, b, _, hb, rfl⟩ := (finishes_mask hset).mp h
    exact hbits b (valid_of_read hv hb)

end Readers

end Vocabulary

theorem FilterModes.plain_vocabulary : FilterModes.vocabulary.Plain :=
  ⟨by decide +kernel, Vocabulary.solid_of_all (by decide +kernel), by decide +kernel⟩

theorem Methods.plain_vocabulary : Methods.vocabulary.Plain :=
  ⟨by decide +kernel, Vocabulary.solid_of_all (by decide +kernel), by decide +kernel⟩

/-- The methods of some bits, all of them if there is no bit. -/
def Methods.ofBits (bits : UInt8) : Methods := if bits = 0 then all else ⟨bits⟩

namespace Reading

open Vocabulary (ReadAlike WritesNone finishes_mask read_of_writesNone)
open RunSource (Finishes)

variable {m : Type → Type} {ν σ : Type} [Monad m] [Source m ν] [RunSource m ν σ]
  {Writes : ν → σ → Written → σ → Prop}

/-- Every form can be written, and filter modes and methods are read alike in all of them. With
    nothing written the modes are none, and the methods all. -/
structure SetsAlike (Writes : ν → σ → Written → σ → Prop) : Prop where
  forms : ∀ w, ∃ i s s', Writes i s w s'
  modes : FilterModes.vocabulary.ReadAlike FilterModes.mk FilterModes.bits Writes filterModes
  methods : Methods.vocabulary.ReadAlike Methods.ofBits Methods.bits Writes methods
  none : ∀ w, WritesNone w → ∀ i s s', Writes i s w s' →
    Finishes ν (filterModes i) s ⟨0⟩ s' ∧ Finishes ν (Reading.methods i) s Methods.all s'

/-- So it is in any source that has values of all forms. -/
theorem setsAlike (hforms : ∀ w, ∃ i s s', Writes i s w s')
    (hwrites : ∀ i s w s', Finishes ν (Source.written i) s (some w) s' ↔ Writes i s w s') : SetsAlike Writes := by
  have hmodes : ∀ w, FilterModes.ofWritten w = (FilterModes.vocabulary.read w).map FilterModes.mk := fun _ => rfl
  have hmethods : ∀ w, Methods.ofWritten w = (Methods.vocabulary.read w).map Methods.ofBits := fun _ => rfl
  have hvalid : ∀ b, b &&& ~~~Methods.vocabulary.valid = 0 →
      (Methods.ofBits b).bits &&& ~~~Methods.vocabulary.valid = 0 := by
    intro b hb
    unfold Methods.ofBits
    split
    · decide
    · exact hb
  refine ⟨hforms, Vocabulary.readAlike FilterModes.plain_vocabulary hmodes (fun _ hb => hb) hwrites,
    Vocabulary.readAlike Methods.plain_vocabulary hmethods hvalid hwrites, fun w h i s s' hi => ?_⟩
  have hw := (hwrites i s w s').mpr hi
  constructor
  · exact (finishes_mask hmodes).mpr ⟨w, 0, hw, read_of_writesNone FilterModes.plain_vocabulary h, rfl⟩
  · exact (finishes_mask hmethods).mpr ⟨w, 0, hw, read_of_writesNone Methods.plain_vocabulary h, rfl⟩

end Reading

end Protograph
