/-
  Protograph.Proofs.Entries — the wire format read back.

  The bytes of a message are read entry by entry, whatever the fields are. Numbers may be of
  any length. Of the wire types those that descriptors use are read: numbers, and bytes with
  their length before them.

  Proved: `readEntries_encode`. What is read from the bytes of some entries is those entries.
-/

import Protograph.Descriptor.Wire

namespace Protograph.Wire

/-- Reads a number: groups of seven bits up to one whose high bit is not set. -/
def readVarint : Bytes → Option (Nat × Bytes)
  | [] => none
  | b :: bs =>
    if b.toNat < 128 then some (b.toNat, bs)
    else (readVarint bs).map fun (n, rest) => (b.toNat - 128 + 128 * n, rest)

/-- Reads one entry. The lowest three bits of its tag tell how it goes on. -/
def readEntry (bs : Bytes) : Option (Entry × Bytes) := do
  let (tag, bs) ← readVarint bs
  let (n, bs) ← readVarint bs
  if tag % 8 = 0 then some (⟨tag / 8, .number n⟩, bs)
  else if tag % 8 = 2 ∧ n ≤ bs.length then some (⟨tag / 8, .bytes (bs.take n)⟩, bs.drop n)
  else none

/-- Reads entries up to the end, at most so many. -/
def readEntriesFor : Nat → Bytes → Option (List Entry)
  | _, [] => some []
  | 0, _ :: _ => none
  | n + 1, b :: bs => do
    let (e, rest) ← readEntry (b :: bs)
    let es ← readEntriesFor n rest
    return e :: es

/-- The entries of a message. There are no more of them than bytes. -/
def readEntries (bs : Bytes) : Option (List Entry) := readEntriesFor bs.length bs

/-! ## Numbers -/

theorem readVarint_varint (n : Nat) (rest : Bytes) : readVarint (varint n ++ rest) = some (n, rest) := by
  fun_induction varint n with
  | case1 n hlow =>
    have hbyte : (UInt8.ofNat n).toNat = n := by
      rw [UInt8.toNat_ofNat']
      omega
    rw [List.singleton_append, readVarint, hbyte, if_pos hlow]
  | case2 n hlow ih =>
    have hbyte : (UInt8.ofNat (n % 128 + 128)).toNat = n % 128 + 128 := by
      rw [UInt8.toNat_ofNat']
      omega
    rw [List.cons_append, readVarint, hbyte, if_neg (by omega), ih]
    have hn : n % 128 + 128 - 128 + 128 * (n / 128) = n := by omega
    simp only [Option.map_some, hn]

theorem varint_ne_nil (n : Nat) : varint n ≠ [] := by
  unfold varint
  split <;> simp

/-! ## Entries -/

theorem readEntry_encodeEntry (e : Entry) (rest : Bytes) : readEntry (encodeEntry e ++ rest) = some (e, rest) := by
  obtain ⟨field, value⟩ := e
  cases value with
  | number n =>
    have htype : field * 8 % 8 = 0 := by omega
    have hfield : field * 8 / 8 = field := by omega
    simp only [encodeEntry, List.append_assoc, readEntry, readVarint_varint, Option.bind_eq_bind, Option.bind_some]
    rw [if_pos htype, hfield]
  | bytes bs =>
    have htype : (field * 8 + 2) % 8 = 2 := by omega
    have hfield : (field * 8 + 2) / 8 = field := by omega
    have hlength : bs.length ≤ (bs ++ rest).length := by simp
    simp only [encodeEntry, List.append_assoc, readEntry, readVarint_varint, Option.bind_eq_bind, Option.bind_some]
    rw [if_neg (by omega), if_pos ⟨htype, hlength⟩, hfield, List.take_left, List.drop_left]

theorem encodeEntry_ne_nil (e : Entry) : encodeEntry e ≠ [] := by
  unfold encodeEntry
  split <;> simp [varint_ne_nil]

theorem readEntriesFor_encode {n : Nat} {es : List Entry} (h : (encode es).length ≤ n) :
    readEntriesFor n (encode es) = some es := by
  induction es generalizing n with
  | nil => cases n <;> rfl
  | cons e es ih =>
    have hcons : encode (e :: es) = encodeEntry e ++ encode es := List.flatMap_cons
    obtain ⟨b, bs, hentry⟩ := List.exists_cons_of_ne_nil (encodeEntry_ne_nil e)
    rw [hcons, List.length_append, hentry, List.length_cons] at h
    cases n with
    | zero => omega
    | succ n =>
      have hread := readEntry_encodeEntry e (encode es)
      rw [hcons]
      rw [hentry, List.cons_append] at hread ⊢
      have hrest : readEntriesFor n (encode es) = some es := ih (by omega)
      rw [readEntriesFor, hread, Option.bind_eq_bind, Option.bind_some]
      dsimp only
      rw [hrest]
      rfl

/-- Reading the bytes of some entries gives these entries. -/
theorem readEntries_encode (es : List Entry) : readEntries (encode es) = some es :=
  readEntriesFor_encode (Nat.le_refl _)

end Protograph.Wire
