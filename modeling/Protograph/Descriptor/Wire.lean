/-
  Protograph.Descriptor.Wire — the bytes of a descriptor set.

  A message on the wire is a sequence of entries, each a field number with a number or
  with bytes. Descriptors become entries in the order of the field numbers; what is
  absent is left out, and what is there is written even when it is empty or zero.
-/

import Protograph.Compile.Assembly

namespace Protograph

abbrev Bytes := List UInt8

theorem toList_loop (bs : ByteArray) (i : Nat) (acc : Bytes) :
    ByteArray.toList.loop bs i acc = acc.reverse ++ bs.data.toList.drop i := by
  fun_induction ByteArray.toList.loop bs i acc with
  | case1 i acc hi ih =>
    have hlength : i < bs.data.toList.length := hi
    have hget : bs.get! i = bs.data.toList[i] := by
      show bs.data[i]! = bs.data.toList[i]
      rw [getElem!_pos bs.data i hi, Array.getElem_toList]
    rw [ih, List.drop_eq_getElem_cons hlength, hget]
    simp
  | case2 i acc hi =>
    have hlength : bs.data.toList.length ≤ i := Nat.le_of_not_lt hi
    rw [List.drop_eq_nil_of_le hlength, List.append_nil]

/-- The bytes of a text read as that text. -/
theorem fromUTF8?_toUTF8 (s : String) : String.fromUTF8? ⟨s.toUTF8.toList.toArray⟩ = some s := by
  have hbytes : s.toUTF8.toList = s.toUTF8.data.toList := toList_loop s.toUTF8 0 []
  rw [hbytes, Array.toArray_toList]
  exact dif_pos s.isValidUTF8

namespace Wire

inductive Value
  | number (n : Nat)
  | bytes (bs : Bytes)
  deriving DecidableEq, Repr

/-- A field number and what the field holds. -/
structure Entry where
  field : Nat
  value : Value
  deriving DecidableEq, Repr

/-- A number in groups of seven bits, lowest first; the high bit says that more follow. -/
def varint (n : Nat) : Bytes :=
  if n < 128 then [UInt8.ofNat n] else UInt8.ofNat (n % 128 + 128) :: varint (n / 128)

def encodeEntry (e : Entry) : Bytes :=
  match e.value with
  | .number n => varint (e.field * 8) ++ varint n
  | .bytes bs => varint (e.field * 8 + 2) ++ varint bs.length ++ bs

def encode (es : List Entry) : Bytes := es.flatMap encodeEntry

def text (field : Nat) (s : String) : Entry := ⟨field, .bytes s.toUTF8.toList⟩

def number (field n : Nat) : Entry := ⟨field, .number n⟩

/-- A number with a sign, which is written as its two's complement in 64 bits. -/
def int (field : Nat) (n : Int) : Entry := ⟨field, .number (n % (Nat.pow 2 64 : Nat)).toNat⟩

def message (field : Nat) (es : List Entry) : Entry := ⟨field, .bytes (encode es)⟩

end Wire

open Wire

def Field.entries (f : Field) : List Entry :=
  [text 1 f.name, int 3 f.number, Wire.number 4 (if f.repeated then 3 else 1), Wire.number 5 f.type.number] ++
    f.typeName.toList.map (text 6)

def EnumValue.entries (v : EnumValue) : List Entry := [text 1 v.name, int 2 v.number]

def Enum.entries (e : Enum) : List Entry := text 1 e.name :: e.values.map fun v => message 2 v.entries

mutual

def Message.entries : Message → List Entry
  | ⟨name, fields, enums, nested⟩ =>
    text 1 name :: (fields.map fun f => message 2 f.entries) ++ Message.nestedEntries nested ++
      enums.map fun e => message 4 e.entries

def Message.nestedEntries : List Message → List Entry
  | [] => []
  | m :: ms => message 3 m.entries :: Message.nestedEntries ms

end

/-- The mark of a method without side effects is an option of the method. -/
def Rpc.entries (m : Rpc) : List Entry :=
  [text 1 m.name, text 2 m.input, text 3 m.output] ++ (if m.pure then [message 4 [number 34 1]] else [])

def Service.entries (s : Service) : List Entry := text 1 s.name :: s.methods.map fun m => message 2 m.entries

def ProtoFile.entries (f : ProtoFile) : List Entry :=
  [text 1 f.path, text 2 f.package] ++ f.imports.map (text 3) ++ (f.messages.map fun m => message 4 m.entries) ++
    (f.enums.map fun e => message 5 e.entries) ++ (f.services.map fun s => message 6 s.entries) ++ [text 12 "proto3"]

/-- The bytes of some files as a descriptor set. -/
def encodeFiles (files : List ProtoFile) : Bytes := encode (files.map fun f => message 1 f.entries)

/-- The bytes of a descriptor set, well-known files first. -/
def DescriptorSet.encode (s : DescriptorSet) : Bytes := encodeFiles s.wellKnown ++ encodeFiles s.files

end Protograph
