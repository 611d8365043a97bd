/-
  Protograph.Proofs.Decoding — descriptors read back from the wire.

  A descriptor is read from the entries of its message by the numbers of its fields, in
  whatever order they come: of a field that is not repeated the last value counts, and fields
  that no descriptor here has are passed over. Numbers with a sign have 32 bits.

  Proved: `readFiles_encodeFiles`, one lemma for each kind of descriptor below it. The files
  of a descriptor set whose numbers have 32 bits come back from its bytes, in order. The
  recursion into nested messages is by the number of bytes, of which a message nested in
  another has fewer (`length_lt_of_mem`).
-/

import Mathlib.Algebra.Group.Nat.Defs
import Protograph.Document.Range
import Protograph.Proofs.Entries
import Protograph.Proofs.Pool

namespace Protograph

/-! ## Numbers of 32 bits -/

def Enum.Fits32 (e : Enum) : Prop := ∀ v ∈ e.values, fitsSigned 32 v.number = true

/-- The numbers in a message, but for those in what is nested in it, are 32-bit numbers. -/
structure Message.Fits32 (m : Message) : Prop where
  fields : ∀ f ∈ m.fields, fitsSigned 32 f.number = true
  enums : ∀ e ∈ m.enums, e.Fits32

structure ProtoFile.Fits32 (f : ProtoFile) : Prop where
  messages : ∀ m ∈ f.tree, m.Fits32
  enums : ∀ e ∈ f.enums, e.Fits32

/-- What of a file is on the wire: all but the oneofs, which only well-known files have. -/
def ProtoFile.written (f : ProtoFile) : ProtoFile := { f with oneofs := [] }

namespace Wire

variable {α : Type}

/-! ## Fields of a message -/

/-- What the entries of one field hold, in order. -/
def held (field : Nat) (es : List Entry) : List Value := (es.filter (·.field = field)).map (·.value)

namespace Value

def text? : Value → Option String
  | .bytes bs => String.fromUTF8? ⟨bs.toArray⟩
  | .number _ => none

def number? : Value → Option Nat
  | .number n => some n
  | .bytes _ => none

def entries? : Value → Option (List Entry)
  | .bytes bs => readEntries bs
  | .number _ => none

end Value

/-- The last 32 bits of a number, one of them for the sign. -/
def toInt32 (n : Nat) : Int := if n % 2 ^ 32 < 2 ^ 31 then (n % 2 ^ 32 : Nat) else (n % 2 ^ 32 : Nat) - (2 ^ 32 : Nat)

def int32? (v : Value) : Option Int := v.number?.map toInt32

/-- A message that is the value of a field. -/
def embedded (read : List Entry → Option α) (v : Value) : Option α := v.entries?.bind read

def repeated (read : Value → Option α) (field : Nat) (es : List Entry) : Option (List α) := (held field es).mapM read

/-- A field that can be left out. The last of its values counts. -/
def optional (read : Value → Option α) (field : Nat) (es : List Entry) : Option (Option α) :=
  (repeated read field es).map (·.getLast?)

def required (read : Value → Option α) (field : Nat) (es : List Entry) : Option α := (optional read field es).join

/-! ## Descriptors -/

/-- Whether the field is repeated; proto3 has no required fields. -/
def readLabel (n : Nat) : Option Bool := if n = 3 then some true else if n = 1 then some false else none

def readField (es : List Entry) : Option Field := do
  let name ← required Value.text? 1 es
  let number ← required int32? 3 es
  let label ← required Value.number? 4 es
  let type ← required Value.number? 5 es
  let typeName ← optional Value.text? 6 es
  return { name, number, repeated := ← readLabel label, type := ← FieldType.ofNumber? type, typeName }

def readEnumValue (es : List Entry) : Option EnumValue := do
  return { name := ← required Value.text? 1 es, number := ← required int32? 2 es }

def readEnum (es : List Entry) : Option Enum := do
  return { name := ← required Value.text? 1 es, values := ← repeated (embedded readEnumValue) 2 es }

/-- Reads a message nested less deep than so many. -/
def readMessageFor : Nat → List Entry → Option Message
  | 0, _ => none
  | n + 1, es => do
    return { name := ← required Value.text? 1 es
             fields := ← repeated (embedded readField) 2 es
             nested := ← repeated (embedded (readMessageFor n)) 3 es
             enums := ← repeated (embedded readEnum) 4 es }

/-- A message is nested less deep than it has bytes. -/
def readMessage : Value → Option Message
  | .bytes bs => (readEntries bs).bind (readMessageFor (bs.length + 1))
  | .number _ => none

/-- A method; the mark that it has no side effects is 1 in field 34 of its options. -/
def readRpc (es : List Entry) : Option Rpc := do
  let options ← repeated Value.entries? 4 es
  let mark ← optional Value.number? 34 options.flatten
  return { name := ← required Value.text? 1 es, input := ← required Value.text? 2 es
           output := ← required Value.text? 3 es, pure := mark = some 1 }

def readService (es : List Entry) : Option Service := do
  return { name := ← required Value.text? 1 es, methods := ← repeated (embedded readRpc) 2 es }

/-- A proto3 file. -/
def readFile (es : List Entry) : Option ProtoFile := do
  let syntaxName ← required Value.text? 12 es
  if syntaxName = "proto3" then
    return { path := ← required Value.text? 1 es, package := ← required Value.text? 2 es
             imports := ← repeated Value.text? 3 es, messages := ← repeated readMessage 4 es
             enums := ← repeated (embedded readEnum) 5 es, services := ← repeated (embedded readService) 6 es }
  else none

/-- The files of a descriptor set. -/
def readFiles (bs : Bytes) : Option (List ProtoFile) := (readEntries bs).bind (repeated (embedded readFile) 1)

/-! ## Values written and read -/

@[simp] theorem held_nil (field : Nat) : held field [] = [] := rfl

theorem held_cons (field k : Nat) (v : Value) (es : List Entry) :
    held field (⟨k, v⟩ :: es) = if k = field then v :: held field es else held field es := by
  unfold held
  by_cases hk : k = field <;> simp [hk]

@[simp] theorem held_append (field : Nat) (es es' : List Entry) :
    held field (es ++ es') = held field es ++ held field es' := by
  unfold held
  rw [List.filter_append, List.map_append]

@[simp] theorem held_text (field k : Nat) (s : String) (es : List Entry) :
    held field (text k s :: es) = if k = field then .bytes s.toUTF8.toList :: held field es else held field es :=
  held_cons field k _ es

theorem held_map (field k : Nat) (value : α → Value) (as : List α) :
    held field (as.map fun a => ⟨k, value a⟩) = if k = field then as.map value else [] := by
  induction as with
  | nil => simp
  | cons a as ih =>
    rw [List.map_cons, held_cons, ih]
    split <;> rfl

@[simp] theorem held_texts (field k : Nat) (ss : List String) :
    held field (ss.map (text k)) = if k = field then ss.map fun s => .bytes s.toUTF8.toList else [] :=
  held_map field k _ ss

@[simp] theorem held_messages (field k : Nat) (entries : α → List Entry) (as : List α) :
    held field (as.map fun a => message k (entries a)) = if k = field then as.map fun a => .bytes (encode (entries a)) else [] :=
  held_map field k _ as

theorem mapM_map_of_read {read : Value → Option α} {value : α → Value} {as : List α}
    (h : ∀ a ∈ as, read (value a) = some a) : (as.map value).mapM read = some as := by
  induction as with
  | nil => rfl
  | cons a as ih =>
    obtain ⟨ha, has⟩ := List.forall_mem_cons.mp h
    rw [List.map_cons, List.mapM_cons, ha, ih has]
    rfl

theorem toInt32_of_fits {n : Int} (h : fitsSigned 32 n = true) : toInt32 (n % (Nat.pow 2 64 : Nat)).toNat = n := by
  simp only [fitsSigned, Bool.and_eq_true, decide_eq_true_eq] at h
  unfold toInt32
  simp at h ⊢
  omega

theorem text?_text (s : String) : Value.text? (.bytes s.toUTF8.toList) = some s := fromUTF8?_toUTF8 s

theorem embedded_encode (read : List Entry → Option α) (es : List Entry) : embedded read (.bytes (encode es)) = read es := by
  rw [embedded, Value.entries?, readEntries_encode, Option.bind_some]

theorem int32?_of_fits {n : Int} (h : fitsSigned 32 n = true) :
    int32? (.number (n % (Nat.pow 2 64 : Nat)).toNat) = some n := by
  rw [int32?, Value.number?, Option.map_some, toInt32_of_fits h]

variable {read : Value → Option α} {field : Nat} {es : List Entry}

theorem repeated_of_held (value : α → Value) {as : List α} (h : held field es = as.map value) (hread : ∀ a ∈ as, read (value a) = some a) :
    repeated read field es = some as := by
  rw [repeated, h, mapM_map_of_read hread]

theorem optional_of_held {v : Value} {a : α} (h : held field es = [v]) (hread : read v = some a) :
    optional read field es = some (some a) := by
  have hrepeated : repeated read field es = some [a] :=
    repeated_of_held (fun _ => v) h fun b hb => by rw [List.mem_singleton.mp hb, hread]
  rw [optional, hrepeated]
  rfl

theorem required_of_held {v : Value} {a : α} (h : held field es = [v]) (hread : read v = some a) :
    required read field es = some a := by
  rw [required, optional_of_held h hread]
  rfl

/-! ## Descriptors written and read -/

theorem readLabel_label (repeated : Bool) : readLabel (if repeated then 3 else 1) = some repeated := by
  cases repeated <;> rfl

theorem readField_entries {f : Field} (h : fitsSigned 32 f.number = true) : readField f.entries = some f := by
  obtain ⟨name, number, isRepeated, type, typeName⟩ := f
  have hname : required Value.text? 1 (Field.entries ⟨name, number, isRepeated, type, typeName⟩) = some name :=
    required_of_held (by cases typeName <;> rfl) (text?_text name)
  have hnumber : required int32? 3 (Field.entries ⟨name, number, isRepeated, type, typeName⟩) = some number :=
    required_of_held (by cases typeName <;> rfl) (int32?_of_fits h)
  have hlabel : required Value.number? 4 (Field.entries ⟨name, number, isRepeated, type, typeName⟩) =
      some (if isRepeated then 3 else 1) := required_of_held (by cases typeName <;> rfl) rfl
  have htype : required Value.number? 5 (Field.entries ⟨name, number, isRepeated, type, typeName⟩) = some type.number :=
    required_of_held (by cases typeName <;> rfl) rfl
  have htypeName : optional Value.text? 6 (Field.entries ⟨name, number, isRepeated, type, typeName⟩) = some typeName := by
    cases typeName with
    | none => rfl
    | some t => exact optional_of_held rfl (text?_text t)
  simp only [readField, hname, hnumber, hlabel, htype, htypeName, readLabel_label, FieldType.ofNumber?_number,
    Option.bind_eq_bind, Option.bind_some]
  rfl

theorem readEnumValue_entries {v : EnumValue} (h : fitsSigned 32 v.number = true) : readEnumValue v.entries = some v := by
  have hname : required Value.text? 1 v.entries = some v.name := required_of_held rfl (text?_text v.name)
  have hnumber : required int32? 2 v.entries = some v.number := required_of_held rfl (int32?_of_fits h)
  rw [readEnumValue, hname, hnumber]
  rfl

theorem readEnum_entries {e : Enum} (h : e.Fits32) : readEnum e.entries = some e := by
  have hname : required Value.text? 1 e.entries = some e.name := by
    refine required_of_held ?_ (text?_text e.name)
    simp [Enum.entries]
  have hvalues : repeated (embedded readEnumValue) 2 e.entries = some e.values := by
    refine repeated_of_held (fun v => .bytes (encode v.entries)) ?_ fun v hv => ?_
    · simp [Enum.entries]
    · rw [embedded_encode, readEnumValue_entries (h v hv)]
  rw [readEnum, hname, hvalues]
  rfl

theorem readRpc_entries (m : Rpc) : readRpc m.entries = some m := by
  obtain ⟨name, input, output, isPure⟩ := m
  have hname : required Value.text? 1 (Rpc.entries ⟨name, input, output, isPure⟩) = some name :=
    required_of_held (by cases isPure <;> rfl) (text?_text name)
  have hinput : required Value.text? 2 (Rpc.entries ⟨name, input, output, isPure⟩) = some input :=
    required_of_held (by cases isPure <;> rfl) (text?_text input)
  have houtput : required Value.text? 3 (Rpc.entries ⟨name, input, output, isPure⟩) = some output :=
    required_of_held (by cases isPure <;> rfl) (text?_text output)
  cases isPure with
  | false =>
    have hoptions : repeated Value.entries? 4 (Rpc.entries ⟨name, input, output, false⟩) = some [] := rfl
    rw [readRpc, hoptions, hname, hinput, houtput]
    rfl
  | true =>
    have hoptions : repeated Value.entries? 4 (Rpc.entries ⟨name, input, output, true⟩) = some [[Wire.number 34 1]] := by
      have hheld : held 4 (Rpc.entries ⟨name, input, output, true⟩) = [.bytes (encode [Wire.number 34 1])] := rfl
      rw [repeated, hheld, List.mapM_cons, Value.entries?, readEntries_encode]
      rfl
    rw [readRpc, hoptions, hname, hinput, houtput]
    rfl

theorem readService_entries (s : Service) : readService s.entries = some s := by
  have hname : required Value.text? 1 s.entries = some s.name := by
    refine required_of_held ?_ (text?_text s.name)
    simp [Service.entries]
  have hmethods : repeated (embedded readRpc) 2 s.entries = some s.methods := by
    refine repeated_of_held (fun m => .bytes (encode m.entries)) ?_ fun m _ => ?_
    · simp [Service.entries]
    · rw [embedded_encode, readRpc_entries]
  rw [readService, hname, hmethods]
  rfl

/-! ## Messages -/

theorem nestedEntries_eq (ms : List Message) : Message.nestedEntries ms = ms.map fun m => message 3 m.entries := by
  induction ms with
  | nil => rfl
  | cons m ms ih => rw [Message.nestedEntries, ih, List.map_cons]

/-- The bytes of a message nested in another are fewer. -/
theorem length_lt_of_mem {es es' : List Entry} {field : Nat} (h : message field es' ∈ es) :
    (encode es').length < (encode es).length := by
  have hentry : (encode es').length < (encodeEntry (message field es')).length := by
    have hne := List.length_pos_of_ne_nil (varint_ne_nil (field * 8 + 2))
    simp only [encodeEntry, message, List.length_append]
    omega
  have hsub : (encodeEntry (message field es')).length ≤ (encode es).length :=
    (List.sublist_flatten_of_mem (List.mem_map_of_mem h)).length_le
  omega

theorem readMessageFor_entries {n : Nat} {m : Message} (h : ∀ x ∈ m.tree, x.Fits32) (hn : (encode m.entries).length < n) :
    readMessageFor n m.entries = some m := by
  induction n generalizing m with
  | zero => omega
  | succ n ih =>
    obtain ⟨name, fields, enums, nested⟩ := m
    have hself : Message.Fits32 ⟨name, fields, enums, nested⟩ := h _ (by rw [Message.tree]; exact List.mem_cons_self)
    have hnestedTree : ∀ {m x : Message}, m ∈ nested → x ∈ m.tree → x ∈ Message.tree ⟨name, fields, enums, nested⟩ := by
      intro m x hm hx
      rw [Message.tree]
      exact List.mem_cons_of_mem _ (Message.mem_treeAll hm hx)
    have hentries : Message.entries ⟨name, fields, enums, nested⟩ =
        text 1 name :: (fields.map fun f => message 2 f.entries) ++ (nested.map fun m => message 3 m.entries) ++
          enums.map fun e => message 4 e.entries := by
      rw [Message.entries, nestedEntries_eq]
    have hname : required Value.text? 1 (Message.entries ⟨name, fields, enums, nested⟩) = some name := by
      refine required_of_held ?_ (text?_text name)
      simp [hentries]
    have hfields : repeated (embedded readField) 2 (Message.entries ⟨name, fields, enums, nested⟩) = some fields := by
      refine repeated_of_held (fun f => .bytes (encode f.entries)) ?_ fun f hf => ?_
      · simp [hentries]
      · rw [embedded_encode, readField_entries (hself.fields f hf)]
    have hnested : repeated (embedded (readMessageFor n)) 3 (Message.entries ⟨name, fields, enums, nested⟩) = some nested := by
      refine repeated_of_held (fun m => .bytes (encode m.entries)) ?_ fun m hm => ?_
      · simp [hentries]
      · have hin : message 3 m.entries ∈ Message.entries ⟨name, fields, enums, nested⟩ := by
          rw [hentries]
          exact List.mem_append_left _ (List.mem_append_right _ (List.mem_map.mpr ⟨m, hm, rfl⟩))
        have hshorter := length_lt_of_mem hin
        rw [embedded_encode, ih (fun x hx => h x (hnestedTree hm hx)) (by omega)]
    have henums : repeated (embedded readEnum) 4 (Message.entries ⟨name, fields, enums, nested⟩) = some enums := by
      refine repeated_of_held (fun e => .bytes (encode e.entries)) ?_ fun e he => ?_
      · simp [hentries]
      · rw [embedded_encode, readEnum_entries (hself.enums e he)]
    rw [readMessageFor, hname, hfields, hnested, henums]
    rfl

theorem readMessage_entries {m : Message} (h : ∀ x ∈ m.tree, x.Fits32) :
    readMessage (.bytes (encode m.entries)) = some m := by
  rw [readMessage, readEntries_encode, Option.bind_some, readMessageFor_entries h (Nat.lt_succ_self _)]

/-! ## Files -/

theorem readFile_entries {f : ProtoFile} (h : f.Fits32) : readFile f.entries = some f.written := by
  have hsyntax : required Value.text? 12 f.entries = some "proto3" := by
    refine required_of_held ?_ (text?_text "proto3")
    simp [ProtoFile.entries]
  have hpath : required Value.text? 1 f.entries = some f.path := by
    refine required_of_held ?_ (text?_text f.path)
    simp [ProtoFile.entries]
  have hpackage : required Value.text? 2 f.entries = some f.package := by
    refine required_of_held ?_ (text?_text f.package)
    simp [ProtoFile.entries]
  have himports : repeated Value.text? 3 f.entries = some f.imports := by
    refine repeated_of_held (fun i => .bytes i.toUTF8.toList) ?_ fun i _ => text?_text i
    simp [ProtoFile.entries]
  have hmessages : repeated readMessage 4 f.entries = some f.messages := by
    refine repeated_of_held (fun m => .bytes (encode m.entries)) ?_ fun m hm => readMessage_entries ?_
    · simp [ProtoFile.entries]
    · exact fun x hx => h.messages x (Message.mem_treeAll hm hx)
  have henums : repeated (embedded readEnum) 5 f.entries = some f.enums := by
    refine repeated_of_held (fun e => .bytes (encode e.entries)) ?_ fun e he => ?_
    · simp [ProtoFile.entries]
    · rw [embedded_encode, readEnum_entries (h.enums e he)]
  have hservices : repeated (embedded readService) 6 f.entries = some f.services := by
    refine repeated_of_held (fun s => .bytes (encode s.entries)) ?_ fun s _ => ?_
    · simp [ProtoFile.entries]
    · rw [embedded_encode, readService_entries]
  rw [readFile, hsyntax, hpath, hpackage, himports, hmessages, henums, hservices]
  rfl

/-- The files of a descriptor set come back from its bytes, in order. -/
theorem readFiles_encodeFiles {files : List ProtoFile} (h : ∀ f ∈ files, f.Fits32) :
    readFiles (encodeFiles files) = some (files.map ProtoFile.written) := by
  rw [encodeFiles, readFiles, readEntries_encode, Option.bind_some]
  refine repeated_of_held (fun f => .bytes (encode f.entries)) ?_ ?_
  · rw [held_messages, if_pos rfl, List.map_map]
    rfl
  · intro g hg
    obtain ⟨f, hf, rfl⟩ := List.mem_map.mp hg
    have hentries : f.written.entries = f.entries := rfl
    rw [embedded_encode, hentries, readFile_entries (h f hf)]

theorem encodeFiles_append (front back : List ProtoFile) : encodeFiles (front ++ back) = encodeFiles front ++ encodeFiles back := by
  unfold encodeFiles encode
  rw [List.map_append, List.flatMap_append]

end Wire

end Protograph
