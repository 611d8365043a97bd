/-
  Protograph.Document.JsonSource — JSON values as a source of typed values.

  A value may come from a text, which is read as it is walked: what is amiss further on
  does not matter once a value is at fault, and a sequence too long for its record is a
  fault of the text. Or it stands on its own (`textual` is false), and then every fault
  is one of the value.
-/

import Protograph.Document.Source
import Protograph.Document.Json
import Protograph.Document.Range

namespace Protograph

namespace Json

/-- A value to read, and whether it is part of a text being read. -/
structure Input where
  textual : Bool
  value : Json

/-- What the value is, for messages; nothing can be said of a broken one. -/
def found? : Json → Option Found
  | null => some (.nothing "null")
  | bool b => some (.bool b)
  | int n => some (.int n)
  | float t => some (.float t)
  | str s => some (.text s)
  | arr _ => some .sequence
  | obj _ _ => some .mapping
  | broken => none

abbrev Read := Except ReadError

def fail {α : Type} (c : Cause) : Read α := .error (.invalid c none)

/-- The value is not what is wanted. -/
def mismatch {α : Type} (v : Json) (wanted : String) : Read α :=
  match v.found? with
  | some f => fail (.wrongType f wanted)
  | none => .error .malformed

/-- An integer that so many bits hold with a sign. -/
def readInt (bits : Nat) (wanted : String) : Json → Read Int
  | int n => if fitsSigned bits n then .ok n else fail (.wrongValue (.int n) wanted)
  | v => v.mismatch wanted

/-- The name, if it is one of those there are. -/
def chosen (names : List String) (name : String) : Read String :=
  if name ∈ names then .ok name else fail (.unknownChoice name names)

/-- A choice written as an object has its name as the key and null as the value. -/
def chosenWith (names : List String) (name : String) (v : Json) : Read String := do
  let n ← chosen names name
  match v with
  | null => pure n
  | v => v.mismatch "unit"

def choiceInText (names : List String) : Json → Read String
  | str s => chosen names s
  | obj [] (some v) => v.mismatch "variant identifier"
  | obj ((k, v) :: more) rest => do
    let n ← chosenWith names k v
    if more.isEmpty && rest.isNone then pure n else .error .malformed
  | _ => .error .malformed

def choiceAlone (names : List String) : Json → Read String
  | str s => chosen names s
  | obj [(k, v)] none => chosenWith names k v
  | obj _ _ => fail (.wrongValue .mapping "map with a single key")
  | v => v.mismatch "string or map"

def text? : Json → Option String
  | str s => some s
  | _ => none

/-- What is written for a set of flags. -/
def written? : Json → Option Written
  | int n => if 0 ≤ n && n ≤ 255 then some (.number (UInt8.ofNat n.toNat)) else none
  | str s => some (.joined s)
  | arr items => (items.mapM text?).map .names
  | _ => none

instance : Source Read Input where
  fail := fail
  text i := match i.value with
    | str s => .ok s
    | v => v.mismatch "a string"
  boolean i := match i.value with
    | bool b => .ok b
    | v => v.mismatch "a boolean"
  int64 i := readInt 64 "i64" i.value
  int32 i := readInt 32 "i32" i.value
  optional read i := match i.value with
    | null => .ok none
    | _ => some <$> read i
  list read i := match i.value with
    | arr items => items.mapM fun v => read ⟨i.textual, v⟩
    | v => v.mismatch "a sequence"
  entries visit start i := match i.value with
    | obj members rest => do
      let s ← members.foldlM (fun s e => visit s e.1 ⟨i.textual, e.2⟩) start
      if rest.isSome then .error .malformed else pure s
    | v => v.mismatch "a map"
  record r i := match i.value with
    | obj members rest => do
      let p ← members.foldlM (fun p e => r.visit fail p e.1 ⟨i.textual, e.2⟩) r.begin
      if rest.isSome then .error .malformed else r.close fail p
    | arr items => do
      let (x, rest) ← r.fromSequence fail 0 r.slots r.start (items.map (⟨i.textual, ·⟩))
      if rest.isEmpty then pure x
      else if i.textual then .error .malformed
      else fail (.wrongLength items.length "fewer elements in array")
    | v => v.mismatch r.title
  choice names i := if i.textual then choiceInText names i.value else choiceAlone names i.value
  written i := if i.value.isWhole then .ok i.value.written? else .error .malformed

/-- Reads the one value of a JSON text. -/
def ofText {α : Type} (read : Input → Read α) (text : String) : Read α := do
  let t := parse text
  let x ← read ⟨true, t.root⟩
  if t.complete then pure x else .error .malformed

/-- Reads a value that stands on its own. -/
def ofValue {α : Type} (read : Input → Read α) (v : Json) : Read α := read ⟨false, v⟩

end Json

end Protograph
