/-
  Protograph.Document.Json — JSON values, and reading them from a text.

  A text is read as far as it is JSON. Where it stops being so the value is `broken`: a
  sequence then ends with `broken`, and an object has something other than its closing
  brace where the next key would be (`rest`). So whoever walks a value in the order of
  the text meets what stands before the broken part first. Containers nested deeper than
  the limit are broken too.
-/

import Protograph.Text.Shortest
import Protograph.Document.Range

namespace Protograph

inductive Json
  | null
  | bool (b : Bool)
  | int (n : Int)
  /-- A number with a fraction or an exponent, or one too large for 64 bits, as shown. -/
  | float (shown : String)
  | str (s : String)
  | arr (items : List Json)
  /-- Keys and values in the order of the text; `rest` is what stands where a closing
      brace should. -/
  | obj (members : List (String × Json)) (rest : Option Json)
  /-- No value. -/
  | broken
  deriving Repr, Inhabited, BEq

namespace Json

mutual

/-- Whether no part of the value is broken. -/
def isWhole : Json → Bool
  | broken => false
  | arr items => areWhole items
  | obj members rest => membersWhole members && rest.isNone
  | _ => true

def areWhole : List Json → Bool
  | [] => true
  | v :: vs => v.isWhole && areWhole vs

def membersWhole : List (String × Json) → Bool
  | [] => true
  | (_, v) :: ms => v.isWhole && membersWhole ms

end

/-- The value of a key in an object. -/
def get? : Json → String → Option Json
  | obj members _, key => members.lookup key
  | _, _ => none

/-! ## Numbers -/

/-- The digits at the front of a text, and what follows. -/
def digits (cs : List Char) : List Nat × List Char :=
  ((cs.takeWhile Char.isDigit).map fun c => c.toNat - 48, cs.dropWhile Char.isDigit)

/-- The lexical parts of a number. -/
structure Numeral where
  negative : Bool
  whole : List Nat
  fraction : Option (List Nat)
  exponent : Option (Bool × List Nat)

/-- The exponent that follows, if any; `none` when a mark stands without digits. -/
def exponentPart : List Char → Option (Option (Bool × List Nat) × List Char)
  | c :: cs =>
    if c = 'e' || c = 'E' then
      let (minus, cs) := match cs with
        | '-' :: r => (true, r)
        | '+' :: r => (false, r)
        | r => (false, r)
      match digits cs with
      | ([], _) => none
      | (ds, rest) => some (some (minus, ds), rest)
    else some (none, c :: cs)
  | [] => some (none, [])

/-- The numeral at the front of a text. A zero before the point stands alone, and at
    least one digit follows a point and an exponent mark. -/
def numeral (cs : List Char) : Option (Numeral × List Char) :=
  let (negative, cs) := match cs with
    | '-' :: r => (true, r)
    | r => (false, r)
  match digits cs with
  | ([], _) => none
  | (0 :: _ :: _, _) => none
  | (whole, '.' :: r) => match digits r with
    | ([], _) => none
    | (fraction, r) => (exponentPart r).map fun (e, r) => (⟨negative, whole, some fraction, e⟩, r)
  | (whole, r) => (exponentPart r).map fun (e, r) => (⟨negative, whole, none, e⟩, r)

/-- The largest number of 64 bits. -/
def maxWord : Nat := 18446744073709551615

/-- Takes digits into a significand of 64 bits while they fit. -/
def takeDigits (significand : Nat) : List Nat → Nat × List Nat
  | [] => (significand, [])
  | d :: ds =>
    if significand * 10 + d ≤ maxWord then takeDigits (significand * 10 + d) ds
    else (significand, d :: ds)

/-- Multiplies a number by ten to a power, in steps that a binary64 number can hold;
    `none` when the result is too large for one. -/
def scaled (fuel : Nat) (f : Float) (exponent : Int) : Option Float :=
  if exponent.natAbs ≤ 308 then
    let power := Float.ofScientific 1 false exponent.natAbs
    if 0 ≤ exponent then
      if (f * power).isInf then none else some (f * power)
    else some (f / power)
  else if f == 0 then some f
  else if 0 ≤ exponent then none
  else match fuel with
    | 0 => some 0
    | fuel + 1 => scaled fuel (f / Float.ofScientific 1 false 308) (exponent + 308)

/-- The exponent as written; one that 32 bits cannot hold is as good as any other. -/
def Numeral.writtenExponent (n : Numeral) : Int :=
  match n.exponent with
  | none => 0
  | some (minus, ds) =>
    let e := ds.foldl (fun e d => if e < Nat.pow 2 32 then e * 10 + d else e) 0
    if minus then -(e : Int) else e

/-- The value of a numeral: an integer where 64 bits hold it and it has neither fraction
    nor exponent, otherwise a binary64 number, and `none` when that is too large. -/
def Numeral.value (n : Numeral) : Option Json :=
  let (significand, left) := takeDigits 0 n.whole
  let plain := left.isEmpty && n.fraction.isNone && n.exponent.isNone
  if plain && !n.negative then some (.int significand)
  else if plain && 0 < significand && significand ≤ Nat.pow 2 63 then some (.int (-(significand : Int)))
  else
    let (significand, spare) := takeDigits significand (n.fraction.getD [])
    let places := (n.fraction.getD []).length - spare.length
    let base : Int := (left.length : Int) - places
    let written := n.writtenExponent
    let magnitude : Option Float :=
      if !fitsSigned 32 written then (if significand = 0 || written < 0 then some 0 else none)
      else scaled 40 (Float.ofNat significand) (base + written)
    magnitude.map fun f =>
      let f := if n.negative then -f else f
      .float (Text.shortestDecimal f.toBits).scientific

/-! ## Strings -/

def hexValue (c : Char) : Option Nat :=
  if c.isDigit then some (c.toNat - 48)
  else if 'a' ≤ c && c ≤ 'f' then some (c.toNat - 87)
  else if 'A' ≤ c && c ≤ 'F' then some (c.toNat - 55)
  else none

def hexFour (a b c d : Char) : Option Nat := do
  let a ← hexValue a
  let b ← hexValue b
  let c ← hexValue c
  let d ← hexValue d
  return ((a * 16 + b) * 16 + c) * 16 + d

def isHighSurrogate (n : Nat) : Bool := 0xD800 ≤ n && n < 0xDC00

def isLowSurrogate (n : Nat) : Bool := 0xDC00 ≤ n && n < 0xE000

/-- The character that a letter after a backslash stands for. -/
def escaped? (c : Char) : Option Char :=
  [('"', '"'), ('\\', '\\'), ('/', '/'), ('b', '\x08'), ('f', '\x0c'), ('n', '\n'), ('r', '\r'), ('t', '\t')].lookup c

/-- Reads a string up to its closing quote; `done` holds, in reverse, what is read. A
    pair of surrogates is one character, and one alone is none. -/
def stringBody (done : List Char) : List Char → Option (String × List Char)
  | [] => none
  | '"' :: rest => some (String.ofList done.reverse, rest)
  | '\\' :: 'u' :: a :: b :: c :: d :: '\\' :: 'u' :: e :: f :: g :: h :: rest =>
    match hexFour a b c d with
    | none => none
    | some n =>
      if isHighSurrogate n then
        match hexFour e f g h with
        | some l =>
          if isLowSurrogate l then
            stringBody (Char.ofNat (0x10000 + (n - 0xD800) * 0x400 + (l - 0xDC00)) :: done) rest
          else none
        | none => none
      else if isLowSurrogate n then none
      else stringBody (Char.ofNat n :: done) ('\\' :: 'u' :: e :: f :: g :: h :: rest)
  | '\\' :: 'u' :: a :: b :: c :: d :: rest =>
    match hexFour a b c d with
    | none => none
    | some n =>
      if isHighSurrogate n || isLowSurrogate n then none
      else stringBody (Char.ofNat n :: done) rest
  | '\\' :: c :: rest => match escaped? c with
    | some e => stringBody (e :: done) rest
    | none => none
  | c :: rest => if c.toNat < 0x20 || c = '\\' then none else stringBody (c :: done) rest

/-! ## Values -/

def isSpace (c : Char) : Bool := c = ' ' || c = '\n' || c = '\t' || c = '\r'

def skipSpace (cs : List Char) : List Char := cs.dropWhile isSpace

/-- How deep containers may be nested. -/
def maxDepth : Nat := 127

/-- What follows a word at the front of a text. -/
def afterWord (word : String) (cs : List Char) : Option (List Char) :=
  if word.toList.isPrefixOf cs then some (cs.drop word.length) else none

mutual

/-- The value at the front of a text, and what follows. `depth` more levels of
    containers are allowed; `fuel` bounds the steps. -/
def readValue (fuel depth : Nat) (cs : List Char) : Json × List Char :=
  match fuel with
  | 0 => (broken, [])
  | fuel + 1 =>
    match skipSpace cs with
    | [] => (broken, [])
    | '"' :: r => match stringBody [] r with
      | some (s, r) => (str s, r)
      | none => (broken, [])
    | '[' :: r =>
      if depth = 0 then (broken, [])
      else
        let (items, r) := readItems fuel (depth - 1) true r
        (arr items, r)
    | '{' :: r =>
      if depth = 0 then (broken, [])
      else
        let (members, rest, r) := readMembers fuel (depth - 1) true r
        (obj members rest, r)
    | c :: r =>
      if c = 'n' then word "null" null (c :: r)
      else if c = 't' then word "true" (bool true) (c :: r)
      else if c = 'f' then word "false" (bool false) (c :: r)
      else match numeral (c :: r) with
        | some (n, r) => match n.value with
          | some v => (v, r)
          | none => (broken, [])
        | none => (broken, [])
where
  word (w : String) (v : Json) (cs : List Char) : Json × List Char :=
    match afterWord w cs with
    | some r => (v, r)
    | none => (broken, [])

/-- The items of a sequence up to its bracket. -/
def readItems (fuel depth : Nat) (first : Bool) (cs : List Char) : List Json × List Char :=
  match fuel with
  | 0 => ([broken], [])
  | fuel + 1 =>
    match skipSpace cs with
    | [] => ([broken], [])
    | c :: r =>
      if c = ']' then ([], r)
      else if first || c = ',' then
        let (v, r) := readValue fuel depth (if first then c :: r else r)
        let (vs, r) := readItems fuel depth false r
        (v :: vs, r)
      else ([broken], [])

/-- The members of an object up to its brace, and what stands in the brace's place. -/
def readMembers (fuel depth : Nat) (first : Bool) (cs : List Char) :
    List (String × Json) × Option Json × List Char :=
  match fuel with
  | 0 => ([], some broken, [])
  | fuel + 1 =>
    match skipSpace cs with
    | [] => ([], some broken, [])
    | c :: r =>
      if c = '}' then ([], none, r)
      else if first || c = ',' then
        match (if first then c :: r else skipSpace r) with
        | '"' :: r => match stringBody [] r with
          | none => ([], some broken, [])
          | some (key, r) => match skipSpace r with
            | ':' :: r =>
              let (v, r) := readValue fuel depth r
              let (ms, rest, r) := readMembers fuel depth false r
              ((key, v) :: ms, rest, r)
            | _ => ([(key, broken)], some broken, [])
        | other => if first then ([], some (readValue fuel depth other).1, []) else ([], some broken, [])
      else ([], some broken, [])

end

/-- A text as far as it is JSON: its value, and whether nothing but white space follows. -/
structure Reading where
  root : Json
  complete : Bool

def parse (text : String) : Reading :=
  let cs := text.toList
  let (v, rest) := readValue (2 * cs.length + 2) maxDepth cs
  ⟨v, (skipSpace rest).isEmpty⟩

end Json

end Protograph
