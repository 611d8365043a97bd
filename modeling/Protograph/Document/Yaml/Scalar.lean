/-
  Protograph.Document.Yaml.Scalar — what the text of a plain scalar means: nothing, a
  truth value, an integer, a number or just a text.

  Integers may be hexadecimal, octal or binary. Digits that begin with a zero are a text.
-/

import Protograph.Document.Cause
import Protograph.Document.Range
import Protograph.Text.Shortest
import Protograph.Document.Yaml.Token

namespace Protograph.Yaml

def isNull (t : String) : Bool := ["null", "Null", "NULL", "~"].contains t

def bool? (t : String) : Option Bool :=
  if ["true", "True", "TRUE"].contains t then some true
  else if ["false", "False", "FALSE"].contains t then some false
  else none

/-! ## Integers -/

def digitValue (c : Char) : Nat :=
  if c.isDigit then c.toNat - 48
  else if 'a' ≤ c && c ≤ 'z' then c.toNat - 87
  else if 'A' ≤ c && c ≤ 'Z' then c.toNat - 55
  else 36

/-- A number written in a base, without sign; at least one digit. -/
def natIn (base : Nat) (cs : List Char) : Option Nat :=
  if cs.isEmpty || cs.any (base ≤ digitValue ·) then none
  else some (cs.foldl (fun n c => n * base + digitValue c) 0)

/-- Digits that begin with a zero and go on. -/
def isPaddedDigits (cs : List Char) : Bool :=
  let ds := match cs with
    | '-' :: r => r
    | '+' :: r => r
    | r => r
  match ds with
  | '0' :: d :: r => (d :: r).all Char.isDigit
  | _ => false

/-- What follows the mark of a base, with the base. -/
def basePart : List Char → Option (Nat × List Char)
  | '0' :: 'x' :: r => some (16, r)
  | '0' :: 'o' :: r => some (8, r)
  | '0' :: 'b' :: r => some (2, r)
  | _ => none

/-- A natural number, in any base, after an optional plus sign. -/
def nat? (t : String) : Option Nat :=
  let cs := match t.toList with
    | '+' :: r => r
    | r => r
  match basePart cs with
  | some (base, r) => natIn base r
  | none => if isPaddedDigits t.toList then none else natIn 10 cs

/-- A number, in any base, after a minus sign. -/
def negative? (t : String) : Option Nat :=
  match t.toList with
  | '-' :: r => match basePart r with
    | some (base, r) => natIn base r
    | none => if isPaddedDigits t.toList then none else natIn 10 r
  | _ => none

def int? (t : String) : Option Int :=
  match nat? t with
  | some n => some n
  | none => (negative? t).map fun n => -(n : Int)

/-- An integer of 64 bits with a sign. -/
def int64? (t : String) : Option Int := (int? t).filter (fitsSigned 64)

/-! ## Numbers with a fraction or an exponent -/

/-- The parts of a number: digits before and after the point, and the exponent. -/
structure Numeral where
  negative : Bool
  whole : List Char
  fraction : List Char
  exponent : Int

def exponent? : List Char → Option Int
  | [] => some 0
  | c :: r =>
    if c = 'e' || c = 'E' then
      match r with
      | '-' :: r => (natIn 10 r).map fun n => -(n : Int)
      | '+' :: r => (natIn 10 r).map Int.ofNat
      | r => (natIn 10 r).map Int.ofNat
    else none

def unsignedNumeral? (negative : Bool) (cs : List Char) : Option Numeral :=
  let whole := cs.takeWhile Char.isDigit
  let r := cs.dropWhile Char.isDigit
  let (fraction, r) := match r with
    | '.' :: r => (r.takeWhile Char.isDigit, r.dropWhile Char.isDigit)
    | r => ([], r)
  if whole.isEmpty && fraction.isEmpty then none
  else (exponent? r).map fun e => ⟨negative, whole, fraction, e⟩

def numeral? (cs : List Char) : Option Numeral :=
  match cs with
  | '-' :: r => unsignedNumeral? true r
  | '+' :: r => unsignedNumeral? false r
  | r => unsignedNumeral? false r

/-- The nearest binary64 number, unless it is beyond the largest. -/
def Numeral.float? (n : Numeral) : Option Float :=
  let digits := (n.whole ++ n.fraction).dropWhile (· = '0')
  let m := digits.foldl (fun m c => m * 10 + digitValue c) 0
  let e := n.exponent - n.fraction.length
  let magnitude := e + digits.length
  let f : Float :=
    if m = 0 || magnitude < -330 then 0
    else if 310 < magnitude then Float.ofScientific 1 false 400
    else Float.ofScientific m (e < 0) e.natAbs
  if f.isInf then none else some (if n.negative then -f else f)

/-- How messages show a number that is no integer; `none` when the text is none. -/
def float? (t : String) : Option String :=
  if [".inf", ".Inf", ".INF", "+.inf", "+.Inf", "+.INF"].contains t then some "inf"
  else if ["-.inf", "-.Inf", "-.INF"].contains t then some "-inf"
  else if [".nan", ".NaN", ".NAN"].contains t then some "NaN"
  else ((numeral? t.toList).bind Numeral.float?).map fun f => (Text.shortestDecimal f.toBits).positional

/-! ## What a scalar is -/

/-- What an integer is, by the words that hold it. -/
def foundInt (n : Int) : Option Found :=
  if fitsSigned 64 n || fitsUnsigned 64 n then some (.int n)
  else if fitsUnsigned 128 n then some (.wide n "u128")
  else if fitsSigned 128 n then some (.wide n "i128")
  else none

def foundNull : Found := .nothing "unit value"

def foundPlain (t : String) : Found :=
  if t = "" || isNull t then foundNull
  else match bool? t with
    | some b => .bool b
    | none => match (int? t).bind foundInt with
      | some f => f
      | none =>
        if isPaddedDigits t.toList then .text t
        else match float? t with
          | some f => .float f
          | none => .text t

def tagFor (name : String) : String := "tag:yaml.org,2002:" ++ name

/-- The name that a tag of the document's own gives. -/
def localTag? : Option String → Option String
  | none => none
  | some t => match t.toList with
    | ['!'] => some "!"
    | '!' :: r => some (String.ofList r)
    | _ => none

/-- What a scalar is. A standard tag says what its text must be. -/
def foundScalar (tag : Option String) (style : Style) (t : String) : Except Cause Found :=
  let must (found : Option Found) (wanted : String) : Except Cause Found :=
    match found with
    | some f => .ok f
    | none => .error (.wrongValue (.text t) wanted)
  match tag with
  | none => .ok (if style = .plain then foundPlain t else .text t)
  | some tag =>
    if tag = tagFor "bool" then must ((bool? t).map .bool) "a boolean"
    else if tag = tagFor "int" then must ((int? t).bind foundInt) "an integer"
    else if tag = tagFor "float" then must ((float? t).map .float) "a float"
    else if tag = tagFor "null" then must (if isNull t then some foundNull else none) "null"
    else if (localTag? (some tag)).isSome && style = .plain then .ok (foundPlain t)
    else .ok (.text t)

/-- Whether the text of a scalar may be read as a value of the standard type `name`. -/
def isReadAs (name : String) (tag : Option String) (style : Style) : Bool :=
  style = .plain || (style = .literal && tag = some (tagFor name))

end Protograph.Yaml
