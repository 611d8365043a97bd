/-
  Protograph.Text.Shortest — a binary64 number as the shortest decimal that reads back
  to it.

  A positive number is m · 2^q. The decimals that read back to it fill the interval that
  ends half way to its two neighbours, the ends included when m is even. For one digit,
  two digits and so on up to seventeen, the two decimals of that many digits around the
  number are tried; the first count for which one of them lies in the interval wins, and
  of two that do the nearer.
-/

namespace Protograph.Text

/-- A decimal: `digits` times ten to the power `exponent`. -/
structure Decimal where
  negative : Bool
  digits : Nat
  exponent : Int
  deriving DecidableEq, Repr

namespace Shortest

/-- The ends of the interval and the number itself, in quarters of the last binary place. -/
structure Interval where
  low : Nat
  value : Nat
  high : Nat
  /-- The numbers above count units of two to this power. -/
  exponent : Int
  closed : Bool

def interval (m : Nat) (q : Int) : Interval :=
  let narrow := m == Nat.pow 2 52 && q > -1074
  { low := 4 * m - (if narrow then 1 else 2), value := 4 * m, high := 4 * m + 2, exponent := q - 2,
    closed := m % 2 == 0 }

def power (b : Nat) (e : Int) : Nat := Nat.pow b e.toNat

/-- The largest e with 10^e at most n / d, for positive n and d. -/
def decimalMagnitude (n d : Nat) : Int :=
  if d ≤ n then (Nat.toDigits 10 (n / d)).length - 1
  else
    let up := (Nat.toDigits 10 (d / n)).length
    if d ≤ n * Nat.pow 10 (up - 1) then -((up : Int) - 1) else -(up : Int)

/-- The decimal of `count` digits in the interval, if there is one. -/
def ofCount (i : Interval) (magnitude : Int) (count : Nat) : Option (Nat × Int) :=
  let p := magnitude - (count - 1)
  let scale := power 2 i.exponent * power 10 (-p)
  let unit := power 2 (-i.exponent) * power 10 p
  let c := i.value * scale / unit
  let inside (c : Nat) : Bool :=
    if i.closed then i.low * scale ≤ c * unit && c * unit ≤ i.high * scale
    else i.low * scale < c * unit && c * unit < i.high * scale
  let below := i.value * scale - c * unit
  let above := (c + 1) * unit - i.value * scale
  match inside c, inside (c + 1) with
  | true, true => if below < above || (below == above && c % 2 == 0) then some (c, p) else some (c + 1, p)
  | true, false => some (c, p)
  | false, true => some (c + 1, p)
  | false, false => none

/-- Moves the zeros at the end of the digits into the exponent. -/
def withoutZeros : Nat → Nat × Int → Nat × Int
  | 0, d => d
  | fuel + 1, (n, p) => if n % 10 == 0 && n != 0 then withoutZeros fuel (n / 10, p + 1) else (n, p)

end Shortest

/-- The shortest decimal that reads back to a finite number, given by its bits. -/
def shortestDecimal (bits : UInt64) : Decimal :=
  let b := bits.toNat
  let negative : Bool := b / Nat.pow 2 63 == 1
  let field : Nat := b / Nat.pow 2 52 % Nat.pow 2 11
  let fraction : Nat := b % Nat.pow 2 52
  let (m, q) : Nat × Int :=
    if field = 0 then (fraction, (-1074 : Int)) else (fraction + Nat.pow 2 52, (field : Int) - 1075)
  if m = 0 then ⟨negative, 0, 0⟩
  else
    let i := Shortest.interval m q
    let magnitude := Shortest.decimalMagnitude (i.value * Shortest.power 2 i.exponent) (Shortest.power 2 (-i.exponent))
    let found := (List.range 17).findSome? fun n => Shortest.ofCount i magnitude (n + 1)
    let (digits, exponent) := Shortest.withoutZeros 20 (found.getD (m, q))
    ⟨negative, digits, exponent⟩

namespace Decimal

def zeros (n : Nat) : List Char := List.replicate n '0'

/-- Positional notation from 10^-5 up to 10^16, always with a digit after the point;
    beyond that one digit before the point and an exponent. -/
def scientific (d : Decimal) : String :=
  let sign := if d.negative then "-" else ""
  let ds := Nat.toDigits 10 d.digits
  let point : Int := ds.length + d.exponent
  let body : List Char :=
    if d.digits = 0 then ['0', '.', '0']
    else if 0 ≤ d.exponent && point ≤ 16 then ds ++ zeros d.exponent.toNat ++ ['.', '0']
    else if 0 < point && point ≤ 16 then ds.take point.toNat ++ '.' :: ds.drop point.toNat
    else if -5 < point && point ≤ 0 then ['0', '.'] ++ zeros (-point).toNat ++ ds
    else
      let tail := match ds.drop 1 with
        | [] => []
        | r => '.' :: r
      ds.take 1 ++ tail ++ 'e' :: (toString (point - 1)).toList
  sign ++ String.ofList body

/-- Positional notation without end, always with a digit after the point. -/
def positional (d : Decimal) : String :=
  let sign := if d.negative then "-" else ""
  let ds := Nat.toDigits 10 d.digits
  let point : Int := ds.length + d.exponent
  let body : List Char :=
    if d.digits = 0 then ['0', '.', '0']
    else if 0 ≤ d.exponent then ds ++ zeros d.exponent.toNat ++ ['.', '0']
    else if 0 < point then ds.take point.toNat ++ '.' :: ds.drop point.toNat
    else ['0', '.'] ++ zeros (-point).toNat ++ ds
  sign ++ String.ofList body

end Decimal

end Protograph.Text
