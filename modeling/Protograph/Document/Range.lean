/-
  Protograph.Document.Range — which integers a number of bits can hold.
-/

namespace Protograph

/-- Whether so many bits hold the integer, without a sign. -/
def fitsUnsigned (bits : Nat) (n : Int) : Bool := 0 ≤ n && n < (Nat.pow 2 bits : Nat)

/-- Whether so many bits hold the integer, one of them for the sign. -/
def fitsSigned (bits : Nat) (n : Int) : Bool := -(Nat.pow 2 (bits - 1) : Nat) ≤ n && n < (Nat.pow 2 (bits - 1) : Nat)

end Protograph
