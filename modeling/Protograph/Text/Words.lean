/-
  Protograph.Text.Words — the words of an identifier, and the three styles that put
  words together again.

  A word ends at any character that is no letter or digit, before a capital that follows
  a small letter (`userName`), and before the last of several capitals when a small
  letter comes after it (`HTTPLog` is `HTTP`, `Log`). Digits belong to the word they
  stand in.
-/

import Protograph.Text.Cased
import Protograph.Text.Letters

namespace Protograph.Text

def isWordChar (c : Char) : Bool :=
  if c.toNat < 0x80 then c.isAlphanum
  else Letters.wide.any fun r => r.1 ≤ c.toNat && c.toNat ≤ r.2

def isLower (c : Char) : Bool :=
  if c.toNat < 0x80 then c.isLower else Cased.lower.any (·.has c.toNat)

def isUpper (c : Char) : Bool :=
  if c.toNat < 0x80 then c.isUpper else Cased.upper.any (·.has c.toNat)

/-- What the tables say a character becomes; itself where they say nothing. -/
def remapped (single : List Cased.Shift) (many : List (Nat × List Nat)) (c : Char) : List Char :=
  match many.lookup c.toNat with
  | some ns => ns.map Char.ofNat
  | none => [Char.ofNat ((single.findSome? (·.image c.toNat)).getD c.toNat)]

/-- The character in lower case; a few become several characters. -/
def lowerChars (c : Char) : List Char :=
  if c.toNat < 0x80 then [c.toLower] else remapped Cased.toLower Cased.toLowerMany c

/-- The character in upper case; a few become several characters. -/
def upperChars (c : Char) : List Char :=
  if c.toNat < 0x80 then [c.toUpper] else remapped Cased.toUpper Cased.toUpperMany c

/-- Case of the letters since the word began. -/
inductive Run
  | start
  | lower
  | upper
  deriving DecidableEq, Repr

def Run.next (r : Run) (c : Char) : Run :=
  if isLower c then .lower else if isUpper c then .upper else r

/-- Cuts a stretch of letters and digits into words; `word` holds, in reverse, the
    characters of the word under way. -/
def cutWords (run : Run) (word : List Char) : List Char → List (List Char)
  | [] => if word.isEmpty then [] else [word.reverse]
  | c :: cs =>
    match cs.head? with
    | none => [(c :: word).reverse]
    | some n =>
      if run.next c = .lower && isUpper n then (c :: word).reverse :: cutWords .start [] cs
      else if run = .upper && isUpper c && isLower n then word.reverse :: cutWords .start [c] cs
      else cutWords (run.next c) (c :: word) cs

/-- The stretches of letters and digits, between characters that are neither. -/
def stretches : List Char → List (List Char)
  | [] => [[]]
  | c :: cs =>
    if !isWordChar c then [] :: stretches cs
    else match stretches cs with
      | [] => [[c]]
      | p :: ps => (c :: p) :: ps

def words (s : String) : List (List Char) := (stretches s.toList).flatMap (cutWords .start [])

/-- A word in lower case; a sigma that ends it takes its final form. -/
def lowerWord : List Char → List Char
  | [] => []
  | [c] => if c = 'Σ' then ['ς'] else lowerChars c
  | c :: cs => lowerChars c ++ lowerWord cs

/-- A word with its first character in upper case and the rest in lower case. -/
def capitalWord : List Char → List Char
  | [] => []
  | c :: cs => upperChars c ++ lowerWord cs

def upperWord (w : List Char) : List Char := w.flatMap upperChars

/-- Words run together, each with a capital: `UserName`. -/
def upperCamel (s : String) : String := String.ofList ((words s).flatMap capitalWord)

/-- Words in lower case, joined by underscores: `user_name`. -/
def snake (s : String) : String := String.intercalate "_" ((words s).map fun w => String.ofList (lowerWord w))

/-- Words in upper case, joined by underscores: `USER_NAME`. -/
def shoutySnake (s : String) : String := String.intercalate "_" ((words s).map fun w => String.ofList (upperWord w))

end Protograph.Text
