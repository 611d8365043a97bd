/-
  Protograph.Document.Cause — what can be wrong with a document, and how messages say it.

  A text that is not of its format at all is `malformed`, which has no message. A
  well-formed one whose values are not those of the schema is `invalid`: it has a cause
  and, in formats that tell, the place of the value at fault.
-/

import Protograph.Text.Quoted

namespace Protograph

/-- What stands in a document where something else is wanted. -/
inductive Found
  /-- The value that is no value, by the name its format has for it. -/
  | nothing (name : String)
  | bool (b : Bool)
  | int (n : Int)
  /-- An integer beyond 64 bits, with the type that would hold it. -/
  | wide (n : Int) (type : String)
  | float (text : String)
  | text (s : String)
  | sequence
  | mapping
  deriving DecidableEq, Repr

def Found.describe : Found → String
  | nothing name => name
  | bool b => "boolean `" ++ (if b then "true" else "false") ++ "`"
  | int n => "integer `" ++ toString n ++ "`"
  | wide n type => "integer `" ++ toString n ++ "` as " ++ type
  | float t => "floating point `" ++ t ++ "`"
  | text s => "string " ++ Text.quoted s
  | sequence => "sequence"
  | mapping => "map"

inductive Cause
  | wrongType (found : Found) (wanted : String)
  | wrongValue (found : Found) (wanted : String)
  | unknownField (name : String) (known : List String)
  | repeatedField (name : String)
  | missingField (name : String)
  | unknownChoice (name : String) (known : List String)
  | wrongLength (length : Nat) (wanted : String)
  /-- What is written for a set of flags is neither number, text nor list of texts. -/
  | noMask
  /-- A tag stands inside what is written for a set of flags. -/
  | taggedMask
  | badMaskBits (what : String) (bits : UInt8)
  | badMaskName (what : String) (name : String)
  | unknownType (name : String)
  /-- The document is empty. -/
  | empty
  | tooDeep
  | tooManyRepetitions
  deriving DecidableEq, Repr

namespace Cause

def inTicks (s : String) : String := "`" ++ s ++ "`"

/-- The names that may stand somewhere: `a`, `a` or `b`, one of `a`, `b`, `c`. -/
def oneOf : List String → String
  | [a] => inTicks a
  | [a, b] => inTicks a ++ " or " ++ inTicks b
  | names => "one of " ++ String.intercalate ", " (names.map inTicks)

def binary (bits : UInt8) : String := "0b" ++ String.ofList (Nat.toDigits 2 bits.toNat)

def message : Cause → String
  | wrongType found wanted => "invalid type: " ++ found.describe ++ ", expected " ++ wanted
  | wrongValue found wanted => "invalid value: " ++ found.describe ++ ", expected " ++ wanted
  | unknownField name known => "unknown field " ++ inTicks name ++ ", expected " ++ oneOf known
  | repeatedField name => "duplicate field " ++ inTicks name
  | missingField name => "missing field " ++ inTicks name
  | unknownChoice name known => "unknown variant " ++ inTicks name ++ ", expected " ++ oneOf known
  | wrongLength length wanted => "invalid length " ++ toString length ++ ", expected " ++ wanted
  | noMask => "data did not match any variant of untagged enum RawMask"
  | taggedMask => "untagged and internally tagged enums do not support enum input"
  | badMaskBits what bits => "invalid " ++ what ++ " mask " ++ binary bits
  | badMaskName what name => "unknown " ++ what ++ " " ++ Text.quoted name
  | unknownType name => "unknown protobuf type " ++ Text.quoted name
  | empty => "EOF while parsing a value"
  | tooDeep => "recursion limit exceeded"
  | tooManyRepetitions => "repetition limit exceeded"

/-- Whether a message about the cause tells the place of the value at fault. -/
def hasPlace : Cause → Bool
  | empty | tooDeep | tooManyRepetitions => false
  | _ => true

end Cause

inductive ReadError
  | malformed
  | invalid (cause : Cause) (place : Option String)
  deriving DecidableEq, Repr

namespace ReadError

/-- The message, with the place in front unless it is the whole document. -/
def message? : ReadError → Option String
  | malformed => none
  | invalid cause none => some cause.message
  | invalid cause (some place) =>
    some (if place = "." then cause.message else place ++ ": " ++ cause.message)

/-- The error, at the given place if it tells places and has none yet. -/
def atPlace (place : String) : ReadError → ReadError
  | invalid cause none => if cause.hasPlace then invalid cause (some place) else invalid cause none
  | e => e

end ReadError

end Protograph
