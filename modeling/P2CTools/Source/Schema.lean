import P2CTools.Source.Values
import Mathlib.Computability.RegularExpressions

/-!
# The Published Schema

`schemas/connection-proof-v2.schema.json`, and what JSON Schema says about the
keywords it uses.

An assertion speaks about the values of one type and holds of all others, so
a length, a pattern or a bound says nothing without the `type` next to it. A
pattern is searched for in the text, and in ECMA's regular expressions `^` and
`$` stand for the two ends of the text and for no line end in between: what a
pattern `^..$` accepts are the texts that its inside matches as a whole.
Lengths count code points, and a boolean is not an integer.

The schema of the envelope lists its ten properties with their assertions,
requires all of them and allows no other.

## Main definitions

* `Assertion`: A keyword of a property's schema.
* `Assertion.holds`: What it says about a value.
* `ObjectSchema`: The schema of an object.
* `ObjectSchema.accepts`: The objects it accepts.
* `connectionProofSchema`: The schema of the envelope.
-/

namespace P2CTools

open Wire

/-- An assertion about the value of a property. -/
inductive Assertion
  | typeString
  | typeInteger
  | constString (s : Str)
  | constInteger (n : Int)
  | minLength (n : Nat)
  | maxLength (n : Nat)
  /-- The inside of a pattern `^..$`. -/
  | pattern (inside : RegularExpression CodePoint)
  | minimum (n : Int)
  | maximum (n : Int)

/-- What an assertion says about a value. -/
def Assertion.holds : Assertion → Value → Bool
  | .typeString, .str _ => true
  | .typeString, _ => false
  | .typeInteger, .int _ => true
  | .typeInteger, _ => false
  | .constString s, .str t => s == t
  | .constString _, _ => false
  | .constInteger n, .int m => n == m
  | .constInteger _, _ => false
  | .minLength n, .str s => decide (n ≤ s.length)
  | .minLength _, _ => true
  | .maxLength n, .str s => decide (s.length ≤ n)
  | .maxLength _, _ => true
  | .pattern inside, .str s => inside.rmatch s
  | .pattern _, _ => true
  | .minimum n, .int m => decide (n ≤ m)
  | .minimum _, _ => true
  | .maximum n, .int m => decide (m ≤ n)
  | .maximum _, _ => true

/-- The schema of an object without additional properties. -/
structure ObjectSchema where
  required : List String
  properties : List (String × List Assertion)

/-- The value is an object with the required properties, whose properties are
    all listed and satisfy their assertions. -/
def ObjectSchema.accepts (schema : ObjectSchema) : Value → Bool
  | .dict entries =>
      (schema.required.all fun key => (entries.map Prod.fst).contains (Str.ofString key)) &&
      ((entries.map Prod.fst).all fun key =>
        schema.properties.any fun property => Str.ofString property.1 == key) &&
      schema.properties.all fun property =>
        match Value.getItem entries property.1 with
        | .ok value => property.2.all fun assertion => assertion.holds value
        | .error _ => true
  | _ => false

/-- `[..]` with the given code points. -/
def oneOf (members : Str) : RegularExpression CodePoint :=
  members.foldr (fun c rest => .char c + rest) 0

/-- `[0-9a-f]`. -/
def hexClass : RegularExpression CodePoint :=
  oneOf (Str.ofString "0123456789abcdef")

/-- The inside of `^[0-9a-f]{64}$`. -/
def hashPattern : RegularExpression CodePoint :=
  hexClass ^ 64

/-- The inside of `^02(?:[0-9a-f]{2})*$`. -/
def proofPattern : RegularExpression CodePoint :=
  oneOf (Str.ofString "0") * oneOf (Str.ofString "2") * (hexClass ^ 2).star

/-- `connection-proof-v2.schema.json`. -/
def connectionProofSchema : ObjectSchema where
  required := ["format", "version", "domain", "txid", "input_index", "connection_work_target",
    "root_certificates_version", "signature_algorithms_mask", "validation_time", "proof"]
  properties := [
    ("format", [.constString (Str.ofString "connectcoin-p2c-proof")]),
    ("version", [.typeInteger, .constInteger 2]),
    ("domain", [.typeString, .minLength 1, .maxLength 253]),
    ("txid", [.typeString, .pattern hashPattern]),
    ("input_index", [.typeInteger, .minimum 0, .maximum 4294967295]),
    ("connection_work_target", [.typeString, .pattern hashPattern]),
    ("root_certificates_version", [.typeInteger, .minimum 1, .maximum 4294967295]),
    ("signature_algorithms_mask", [.typeInteger, .minimum 1, .maximum 7]),
    ("validation_time", [.typeInteger, .minimum 1, .maximum 9223372036854775807]),
    ("proof", [.typeString, .pattern proofPattern, .maxLength 131072])]

end P2CTools
