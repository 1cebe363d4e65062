import P2CTools.Source.Text
import Mathlib.Data.List.Lex
import Mathlib.Data.List.Sort
import Mathlib.Order.Fin.Basic

/-!
# Python Values

The objects a caller or a JSON document can put into a field, and the text
`json.dumps` writes for a flat dictionary of them.

A value keeps what the program's own tests look at: `bool` is apart from
`int`, because every integer check of the program refuses a `bool` first, and
`bytes` is apart from `str`. Floating-point numbers are left out, since no
check of the program accepts one.

`dumps` covers the call the program makes, `indent=2` with `sort_keys=True` on
a dictionary of strings and integers. Strings are escaped as the encoder does
it, so that the text is ASCII whatever the strings are.

## Main definitions

* `Value`: A Python object.
* `Value.getItem`: A dictionary lookup.
* `jsonString`: A string as JSON text.
* `dumps`: A flat dictionary as indented JSON text with sorted keys.
-/

namespace P2CTools

open Wire

/-- A Python object that a field can hold. -/
inductive Value
  | none
  | bool (b : Bool)
  | int (n : Int)
  | str (s : Str)
  | bytes (b : Bytes)
  | list (items : List Value)
  | dict (entries : List (Str × Value))

/-- `d[key]` for a key given by a literal. -/
def Value.getItem (entries : List (Str × Value)) (key : String) : Except PyErr Value :=
  match entries.find? fun entry => entry.1 == Str.ofString key with
  | some entry => .ok entry.2
  | Option.none => .error ⟨.keyError, key⟩

/-- Text for an error message; a surrogate is shown as the zero character. -/
def Str.display (s : Str) : String :=
  String.ofList (s.map fun c => Char.ofNat c.val)

/-- `", ".join(sorted(names))`. -/
def joinSorted (names : List Str) : String :=
  ", ".intercalate ((names.insertionSort (· ≤ ·)).map Str.display)

/-- The four digits of a `\u` escape. -/
def unicodeEscape (n : Nat) : Str :=
  Str.ofString "\\u" ++
    [hexDigit (n / 4096 % 16), hexDigit (n / 256 % 16), hexDigit (n / 16 % 16), hexDigit (n % 16)]

/-- A code point as the JSON encoder writes it inside a string. -/
def jsonChar (c : CodePoint) : Str :=
  if c.val = 92 then Str.ofString "\\\\"
  else if c.val = 34 then Str.ofString "\\\""
  else if c.val = 8 then Str.ofString "\\b"
  else if c.val = 9 then Str.ofString "\\t"
  else if c.val = 10 then Str.ofString "\\n"
  else if c.val = 12 then Str.ofString "\\f"
  else if c.val = 13 then Str.ofString "\\r"
  else if 32 ≤ c.val ∧ c.val ≤ 126 then [c]
  else if c.val < 0x10000 then unicodeEscape c.val
  else unicodeEscape (0xD800 + (c.val - 0x10000) / 1024) ++
    unicodeEscape (0xDC00 + (c.val - 0x10000) % 1024)

/-- A string as it stands in a document. -/
def jsonString (s : Str) : Str :=
  Str.ofString "\"" ++ s.flatMap jsonChar ++ Str.ofString "\""

/-- The JSON text of a value that is not a container. -/
def jsonScalar : Value → Except PyErr Str
  | .str s => .ok (jsonString s)
  | .int n => .ok (Str.ofString (toString n))
  | .bool true => .ok (Str.ofString "true")
  | .bool false => .ok (Str.ofString "false")
  | .none => .ok (Str.ofString "null")
  | _ => .error ⟨.typeError, "Object is not a JSON scalar"⟩

/-- `json.dumps(d, indent=2, sort_keys=True)` for a dictionary without nested
    containers. -/
def dumps (entries : List (Str × Value)) : Except PyErr Str := do
  let sorted := entries.insertionSort fun a b => a.1 ≤ b.1
  let lines ← sorted.mapM fun entry => do
    let text ← jsonScalar entry.2
    return Str.ofString "  " ++ jsonString entry.1 ++ Str.ofString ": " ++ text
  if entries = [] then return Str.ofString "\x7b\x7d"
  else return Str.ofString "\x7b\n" ++ (Str.ofString ",\n").intercalate lines ++
    Str.ofString "\n\x7d"

end P2CTools
