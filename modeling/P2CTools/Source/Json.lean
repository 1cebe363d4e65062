import P2CTools.Source.Values

/-!
# JSON

The two calls of `json` that the program makes, `json.loads(text)` and
`json.dumps(value, indent=2, sort_keys=True)`, on documents of any nesting.

The reader follows the scanner of the standard library, character by
character. A code point escaped as two surrogates is one code point again, a
surrogate that stands alone is kept, and a key that occurs twice has its last
value. Two limits of the interpreter are part of it: an integer of more than
4300 digits is a plain `ValueError`, and a document nested deeper than the
interpreter recurses is a `RecursionError`, which has no class of its own here.
What a floating-point number becomes is a parameter, since `Value` has none.

A loop over the items of a container has as its bound the number of code
points that are left. The texts of errors come without the position that the
library adds to them.

## Main definitions

* `encode`: A value as indented JSON text with sorted keys.
* `scanString`, `scanNumber`: Strings and numbers.
* `scanItems`, `scanMembers`: The inside of a container.
* `scanValue`: A value at the front of a text.
* `loads`: A whole document.
-/

namespace P2CTools

open Wire

section Encode

/-- A line end and the indentation of a level. -/
def newline (level : Nat) : Str :=
  Str.ofString "\n" ++ List.replicate (2 * level) 32

/-- The items of a container, each on a line of its own. -/
def bracketed (left right : String) (level : Nat) (items : List Str) : Str :=
  if items = [] then Str.ofString left ++ Str.ofString right
  else Str.ofString left ++ newline (level + 1) ++
    (Str.ofString "," ++ newline (level + 1)).intercalate items ++ newline level ++
    Str.ofString right

/-- A key and its value's text. -/
def member (entry : Str × Str) : Str :=
  jsonString entry.1 ++ Str.ofString ": " ++ entry.2

mutual

/-- `json.dumps(value, indent=2, sort_keys=True)`, inside some containers. -/
def encode (level : Nat) : Value → Except PyErr Str
  | .list items => do
      let texts ← encodeItems (level + 1) items
      return bracketed "[" "]" level texts
  | .dict entries => do
      let texts ← encodeEntries (level + 1) entries
      return bracketed "\x7b" "\x7d" level
        ((texts.insertionSort fun a b => a.1 ≤ b.1).map member)
  | .none => jsonScalar .none
  | .bool b => jsonScalar (.bool b)
  | .int n => jsonScalar (.int n)
  | .str s => jsonScalar (.str s)
  | .bytes b => jsonScalar (.bytes b)

/-- The texts of the items of an array, at a level of indentation. -/
def encodeItems (level : Nat) : List Value → Except PyErr (List Str)
  | [] => .ok []
  | item :: items => do
      let text ← encode level item
      let texts ← encodeItems level items
      return text :: texts

/-- The texts of the values of an object beside their keys. -/
def encodeEntries (level : Nat) : List (Str × Value) → Except PyErr (List (Str × Str))
  | [] => .ok []
  | (key, value) :: entries => do
      let text ← encode level value
      let texts ← encodeEntries level entries
      return (key, text) :: texts

end

end Encode

section Scan

/-- `json.JSONDecodeError`. -/
def decodeError (msg : String) : PyErr :=
  ⟨.jsonDecodeError, msg⟩

/-- There is no value where there has to be one. -/
def expectingValue : PyErr :=
  decodeError "Expecting value"

/-- A document that is nested deeper than the interpreter recurses. -/
def recursionError : PyErr :=
  ⟨.exception, "maximum recursion depth exceeded while decoding a JSON document"⟩

/-- `sys.int_info.default_max_str_digits`. -/
abbrev maxStrDigits : Nat := 4300

/-- What `int` raises for more than 4300 digits. -/
def digitsError : PyErr :=
  valueError "Exceeds the limit (4300 digits) for integer string conversion"

/-- `" \t\n\r"`. -/
def isJsonSpace (c : CodePoint) : Bool :=
  decide (c.val = 32 ∨ c.val = 9 ∨ c.val = 10 ∨ c.val = 13)

/-- The text behind the white space at its front. -/
def skipSpace (text : Str) : Str :=
  text.dropWhile isJsonSpace

/-- A text without a code point that has to be at its front. -/
def expect (code : Nat) (e : PyErr) : Str → Except PyErr Str
  | [] => .error e
  | c :: rest => if c.val = code then .ok rest else .error e

/-- The number of four hexadecimal digits. -/
def hexQuad (a b c d : CodePoint) : Option Nat := do
  let a ← hexValue a
  let b ← hexValue b
  let c ← hexValue c
  let d ← hexValue d
  return ((a * 16 + b) * 16 + c) * 16 + d

/-- What a backslash and a code point stand for. -/
def simpleEscape (c : CodePoint) : Option CodePoint :=
  if c.val = 34 ∨ c.val = 92 ∨ c.val = 47 then some c
  else if c.val = 98 then some 8
  else if c.val = 102 then some 12
  else if c.val = 110 then some 10
  else if c.val = 114 then some 13
  else if c.val = 116 then some 9
  else none

/-- The first half of a surrogate pair. -/
def isHighSurrogate (n : Nat) : Bool :=
  decide (0xD800 ≤ n ∧ n ≤ 0xDBFF)

/-- The second half of a surrogate pair. -/
def isLowSurrogate (n : Nat) : Bool :=
  decide (0xDC00 ≤ n ∧ n ≤ 0xDFFF)

/-- The code point of two surrogates. -/
def joinSurrogates (high low : Nat) : Nat :=
  0x10000 + (high - 0xD800) * 1024 + (low - 0xDC00)

/-- A high surrogate that stands alone. -/
def alone (high : Option Nat) : Str :=
  high.toList.map (Fin.ofNat 0x110000)

/-- The rest of a string and what follows its end. The option is a high
    surrogate that has just been escaped. -/
def scanString (high : Option Nat) : Str → Except PyErr (Str × Str)
  | [] => .error (decodeError "Unterminated string starting at")
  | c :: rest =>
      if c.val = 34 then .ok (alone high, rest)
      else if c.val < 32 then .error (decodeError "Invalid control character at")
      else if c.val ≠ 92 then do
        let (tail, rest) ← scanString none rest
        return (alone high ++ c :: tail, rest)
      else match rest with
        | [] => .error (decodeError "Unterminated string starting at")
        | d :: rest =>
            if d.val = 117 then match rest with
              | h₁ :: h₂ :: h₃ :: h₄ :: rest =>
                  match hexQuad h₁ h₂ h₃ h₄ with
                  | none => .error (decodeError "Invalid \\uXXXX escape")
                  | some n =>
                      -- The digits may not be the last of the text.
                      if rest = [] then .error (decodeError "Invalid \\uXXXX escape")
                      else if isHighSurrogate n then do
                        let (tail, rest) ← scanString (some n) rest
                        return (alone high ++ tail, rest)
                      else if isLowSurrogate n ∧ high.isSome then do
                        let (tail, rest) ← scanString none rest
                        return (Fin.ofNat 0x110000 (joinSurrogates (high.getD 0) n) :: tail, rest)
                      else do
                        let (tail, rest) ← scanString none rest
                        return (alone high ++ Fin.ofNat 0x110000 n :: tail, rest)
              | _ => .error (decodeError "Invalid \\uXXXX escape")
            else match simpleEscape d with
              | none => .error (decodeError "Invalid \\escape: ")
              | some e => do
                  let (tail, rest) ← scanString none rest
                  return (alone high ++ e :: tail, rest)

/-- One of the ten decimal digits. -/
def isDigit (c : CodePoint) : Bool :=
  decide (48 ≤ c.val ∧ c.val ≤ 57)

/-- The number that decimal digits stand for. -/
def decimal (digits : Str) : Nat :=
  digits.foldl (fun n c => n * 10 + (c.val - 48)) 0

/-- The digits of an integer, which is zero or does not begin with a zero. -/
def integerPart : Str → Option (Str × Str)
  | [] => none
  | c :: rest =>
      if c.val = 48 then some ([c], rest)
      else if isDigit c then some (c :: rest.takeWhile isDigit, rest.dropWhile isDigit)
      else none

/-- A point and digits. -/
def fractionPart : Str → Str × Str
  | p :: d :: rest =>
      if p.val = 46 ∧ isDigit d = true then
        (p :: d :: rest.takeWhile isDigit, rest.dropWhile isDigit)
      else ([], p :: d :: rest)
  | text => ([], text)

/-- A sign. -/
def signPart : Str → Str × Str
  | [] => ([], [])
  | c :: rest => if c.val = 43 ∨ c.val = 45 then ([c], rest) else ([], c :: rest)

/-- The letter, a sign and digits. -/
def exponentPart : Str → Str × Str
  | [] => ([], [])
  | e :: rest =>
      if e.val ≠ 69 ∧ e.val ≠ 101 then ([], e :: rest)
      else if (signPart rest).2.takeWhile isDigit = [] then ([], e :: rest)
      else (e :: (signPart rest).1 ++ (signPart rest).2.takeWhile isDigit,
        (signPart rest).2.dropWhile isDigit)

-- What a floating-point number becomes, given its text.
variable (float : Str → Value)

/-- A number behind its sign. -/
def scanUnsigned (negative : Bool) (text : Str) : Except PyErr (Value × Str) :=
  match integerPart text with
  | none => .error expectingValue
  | some (digits, rest) =>
      let (fraction, rest) := fractionPart rest
      let (exponent, rest) := exponentPart rest
      if fraction = [] ∧ exponent = [] then
        if digits.length > maxStrDigits then .error digitsError
        else .ok (.int (if negative then -(decimal digits : Int) else decimal digits), rest)
      else .ok (float ((if negative then Str.ofString "-" else []) ++ digits ++ fraction ++ exponent),
        rest)

/-- Scan a number, with a sign or without. -/
def scanNumber : Str → Except PyErr (Value × Str)
  | [] => .error expectingValue
  | c :: rest =>
      if c.val = 45 then scanUnsigned float true rest else scanUnsigned float false (c :: rest)

/-- The words of JSON, and those that Python adds. -/
def constants : List (Str × Value) :=
  [(Str.ofString "null", .none), (Str.ofString "true", .bool true),
    (Str.ofString "false", .bool false), (Str.ofString "NaN", float (Str.ofString "NaN")),
    (Str.ofString "Infinity", float (Str.ofString "Infinity")),
    (Str.ofString "-Infinity", float (Str.ofString "-Infinity"))]

/-- A word at the front of a text. -/
def scanConstant (text : Str) : Option (Value × Str) :=
  (constants float).findSome? fun word =>
    if word.1.isPrefixOf text then some (word.2, text.drop word.1.length) else none

/-- `d[key] = value`. -/
def setItem (entries : List (Str × Value)) (key : Str) (value : Value) : List (Str × Value) :=
  if key ∈ entries.map Prod.fst then
    entries.map fun entry => if entry.1 = key then (key, value) else entry
  else entries ++ [(key, value)]

section Containers

-- The scanner for what is inside.
variable (nested : Str → Except PyErr (Value × Str))

/-- The items of an array that is not empty, for at most the given number. -/
def scanItems : Nat → List Value → Str → Except PyErr (Value × Str)
  | 0, _, _ => .error stuck
  | fuel + 1, items, text => do
      let (value, rest) ← nested text
      match skipSpace rest with
      | [] => .error (decodeError "Expecting ',' delimiter")
      | c :: rest =>
          if c.val = 93 then .ok (.list (items ++ [value]), rest)
          else if c.val = 44 then scanItems fuel (items ++ [value]) (skipSpace rest)
          else .error (decodeError "Expecting ',' delimiter")

/-- An array behind its bracket. -/
def scanArray (text : Str) : Except PyErr (Value × Str) :=
  match skipSpace text with
  | [] => .error expectingValue
  | c :: rest =>
      if c.val = 93 then .ok (.list [], rest)
      else scanItems nested (text.length + 1) [] (c :: rest)

/-- A member of an object, put among those before it. -/
def scanMember (entries : List (Str × Value)) (text : Str) :
    Except PyErr (List (Str × Value) × Str) := do
  let rest ← expect 34 (decodeError "Expecting property name enclosed in double quotes") text
  let (key, rest) ← scanString none rest
  let rest ← expect 58 (decodeError "Expecting ':' delimiter") (skipSpace rest)
  let (value, rest) ← nested (skipSpace rest)
  return (setItem entries key value, rest)

/-- The members of an object that is not empty, for at most the given number. -/
def scanMembers : Nat → List (Str × Value) → Str → Except PyErr (Value × Str)
  | 0, _, _ => .error stuck
  | fuel + 1, entries, text => do
      let (entries, rest) ← scanMember nested entries text
      match skipSpace rest with
      | [] => .error (decodeError "Expecting ',' delimiter")
      | c :: rest =>
          if c.val = 125 then .ok (.dict entries, rest)
          else if c.val = 44 then scanMembers fuel entries (skipSpace rest)
          else .error (decodeError "Expecting ',' delimiter")

/-- An object behind its brace. -/
def scanObject (text : Str) : Except PyErr (Value × Str) :=
  match skipSpace text with
  | [] => .error (decodeError "Expecting property name enclosed in double quotes")
  | c :: rest =>
      if c.val = 125 then .ok (.dict [], rest)
      else scanMembers nested (text.length + 1) [] (c :: rest)

end Containers

/-- A value, with scanners for arrays and objects. -/
def scanOnce (array object : Str → Except PyErr (Value × Str)) :
    Str → Except PyErr (Value × Str)
  | [] => .error expectingValue
  | c :: rest =>
      if c.val = 34 then do
        let (s, rest) ← scanString none rest
        return (.str s, rest)
      else if c.val = 123 then object rest
      else if c.val = 91 then array rest
      else match scanConstant float (c :: rest) with
        | some found => .ok found
        | none => scanNumber float (c :: rest)

/-- A value at the front of a text, inside which containers may be nested as
    deep as the number says. -/
def scanValue : Nat → Str → Except PyErr (Value × Str)
  | 0 => scanOnce float (fun _ => .error recursionError) fun _ => .error recursionError
  | depth + 1 =>
      scanOnce float (scanArray (scanValue depth)) (scanObject (scanValue depth))

/-- `json.loads`. -/
def loads (depth : Nat) (text : Str) : Except PyErr Value := do
  failIf (text.head? = some 0xFEFF) (decodeError "Unexpected UTF-8 BOM (decode using utf-8-sig)")
  let (value, rest) ← scanValue float depth (skipSpace text)
  failIf (skipSpace rest ≠ []) (decodeError "Extra data")
  return value

end Scan

end P2CTools
