import P2CTools.Source.Envelope

/-!
# Reading Envelopes

`ConnectionProof.read`, from `envelope.py`.

The file is the outcome of reading its bytes. `read_text` decodes them as
UTF-8, strictly: a sequence that is too long, a surrogate and a number above
the last code point are refused. It then turns every line end into a newline.
`json.loads` is a parameter, and so are the exceptions it raises.

## Main definitions

* `decodeUtf8`: `bytes.decode("utf-8")`.
* `universalNewlines`: The line ends of a text file.
* `ConnectionProof.read`: The envelope of a file.
-/

namespace P2CTools

open Wire

section Decoding

/-- The code point of a number that decoding has computed. -/
def codePoint (n : Nat) : CodePoint :=
  Fin.ofNat 0x110000 n

/-- A byte that continues a sequence. -/
def isContinuation (x : UInt8) : Bool :=
  decide (0x80 ≤ x.toNat ∧ x.toNat ≤ 0xBF)

/-- The bytes are a sequence of two for a code point that needs two. -/
def isSequence2 (a b : UInt8) : Bool :=
  decide (0xC2 ≤ a.toNat ∧ a.toNat ≤ 0xDF) && isContinuation b

/-- The same for three, without the surrogates. -/
def isSequence3 (a b c : UInt8) : Bool :=
  decide (0xE0 ≤ a.toNat ∧ a.toNat ≤ 0xEF) && isContinuation b && isContinuation c &&
    decide (a.toNat = 0xE0 → 0xA0 ≤ b.toNat) && decide (a.toNat = 0xED → b.toNat ≤ 0x9F)

/-- The same for four, up to the last code point. -/
def isSequence4 (a b c d : UInt8) : Bool :=
  decide (0xF0 ≤ a.toNat ∧ a.toNat ≤ 0xF4) && isContinuation b && isContinuation c &&
    isContinuation d && decide (a.toNat = 0xF0 → 0x90 ≤ b.toNat) &&
    decide (a.toNat = 0xF4 → b.toNat ≤ 0x8F)

/-- What decoding raises for bytes that are not UTF-8. -/
def utf8Error : PyErr :=
  ⟨.unicodeDecodeError, "'utf-8' codec can't decode bytes"⟩

/-- `bytes.decode("utf-8")`. -/
def decodeUtf8 : Bytes → Except PyErr Str
  | [] => .ok []
  | a :: rest =>
      if a.toNat < 0x80 then do
        let tail ← decodeUtf8 rest
        return codePoint a.toNat :: tail
      else match rest with
        | [] => .error utf8Error
        | b :: rest =>
            if isSequence2 a b then do
              let tail ← decodeUtf8 rest
              return codePoint ((a.toNat - 0xC0) * 64 + (b.toNat - 0x80)) :: tail
            else match rest with
              | [] => .error utf8Error
              | c :: rest =>
                  if isSequence3 a b c then do
                    let tail ← decodeUtf8 rest
                    return codePoint ((a.toNat - 0xE0) * 4096 + (b.toNat - 0x80) * 64 +
                      (c.toNat - 0x80)) :: tail
                  else match rest with
                    | [] => .error utf8Error
                    | d :: rest =>
                        if isSequence4 a b c d then do
                          let tail ← decodeUtf8 rest
                          return codePoint ((a.toNat - 0xF0) * 262144 + (b.toNat - 0x80) * 4096 +
                            (c.toNat - 0x80) * 64 + (d.toNat - 0x80)) :: tail
                        else .error utf8Error

/-- The lines of a text behind a point, where `\r` may have just ended one. -/
def newlinesFrom (afterReturn : Bool) : Str → Str
  | [] => []
  | c :: rest =>
      if c.val = 13 then 10 :: newlinesFrom true rest
      else if c.val = 10 ∧ afterReturn then newlinesFrom false rest
      else c :: newlinesFrom false rest

/-- A text with each of `\r\n` and `\r` as a newline. -/
def universalNewlines (text : Str) : Str :=
  newlinesFrom false text

end Decoding

/-- `ConnectionProof.read`, for the outcome of reading the file's bytes and for
    a `json.loads`. -/
def ConnectionProof.read (L : Lowercase) (loads : Str → Except PyErr Value)
    (file : Except PyErr Bytes) : Except PyErr ConnectionProof := do
  let value ← handle [.osError, .unicodeError, .jsonDecodeError]
    (fun e => .error (formatError ("cannot read connection proof: " ++ e.msg))) do
      let encoded ← file
      let text ← decodeUtf8 encoded
      loads (universalNewlines text)
  fromDict L value

end P2CTools
