/-!
Texts as bytes: the size of a text, cutting it at a number of bytes, and decoding bytes that may
be malformed.
-/

namespace PluginAudit.Text

abbrev Bytes := List UInt8

def byteSize : List Char → Nat
  | [] => 0
  | c :: r => c.utf8Size + byteSize r

/-- The longest initial part of at most `limit` bytes. -/
def takeBytes (limit : Nat) : List Char → List Char
  | [] => []
  | c :: r => if c.utf8Size ≤ limit then c :: takeBytes (limit - c.utf8Size) r else []

def encode (cs : List Char) : Bytes := cs.flatMap String.utf8EncodeChar

/-- The state of a decoder between two bytes: at a character's start, or with a number of bytes
owed, of which the next has to lie in a range. -/
inductive Decoder where
  | start
  | owing (code : Nat) (owed : Nat) (low high : UInt8)

namespace Decoder

/-- What a first byte leads to: nothing of UTF-8, a whole character, or a character to finish. -/
def first (b : UInt8) : List (Option Char) × Decoder :=
  let n := b.toNat
  if n < 0x80 then ([some (Char.ofNat n)], .start)
  else if n < 0xC2 then ([none], .start)
  else if n < 0xE0 then ([], .owing (n - 0xC0) 1 0x80 0xBF)
  else if n = 0xE0 then ([], .owing 0 2 0xA0 0xBF)
  else if n = 0xED then ([], .owing 0xD 2 0x80 0x9F)
  else if n < 0xF0 then ([], .owing (n - 0xE0) 2 0x80 0xBF)
  else if n = 0xF0 then ([], .owing 0 3 0x90 0xBF)
  else if n < 0xF4 then ([], .owing (n - 0xF0) 3 0x80 0xBF)
  else if n = 0xF4 then ([], .owing 4 3 0x80 0x8F)
  else ([none], .start)

/-- The characters completed by one more byte; `none` stands for a malformed sequence. -/
def step : Decoder → UInt8 → List (Option Char) × Decoder
  | .start, b => first b
  | .owing code owed low high, b =>
    if low ≤ b ∧ b ≤ high then
      let code := code * 64 + (b.toNat - 0x80)
      if owed ≤ 1 then ([some (Char.ofNat code)], .start)
      else ([], .owing code (owed - 1) 0x80 0xBF)
    else
      let (out, next) := first b
      (none :: out, next)

/-- An unfinished character at the end is one malformed sequence. -/
def run : Decoder → Bytes → List (Option Char)
  | .start, [] => []
  | .owing .., [] => [none]
  | state, b :: r =>
    let (out, next) := step state b
    out ++ run next r

end Decoder

/-- The characters of a byte sequence, with `none` for each maximal malformed part. -/
def decodeParts (bytes : Bytes) : List (Option Char) := Decoder.run .start bytes

def decode? (bytes : Bytes) : Option (List Char) := (decodeParts bytes).mapM id

structure Malformed where
  index : Nat
  /-- Its number of bytes; none if only the rest of a character is missing. -/
  size : Option Nat
deriving DecidableEq

/-- The first malformed part after `index` whole bytes and `held` bytes of a character. -/
def Decoder.malformedFrom (index held : Nat) : Decoder → Bytes → Option Malformed
  | .start, [] => none
  | .owing .., [] => some ⟨index, none⟩
  | .start, b :: r =>
    match first b with
    | (_, .owing code owed low high) =>
      malformedFrom index 1 (.owing code owed low high) r
    | ([none], .start) => some ⟨index, some 1⟩
    | (_, .start) => malformedFrom (index + 1) 0 .start r
  | .owing code owed low high, b :: r =>
    match step (.owing code owed low high) b with
    | ([some _], .start) => malformedFrom (index + held + 1) 0 .start r
    | ([], next) => malformedFrom index (held + 1) next r
    | _ => some ⟨index, some held⟩

def malformed? (bytes : Bytes) : Option Malformed := Decoder.malformedFrom 0 0 .start bytes

/-- The text of any bytes, a malformed part being read as the replacement character. -/
def decodeLossy (bytes : Bytes) : List Char := (decodeParts bytes).map (·.getD '\uFFFD')

end PluginAudit.Text
