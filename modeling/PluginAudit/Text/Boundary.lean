import PluginAudit.Text.Blank
import PluginAudit.Text.Utf8

/-!
Boundaries of characters among the bytes of a text. A text is cut within a limit by going back from
the limit, byte by byte, to a boundary.
-/

namespace PluginAudit.Text

/-- A byte that belongs to a character begun before it. -/
def continues (b : UInt8) : Bool := 0x80 ≤ b && b < 0xC0

/-- Whether a character begins at the byte `i`, or the text does or ends there. Beyond its end no
place is a boundary. -/
def isBoundary (bytes : Bytes) (i : Nat) : Bool :=
  i == 0 ||
    match bytes[i]? with
    | some b => !continues b
    | none => i == bytes.length

/-- The last boundary up to the byte `i`. Each round tests a byte and goes back to the one before; a
search that would have to go back from the first byte fails. -/
def boundaryUpto? (bytes : Bytes) : Nat → Option Nat
  | 0 => if isBoundary bytes 0 then some 0 else none
  | i + 1 => if isBoundary bytes (i + 1) then some (i + 1) else boundaryUpto? bytes i

/-- The text before the byte `i`, which has to be a boundary. -/
def beforeByte? (cs : List Char) (i : Nat) : Option (List Char) :=
  if isBoundary (encode cs) i then decode? ((encode cs).take i) else none

def cutBack? (cs : List Char) (i : Nat) : Option (List Char) :=
  (boundaryUpto? (encode cs) i).bind (beforeByte? cs)

/-- A text that fits is left alone. -/
def truncate? (limit : Nat) (cs : List Char) : Option (List Char) :=
  if byteSize cs ≤ limit then some cs else cutBack? cs limit

/-- The beginning of what stands between white space; a search starts at its end if it fits. -/
def excerpt? (limit : Nat) (cs : List Char) : Option (List Char) :=
  cutBack? (trim cs) (min (byteSize (trim cs)) limit)

end PluginAudit.Text
