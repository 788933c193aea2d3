/-!
Whole numbers without a sign as users write them.
-/

namespace PluginAudit.Text

/-- The number below `bound` that is written in a text: digits, before which a plus may stand. -/
def natural? (bound : Nat) (text : List Char) : Option Nat :=
  let digits :=
    match text with
    | '+' :: r => r
    | r => r
  if digits.isEmpty || !digits.all Char.isDigit then none
  else
    let n := digits.foldl (fun n c => min (n * 10 + (c.toNat - 48)) bound) 0
    if n < bound then some n else none

end PluginAudit.Text
