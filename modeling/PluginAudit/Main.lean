import PluginAudit.Command.Execution
import PluginAudit.Machine.Listing

/-!
The program. It works on the machine that the standard input describes.
-/

namespace PluginAudit

/-- All that is left of a stream. -/
partial def remaining (stream : IO.FS.Stream) (read : String) : IO String := do
  let line ← stream.getLine
  if line.isEmpty then return read else remaining stream (read ++ line)

/-- A run of its own for each process needs no other name. -/
def runId : String := "1"

def badInputStatus : UInt32 := 2

end PluginAudit

open PluginAudit in
def main (args : List String) : IO UInt32 := do
  match Machine.ofText? (← remaining (← IO.getStdin) "") with
  | none =>
    (← IO.getStderr).putStrLn "the standard input does not describe a machine"
    return badInputStatus
  | some machine =>
    let result := Command.run machine runId false args
    (← IO.getStdout).putStr result.output
    (← IO.getStderr).putStr result.errors
    return result.status.toUInt32
