import Letterform.Dump.Report

/-!
The command line program.
-/

namespace Letterform.Dump

def errorText (error : IO.Error) : String :=
  match error with
  | .noFileOrDirectory _ _ _ => missingFileText
  | .permissionDenied _ code details => s!"{details} (os error {code})"
  | .inappropriateType _ code details => s!"{details} (os error {code})"
  | other => toString other

def readFile (path : String) : IO (Except String Bytes) := do
  match ← (IO.FS.readBinFile path).toBaseIO with
  | .ok content => return .ok content.toList
  | .error error => return .error (errorText error)

end Letterform.Dump

open Letterform.Dump in
def main (arguments : List String) : IO UInt32 := do
  let outcome ← match Request.ofArguments? arguments with
    | some request => pure (request.outcome (← readFile request.file))
    | none => pure .misuse
  (← IO.getStdout).putStr outcome.output
  (← IO.getStderr).putStr outcome.error
  return outcome.exitCode.toUInt32
