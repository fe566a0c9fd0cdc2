import Verdict.CommandLine

namespace Verdict

-- Reads a file, telling the two usual faults of a path apart from all others.
def readFile (path : String) : IO (Except FileError String) := do
  try
    return .ok (← IO.FS.readFile path)
  catch
    | .noFileOrDirectory _ _ _ => return .error .missing
    | .inappropriateType _ code _ =>
      return .error (if code = 20 then .notDirectory else .directory)
    | error => return .error (.other error.toString)

end Verdict

open Verdict CommandLine in
def main (arguments : List String) : IO UInt32 := do
  let command := Command.ofArguments arguments
  let read ← match command with
    | .run ⟨_, some path, _, _⟩ _ => readFile path
    | _ => pure (.error .missing)
  let report := command.execute fun _ => read
  (← IO.getStdout).putStr report.stdout
  (← IO.getStderr).putStr report.stderr
  return report.exitCode.toUInt32
