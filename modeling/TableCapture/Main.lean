import TableCapture.Program

/-!
# The command

Runs the program on the arguments and the files there are.
-/

open TableCapture

/-- The contents of a file if there is one. -/
def readFile? (name : String) : IO (Option String) := do
  try
    return some (← IO.FS.readFile name)
  catch _ =>
    return none

def main (args : List String) : IO UInt32 := do
  let r ← Program.run readFile? args
  (← IO.getStdout).putStr r.output
  (← IO.getStderr).putStr r.errors
  return .ofNat r.exitCode
