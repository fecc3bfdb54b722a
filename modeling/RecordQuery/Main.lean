import RecordQuery.Program

/-! The program on a real system. -/
namespace RecordQuery

/-- Why the system did not read a file. -/
def FileProblem.ofError : IO.Error → FileProblem
  | .noFileOrDirectory .. => .missing
  | .inappropriateType _ code details =>
    if code = 21 then .isDirectory else if code = 20 then .notDirectory else .other details
  | .invalidArgument _ code details => if code = 36 then .nameTooLong else .other details
  | e => .other (toString e)

/-- The text of a file. -/
def readFile (path : String) : IO (Except FileProblem String) := do
  if path.contains '\x00' then return .error .pathHasNul
  try
    return .ok (← IO.FS.readFile path)
  catch e =>
    return .error (.ofError e)

end RecordQuery

open RecordQuery in
def main (arguments : List String) : IO UInt32 := do
  let outcome ← run readFile (fun name => IO.getEnv name) arguments
  IO.print outcome.output
  IO.eprint outcome.complaint
  return outcome.exitCode
