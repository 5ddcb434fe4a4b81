import JackScopes.Program

/-!
# Command line

Reads the files that the arguments name and prints what the program makes of
them.
-/

namespace JackScopes

/-- The number of a system error, which may come negated. -/
def errorNumber (code : UInt32) : UInt32 :=
  if code < 0x80000000 then code else 0 - code

def ReadFault.ofError : IO.Error → ReadFault
  | .noFileOrDirectory .. => .missing
  | .inappropriateType _ code _ =>
    if errorNumber code = 20 then .notDirectory else .isDirectory
  | e@(.invalidArgument _ code _) =>
    if errorNumber code = 36 then .nameTooLong else .other (toString e)
  | .permissionDenied .. => .other "Permission denied (os error 13)"
  | e => .other (toString e)

def readFile (path : String) : IO (Except ReadFault String) := do
  try
    return decodeText (← IO.FS.readBinFile path)
  catch e =>
    return .error (.ofError e)

end JackScopes

open JackScopes in
def main (arguments : List String) : IO UInt32 := do
  let paths := arguments.take 2
  let texts ← paths.mapM readFile
  let files : Program.Files := fun path =>
    ((paths.zip texts).lookup path).getD (.error .missing)
  let outcome := Program.run files arguments
  IO.eprint outcome.stderr
  IO.print outcome.stdout
  return outcome.exitCode.toUInt32
