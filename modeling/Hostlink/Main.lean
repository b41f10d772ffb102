import Hostlink.CommandLine

/-!
# The program

Reads the file of the set-up, if one is named, and prints what the command line says.
-/

namespace Hostlink

/-- The octets of a file, if it can be read. -/
def readOctets (path : String) : IO (Option (List UInt8)) :=
  try
    let data ← IO.FS.readBinFile path
    pure (some data.data.toList)
  catch _ => pure none

/-- The file that the arguments name. -/
def configPath (argv : List String) : Option String :=
  match CommandLine.Invocation.parse argv with
  | .ok invocation => invocation.choice.configPath
  | .error _ => none

end Hostlink

/-- Runs the command line. -/
def main (argv : List String) : IO UInt32 := do
  let content ← match Hostlink.configPath argv with
    | some path => Hostlink.readOctets path
    | none => pure none
  let output := Hostlink.CommandLine.run argv fun _ => content
  IO.print output.stdout
  IO.eprint output.stderr
  pure (UInt32.ofNat output.code)
