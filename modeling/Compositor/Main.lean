import Compositor.CommandLine

/-!
# The program

Reads the environment, the release file of the device and the file named on the command
line, and prints what `CommandLine.run` makes of them.
-/

/-- The content of a file, if it can be read. -/
def readFile? (path : String) : IO (Option ByteArray) := do
  try
    return some (← IO.FS.readBinFile path)
  catch _ => return none

/-- The program. -/
def main (args : List String) : IO UInt32 := do
  let named ← IO.getEnv "STRATA_PLATFORM"
  let release := (← readFile? "/etc/lsb-release").bind String.fromUTF8?
  let file ← args.head?.mapM fun path => do return (path, ← readFile? path)
  let outcome := Compositor.CommandLine.run (Compositor.Platform.detect named release) file
  IO.print outcome.output
  IO.eprint outcome.errors
  return UInt32.ofNat outcome.status
