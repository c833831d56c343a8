import Compositor.Demo
import Compositor.Json.Printer

/-!
# The command line

The program gives the demonstration and prints the usage that comes of it as indented
JSON. Its one argument is the path of a file with the configuration; without it
everything has its default. If there is no valid configuration the program prints a
report to the error stream and fails.

The report names what the program was doing, and below it the causes. A single cause
stands indented on a line of its own; if a cause has a cause in turn they are numbered.
What lies beneath an unreadable file or a malformed text is not worded here, but it
counts, so such a cause bears the number zero.
-/

namespace Compositor

/-- The version of this library. -/
def version : String := "0.1.0"

namespace CommandLine

/-- What the program prints, and the status it ends with. -/
structure Outcome where
  status : Nat
  output : String := ""
  errors : String := ""
  deriving DecidableEq, Repr

/-- Whether an error has a cause of its own. -/
def hasCause : ConfigError → Bool
  | .parse | .read _ => true
  | .zero _ => false

/-- A text whose lines but the first start further in. -/
def indentLines (indent text : String) : String :=
  (("\n" ++ indent).intercalate (text.splitOn "\n"))

/-- A cause in the report. -/
def causeText (e : ConfigError) : String :=
  if hasCause e then "    0: " ++ indentLines "       " e.message
  else "    " ++ indentLines "    " e.message

/-- The report about a configuration that could not be had. -/
def errorText (path : String) (e : ConfigError) : String :=
  "Error: loading config from " ++ path ++ "\n\nCaused by:\n" ++ causeText e ++ "\n"

/-- **What the program does** on a device of some platform family. The argument is the path
and, if it can be read, the content of the configuration file. -/
def run (platform : Platform) (file : Option (String × Option ByteArray)) : Outcome :=
  let config : Except (String × ConfigError) Config :=
    match file with
    | none => .ok {}
    | some (path, content) => (Config.ofFile path content).mapError fun e => (path, e)
  match config with
  | .error (path, e) => { status := 1, errors := errorText path e }
  | .ok config =>
    match Demo.report platform config 0 with
    | .ok (.ok report) => { status := 0, output := report.usage.toJson.indented ++ "\n" }
    | .ok (.error (.fault f)) => { status := 101, errors := f.message ++ "\n" }
    | .ok (.error .outOfFuel) => { status := 101 }
    | .error e => { status := 1, errors := "Error: " ++ e.message ++ "\n" }

end CommandLine

end Compositor
