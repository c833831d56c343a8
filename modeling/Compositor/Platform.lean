import Compositor.Text

/-!
# Platform families

The memory limits differ by family of device. A family is named in a text by its
name in any case and with blanks around it; one family has two more spellings.
Without a name the family is detected: what the environment names, else what the
release file of the device says, else the desktop.
-/

namespace Compositor

/-- A family of devices. -/
inductive Platform where
  | desktop
  | android
  | chromeOs
  deriving DecidableEq, Repr, Inhabited

namespace Platform

/-- Every family. -/
def all : List Platform := [desktop, android, chromeOs]

/-- The name of a family. -/
def name : Platform → String
  | .desktop => "desktop"
  | .android => "android"
  | .chromeOs => "chromeos"

/-- The family of a name, written exactly. -/
def ofName? (s : String) : Option Platform := all.find? fun p => p.name = s

@[simp] theorem ofName?_name (p : Platform) : ofName? p.name = some p := by
  cases p <;> decide

/-- The family that a text names: its name or another spelling, in any case, with
blanks around it. Otherwise the spelling that was not understood. -/
def parse (text : String) : Except String Platform :=
  match Text.lowerAscii (Text.trim text) with
  | "desktop" => .ok .desktop
  | "android" => .ok .android
  | "chromeos" | "chrome_os" | "cros" => .ok .chromeOs
  | other => .error other

/-- What is reported for a spelling that names no family. -/
def unknownMessage (spelling : String) : String := "unknown platform '" ++ spelling ++ "'"

/-- Whether a release file describes a device of the third family: one of its lines
gives the release name a value that is not blank. -/
def releaseFileNamesChromeOs (text : String) : Bool :=
  (Text.lines text).any fun line =>
    match Text.splitAt? '=' line.toList with
    | none => false
    | some (key, value) =>
      Text.trimChars key = "CHROMEOS_RELEASE_NAME".toList && !(Text.trimChars value).isEmpty

/-- The family of this device, from the name in the environment and the text of the
release file, where there are any. -/
def detect (named releaseFile : Option String) : Platform :=
  match named.map parse with
  | some (.ok platform) => platform
  | _ => if (releaseFile.map releaseFileNamesChromeOs).getD false then .chromeOs else .desktop

end Platform

end Compositor
