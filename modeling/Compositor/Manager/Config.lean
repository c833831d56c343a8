import Compositor.Json.Decode
import Compositor.Platform.Limits
import Compositor.Span

/-!
# Configuration

What an embedder may fix about the memory manager: the platform family, the total to
divide, how many surfaces keep their frame, how long requests that are not urgent are
gathered, and a number of windows to start with. Each is optional but for the delay,
which has a default.

A configuration may be written as a JSON record. It knows no other names than these,
and it is refused after reading if an amount that was given is zero.
-/

namespace Compositor

/-- An amount of a configuration that must not be zero. -/
inductive ConfigAmount where
  | total
  | softLimit
  | windowCount
  deriving DecidableEq, Repr

namespace ConfigAmount

/-- The name of the field. -/
def field : ConfigAmount → String
  | .total => "total_gpu_memory_bytes"
  | .softLimit => "max_surfaces_with_frontbuffer_soft_limit"
  | .windowCount => "window_count"

/-- What the field has to be. -/
def rule : ConfigAmount → String
  | .total => "must be non-zero when set"
  | .softLimit | .windowCount => "must be at least 1 when set"

end ConfigAmount

/-- Why there is no configuration. -/
inductive ConfigError where
  /-- The text is not the record of one. -/
  | parse
  /-- There is no text. -/
  | read (path : String)
  /-- An amount is zero. -/
  | zero (amount : ConfigAmount)
  deriving DecidableEq, Repr

/-- The text reported for an error. -/
def ConfigError.message : ConfigError → String
  | .parse => "failed to parse memory manager config"
  | .read path => "failed to read config file '" ++ path ++ "'"
  | .zero amount => "config field '" ++ amount.field ++ "' is invalid: " ++ amount.rule

/-- What an embedder may fix. -/
structure Config where
  /-- Detected where there is none. -/
  platform : Option Platform := none
  /-- Wins over what the driver knows. -/
  total : Option Nat := none
  softLimit : Option Nat := none
  delayedManageMillis : Nat := 67
  windowCount : Option Nat := none
  deriving DecidableEq, Repr, Inhabited

namespace Config

/-- The names of the fields, in their order. -/
def fieldNames : List String :=
  ["platform", ConfigAmount.total.field, ConfigAmount.softLimit.field, "delayed_manage_ms",
    ConfigAmount.windowCount.field]

/-- The configuration that a record describes. -/
def ofJson? (v : Json.Value) : Option Config :=
  let optional {α : Type} (decode : Json.Value → Option α) :=
    Json.Value.defaulting? none (Json.Value.nullable? decode)
  match v.fields? fieldNames true with
  | some [platform, total, softLimit, delay, windowCount] => do
    return {
      platform := ← optional (fun v => v.choice?.bind Platform.ofName?) platform
      total := ← optional (Json.Value.natBelow? wordLimit) total
      softLimit := ← optional (Json.Value.natBelow? wordLimit) softLimit
      delayedManageMillis :=
        ← Json.Value.defaulting? ({} : Config).delayedManageMillis
            (Json.Value.natBelow? wordLimit) delay
      windowCount := ← optional (Json.Value.natBelow? word32Limit) windowCount }
  | _ => none

/-- Refuses a configuration in which an amount that was given is zero. -/
def validate (c : Config) : Except ConfigError Unit :=
  if c.total = some 0 then .error (.zero .total)
  else if c.softLimit = some 0 then .error (.zero .softLimit)
  else if c.windowCount = some 0 then .error (.zero .windowCount)
  else .ok ()

/-- The configuration of a JSON text. -/
def ofText (text : String) : Except ConfigError Config :=
  match (Json.Value.parse? text).bind ofJson? with
  | none => .error .parse
  | some config => config.validate.map fun _ => config

/-- The configuration in a file of the given path and content. There is no content if
the file cannot be read; content that is no text counts the same. -/
def ofFile (path : String) (content : Option ByteArray) : Except ConfigError Config :=
  match content.bind String.fromUTF8? with
  | none => .error (.read path)
  | some text => ofText text

/-- The limits to keep to, if the platform family detected is the given one. -/
def limits (detected : Platform) (c : Config) : Limits :=
  .ofPlatform (c.platform.getD detected)

/-- How long requests that are not urgent are gathered. -/
def delay (c : Config) : Nanos := .ofMillis c.delayedManageMillis

end Config

end Compositor
