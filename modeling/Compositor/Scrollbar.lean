import Compositor.Geometry.Transform
import Compositor.Span

/-!
# Scrollbars

A scrollbar shows when its content is scrolled, stays for a while and then fades
evenly until it cannot be seen. While two fingers are down it shows and scrolling
does not count; when they are lifted the wait begins anew. Before the first scroll it
cannot be seen.
-/

namespace Compositor

/-- A scrollbar and the way it fades. -/
structure Scrollbar where
  /-- How long it stays after the latest scroll. -/
  delay : Nanos := .ofMillis 300
  /-- How long it takes to fade. -/
  duration : Nanos := .ofMillis 300
  /-- When it was last scrolled, if ever. -/
  awakened : Option Nanos := none
  pinching : Bool := false
  opacity : Float32 := Transform.zero

namespace Scrollbar

/-- The content was scrolled. -/
def scroll (s : Scrollbar) (now : Nanos) : Scrollbar :=
  if s.pinching then s else { s with awakened := some now, opacity := Transform.one }

/-- Two fingers went down. -/
def pinchBegin (s : Scrollbar) : Scrollbar :=
  { s with pinching := true, opacity := Transform.one }

/-- Two fingers moved. -/
def pinchUpdate (s : Scrollbar) : Scrollbar := { s with pinching := true }

/-- The fingers were lifted. -/
def pinchEnd (s : Scrollbar) (now : Nanos) : Scrollbar :=
  { s with pinching := false, awakened := some now }

/-- How clearly it shows at some time. -/
def opacityAt (s : Scrollbar) (now : Nanos) : Except Fault Float32 :=
  if s.pinching then .ok Transform.one
  else match s.awakened with
    | none => .ok Transform.zero
    | some awakened => do
      let elapsed := now - awakened
      if elapsed ≤ s.delay then return Transform.one
      let fadeEnd ← Nanos.add s.delay s.duration
      if elapsed < fadeEnd then
        return Nanos.toSeconds32 (fadeEnd - elapsed) / s.duration.toSeconds32
      return Transform.zero

/-- Brings the opacity up to date, and answers whether it shows. -/
def animate (s : Scrollbar) (now : Nanos) : Except Fault (Bool × Scrollbar) := do
  let opacity ← s.opacityAt now
  return (decide (Transform.zero < opacity), { s with opacity })

end Scrollbar

end Compositor
