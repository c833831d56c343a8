import Compositor.Host.Basic

/-!
# Fading scrollbars

A fade draws a scrollbar at regular times until it cannot be seen. Each frame brings
the opacity up to date, shows it to the observer, and posts the next frame if there is
more to see. The first frame is posted at once.
-/

namespace Compositor.Host

variable {S : Type}

/-- Posts a frame of a fade, and answers whether the runner accepted it. -/
def postFrame (fade : Fade S) (delay : Nanos) : Act S Bool :=
  postVia fade.proxy (.frame fade) delay

/-- Brings the opacity of a scrollbar up to date, and answers whether it shows, with the
scrollbar. -/
def animate (number : Nat) (time : Nanos) : Act S (Option (Bool × Scrollbar)) := do
  match (← residents).scrollbars.get? number with
  | none => return none
  | some bar =>
    let (shows, bar) ← Action.ofExcept (bar.animate time)
    change fun r => { r with scrollbars := r.scrollbars.update number fun _ => bar }
    return some (shows, bar)

/-- Runs a frame of a fade. -/
def runFrame (run : S → Act S Unit) (fade : Fade S) : Act S Unit := do
  let time ← now
  match ← animate fade.scrollbar time with
  | none => return
  | some (more, bar) =>
    emit (.fade fade.name bar.opacity time)
    run fade.onFrame
    if more then discard (postFrame fade fade.interval)

end Compositor.Host
