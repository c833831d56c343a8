import Compositor.Host.Fading
import Compositor.Host.Limiting
import Compositor.Host.Managing

/-!
# Running the tasks of a host

A task is run by what it is. A guard or a proxy in front of it is looked at when its
turn comes and not when it was posted, so canceling and shutting down reach tasks that
wait already.
-/

namespace Compositor.Host

variable {S : Type}

/-- Runs a task, given a way to run scripts. -/
def runTask (run : S → Act S Unit) : Task S → Act S Unit
  | .scripted label script => do
    emit (.run label (← now))
    run script
  | .guarded handle task => do
    unless (← residents).handles.isCanceled handle do runTask run task
  | .proxied proxy task => do
    if (((← residents).proxies.get? proxy).map Proxy.shutDown).getD true then
      change fun r => { r with proxies := r.proxies.update proxy Proxy.drop }
    else runTask run task
  | .check limiter => runCheck run limiter
  | .pass manager => runPass run manager
  | .frame fade => runFrame run fade

end Compositor.Host
