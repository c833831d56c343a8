import Compositor.Span
import Compositor.Task.Proxy

/-!
# Worker threads

A worker is a task runner with a thread of its own. Any thread may post to it; the
worker runs what it accepted, first come first served, one task at a time. A task with a
delay sleeps beside the queue, and this model never wakes it: what is said here holds
for delays that do not run out.

Stopping a worker closes it to posts. What was queued by then still runs, what sleeps is
dropped. A task that crashes takes the thread down with everything that waited; the
worker is not closed then, but there is nobody left to accept a post.

When the thread gets to its next task is not determined from outside, so taking a *turn*
is an operation of its own. A blocking call gives the thread as many turns as it needs
to get to the task of the call, and stopping as many as it needs to run out of tasks.
-/

namespace Compositor

/-- What a task does on the thread of a worker. -/
inductive Command where
  /-- Leaves an entry in the log. -/
  | log (entry : String)
  /-- Posts a task that leaves an entry in the log, and logs whether it was accepted. -/
  | repost (entry : String)
  /-- Stops the worker. -/
  | stop
  /-- Crashes. -/
  | crash
  deriving DecidableEq, Repr

/-- A task of a worker. -/
abbrev Job : Type := List Command

/-- A worker. -/
structure Worker where
  name : String
  /-- Whether the worker was not stopped. -/
  isOpen : Bool := true
  /-- Whether the thread did not crash. -/
  alive : Bool := true
  queue : List Job := []
  sleeping : List Job := []
  /-- Each entry with whether it was made on the worker's thread, in order. -/
  log : List (String × Bool) := []
  deriving Repr

namespace Worker

/-- Posts a task, and answers whether it was accepted. -/
def post (w : Worker) (job : Job) (delay : Nanos) : Bool × Worker :=
  if w.isOpen && w.alive then
    if delay = 0 then (true, { w with queue := w.queue ++ [job] })
    else (true, { w with sleeping := w.sleeping ++ [job] })
  else (false, w)

/-- The entry that says whether a post was accepted. -/
def repostEntry (accepted : Bool) : String := "repost=" ++ toString accepted

/-- Runs a task on the thread of the worker. -/
def runJob : Job → Worker → Worker
  | [], w => w
  | .log entry :: rest, w => runJob rest { w with log := w.log ++ [(entry, true)] }
  | .repost entry :: rest, w =>
    let (accepted, w) := w.post [.log entry] 0
    runJob rest { w with log := w.log ++ [(repostEntry accepted, true)] }
  | .stop :: rest, w => runJob rest { w with isOpen := false }
  | .crash :: _, w => { w with alive := false, queue := [], sleeping := [] }

/-- Runs the next task, if there is one. -/
def turn (w : Worker) : Worker :=
  match w.queue with
  | [] => w
  | job :: rest => runJob job { w with queue := rest }

/-- Takes a number of turns. -/
def turns : Nat → Worker → Worker
  | 0, w => w
  | n + 1, w => turns n w.turn

/-- How many turns a task may cost: its own, and one for each task it posts. -/
def cost (job : Job) : Nat :=
  1 + job.countP fun
    | .repost _ => true
    | _ => false

/-- Runs every task, also those posted meanwhile. -/
def drain (w : Worker) : Worker :=
  turns (w.queue.foldr (fun job n => cost job + n) 0) w

/-- What is reported of a worker that takes no more tasks. -/
def stoppedError (w : Worker) : RunnerError := .stopped w.name

/-- Has a task run and waits for what it answers, given the worker after it. There is no
answer if the task was not accepted or crashed. -/
def call {α : Type} (w : Worker) (job : Job) (answer : Worker → α) :
    Except RunnerError α × Worker :=
  match w.post job 0 with
  | (false, w) => (.error w.stoppedError, w)
  | (true, w) =>
    let w := turns w.queue.length w
    if w.alive then (.ok (answer w), w) else (.error w.stoppedError, w)

/-- Stops the worker and waits until its thread is done. -/
def stop (w : Worker) : Worker :=
  if w.isOpen then { { w with isOpen := false }.drain with sleeping := [] } else w

/-- The log as text. -/
def logText (w : Worker) : List String :=
  w.log.map fun (entry, onThread) => entry ++ ":" ++ toString onThread

end Worker

end Compositor
