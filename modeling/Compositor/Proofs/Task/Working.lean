import Mathlib.Data.List.Basic
import Compositor.Task.Worker

/-!
# What a worker runs, and when

A thread outside posts to a worker, calls it and stops it, while the worker's own thread gets on
with its tasks. Nothing is said about how far it gets between two acts of the outside thread, so
its progress is an act beside the others: it begins with the next task, or carries out one more
command of the task in hand. The outside thread can come in between any two commands. Only in a
call and in a stop it has to wait, and then it is the worker's thread that goes on.

Everything that happens is noted down: tasks that are posted with the answer they got, tasks that
are begun, and commands that are carried out. As long as the worker is not stopped, what happens
in any stretch is accounted for in three ways. What was begun and what still waits is what waited
at first followed by what was accepted. What was carried out and what is left in hand are the
commands of what was begun. And the log grew by the entries of what was carried out.
-/

namespace Compositor

/-- Whether a command leaves the worker running: it neither stops nor crashes it. -/
def Command.isPlain : Command → Bool
  | .log _ | .repost _ => true
  | .stop | .crash => false

namespace Worker

/-- **A task is plain** if all its commands are. It may post further tasks. -/
def Plain (job : Job) : Prop := ∀ command ∈ job, command.isPlain = true

instance (job : Job) : Decidable (Plain job) :=
  inferInstanceAs (Decidable (∀ command ∈ job, command.isPlain = true))

/-- Something that happens at a worker. -/
inductive Occurrence where
  /-- A task is posted from outside, with the answer. -/
  | posted (job : Job) (delay : Nanos) (answer : Bool)
  /-- The thread begins with a task. -/
  | began (job : Job)
  /-- The task in hand leaves an entry in the log. -/
  | logged (entry : String)
  /-- The task in hand posts a task that leaves an entry, with the answer. -/
  | reposted (entry : String) (answer : Bool)
  deriving DecidableEq, Repr

namespace Occurrence

/-- The answer to a post. -/
def answer? : Occurrence → Option Bool
  | .posted _ _ answer | .reposted _ answer => some answer
  | .began _ | .logged _ => none

/-- The task that is accepted without a delay. -/
def accepted? : Occurrence → Option Job
  | .posted job delay true => if delay = 0 then some job else none
  | .reposted entry true => some [.log entry]
  | _ => none

/-- The task that is begun. -/
def began? : Occurrence → Option Job
  | .began job => some job
  | _ => none

/-- The command that is carried out. -/
def command? : Occurrence → Option Command
  | .logged entry => some (.log entry)
  | .reposted entry _ => some (.repost entry)
  | _ => none

/-- The entry that is made in the log. -/
def entry? : Occurrence → Option (String × Bool)
  | .logged entry => some (entry, true)
  | .reposted _ answer => some (repostEntry answer, true)
  | _ => none

end Occurrence

/-- The tasks that were accepted without a delay, in the order in which they were. -/
def accepted (happened : List Occurrence) : List Job := happened.filterMap Occurrence.accepted?

/-- The tasks that were begun. -/
def begun (happened : List Occurrence) : List Job := happened.filterMap Occurrence.began?

/-- The commands that were carried out. -/
def carriedOut (happened : List Occurrence) : List Command :=
  happened.filterMap Occurrence.command?

/-- The entries that were made in the log. -/
def written (happened : List Occurrence) : List (String × Bool) :=
  happened.filterMap Occurrence.entry?

section

variable (first second : List Occurrence)

@[simp] theorem accepted_append : accepted (first ++ second) = accepted first ++ accepted second :=
  List.filterMap_append

@[simp] theorem begun_append : begun (first ++ second) = begun first ++ begun second :=
  List.filterMap_append

@[simp] theorem carriedOut_append :
    carriedOut (first ++ second) = carriedOut first ++ carriedOut second :=
  List.filterMap_append

@[simp] theorem written_append : written (first ++ second) = written first ++ written second :=
  List.filterMap_append

end

/-! ## The acts -/

/-- What happens when a command is carried out. -/
def occurrences (w : Worker) : Command → List Occurrence
  | .log entry => [.logged entry]
  | .repost entry => [.reposted entry (w.post [.log entry] 0).1]
  | .stop | .crash => []

/-- What happens when a task is carried out. -/
def doing : Job → Worker → List Occurrence
  | [], _ => []
  | command :: rest, w => w.occurrences command ++ doing rest (runJob [command] w)

/-- What happens in a number of turns. -/
def turning : Nat → Worker → List Occurrence
  | 0, _ => []
  | n + 1, w =>
    match w.queue with
    | [] => turning n w
    | job :: rest =>
      .began job :: (doing job { w with queue := rest } ++ turning n w.turn)

/-- **A worker at work**: what is left of the task that the thread has begun is in its hand. -/
structure AtWork where
  worker : Worker
  hand : Job := []

/-- Something that is done to a worker at work. -/
inductive Act where
  /-- The thread takes the next task in hand, or carries out one command. -/
  | work
  /-- A task is posted from outside. -/
  | post (job : Job) (delay : Nanos)
  /-- A task is called from outside. -/
  | call (job : Job)
  /-- The worker is stopped from outside. -/
  | stop
  deriving DecidableEq, Repr

/-- An act other than a stop, and with a plain task if it has one. -/
def Act.IsOrdinary : Act → Prop
  | .work => True
  | .post job _ | .call job => Plain job
  | .stop => False

instance : DecidablePred Act.IsOrdinary
  | .work => .isTrue trivial
  | .post job _ | .call job => inferInstanceAs (Decidable (Plain job))
  | .stop => .isFalse id

namespace AtWork

/-- The worker with what is left in the hand as its first task, if anything is. -/
def whole (s : AtWork) : Worker :=
  if s.hand = [] then s.worker else { s.worker with queue := s.hand :: s.worker.queue }

/-- What happens until the hand is empty and then in a number of turns. -/
def finishing (s : AtWork) (turns : Nat) : List Occurrence :=
  doing s.hand s.worker ++ turning turns (runJob s.hand s.worker)

/-- **One act**: what happens, and the worker after it. The thread outside waits in a call until
the called task is done, and in a stop until all tasks are. -/
def perform (s : AtWork) : Act → List Occurrence × AtWork
  | .work =>
    match s.hand, s.worker.queue with
    | command :: rest, _ => (s.worker.occurrences command, ⟨runJob [command] s.worker, rest⟩)
    | [], job :: rest => ([.began job], ⟨{ s.worker with queue := rest }, job⟩)
    | [], [] => ([], s)
  | .post job delay =>
    let (answer, worker) := s.worker.post job delay
    ([.posted job delay answer], { s with worker })
  | .call job =>
    let (answer, worker) := s.worker.post job 0
    if answer then
      (.posted job 0 true :: finishing { s with worker } worker.queue.length,
        ⟨(s.whole.call job id).2, []⟩)
    else ([.posted job 0 false], s)
  | .stop =>
    if s.worker.isOpen then
      (finishing { s with worker := { s.worker with isOpen := false } } s.worker.queue.length,
        ⟨s.whole.stop, []⟩)
    else ([], s)

/-- **A course of acts**, one after the other. -/
def course (s : AtWork) : List Act → List Occurrence × AtWork
  | [] => ([], s)
  | act :: acts =>
    let (happened, s) := s.perform act
    let (later, s) := s.course acts
    (happened ++ later, s)

theorem course_append (s : AtWork) (acts more : List Act) :
    s.course (acts ++ more) =
      ((s.course acts).1 ++ ((s.course acts).2.course more).1,
        ((s.course acts).2.course more).2) := by
  induction acts generalizing s with
  | nil => rfl
  | cons act acts ih =>
    simp only [List.cons_append, course, ih, List.append_assoc]

end AtWork

/-! ## Accounts -/

/-- A worker whose thread did not crash, and with plain tasks only. -/
structure AtWork.Sound (s : AtWork) : Prop where
  alive : s.worker.alive = true
  hand : Plain s.hand
  queue : ∀ job ∈ s.worker.queue, Plain job

/-- **What happened is accounted for** between two moments, while the worker stays open or stays
closed. -/
structure Accounts (s : AtWork) (happened : List Occurrence) (s' : AtWork) : Prop where
  order : begun happened ++ s'.worker.queue = s.worker.queue ++ accepted happened
  commands : carriedOut happened ++ s'.hand = s.hand ++ (begun happened).flatten
  log : s'.worker.log = s.worker.log ++ written happened
  answers : ∀ o ∈ happened, ∀ answer ∈ o.answer?, answer = s.worker.isOpen
  plain : ∀ job ∈ accepted happened, Plain job
  isOpen : s'.worker.isOpen = s.worker.isOpen
  alive : s'.worker.alive = s.worker.alive
  name : s'.worker.name = s.worker.name

variable {s s' s'' : AtWork} {w : Worker} {happened later : List Occurrence}

namespace Accounts

theorem refl (s : AtWork) : Accounts s [] s where
  order := (List.append_nil _).symm
  commands := (List.append_nil _).symm
  log := (List.append_nil _).symm
  answers _ ho := absurd ho List.not_mem_nil
  plain _ hjob := absurd hjob List.not_mem_nil
  isOpen := rfl
  alive := rfl
  name := rfl

theorem trans (h : Accounts s happened s') (h' : Accounts s' later s'') :
    Accounts s (happened ++ later) s'' where
  order := by
    rw [begun_append, accepted_append, List.append_assoc, h'.order, ← List.append_assoc, h.order,
      List.append_assoc]
  commands := by
    rw [carriedOut_append, begun_append, List.flatten_append, List.append_assoc, h'.commands,
      ← List.append_assoc, h.commands, List.append_assoc]
  log := by rw [h'.log, h.log, written_append, List.append_assoc]
  answers o ho answer hanswer := by
    rcases List.mem_append.1 ho with ho | ho
    · exact h.answers o ho answer hanswer
    · exact (h'.answers o ho answer hanswer).trans h.isOpen
  plain job hjob := by
    rw [accepted_append] at hjob
    exact (List.mem_append.1 hjob).elim (h.plain job) (h'.plain job)
  isOpen := h'.isOpen.trans h.isOpen
  alive := h'.alive.trans h.alive
  name := h'.name.trans h.name

/-- What is accounted for leaves a sound worker sound. -/
theorem sound (h : Accounts s happened s') (hs : s.Sound) : s'.Sound := by
  have hknown : ∀ job ∈ begun happened ++ s'.worker.queue, Plain job := by
    intro job hjob
    rw [h.order] at hjob
    exact (List.mem_append.1 hjob).elim (hs.queue job) (h.plain job)
  refine ⟨h.alive.trans hs.alive, fun command hcommand => ?_, fun job hjob => ?_⟩
  · have hmem : command ∈ s.hand ++ (begun happened).flatten :=
      h.commands ▸ List.mem_append_right _ hcommand
    rcases List.mem_append.1 hmem with hmem | hmem
    · exact hs.hand command hmem
    · obtain ⟨job, hjob, hmem⟩ := List.mem_flatten.1 hmem
      exact hknown job (List.mem_append_left _ hjob) command hmem
  · exact hknown job (List.mem_append_right _ hjob)

/-- A worker that is closed accepts nothing. -/
theorem accepted_of_closed (h : Accounts s happened s') (hclosed : s.worker.isOpen = false) :
    accepted happened = [] := by
  refine List.filterMap_eq_nil_iff.2 fun o ho => ?_
  have hanswers := h.answers o ho
  rw [hclosed] at hanswers
  cases o with
  | posted job delay answer =>
    cases hanswers answer rfl
    rfl
  | reposted entry answer =>
    cases hanswers answer rfl
    rfl
  | began job => rfl
  | logged entry => rfl

end Accounts

/-! ## One step of the thread -/

/-- A plain command comes before the rest of its task. -/
theorem runJob_cons {command : Command} (h : command.isPlain = true) (rest : Job) (w : Worker) :
    runJob (command :: rest) w = runJob rest (runJob [command] w) := by
  cases command with
  | log entry => rfl
  | repost entry => rfl
  | stop => cases h
  | crash => cases h

theorem post_of_closed (hclosed : w.isOpen = false) (job : Job) (delay : Nanos) :
    w.post job delay = (false, w) := by
  unfold post
  rw [hclosed]
  rfl

theorem call_of_closed (hclosed : w.isOpen = false) (job : Job) {α : Type}
    (answer : Worker → α) : w.call job answer = (.error (.stopped w.name), w) := by
  unfold call
  rw [post_of_closed hclosed]
  rfl

/-- A task without a delay comes to the end of the queue. -/
theorem post_of_open (halive : w.alive = true) (hopen : w.isOpen = true) (job : Job) :
    w.post job 0 = (true, { w with queue := w.queue ++ [job] }) := by
  unfold post
  rw [halive, hopen]
  rfl

/-- A task with a delay is put to sleep. -/
theorem post_of_delay (halive : w.alive = true) (hopen : w.isOpen = true) {delay : Nanos}
    (hdelay : delay ≠ 0) (job : Job) :
    w.post job delay = (true, { w with sleeping := w.sleeping ++ [job] }) := by
  simp [post, halive, hopen, hdelay]

/-- A task without a delay comes to the end of the queue if the worker is open, and nowhere if it
is not. -/
theorem post_zero (halive : w.alive = true) (job : Job) :
    w.post job 0 =
      (w.isOpen, { w with queue := w.queue ++ if w.isOpen then [job] else [] }) := by
  cases hopen : w.isOpen with
  | true => rw [post_of_open halive hopen, if_pos rfl, hopen]
  | false => rw [post_of_closed hopen, if_neg Bool.false_ne_true, List.append_nil, ← hopen]

/-- The thread posts a task that leaves an entry, and notes the answer in the log. -/
theorem runJob_repost (halive : w.alive = true) (entry : String) :
    runJob [.repost entry] w =
      { w with
        queue := w.queue ++ if w.isOpen then [[.log entry]] else []
        log := w.log ++ [(repostEntry w.isOpen, true)] } := by
  unfold runJob
  rw [post_zero halive]
  rfl

/-- Carrying out one command is accounted for. -/
theorem accounts_command {command : Command} (h : command.isPlain = true)
    (halive : w.alive = true) (rest : Job) :
    Accounts ⟨w, command :: rest⟩ (w.occurrences command) ⟨runJob [command] w, rest⟩ := by
  cases command with
  | log entry =>
    refine ⟨(List.append_nil _).symm, (List.append_nil _).symm, rfl, fun o ho answer hanswer => ?_,
      fun job hjob => ?_, rfl, rfl, rfl⟩
    · obtain rfl := List.mem_singleton.1 ho
      cases hanswer
    · cases hjob
  | repost entry =>
    have hhappened : w.occurrences (.repost entry) = [.reposted entry w.isOpen] := by
      simp only [occurrences, post_zero halive]
    have haccepted :
        accepted [.reposted entry w.isOpen] = if w.isOpen then [[.log entry]] else [] := by
      cases w.isOpen <;> rfl
    rw [runJob_repost halive, hhappened]
    refine ⟨?_, (List.append_nil _).symm, rfl, fun o ho answer hanswer => ?_,
      fun job hjob => ?_, rfl, rfl, rfl⟩
    · rw [haccepted]
      rfl
    · obtain rfl := List.mem_singleton.1 ho
      cases hanswer
      rfl
    · rw [haccepted] at hjob
      split at hjob
      · obtain rfl := List.mem_singleton.1 hjob
        intro command hcommand
        obtain rfl := List.mem_singleton.1 hcommand
        rfl
      · cases hjob
  | stop => cases h
  | crash => cases h

/-- Taking the next task in hand is accounted for. -/
theorem accounts_begin {job : Job} {rest : List Job} (hqueue : w.queue = job :: rest) :
    Accounts ⟨w, []⟩ [.began job] ⟨{ w with queue := rest }, job⟩ where
  order := by
    change job :: rest = w.queue ++ []
    rw [hqueue, List.append_nil]
  commands := (List.append_nil job).symm
  log := (List.append_nil _).symm
  answers o ho answer hanswer := by
    obtain rfl := List.mem_singleton.1 ho
    cases hanswer
  plain _ hjob := absurd hjob List.not_mem_nil
  isOpen := rfl
  alive := rfl
  name := rfl

/-! ## Whole tasks -/

/-- Carrying out a task is accounted for. -/
theorem accounts_doing {job : Job} (hplain : Plain job) (halive : w.alive = true) :
    Accounts ⟨w, job⟩ (doing job w) ⟨runJob job w, []⟩ := by
  induction job generalizing w with
  | nil => exact .refl _
  | cons command rest ih =>
    have hcommand := hplain command List.mem_cons_self
    have hstep := accounts_command hcommand halive rest
    have hrest := ih (w := runJob [command] w) (fun c hc => hplain c (List.mem_cons_of_mem _ hc))
      (hstep.alive.trans halive)
    rw [doing, runJob_cons hcommand rest w]
    exact hstep.trans hrest

/-- A turn is accounted for. -/
theorem accounts_turn {job : Job} {rest : List Job} (hs : AtWork.Sound ⟨w, []⟩)
    (hqueue : w.queue = job :: rest) :
    Accounts ⟨w, []⟩ (.began job :: doing job { w with queue := rest }) ⟨w.turn, []⟩ := by
  have hturn : w.turn = runJob job { w with queue := rest } := by
    unfold turn
    rw [hqueue]
  have hjob : Plain job := hs.queue job (hqueue ▸ List.mem_cons_self)
  rw [hturn]
  exact (accounts_begin hqueue).trans (accounts_doing hjob hs.alive)

theorem turn_of_idle (hqueue : w.queue = []) : w.turn = w := by
  unfold turn
  rw [hqueue]

theorem turning_of_idle (hqueue : w.queue = []) (n : Nat) :
    turning (n + 1) w = turning n w := by
  rw [turning, hqueue]

theorem turning_of_cons {job : Job} {rest : List Job} (hqueue : w.queue = job :: rest) (n : Nat) :
    turning (n + 1) w =
      (.began job :: doing job { w with queue := rest }) ++ turning n w.turn := by
  rw [turning, hqueue]
  rfl

/-- Turns are accounted for. -/
theorem accounts_turning (hs : AtWork.Sound ⟨w, []⟩) (n : Nat) :
    Accounts ⟨w, []⟩ (turning n w) ⟨turns n w, []⟩ := by
  induction n generalizing w with
  | zero => exact .refl _
  | succ n ih =>
    unfold turns
    cases hqueue : w.queue with
    | nil =>
      rw [turn_of_idle hqueue, turning_of_idle hqueue]
      exact ih hs
    | cons job rest =>
      have hturn := accounts_turn hs hqueue
      rw [turning_of_cons hqueue]
      exact hturn.trans (ih (hturn.sound hs))

/-- What is begun in a task is nothing but the task. -/
theorem begun_doing (job : Job) (w : Worker) : begun (doing job w) = [] := by
  induction job generalizing w with
  | nil => rfl
  | cons command rest ih =>
    rw [doing, begun_append, ih, List.append_nil]
    cases command <;> rfl

/-- As many tasks are begun as turns are taken, if so many wait at first. -/
theorem length_begun_turning (hs : AtWork.Sound ⟨w, []⟩) {n : Nat} (hn : n ≤ w.queue.length) :
    (begun (turning n w)).length = n := by
  induction n generalizing w with
  | zero => rfl
  | succ n ih =>
    obtain ⟨job, rest, hqueue⟩ := List.exists_cons_of_length_pos (Nat.zero_lt_of_lt hn)
    have hturn := accounts_turn hs hqueue
    have hbegun : begun (.began job :: doing job { w with queue := rest }) = [job] :=
      congrArg (job :: ·) (begun_doing job _)
    -- No task is lost from the queue but the one that is begun.
    have hlength := congrArg List.length hturn.order
    rw [hbegun, List.length_append, List.length_append, List.length_singleton] at hlength
    dsimp only at hlength
    rw [turning_of_cons hqueue, begun_append, hbegun, List.length_append,
      ih (hturn.sound hs) (by omega), List.length_singleton, Nat.add_comm]

/-- **Turns begin with what waits first**, in order. -/
theorem begun_turning (hs : AtWork.Sound ⟨w, []⟩) {n : Nat} (hn : n ≤ w.queue.length) :
    begun (turning n w) = w.queue.take n := by
  have horder := (accounts_turning hs n).order
  have hlength := length_begun_turning hs hn
  calc begun (turning n w)
      = (begun (turning n w) ++ (turns n w).queue).take n := (List.take_left' hlength).symm
    _ = (w.queue ++ accepted (turning n w)).take n := by rw [horder]
    _ = w.queue.take n := List.take_append_of_le_length hn

/-! ## What the thread does while it is waited for -/

namespace AtWork

/-- The thread finishes what it has in hand and takes turns. -/
theorem accounts_finishing (hs : s.Sound) (n : Nat) :
    Accounts s (s.finishing n) ⟨turns n (runJob s.hand s.worker), []⟩ := by
  have hhand := accounts_doing hs.hand hs.alive
  exact hhand.trans (accounts_turning (hhand.sound hs) n)

/-- **As many turns as tasks wait** begin with all of these, and with no other. -/
theorem begun_finishing (hs : s.Sound) :
    begun (s.finishing s.worker.queue.length) = s.worker.queue := by
  have hhand := accounts_doing hs.hand hs.alive
  have hqueue : (runJob s.hand s.worker).queue =
      s.worker.queue ++ accepted (doing s.hand s.worker) := by
    have horder := hhand.order
    rw [begun_doing] at horder
    exact horder
  have hlength : s.worker.queue.length ≤ (runJob s.hand s.worker).queue.length := by
    rw [hqueue, List.length_append]
    exact Nat.le_add_right _ _
  rw [finishing, begun_append, begun_doing, List.nil_append, begun_turning (hhand.sound hs) hlength,
    hqueue, List.take_left]

/-- Turns of the whole worker finish what is in hand first. -/
theorem turns_whole (s : AtWork) :
    turns s.whole.queue.length s.whole = turns s.worker.queue.length (runJob s.hand s.worker) := by
  obtain ⟨worker, hand⟩ := s
  cases hand with
  | nil => rfl
  | cons command rest => rfl

/-- When as many turns are taken as tasks wait, what waits then is what was accepted since. -/
theorem queue_finishing (hs : s.Sound) :
    (turns s.worker.queue.length (runJob s.hand s.worker)).queue =
      accepted (s.finishing s.worker.queue.length) := by
  have horder := (accounts_finishing hs s.worker.queue.length).order
  rw [begun_finishing hs] at horder
  exact List.append_cancel_left horder

end AtWork

end Worker

end Compositor
