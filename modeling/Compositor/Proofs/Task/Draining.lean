import Compositor.Proofs.Task.Working

/-!
# What a worker that is stopped has run

Acts of a thread outside are put beside those of the worker's own thread. Every one of them but the
stop is accounted for, so every course of them is. The stop closes the worker first, and from then
on nothing is accepted: what was begun by the end is what was accepted before. A call takes as many
turns as tasks wait when its own is posted, so its own is the last of those begun.
-/

namespace Compositor

namespace Worker

variable {s : AtWork} {w : Worker}

namespace AtWork

/-! ## Acts -/

/-- An open worker accepts a task that is posted without a delay. -/
theorem accounts_accepted (hopen : s.worker.isOpen = true) {job : Job}
    (hjob : Plain job) :
    Accounts s [.posted job 0 true]
      { s with worker := { s.worker with queue := s.worker.queue ++ [job] } } where
  order := rfl
  commands := (List.append_nil _).symm
  log := (List.append_nil _).symm
  answers o ho answer hanswer := by
    obtain rfl := List.mem_singleton.1 ho
    cases hanswer
    exact hopen.symm
  plain job' hjob' := List.mem_singleton.1 hjob' ▸ hjob
  isOpen := rfl
  alive := rfl
  name := rfl

/-- A task with a delay waits for that, and not in the queue. -/
theorem accounts_delayed (hopen : s.worker.isOpen = true) {delay : Nanos} (hdelay : delay ≠ 0)
    (job : Job) :
    Accounts s [.posted job delay true]
      { s with worker := { s.worker with sleeping := s.worker.sleeping ++ [job] } } := by
  have haccepted : accepted [.posted job delay true] = [] :=
    List.filterMap_cons_none (if_neg hdelay)
  refine ⟨?_, (List.append_nil _).symm, (List.append_nil _).symm, fun o ho answer hanswer => ?_,
    fun job' hjob' => ?_, rfl, rfl, rfl⟩
  · rw [haccepted]
    exact (List.append_nil _).symm
  · obtain rfl := List.mem_singleton.1 ho
    cases hanswer
    exact hopen.symm
  · rw [haccepted] at hjob'
    cases hjob'

/-- **A call is answered** with what its task answers, when everything that waited before the task
has been done, the task too, and nothing else. -/
theorem call_whole (hs : s.Sound) (hopen : s.worker.isOpen = true) {job : Job} (hjob : Plain job)
    {α : Type} (answer : Worker → α) :
    let posted : AtWork := { s with worker := { s.worker with queue := s.worker.queue ++ [job] } }
    let w := turns posted.worker.queue.length (runJob posted.hand posted.worker)
    s.whole.call job answer = (.ok (answer w), w) := by
  intro posted w
  have haccounts := accounts_accepted hopen hjob
  have halive : w.alive = true :=
    (accounts_finishing (haccounts.sound hs) posted.worker.queue.length).alive.trans hs.alive
  have hwhole : posted.whole = { s.whole with queue := s.whole.queue ++ [job] } := by
    obtain ⟨worker, hand⟩ := s
    cases hand with
    | nil => rfl
    | cons command rest => rfl
  have hpost : s.whole.post job 0 = (true, posted.whole) := by
    have hwholeAlive : s.whole.alive = true ∧ s.whole.isOpen = true := by
      unfold whole
      split
      · exact ⟨hs.alive, hopen⟩
      · exact ⟨hs.alive, hopen⟩
    rw [post_of_open hwholeAlive.1 hwholeAlive.2, hwhole]
  unfold call
  rw [hpost]
  dsimp only
  rw [turns_whole posted, if_pos halive]

/-- What happens in a call. -/
theorem perform_call (hs : s.Sound) (hopen : s.worker.isOpen = true) {job : Job}
    (hjob : Plain job) :
    let posted : AtWork := { s with worker := { s.worker with queue := s.worker.queue ++ [job] } }
    s.perform (.call job) =
      (.posted job 0 true :: posted.finishing posted.worker.queue.length,
        ⟨turns posted.worker.queue.length (runJob posted.hand posted.worker), []⟩) := by
  intro posted
  simp only [perform, call_whole hs hopen hjob, post_of_open hs.alive hopen, if_true]
  rfl

theorem perform_post (s : AtWork) (job : Job) (delay : Nanos) :
    s.perform (.post job delay) =
      ([.posted job delay (s.worker.post job delay).1],
        { s with worker := (s.worker.post job delay).2 }) :=
  rfl

/-- Every ordinary act on an open worker is accounted for. -/
theorem accounts_perform (hs : s.Sound) (hopen : s.worker.isOpen = true) {act : Act}
    (hact : act.IsOrdinary) : Accounts s (s.perform act).1 (s.perform act).2 := by
  cases act with
  | work =>
    obtain ⟨worker, hand⟩ := s
    cases hand with
    | cons command rest => exact accounts_command (hs.hand command List.mem_cons_self) hs.alive rest
    | nil =>
      unfold perform
      cases hqueue : worker.queue with
      | cons job rest => exact accounts_begin hqueue
      | nil => exact .refl _
  | post job delay =>
    rw [perform_post]
    by_cases hdelay : delay = 0
    · rw [hdelay, post_of_open hs.alive hopen]
      exact accounts_accepted hopen hact
    · rw [post_of_delay hs.alive hopen hdelay]
      exact accounts_delayed hopen hdelay job
  | call job =>
    have hposted := accounts_accepted hopen hact
    rw [perform_call hs hopen hact]
    exact hposted.trans (accounts_finishing (hposted.sound hs) _)
  | stop => exact hact.elim

/-- **Every course of ordinary acts on an open worker is accounted for.** -/
theorem accounts_course {acts : List Act} (hs : s.Sound) (hopen : s.worker.isOpen = true)
    (hacts : ∀ act ∈ acts, act.IsOrdinary) : Accounts s (s.course acts).1 (s.course acts).2 := by
  induction acts generalizing s with
  | nil => exact .refl _
  | cons act acts ih =>
    have hstep := accounts_perform hs hopen (hacts act List.mem_cons_self)
    exact hstep.trans (ih (hstep.sound hs) (hstep.isOpen.trans hopen)
      fun act' hact' => hacts act' (List.mem_cons_of_mem _ hact'))

/-! ## The stop -/

/-- A call between other acts of a course: its task is done behind everything that was accepted
before, and then the call is answered. -/
theorem course_call {acts : List Act} (hs : s.Sound) (hopen : s.worker.isOpen = true)
    (hidle : s.hand = [] ∧ s.worker.queue = []) (hacts : ∀ act ∈ acts, act.IsOrdinary) {job : Job}
    (hjob : Plain job) :
    begun (s.course (acts ++ [.call job])).1 = accepted (s.course acts).1 ++ [job] ∧
      (s.course (acts ++ [.call job])).2.hand = [] ∧
      ∀ (α : Type) (answer : Worker → α), (s.course acts).2.whole.call job answer =
        (.ok (answer (s.course (acts ++ [.call job])).2.worker),
          (s.course (acts ++ [.call job])).2.worker) := by
  have haccounts := accounts_course hs hopen hacts
  have hs' := haccounts.sound hs
  have hopen' := haccounts.isOpen.trans hopen
  have hposted := accounts_accepted hopen' hjob
  have horder := haccounts.order
  rw [hidle.2, List.nil_append] at horder
  rw [course_append]
  simp only [course, perform_call hs' hopen' hjob, List.append_nil]
  refine ⟨?_, trivial, fun α answer => call_whole hs' hopen' hjob answer⟩
  rw [begun_append, ← List.singleton_append, begun_append, begun_finishing (hposted.sound hs'),
    ← horder, List.append_assoc]
  rfl

theorem turns_of_idle (hqueue : w.queue = []) (n : Nat) : turns n w = w := by
  induction n with
  | zero => rfl
  | succ n ih => rw [turns, turn_of_idle hqueue, ih]

theorem turns_add (m n : Nat) (w : Worker) : turns (m + n) w = turns n (turns m w) := by
  induction m generalizing w with
  | zero => rw [Nat.zero_add, turns]
  | succ m ih => rw [Nat.succ_add, turns, turns, ih]

/-- Running out of tasks takes at least as many turns as tasks wait. -/
theorem length_le_cost (queue : List Job) :
    queue.length ≤ queue.foldr (fun job n => cost job + n) 0 := by
  induction queue with
  | nil => exact Nat.le_refl _
  | cons job rest ih =>
    rw [List.length_cons, List.foldr_cons, cost]
    omega

/-- **Stopping runs what waits**, and nothing is left then. -/
theorem perform_stop (hs : s.Sound) (hopen : s.worker.isOpen = true) :
    let closed : AtWork := { s with worker := { s.worker with isOpen := false } }
    let w := turns s.worker.queue.length (runJob s.hand closed.worker)
    s.perform .stop = (closed.finishing s.worker.queue.length, ⟨{ w with sleeping := [] }, []⟩) ∧
      Accounts closed (closed.finishing s.worker.queue.length) ⟨w, []⟩ ∧
      begun (closed.finishing s.worker.queue.length) = s.worker.queue ∧ w.queue = [] := by
  intro closed w
  have hclosed : closed.Sound := ⟨hs.alive, hs.hand, hs.queue⟩
  have haccounts := accounts_finishing hclosed s.worker.queue.length
  have hqueue : w.queue = [] :=
    (queue_finishing hclosed).trans (haccounts.accepted_of_closed rfl)
  have hwhole : closed.whole = { s.whole with isOpen := false } := by
    obtain ⟨worker, hand⟩ := s
    cases hand with
    | nil => rfl
    | cons command rest => rfl
  have hwholeOpen : s.whole.isOpen = true := by
    unfold whole
    split
    · exact hopen
    · exact hopen
  have hdrain : closed.whole.drain = w := by
    obtain ⟨more, hmore⟩ := Nat.exists_eq_add_of_le (length_le_cost closed.whole.queue)
    unfold drain
    rw [hmore, turns_add, turns_whole]
    exact turns_of_idle hqueue more
  have hstop : s.whole.stop = { w with sleeping := [] } := by
    unfold stop
    rw [if_pos hwholeOpen, ← hwhole, hdrain]
  refine ⟨?_, haccounts, begun_finishing hclosed, hqueue⟩
  simp only [perform, hopen, if_true, hstop]
  rfl

/-- A worker that was stopped, and has run out of tasks. -/
structure Stopped (s : AtWork) : Prop where
  closed : s.worker.isOpen = false
  hand : s.hand = []
  queue : s.worker.queue = []

/-- A course that ends with the stop: everything that was accepted has been done. -/
theorem course_stop {acts : List Act} (hs : s.Sound) (hopen : s.worker.isOpen = true)
    (hidle : s.hand = [] ∧ s.worker.queue = []) (hacts : ∀ act ∈ acts, act.IsOrdinary) :
    let course := s.course (acts ++ [.stop])
    begun course.1 = accepted course.1 ∧
      carriedOut course.1 = (accepted course.1).flatten ∧
      course.2.worker.log = s.worker.log ++ written course.1 ∧
      course.2.worker.sleeping = [] ∧ course.2.worker.name = s.worker.name ∧ course.2.Stopped := by
  intro course
  have haccounts := accounts_course hs hopen hacts
  obtain ⟨hperform, hstopping, hbegun, hqueue⟩ :=
    perform_stop (haccounts.sound hs) (haccounts.isOpen.trans hopen)
  have hnone := hstopping.accepted_of_closed rfl
  have hcourse : course = _ := course_append s acts [.stop]
  simp only [AtWork.course, hperform, List.append_nil] at hcourse
  have horder : begun course.1 = accepted course.1 := by
    have horder := haccounts.order
    rw [hidle.2, List.nil_append] at horder
    rw [hcourse, begun_append, accepted_append, hnone, List.append_nil, hbegun, horder]
  have hcommands := haccounts.commands
  have hrest := hstopping.commands
  rw [hidle.1, List.nil_append] at hcommands
  rw [List.append_nil] at hrest
  refine ⟨horder, ?_, ?_, ?_, ?_, ?_, ?_, ?_⟩
  · rw [← horder, hcourse, carriedOut_append, hrest, begun_append, List.flatten_append,
      ← List.append_assoc, hcommands]
  · rw [hcourse, written_append, ← List.append_assoc, ← haccounts.log]
    exact hstopping.log
  · rw [hcourse]
  · rw [hcourse]
    exact hstopping.name.trans haccounts.name
  · rw [hcourse]
    exact hstopping.isOpen
  · rw [hcourse]
  · rw [hcourse]
    exact hqueue

/-- Nothing happens at a stopped worker but that posts are refused. -/
theorem Stopped.perform (h : s.Stopped) (act : Act) :
    (∀ o ∈ (s.perform act).1, ∃ job delay, o = .posted job delay false) ∧
      (s.perform act).2 = s := by
  obtain ⟨worker, hand⟩ := s
  obtain ⟨hclosed, rfl, hqueue⟩ := h
  dsimp only at hclosed hqueue
  have hrefused (job : Job) (delay : Nanos) :
      ∀ o ∈ [Occurrence.posted job delay false], ∃ job delay, o = .posted job delay false :=
    fun o ho => ⟨job, delay, List.mem_singleton.1 ho⟩
  cases act with
  | work => simp [AtWork.perform, hqueue]
  | post job delay =>
    rw [perform_post, post_of_closed hclosed]
    exact ⟨hrefused job delay, rfl⟩
  | call job =>
    simp only [AtWork.perform, post_of_closed hclosed, Bool.false_eq_true, if_false]
    exact ⟨hrefused job 0, trivial⟩
  | stop => simp [AtWork.perform, hclosed]

theorem Stopped.course (h : s.Stopped) (acts : List Act) :
    (∀ o ∈ (s.course acts).1, ∃ job delay, o = .posted job delay false) ∧
      (s.course acts).2 = s := by
  induction acts with
  | nil => exact ⟨fun o ho => absurd ho List.not_mem_nil, rfl⟩
  | cons act acts ih =>
    obtain ⟨hhappened, hsame⟩ := h.perform act
    simp only [AtWork.course, hsame]
    exact ⟨fun o ho => (List.mem_append.1 ho).elim (hhappened o) (ih.1 o), ih.2⟩

end AtWork

/-- **A worker runs what it accepted, once and in order.** Let a thread outside post to a new
worker and call it, and the worker's thread get on between any two of these acts as far as it
likes, and let the worker then be stopped.

When the stop returns, the tasks that were begun are the ones that were accepted without a delay,
in the order in which they were accepted; the commands that were carried out are all of theirs;
and the log is what these wrote. Nothing waits or sleeps any more. Until the stop every post is
accepted. After it, whatever is done, nothing happens but that posts are refused, the worker stays
as it is, and calls are answered by the error without any effect. And each call before the stop is
answered from the worker at a time when all tasks that were accepted before it and its own have
been carried out, and no others. -/
theorem runs_accepted_in_order (name : String) (acts : List Act)
    (hordinary : ∀ act ∈ acts, act.IsOrdinary) :
    let start : AtWork := { worker := { name } }
    let happened := (start.course (acts ++ [.stop])).1
    let stopped := (start.course (acts ++ [.stop])).2
    (begun happened = accepted happened ∧
      carriedOut happened = (accepted happened).flatten ∧
      stopped.worker.log = written happened ∧
      stopped.worker.queue = [] ∧ stopped.worker.sleeping = []) ∧
    (∀ o ∈ (start.course acts).1, ∀ answer ∈ o.answer?, answer = true) ∧
    (∀ later, (∀ o ∈ (stopped.course later).1, ∃ job delay, o = .posted job delay false) ∧
      (stopped.course later).2 = stopped) ∧
    (∀ job delay, stopped.worker.post job delay = (false, stopped.worker)) ∧
    (∀ job (α : Type) (answer : Worker → α),
      stopped.worker.call job answer = (.error (.stopped name), stopped.worker)) ∧
    ∀ earlier job rest, acts = earlier ++ .call job :: rest →
      let happened := (start.course (earlier ++ [.call job])).1
      let answered := (start.course (earlier ++ [.call job])).2
      begun happened = accepted (start.course earlier).1 ++ [job] ∧
      carriedOut happened = (accepted (start.course earlier).1 ++ [job]).flatten ∧
      ∀ (α : Type) (answer : Worker → α),
        (start.course earlier).2.whole.call job answer =
          (.ok (answer answered.worker), answered.worker) := by
  intro start happened stopped
  have hs : start.Sound :=
    ⟨rfl, fun _ hc => absurd hc List.not_mem_nil, fun _ hjob => absurd hjob List.not_mem_nil⟩
  obtain ⟨hbegun, hcarried, hlog, hsleeping, hname, hstopped⟩ :=
    AtWork.course_stop hs rfl ⟨rfl, rfl⟩ hordinary
  refine ⟨⟨hbegun, hcarried, hlog, hstopped.queue, hsleeping⟩,
    (AtWork.accounts_course hs rfl hordinary).answers, hstopped.course,
    post_of_closed hstopped.closed, fun job α answer => ?_, fun earlier job rest hacts => ?_⟩
  · rw [call_of_closed hstopped.closed, hname]
  · intro happened answered
    rw [hacts] at hordinary
    have hearlier : ∀ act ∈ earlier, act.IsOrdinary :=
      fun act hact => hordinary act (List.mem_append_left _ hact)
    have hcall : Act.IsOrdinary (.call job) :=
      hordinary _ (List.mem_append_right _ List.mem_cons_self)
    obtain ⟨hbegun, hhand, hanswer⟩ := AtWork.course_call hs rfl ⟨rfl, rfl⟩ hearlier hcall
    have hcommands := (AtWork.accounts_course hs rfl fun act hact =>
      (List.mem_append.1 hact).elim (hearlier act) fun h => List.mem_singleton.1 h ▸ hcall).commands
    rw [hhand, List.append_nil, List.nil_append] at hcommands
    exact ⟨hbegun, hbegun ▸ hcommands, hanswer⟩

/-- A task that posts another is interrupted by a post and still in hand when a call is made; a
task sleeps; and the last one is only begun when the worker is closed. -/
def errands : List Act :=
  [.post [.log "first", .repost "second"] 0, .work, .work, .post [.log "third"] 0, .work,
    .post [.log "asleep"] 5, .call [.log "asked"], .post [.repost "late"] 0]

/-- Of the errands all are run but the sleeping one and the one that was posted too late. -/
theorem runs_accepted_in_order_errands :
    let start : AtWork := { worker := { name := "io" } }
    let stopped := (start.course (errands ++ [.stop])).2.worker
    (∀ act ∈ errands, act.IsOrdinary) ∧
      stopped.log = [("first", true), ("repost=true", true), ("third", true), ("second", true),
        ("asked", true), ("repost=false", true)] ∧
      stopped.post [.log "later"] 0 = (false, stopped) ∧
      (stopped.call [.log "later"] fun _ => 7).1 = .error (.stopped "io") ∧
      begun (start.course (errands.take 7)).1 =
        [[.log "first", .repost "second"], [.log "third"], [.log "second"], [.log "asked"]] ∧
      ((start.course (errands.take 6)).2.whole.call [.log "asked"] fun w => w.log.length).1 =
        .ok 5 := by
  intro start stopped
  have hordinary : ∀ act ∈ errands, act.IsOrdinary := by decide
  obtain ⟨⟨-, -, hlog, -⟩, -, -, hpost, hcall, hanswered⟩ :=
    runs_accepted_in_order "io" errands hordinary
  obtain ⟨hbegun, -, hanswer⟩ :=
    hanswered (errands.take 6) [.log "asked"] [.post [.repost "late"] 0] rfl
  refine ⟨hordinary, hlog.trans (by decide +kernel), hpost _ _, ?_, ?_, ?_⟩
  · rw [hcall]
  · exact hbegun.trans (by decide +kernel)
  · rw [hanswer]
    decide +kernel

end Worker

end Compositor
