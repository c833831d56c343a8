import Compositor.Proofs.Host.Registries

/-!
# One active limiter for each context

A registry keeps one limiter under each number of a context, and it replaces a limiter only
after that one has stopped, and stops a limiter when it lets go of it. So of all limiters that
it ever made, the active ones are those that it keeps, each under its own number
(`Exclusive`): there are never two for one number.

Limiters that stopped do not start again. Their checks may still be in the queue, but they do
nothing any more; what is called for a number is called by the limiter that the registry
keeps under it. This is so whether actions come to an answer or are halted, whether the
runner accepts posts or not, and whatever is dropped from its queue.
-/

namespace Compositor.Host

open Compositor.Action

variable {S : Type}

/-- A task is a good script or a check of a limiter, maybe behind gates. -/
inductive IsPosted (Good : S → Prop) : Task S → Prop where
  | scripted {label : String} {script : S} (hgood : Good script) :
    IsPosted Good (.scripted label script)
  | check (number : Nat) : IsPosted Good (.check number)
  | proxied (proxy : Nat) {task : Task S} (htask : IsPosted Good task) :
    IsPosted Good (.proxied proxy task)

/-- What waits in the queue and what limiters call back is good. -/
structure Callable (Good : S → Prop) (contexts : Roster (RateContext S))
    (clients : Roster (RateClient S)) (pending : List (Pending (Task S))) : Prop where
  posted {q : Pending (Task S)} (hq : q ∈ pending) : IsPosted Good q.task
  onWait {c : RateContext S} (hc : c ∈ contexts.members) : Good c.onWait
  onLimit {c : RateClient S} (hc : c ∈ clients.members) : Good c.onLimit

/-- **The registry keeps what is active.** Each limiter is active or has stopped; if it is
active, the registry keeps it under its own number. Those that were there before still are,
and those that had stopped then have not started again. -/
structure Exclusive (name : String) (before limiters : Roster Limiter)
    (contexts : Roster (RateContext S)) (registries : Table String LimiterRegistry) : Prop where
  registered : Registered limiters contexts registries
  begun {n : Nat} {l : Limiter} (hl : limiters.get? n = some l) : l.phase ≠ .idle
  active {n : Nat} {l : Limiter} (hl : limiters.get? n = some l) (hactive : l.phase = .active) :
    keptBy registries name l.id = some n
  past {n : Nat} {l : Limiter} (hl : before.get? n = some l) :
    ∃ l', limiters.get? n = some l' ∧ l'.id = l.id ∧ (l.phase = .stopped → l'.phase = .stopped)

namespace Exclusive

variable {name : String} {before limiters : Roster Limiter} {contexts : Roster (RateContext S)}
  {registries : Table String LimiterRegistry} {r : LimiterRegistry} {id : ContextId} {n n' : Nat}
  {l l' : Limiter}

/-- **Two active limiters with one number are the same.** -/
theorem eq_of_active (h : Exclusive name before limiters contexts registries)
    (hl : limiters.get? n = some l) (hactive : l.phase = .active)
    (hl' : limiters.get? n' = some l') (hactive' : l'.phase = .active) (hid : l.id = l'.id) :
    n = n' := by
  have hkept := h.active hl hactive
  rw [hid] at hkept
  exact Option.some.inj (hkept.symm.trans (h.active hl' hactive'))

/-- **An active limiter is as the registry started it**, for a context of its own number. -/
theorem exists_context (h : Exclusive name before limiters contexts registries)
    (hl : limiters.get? n = some l) (hactive : l.phase = .active) :
    ∃ r context, registries.find? name = some r ∧ l = r.startedLimiter l.id context ∧
      (contexts.get? context).map RateContext.id = some l.id := by
  obtain ⟨r, hr, hn⟩ := keptBy_eq_some.1 (h.active hl hactive)
  obtain ⟨l', hl', context, hid, hmade⟩ := h.registered.kept hr hn
  obtain rfl := Option.some.inj (hl.symm.trans hl')
  rcases hmade with hstarted | hstopped
  · exact ⟨r, context, hr, hstarted, hid⟩
  · rw [hstopped] at hactive
    cases hactive

/-- A limiter that was not kept, or not active, has stopped. -/
theorem stopped (h : Exclusive name before limiters contexts registries)
    (hl : limiters.get? n = some l) (hnot : keptBy registries name l.id ≠ some n) :
    l.phase = .stopped := by
  have hbegun := h.begun hl
  have hactive : l.phase ≠ .active := fun hactive => hnot (h.active hl hactive)
  cases hphase : l.phase with
  | idle => exact absurd hphase hbegun
  | active => exact absurd hphase hactive
  | stopped => rfl

theorem empty (name : String) (contexts : Roster (RateContext S)) :
    Exclusive name {} {} contexts ∅ :=
  ⟨.empty, nofun, nofun, nofun⟩

/-- What is there now is what was there before from now on. -/
theorem fromNow (h : Exclusive name before limiters contexts registries) :
    Exclusive name limiters limiters contexts registries :=
  { h with past := fun hl => ⟨_, hl, rfl, id⟩ }

theorem changeContexts {contexts' : Roster (RateContext S)}
    (h : Exclusive name before limiters contexts registries)
    (hcontexts : ∀ n c, contexts.get? n = some c → contexts'.get? n = some c) :
    Exclusive name before limiters contexts' registries :=
  { h with registered := h.registered.changeContexts hcontexts }

/-- A limiter after one of them was stopped is another one, or the one that stopped. -/
theorem get?_stop (hl : (limiters.update n Limiter.stop).get? n' = some l) :
    n' ≠ n ∧ limiters.get? n' = some l ∨ l.phase = .stopped := by
  rcases Roster.get?_update_eq_some hl with ⟨-, l, -, rfl⟩ | hother
  · exact .inr rfl
  · exact .inl hother

/-- **A limiter stops**, by itself or because it is told to. -/
theorem stop (h : Exclusive name before limiters contexts registries) (n : Nat) :
    Exclusive name before (limiters.update n Limiter.stop) contexts registries where
  registered := h.registered.stop n
  begun hl := by
    rcases get?_stop hl with ⟨-, hl⟩ | hstopped
    · exact h.begun hl
    · rw [hstopped]
      exact nofun
  active hl hactive := by
    rcases get?_stop hl with ⟨-, hl⟩ | hstopped
    · exact h.active hl hactive
    · cases hactive.symm.trans hstopped
  past {m _} hl := by
    obtain ⟨l', hl', hid, hstopped⟩ := h.past hl
    by_cases heq : m = n
    · subst heq
      exact ⟨l'.stop, Roster.get?_update_of_some hl' _, hid, fun _ => rfl⟩
    · exact ⟨l', (Roster.get?_update_of_ne _ _ heq).trans hl', hid, hstopped⟩

/-- **The registry lets go of a limiter** and stops it. -/
theorem release (h : Exclusive name before limiters contexts registries)
    (hr : registries.find? name = some r) (hn : r.find? id = some n) :
    Exclusive name before (limiters.update n Limiter.stop) contexts
      (registries.insert name (r.erase id)) where
  registered := (h.registered.stop n).shrink fun {other r' id' m} hr' hm => by
    by_cases heq : other = name
    · subst heq
      rw [Table.find?_insert_self] at hr'
      obtain rfl := Option.some.inj hr'
      exact ⟨r, hr, Table.find?_of_erase hm, rfl⟩
    · exact ⟨r', (Table.find?_insert_of_ne _ _ heq).symm.trans hr', hm, rfl⟩
  begun := (h.stop n).begun
  active {m l} hl hactive := by
    rcases get?_stop hl with ⟨hne, hl⟩ | hstopped
    · obtain ⟨r', hr', hm⟩ := keptBy_eq_some.1 (h.active hl hactive)
      obtain rfl := Option.some.inj (hr.symm.trans hr')
      -- it is not the limiter that was let go of, so it is kept under another number
      have hother : l.id ≠ id := by
        rintro rfl
        exact hne (Option.some.inj (hm.symm.trans hn))
      rw [keptBy_insert, if_pos rfl]
      exact (Table.find?_erase_of_ne _ hother).trans hm
    · cases hactive.symm.trans hstopped
  past := (h.stop n).past

/-- **The registry takes a limiter** that it makes and starts for a context, if the one that it
keeps under the number, if any, has stopped. -/
theorem take (h : Exclusive name before limiters contexts registries)
    (hr : registries.find? name = some r) {context : Nat} {target : RateContext S}
    (htarget : contexts.get? context = some target)
    (hfree : ∀ n l, r.find? target.id = some n → limiters.get? n = some l → l.phase ≠ .active) :
    Exclusive name before (limiters.add (r.startedLimiter target.id context)).2 contexts
      (registries.insert name (r.insert target.id limiters.members.length)) := by
  have hgains := Roster.gains_add limiters (r.startedLimiter target.id context)
  refine ⟨h.registered.take hr htarget, fun hl => ?_, fun {n l} hl hactive => ?_,
    fun hl => ?_⟩
  · rcases hgains.get?_eq_some hl with hl | ⟨-, rfl⟩
    · exact h.begun hl
    · exact nofun
  · rw [keptBy_insert, if_pos rfl]
    rcases hgains.get?_eq_some hl with hl | ⟨hnone, rfl⟩
    · obtain ⟨r', hr', hn⟩ := keptBy_eq_some.1 (h.active hl hactive)
      obtain rfl := Option.some.inj (hr.symm.trans hr')
      have hother : l.id ≠ target.id := fun heq => hfree n l (heq ▸ hn) hl hactive
      exact (Table.find?_insert_of_ne _ _ hother).trans hn
    · obtain rfl := hgains.eq_length hl hnone
      exact Table.find?_insert_self ..
  · obtain ⟨l', hl', hrest⟩ := h.past hl
    exact ⟨l', hgains.get?_of_some hl', hrest⟩

/-- **A registry is suspended**, or made anew when it keeps nothing: what it keeps stays. -/
theorem rewrite (h : Exclusive name before limiters contexts registries) {r' : LimiterRegistry}
    (hkept : ∀ id n, r'.find? id = some n ↔ keptBy registries name id = some n)
    (hmade : ∀ r, registries.find? name = some r → ∀ id n, r'.find? id = some n →
      r'.startedLimiter = r.startedLimiter) :
    Exclusive name before limiters contexts (registries.insert name r') where
  registered := h.registered.shrink fun {other r'' id n} hr hn => by
    by_cases heq : other = name
    · subst heq
      rw [Table.find?_insert_self] at hr
      obtain rfl := Option.some.inj hr
      obtain ⟨r, hr, hn'⟩ := keptBy_eq_some.1 ((hkept id n).1 hn)
      exact ⟨r, hr, hn', hmade r hr id n hn⟩
    · exact ⟨r'', (Table.find?_insert_of_ne _ _ heq).symm.trans hr, hn, rfl⟩
  begun := h.begun
  active hl hactive := by
    rw [keptBy_insert, if_pos rfl]
    exact (hkept ..).2 (h.active hl hactive)
  past := h.past

/-- A registry that keeps nothing is given up. -/
theorem erase (h : Exclusive name before limiters contexts registries)
    (hnone : ∀ id, keptBy registries name id = none) :
    Exclusive name before limiters contexts (registries.erase name) where
  registered := h.registered.shrink fun {other r id n} hr hn =>
    ⟨r, Table.find?_of_erase hr, hn, rfl⟩
  begun := h.begun
  active hl hactive := by
    cases (hnone _).symm.trans (h.active hl hactive)
  past := h.past

end Exclusive

theorem Callable.post {Good : S → Prop} {contexts : Roster (RateContext S)}
    {clients : Roster (RateClient S)} {queue queue' : TaskQueue (Task S)} {task : Task S}
    {delay : Nanos} {accepted : Bool} (h : Callable Good contexts clients queue.pending)
    (htask : IsPosted Good task) (hpost : queue.post task delay = .ok (accepted, queue')) :
    Callable Good contexts clients queue'.pending := by
  obtain ⟨-, rfl⟩ := TaskQueue.post_eq_ok hpost
  split
  · refine { h with posted := fun hq => ?_ }
    rcases TaskQueue.mem_pending_accept.1 hq with rfl | hq
    · exact htask
    · exact h.posted hq
  · exact h

/-- **A host whose only registry keeps what is active**, and what is called back is good. -/
def Exclusively (Good : S → Prop) (name : String) (before : Roster Limiter) (h : Host S) : Prop :=
  Callable Good h.state.contexts h.state.clients h.queue.pending ∧
    Exclusive name before h.state.limiters h.state.contexts h.state.registries

variable {Good : S → Prop} {name : String} {before : Roster Limiter} {h : Host S}

/-- What a host is after the first task was taken from its queue. -/
theorem Exclusively.pop (hX : Exclusively Good name before h) {task : Task S}
    {queue : TaskQueue (Task S)} (hpop : h.queue.popNext = some (task, queue)) :
    IsPosted Good task ∧ Exclusively Good name before { h with queue } := by
  obtain ⟨q, rest, hpending, rfl, rfl⟩ := TaskQueue.popNext_eq_some.1 hpop
  have hposted {q' : Pending (Task S)} (hq' : q' ∈ q :: rest) := hX.1.posted (hpending ▸ hq')
  exact ⟨hposted (List.mem_cons_self ..),
    { hX.1 with posted := fun hq' => hposted (List.mem_cons_of_mem _ hq') }, hX.2⟩

/-! ## Posting and stopping -/

theorem preserves_post_exclusively {task : Task S} (htask : IsPosted Good task) (delay : Nanos) :
    (EventLoop.post task delay : Act S Bool).Preserves (Exclusively Good name before)
      (Exclusively Good name before) :=
  preserves_post (fun _ => id) fun _ _ _ hX hpost => ⟨hX.1.post htask hpost, hX.2⟩

/-- Posting a check changes the queue, and nothing that lives on the host. -/
theorem ends_postCheck_exclusively (hX : Exclusively Good name before h) (number : Nat)
    (delay : Nanos) :
    (postCheck number delay : Act S Unit).Ends h
      (fun _ h' => Exclusively Good name before h' ∧ h'.state = h.state)
      fun _ => Exclusively Good name before := by
  unfold postCheck
  rw [ends_bind, ends_residents]
  cases h.state.limiters.get? number with
  | none => exact ⟨hX, rfl⟩
  | some l =>
    have hposted : (EventLoop.post (.proxied l.proxy (.check number)) delay : Act S Bool).Preserves
        (fun h' => Exclusively Good name before h' ∧ h'.state = h.state)
        (Exclusively Good name before) :=
      preserves_post (fun _ => And.left) fun _ _ _ hX hpost =>
        ⟨⟨hX.1.1.post (.proxied _ (.check number)) hpost, hX.1.2⟩, hX.2⟩
    exact hposted.map _ h ⟨hX, rfl⟩

theorem preserves_stopLimiter_exclusively (number : Nat) :
    (stopLimiter number : Act S Unit).Preserves (Exclusively Good name before)
      (Exclusively Good name before) :=
  preserves_change fun _ hX => ⟨hX.1, hX.2.stop number⟩

/-- **One limiter of the registry is stopped.** Nothing is kept under its number any more, and
what is kept under the others was kept before. -/
theorem ends_registryStop (hX : Exclusively Good name before h) (id : ContextId) :
    (registryStop name id : Act S Unit).Ends h
      (fun _ h' => Exclusively Good name before h' ∧ keptBy h'.state.registries name id = none ∧
        ∀ other n, keptBy h'.state.registries name other = some n →
          keptBy h.state.registries name other = some n)
      fun _ _ => False := by
  unfold registryStop
  rw [ends_bind, ends_residents]
  cases hr : h.state.registries.find? name with
  | none =>
    refine ⟨hX, ?_, fun _ _ hn => hn⟩
    unfold keptBy
    rw [hr]
    rfl
  | some r =>
    dsimp only
    cases hn : r.find? id with
    | none =>
      refine ⟨hX, ?_, fun _ _ hn => hn⟩
      unfold keptBy
      rw [hr]
      exact hn
    | some n =>
      refine ⟨⟨hX.1, hX.2.release hr hn⟩, ?_, fun other n hn => (keptBy_erase hr hn).1⟩
      rw [keptBy_insert, if_pos rfl]
      exact Table.find?_erase_self ..

/-- **Every limiter of the registry is stopped**, and nothing is kept any more. -/
theorem ends_registryStopAll (hX : Exclusively Good name before h) :
    (registryStopAll name : Act S Unit).Ends h
      (fun _ h' => Exclusively Good name before h' ∧
        ∀ id, keptBy h'.state.registries name id = none)
      fun _ _ => False := by
  -- what is kept after some of the limiters were stopped is kept under one of the other numbers
  have hrest (ids : List ContextId) (h : Host S) (hX : Exclusively Good name before h)
      (hids : ∀ id n, keptBy h.state.registries name id = some n → id ∈ ids) :
      (ids.forM (registryStop name) : Act S PUnit).Ends h
        (fun _ h' => Exclusively Good name before h' ∧
          ∀ id, keptBy h'.state.registries name id = none) fun _ _ => False := by
    induction ids generalizing h with
    | nil =>
      exact ⟨hX, fun id => Option.eq_none_iff_forall_ne_some.2 fun n hn => nomatch hids id n hn⟩
    | cons id rest ih =>
      refine (ends_bind ..).2
        ((ends_registryStop hX id).imp (fun _ h' hh' => ?_) fun _ _ => False.elim)
      obtain ⟨hX', hnone, hkept⟩ := hh'
      refine ih h' hX' fun other n hn => ?_
      rcases List.mem_cons.1 (hids other n (hkept other n hn)) with rfl | hmem
      · cases hnone.symm.trans hn
      · exact hmem
  unfold registryStopAll
  rw [ends_bind, ends_residents]
  cases hr : h.state.registries.find? name with
  | none =>
    refine ⟨hX, fun id => ?_⟩
    unfold keptBy
    rw [hr]
    rfl
  | some r =>
    refine hrest _ h hX fun id n hn => ?_
    obtain ⟨r', hr', hn⟩ := keptBy_eq_some.1 hn
    obtain rfl := Option.some.inj (hr.symm.trans hr')
    exact Table.mem_keys_of_find? hn

theorem preserves_registryStop_exclusively (id : ContextId) :
    (registryStop name id : Act S Unit).Preserves (Exclusively Good name before)
      (Exclusively Good name before) :=
  fun _ hX => (ends_registryStop hX id).imp (fun _ _ hstopped => hstopped.1) fun _ _ => False.elim

theorem preserves_registryStopAll_exclusively :
    (registryStopAll name : Act S Unit).Preserves (Exclusively Good name before)
      (Exclusively Good name before) :=
  fun _ hX => (ends_registryStopAll hX).imp (fun _ _ hstopped => hstopped.1) fun _ _ => False.elim

/-- The registry is let go of, with all that it keeps. -/
theorem preserves_dropRegistry_exclusively :
    (dropRegistry name : Act S Unit).Preserves
      (Exclusively Good name before) (Exclusively Good name before) := by
  intro h hX
  unfold dropRegistry
  rw [ends_bind]
  refine (ends_registryStopAll hX).imp (fun _ h' hstopped => ?_) fun _ _ => False.elim
  exact ⟨hstopped.1.1, hstopped.1.2.erase hstopped.2⟩

/-! ## Starting -/

/-- **A start takes effect** if a limiter is made for the context and started at once, and the
registry keeps it under the number of the context from then on. -/
def TakesEffect (name : String) (context : Nat) (h h' : Host S) : Prop :=
  ∃ r target, h.state.registries.find? name = some r ∧
    h.state.contexts.get? context = some target ∧
    h'.state.limiters = (h.state.limiters.add (r.startedLimiter target.id context)).2 ∧
    keptBy h'.state.registries name target.id = some h.state.limiters.members.length

/-- A limiter that the registry just made is started. -/
theorem ends_startLimiter_of_made {r : LimiterRegistry} {context : Nat}
    {target : RateContext S} (hX : Exclusively Good name before h)
    (hr : h.state.registries.find? name = some r)
    (htarget : h.state.contexts.get? context = some target)
    (hfree : ∀ n l, r.find? target.id = some n → h.state.limiters.get? n = some l →
      l.phase ≠ .active) :
    (startLimiter h.state.limiters.members.length : Act S Unit).Ends
      { h with state := { h.state with
        limiters := (h.state.limiters.add (r.newLimiter target.id context)).2
        registries := h.state.registries.insert name
          (r.insert target.id h.state.limiters.members.length) } }
      (fun _ h' => Exclusively Good name before h' ∧ TakesEffect name context h h')
      fun _ => Exclusively Good name before := by
  have hself : (h.state.limiters.add (r.newLimiter target.id context)).2.get?
      h.state.limiters.members.length = some (r.newLimiter target.id context) :=
    Roster.get?_add ..
  have htaken : Exclusively Good name before { h with state := { h.state with
      limiters := (h.state.limiters.add (r.startedLimiter target.id context)).2
      registries := h.state.registries.insert name
        (r.insert target.id h.state.limiters.members.length) } } :=
    ⟨hX.1, hX.2.take hr htarget hfree⟩
  have hupdated := Roster.update_add h.state.limiters (r.newLimiter target.id context) fun _ =>
    r.startedLimiter target.id context
  rw [← hupdated] at htaken
  unfold startLimiter
  simp only [ends_bind, ends_residents, hself, Option.bind_some]
  refine (ends_postCheck_exclusively htaken h.state.limiters.members.length 0).imp
    (fun _ h' hposted => ?_) fun _ _ => id
  refine ⟨hposted.1, r, target, hr, htarget, ?_, ?_⟩
  · rw [hposted.2]
    exact hupdated
  · rw [hposted.2, keptBy_insert, if_pos rfl]
    exact Table.find?_insert_self ..

/-- **Starting the limiter of a context** takes effect, or it changes nothing: if the registry
is suspended, if it keeps an active limiter under the number already, or if one of the two is
not there. -/
theorem ends_registryStart_exclusively (hX : Exclusively Good name before h) (context : Nat) :
    (registryStart name context : Act S Unit).Ends h
      (fun _ h' => Exclusively Good name before h' ∧ (h' = h ∨ TakesEffect name context h h'))
      fun _ => Exclusively Good name before := by
  unfold registryStart
  rw [ends_bind, ends_residents]
  cases hr : h.state.registries.find? name with
  | none => exact ⟨hX, .inl rfl⟩
  | some r =>
    cases htarget : h.state.contexts.get? context with
    | none => exact ⟨hX, .inl rfl⟩
    | some target =>
      have hmade (hfree : ∀ n l, r.find? target.id = some n → h.state.limiters.get? n = some l →
          l.phase ≠ .active) := (ends_startLimiter_of_made hX hr htarget hfree).imp
        (fun _ h' heffect => show Exclusively Good name before h' ∧
          (h' = h ∨ TakesEffect name context h h') from ⟨heffect.1, .inr heffect.2⟩) fun _ _ => id
      dsimp only
      split
      · exact ⟨hX, .inl rfl⟩
      · cases hn : r.find? target.id with
        | none => exact hmade fun n l hn' => nomatch hn.symm.trans hn'
        | some n =>
          obtain ⟨l, hl, -⟩ := hX.2.registered.kept hr hn
          rw [Option.bind_some, hl]
          dsimp only
          by_cases hstopped : l.isStopped = true
          · simp only [hstopped, if_true]
            refine hmade fun n' l' hn' hl' => ?_
            obtain rfl := Option.some.inj (hn.symm.trans hn')
            obtain rfl := Option.some.inj (hl.symm.trans hl')
            rw [of_decide_eq_true hstopped]
            exact nofun
          · -- the limiter that is kept has begun, so it is not started again
            have hnone : l.start? = none := if_neg (hX.2.begun hl)
            simp only [hstopped, Bool.false_eq_true, if_false]
            unfold startLimiter
            rw [ends_bind, ends_residents, hl, Option.bind_some, hnone]
            exact ⟨hX, .inl rfl⟩

/-! ## Running -/

section Running

variable {run : S → Act S Unit}
  (hrun : ∀ script, Good script → (run script).Preserves (Exclusively Good name before)
    (Exclusively Good name before))

include hrun

/-- The client is told, if it is still there. -/
theorem preserves_tellClient_exclusively (number : Nat) :
    (do
      if let some client := (← residents).clients.get? number then
        emit (.limit client.name)
        run client.onLimit : Act S PUnit).Preserves (Exclusively Good name before)
      (Exclusively Good name before) := by
  intro h hX
  rw [ends_bind, ends_residents]
  cases hc : h.state.clients.get? number with
  | none => exact hX
  | some client => exact hrun _ (hX.1.onLimit (List.mem_of_getElem? hc)) _ hX

theorem preserves_callTargets_exclusively (t : LimiterTargets) :
    (callTargets run t).Preserves (Exclusively Good name before)
      (Exclusively Good name before) := by
  refine preserves_holding _ (fun h hX => ?_) (fun _ _ hX => hX) fun _ _ hX => hX
  have htell := preserves_tellClient_exclusively hrun t.client
  rw [ends_bind, ends_residents]
  cases hc : h.state.contexts.get? t.context with
  | none => exact htell h hX
  | some context =>
    have hwait := hrun _ (hX.1.onWait (List.mem_of_getElem? hc))
    exact (hwait.bind fun _ => htell)
      { h with state := { h.state with events := .wait context.name :: h.state.events } } hX

theorem preserves_limitNow_exclusively (number : Nat) :
    (limitNow run number).Preserves (Exclusively Good name before)
      (Exclusively Good name before) := by
  refine preserves_residents.bind fun r => ?_
  split
  · exact .pure _
  · split
    · exact (preserves_callTargets_exclusively hrun _).bind fun _ => .pure _
    · exact (preserves_stopLimiter_exclusively number).bind fun _ => .pure _
    · exact .pure _

theorem preserves_runCheck_exclusively (number : Nat) :
    (runCheck run number).Preserves (Exclusively Good name before)
      (Exclusively Good name before) := by
  refine (preserves_limitNow_exclusively hrun number).bind fun reached => ?_
  split
  · refine preserves_residents.bind fun r => ?_
    split
    · exact fun h hX => (ends_postCheck_exclusively hX number _).imp
        (fun _ _ hposted => hposted.1) fun _ _ => id
    · exact .pure _
  · exact .pure _

/-- **Whatever is posted may have its turn.** -/
theorem preserves_runTask_exclusively {task : Task S} (htask : IsPosted Good task) :
    (runTask run task).Preserves (Exclusively Good name before)
      (Exclusively Good name before) := by
  induction htask with
  | @scripted label script hgood =>
    have hran (time : Nanos) : (emit (.run label time) : Act S Unit).Preserves
        (Exclusively Good name before) (Exclusively Good name before) :=
      preserves_change fun _ hX => hX
    exact preserves_now.bind fun time => (hran time).bind fun _ => hrun script hgood
  | check number => exact preserves_runCheck_exclusively hrun number
  | proxied proxy _ ih =>
    refine preserves_residents.bind fun r => ?_
    split
    · exact preserves_change fun _ hX => hX
    · exact ih

theorem ends_popped_exclusively (h : Host S) (task : Task S) (queue : TaskQueue (Task S))
    (hX : Exclusively Good name before h) (hpop : h.queue.popNext = some (task, queue)) :
    (runTask run task).Ends { h with queue } (fun _ => Exclusively Good name before)
      fun _ => Exclusively Good name before :=
  preserves_runTask_exclusively hrun (hX.pop hpop).1 _ (hX.pop hpop).2

end Running

/-! ## Checks of limiters that have stopped -/

/-- All limiters of a number have stopped, if there are any. -/
def IsQuiet (id : ContextId) (h : Host S) : Prop :=
  ∀ n l, h.state.limiters.get? n = some l → l.id = id → l.phase = .stopped

/-- Where the registry keeps nothing, it is quiet. -/
theorem isQuiet_of_keptBy (hX : Exclusively Good name before h) {id : ContextId}
    (hnone : keptBy h.state.registries name id = none) : IsQuiet id h := by
  rintro n l hl rfl
  refine hX.2.stopped hl fun hn => ?_
  cases hnone.symm.trans hn

/-- **Quiet lasts** until a limiter is made for the number. -/
theorem IsQuiet.lasts {h' : Host S} {id : ContextId} (hquiet : IsQuiet id h)
    (hX : Exclusively Good name h.state.limiters h') :
    IsQuiet id h' ∨ ∃ n l, h.state.limiters.get? n = none ∧ h'.state.limiters.get? n = some l ∧
      l.id = id := by
  by_cases hmade : ∃ n l, h.state.limiters.get? n = none ∧ h'.state.limiters.get? n = some l ∧
      l.id = id
  · exact .inr hmade
  · refine .inl fun n l hl hid => ?_
    cases hold : h.state.limiters.get? n with
    | none => exact absurd ⟨n, l, hold, hl, hid⟩ hmade
    | some l' =>
      obtain ⟨l'', hl'', hid', hstopped⟩ := hX.2.past hold
      obtain rfl := Option.some.inj (hl.symm.trans hl'')
      exact hstopped (hquiet n l' hold (hid'.symm.trans hid))

end Compositor.Host
