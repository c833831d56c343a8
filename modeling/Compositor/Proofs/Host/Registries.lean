import Compositor.Proofs.Host.Chains

/-!
# What registries keep

A registry makes its limiters itself, starts them at once, and never shows them to anybody. So a
limiter that it keeps under a number is as it was made, and throttles a context of that number,
or it has stopped. No other number has the same limiter, in this registry or in another one, and
nobody has a name for it.

What a registry does not know is whether the context is still there. It finds out that a limiter
has stopped, but a limiter does not stop before its check finds the context gone.
-/

namespace Compositor

/-- A limiter as a registry starts it for a context. -/
def LimiterRegistry.startedLimiter (r : LimiterRegistry) (id : ContextId) (context : Nat) :
    Limiter :=
  { r.newLimiter id context with phase := .active }

namespace Host

open Compositor.Action

variable {S : Type}

/-- The limiter that the registry of a name keeps under a number. -/
def keptBy (registries : Table String LimiterRegistry) (name : String) (id : ContextId) :
    Option Nat :=
  (registries.find? name).bind fun r => r.find? id

/-- **What a registry keeps** under a number: a limiter as it was started for a context of that
number, or as it is when that one has stopped. -/
def IsKept (contexts : Roster (RateContext S)) (r : LimiterRegistry) (id : ContextId)
    (l : Limiter) : Prop :=
  ∃ context, (contexts.get? context).map RateContext.id = some id ∧
    (l = r.startedLimiter id context ∨ l = (r.startedLimiter id context).stop)

/-- **Registries keep limiters of their own**, one under each number, for which nobody has a
name. -/
structure Registered (limiters : Roster Limiter) (contexts : Roster (RateContext S))
    (registries : Table String LimiterRegistry) : Prop where
  names : limiters.Sound
  kept {name : String} {r : LimiterRegistry} {id : ContextId} {n : Nat}
    (hr : registries.find? name = some r) (hn : r.find? id = some n) :
    ∃ l, limiters.get? n = some l ∧ IsKept contexts r id l
  own {name name' : String} {id id' : ContextId} {n : Nat}
    (hn : keptBy registries name id = some n) (hn' : keptBy registries name' id' = some n) :
    name = name' ∧ id = id'
  nameless {name : String} {id : ContextId} {n : Nat} (hn : keptBy registries name id = some n)
    (other : String) : limiters.number? other ≠ some n

variable {limiters limiters' : Roster Limiter} {contexts contexts' : Roster (RateContext S)}
  {registries registries' : Table String LimiterRegistry} {name : String} {r : LimiterRegistry}
  {id : ContextId} {number n : Nat}

theorem keptBy_eq_some :
    keptBy registries name id = some n ↔
      ∃ r, registries.find? name = some r ∧ r.find? id = some n :=
  Option.bind_eq_some_iff

/-- A registry that is written keeps what it is written with, and the others what they kept. -/
theorem keptBy_insert (other : String) :
    keptBy (registries.insert name r) other id
      = if other = name then r.find? id else keptBy registries other id := by
  unfold keptBy
  split
  · next heq =>
    rw [heq, Table.find?_insert_self]
    rfl
  · next hne => rw [Table.find?_insert_of_ne _ _ hne]

/-- **A registry that lets go of a number** keeps nothing under it, and the rest as before. -/
theorem keptBy_erase {other : String} {other' : ContextId}
    (hr : registries.find? name = some r)
    (hn : keptBy (registries.insert name (r.erase id)) other other' = some n) :
    keptBy registries other other' = some n ∧ ¬ (other = name ∧ other' = id) := by
  rw [keptBy_insert] at hn
  split at hn
  · next heq =>
    subst heq
    by_cases hid : other' = id
    · rw [hid] at hn
      cases (Table.find?_erase_self r.limiters id).symm.trans hn
    · exact ⟨keptBy_eq_some.2 ⟨r, hr, (Table.find?_erase_of_ne _ hid).symm.trans hn⟩,
        fun hboth => hid hboth.2⟩
  · next hne => exact ⟨hn, fun hboth => hne hboth.1⟩

/-- **A registry that takes a limiter** keeps it under the number, and the rest as before. -/
theorem keptBy_take {other : String} {other' : ContextId} (hr : registries.find? name = some r)
    (hn : keptBy (registries.insert name (r.insert id number)) other other' = some n) :
    other = name ∧ other' = id ∧ n = number ∨ keptBy registries other other' = some n := by
  rw [keptBy_insert] at hn
  split at hn
  · next heq =>
    subst heq
    by_cases hid : other' = id
    · rw [hid] at hn
      exact .inl ⟨rfl, hid, Option.some.inj (hn.symm.trans (Table.find?_insert_self ..))⟩
    · exact .inr (keptBy_eq_some.2 ⟨r, hr, (Table.find?_insert_of_ne _ _ hid).symm.trans hn⟩)
  · exact .inr hn

namespace IsKept

variable {l : Limiter}

theorem ne_idle (h : IsKept contexts r id l) : l.phase ≠ .idle := by
  obtain ⟨context, -, rfl | rfl⟩ := h <;> exact nofun

/-- It stays what it is when contexts are added or lose their names. -/
theorem changeContexts (h : IsKept contexts r id l)
    (hcontexts : ∀ n c, contexts.get? n = some c → contexts'.get? n = some c) :
    IsKept contexts' r id l := by
  obtain ⟨context, hid, hl⟩ := h
  obtain ⟨c, hc, hid⟩ := Option.map_eq_some_iff.1 hid
  exact ⟨context, by rw [hcontexts _ _ hc, Option.map_some, hid], hl⟩

theorem stop (h : IsKept contexts r id l) : IsKept contexts r id l.stop := by
  obtain ⟨context, hid, rfl | rfl⟩ := h <;> exact ⟨context, hid, .inr rfl⟩

end IsKept

namespace Registered

theorem empty : Registered ({} : Roster Limiter) contexts ∅ :=
  ⟨.empty, nofun, nofun, nofun⟩

/-- A limiter that is idle is not kept. -/
theorem ne_of_idle (h : Registered limiters contexts registries)
    (hn : keptBy registries name id = some n) {l : Limiter} (hl : limiters.get? number = some l)
    (hidle : l.phase = .idle) : n ≠ number := by
  rintro rfl
  obtain ⟨r, hr, hn⟩ := keptBy_eq_some.1 hn
  obtain ⟨l', hl', hkept⟩ := h.kept hr hn
  exact hkept.ne_idle (Option.some.inj (hl.symm.trans hl') ▸ hidle)

theorem lt_of_kept (h : Registered limiters contexts registries)
    (hn : keptBy registries name id = some n) : n < limiters.members.length := by
  obtain ⟨r, hr, hn⟩ := keptBy_eq_some.1 hn
  obtain ⟨l, hl, -⟩ := h.kept hr hn
  exact (List.getElem?_eq_some_iff.1 hl).1

theorem changeContexts (h : Registered limiters contexts registries)
    (hcontexts : ∀ n c, contexts.get? n = some c → contexts'.get? n = some c) :
    Registered limiters contexts' registries :=
  { h with
    kept := fun hr hn => (h.kept hr hn).imp fun _ hkept =>
      ⟨hkept.1, hkept.2.changeContexts hcontexts⟩ }

/-- **Limiters change**, of which those that are kept stay as they are or stop, and no name is
given to one that was there. -/
theorem changeLimiters (h : Registered limiters contexts registries) (hsound : limiters'.Sound)
    (hlimiters : ∀ {name id n l}, keptBy registries name id = some n →
      limiters.get? n = some l → limiters'.get? n = some l ∨ limiters'.get? n = some l.stop)
    (hnames : ∀ {other n}, limiters'.number? other = some n →
      limiters.number? other = some n ∨ limiters.get? n = none) :
    Registered limiters' contexts registries where
  names := hsound
  kept hr hn := by
    obtain ⟨l, hl, hkept⟩ := h.kept hr hn
    rcases hlimiters (keptBy_eq_some.2 ⟨_, hr, hn⟩) hl with hl' | hl'
    · exact ⟨l, hl', hkept⟩
    · exact ⟨l.stop, hl', hkept.stop⟩
  own := h.own
  nameless hn other hother := by
    rcases hnames hother with hknown | hnone
    · exact h.nameless hn other hknown
    · exact absurd (h.lt_of_kept hn) (Nat.not_lt.2 (List.getElem?_eq_none_iff.1 hnone))

theorem stop (h : Registered limiters contexts registries) (number : Nat) :
    Registered (limiters.update number Limiter.stop) contexts registries := by
  refine h.changeLimiters (h.names.update ..) (fun {_ _ n l} _ hl => ?_) .inl
  by_cases heq : n = number
  · subst heq
    exact .inr (Roster.get?_update_of_some hl _)
  · exact .inl ((Roster.get?_update_of_ne _ _ heq).trans hl)

/-- A limiter is started that was idle, so that it is not kept. -/
theorem start (h : Registered limiters contexts registries) {l : Limiter}
    (hl : limiters.get? number = some l) (hidle : l.phase = .idle) (l' : Limiter) :
    Registered (limiters.update number fun _ => l') contexts registries :=
  h.changeLimiters (h.names.update ..) (fun hn hkept =>
    .inl ((Roster.get?_update_of_ne _ _ (h.ne_of_idle hn hl hidle)).trans hkept)) .inl

theorem enrollLimiter (h : Registered limiters contexts registries) (name : String)
    (l : Limiter) : Registered (limiters.enroll name l).2 contexts registries :=
  h.changeLimiters (h.names.enroll ..)
    (fun _ hl => .inl ((Roster.gains_enroll ..).get?_of_some hl)) Roster.number?_of_enroll

theorem forgetLimiter (h : Registered limiters contexts registries) (name : String) :
    Registered (limiters.forget name) contexts registries :=
  h.changeLimiters (h.names.forget ..) (fun _ hl => .inl ((Roster.get?_forget ..).trans hl))
    fun hother => .inl (Roster.number?_of_forget hother)

/-- **Registries let go of limiters**, and stay what they are otherwise. -/
theorem shrink (h : Registered limiters contexts registries)
    (hregistries : ∀ {name r' id n}, registries'.find? name = some r' → r'.find? id = some n →
      ∃ r, registries.find? name = some r ∧ r.find? id = some n ∧
        r'.startedLimiter = r.startedLimiter) :
    Registered limiters contexts registries' := by
  have hkeptBy {name : String} {id : ContextId} {n : Nat}
      (hn : keptBy registries' name id = some n) : keptBy registries name id = some n := by
    obtain ⟨r', hr', hn⟩ := keptBy_eq_some.1 hn
    obtain ⟨r, hr, hn, -⟩ := hregistries hr' hn
    exact keptBy_eq_some.2 ⟨r, hr, hn⟩
  refine ⟨h.names, fun hr' hn => ?_, fun hn hn' => h.own (hkeptBy hn) (hkeptBy hn'),
    fun hn => h.nameless (hkeptBy hn)⟩
  obtain ⟨r, hr, hn, hsame⟩ := hregistries hr' hn
  obtain ⟨l, hl, hkept⟩ := h.kept hr hn
  refine ⟨l, hl, ?_⟩
  unfold IsKept
  rw [hsame]
  exact hkept

/-- **A registry takes a limiter** that it makes and starts for a context of the number. -/
theorem take (h : Registered limiters contexts registries) (hr : registries.find? name = some r)
    {context : Nat} {target : RateContext S} (htarget : contexts.get? context = some target) :
    Registered (limiters.add (r.startedLimiter target.id context)).2 contexts
      (registries.insert name (r.insert target.id limiters.members.length)) := by
  have hnew : (limiters.add (r.startedLimiter target.id context)).2.get? limiters.members.length
      = some (r.startedLimiter target.id context) := Roster.get?_add ..
  have hold {n : Nat} {l : Limiter} (hl : limiters.get? n = some l) :
      (limiters.add (r.startedLimiter target.id context)).2.get? n = some l :=
    (Roster.gains_add ..).get?_of_some hl
  -- the new limiter has a number that no limiter had
  have hfresh {other : String} {id : ContextId} {n : Nat}
      (hn : keptBy registries other id = some n) : n ≠ limiters.members.length :=
    Nat.ne_of_lt (h.lt_of_kept hn)
  refine ⟨h.names.add _, fun {other r' id n} hr' hn => ?_,
    fun {other other' id id' n} hn hn' => ?_, fun {other id n} hn named hnamed => ?_⟩
  · by_cases heq : other = name
    · rw [heq, Table.find?_insert_self] at hr'
      obtain rfl := Option.some.inj hr'
      by_cases hid : id = target.id
      · rw [hid] at hn ⊢
        obtain rfl := Option.some.inj ((Table.find?_insert_self ..).symm.trans hn)
        exact ⟨_, hnew, context, by rw [htarget, Option.map_some], .inl rfl⟩
      · obtain ⟨l, hl, hkept⟩ := h.kept hr ((Table.find?_insert_of_ne _ _ hid).symm.trans hn)
        exact ⟨l, hold hl, hkept⟩
    · rw [Table.find?_insert_of_ne _ _ heq] at hr'
      obtain ⟨l, hl, hkept⟩ := h.kept hr' hn
      exact ⟨l, hold hl, hkept⟩
  · rcases keptBy_take hr hn with ⟨rfl, rfl, hnumber⟩ | hold <;>
      rcases keptBy_take hr hn' with ⟨rfl, rfl, hnumber'⟩ | hold'
    · exact ⟨rfl, rfl⟩
    · exact absurd hnumber (hfresh hold')
    · exact absurd hnumber' (hfresh hold)
    · exact h.own hold hold'
  · rcases keptBy_take hr hn with ⟨-, -, rfl⟩ | hn
    · exact absurd (h.names.lt_of_name hnamed) (Nat.lt_irrefl _)
    · exact h.nameless hn named hnamed

end Registered

/-! ## Starting through a registry -/

variable {h : Host S} {Q : Host S → Prop}

/-- A limiter that a registry just made is idle, so it can be started. -/
theorem ends_startLimiter_made (haccepting : h.queue.accepting = true) (r : LimiterRegistry)
    (id : ContextId) (context : Nat) (registries : Table String LimiterRegistry)
    (hstarted : Q
      { state := { h.state with
          limiters := (h.state.limiters.add (r.startedLimiter id context)).2
          registries }
        queue := h.queue.accept (.proxied r.proxy (.check h.state.limiters.members.length)) 0 }) :
    (startLimiter h.state.limiters.members.length : Act S Unit).Ends
      { h with state := { h.state with
        limiters := (h.state.limiters.add (r.newLimiter id context)).2
        registries } } (fun _ => Q) fun _ _ => True := by
  have hself : (h.state.limiters.add (r.newLimiter id context)).2.get?
      h.state.limiters.members.length = some (r.newLimiter id context) := Roster.get?_add ..
  rw [← Roster.update_add _ (r.newLimiter id context) fun _ => r.startedLimiter id context]
    at hstarted
  refine ends_startLimiter (h := { h with state := { h.state with
    limiters := (h.state.limiters.add (r.newLimiter id context)).2, registries } })
    haccepting _ (fun hnot => absurd rfl (hnot _ hself)) fun l hl _ => ?_
  obtain rfl := Option.some.inj (hself.symm.trans hl)
  exact hstarted

/-- **A registry starts a limiter** that it makes, unless it keeps one that is active. Nothing
happens either if it is suspended, or if registry or context is not there. -/
theorem ends_registryStart (haccepting : h.queue.accepting = true)
    (hK : Registered h.state.limiters h.state.contexts h.state.registries)
    (name : String) (context : Nat)
    (hsame : (∀ r target, h.state.registries.find? name = some r →
      h.state.contexts.get? context = some target → r.suspended = false →
      ∃ n context', r.find? target.id = some n ∧
        (h.state.contexts.get? context').map RateContext.id = some target.id ∧
        h.state.limiters.get? n = some (r.startedLimiter target.id context')) → Q h)
    (hnew : ∀ r target, h.state.registries.find? name = some r →
      h.state.contexts.get? context = some target →
      Q { state := { h.state with
            limiters := (h.state.limiters.add (r.startedLimiter target.id context)).2
            registries := h.state.registries.insert name
              (r.insert target.id h.state.limiters.members.length) }
          queue := h.queue.accept
            (.proxied r.proxy (.check h.state.limiters.members.length)) 0 }) :
    (registryStart name context : Act S Unit).Ends h (fun _ => Q) fun _ _ => True := by
  unfold registryStart
  rw [ends_bind, ends_residents]
  cases hr : h.state.registries.find? name with
  | none => exact hsame fun _ _ hr' => nomatch hr.symm.trans hr'
  | some r =>
    cases htarget : h.state.contexts.get? context with
    | none => exact hsame fun _ _ _ htarget' => nomatch htarget.symm.trans htarget'
    | some target =>
      have hmade := ends_startLimiter_made haccepting r target.id context _
        (hnew r target hr htarget)
      dsimp only
      split
      · next hsuspended =>
        refine hsame fun r' _ hr' _ hnot => ?_
        rw [Option.some.inj (hr.symm.trans hr')] at hsuspended
        cases hnot.symm.trans hsuspended
      · cases hn : r.find? target.id with
        | none => exact hmade
        | some n =>
          obtain ⟨l, hl, hkept⟩ := hK.kept hr hn
          rw [Option.bind_some, hl]
          dsimp only
          obtain ⟨context', hid, rfl | rfl⟩ := hkept
          · refine ends_startLimiter haccepting n (fun _ => hsame ?_) fun l' hl' hidle => ?_
            · intro r' target' hr' htarget' _
              obtain rfl := Option.some.inj (hr.symm.trans hr')
              obtain rfl := Option.some.inj (htarget.symm.trans htarget')
              exact ⟨n, context', hn, hid, hl⟩
            · obtain rfl := Option.some.inj (hl.symm.trans hl')
              cases hidle
          · exact hmade

end Host

end Compositor
