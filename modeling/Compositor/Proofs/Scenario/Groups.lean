import Compositor.Proofs.Host.Groups
import Compositor.Proofs.Scenario.Managed

/-!
# Tracking groups keep apart

The numbers of groups outlive the groups: a client remembers what it was told, and a handle holds
on to its number when the group was closed behind its back. After any course of steps, and whatever
the scripts did that were called back, such a number means nothing any more, and never will.
-/

namespace Compositor.Step

open Compositor.Action Host

theorem preserves_exec_chronicled (base : Roster (ManagerSeat Script)) (fuel : Nat)
    (step : Step) :
    (exec fuel step).Preserves (OnManagers (Traced Ledger.Continues base))
      (OnManagers (Traced Ledger.Continues base)) :=
  preserves_exec_onManagers (passing_chronicled base) fuel step

/-- After a course from a new host every manager has given certain numbers. -/
theorem Course.exists_issued {runner : String} {platform : Platform} {steps : List Step}
    {h : Host Script} (hcourse : Course (Host.new runner platform) steps h) {number : Nat}
    {seat : ManagerSeat Script} (hseat : h.state.managers.get? number = some seat) :
    ∃ ids, Issued number ids h := by
  have hchronicled : OnManagers (Traced Ledger.Continues _) h :=
    hcourse.preserves (preserves_exec_chronicled _) (Traced.refl .refl _)
  obtain ⟨ids, hissues⟩ := hchronicled.trace hseat
  exact ⟨ids, seat, hseat, hissues⟩

/-- A course goes on from the numbers that were given before. -/
theorem Course.exists_issued_append {steps : List Step} {h h' : Host Script}
    (hcourse : Course h steps h') {number : Nat} {ids : List GroupId}
    (hissued : Issued number ids h) :
    ∃ later, Issued number (ids ++ later) h' ∧ ∀ id ∈ ids,
      groupOf h.state.managers number id = none → groupOf h'.state.managers number id = none := by
  have hchronicled : OnManagers (Traced Ledger.Continues h.state.managers) h' :=
    hcourse.preserves (preserves_exec_chronicled _) (Traced.refl .refl _)
  obtain ⟨seat, hseat, hissues⟩ := hissued
  obtain ⟨seat', hseat', later, hlater⟩ := hchronicled.exists_seat hseat
  refine ⟨later, ⟨seat', hseat', hissues.trans hlater⟩, fun id hid hnone => ?_⟩
  rw [groupOf_of_seat hseat] at hnone
  rw [groupOf_of_seat hseat']
  exact hissues.stays_closed hlater hid hnone

/-- **Tracking groups keep apart, and no number is given twice.** What is done under the number of a
group – a report or its removal, by its holder or by anybody – leaves all other groups of all
managers known as they were, whatever comes of it. If no group of the manager has the number, it
leaves the whole host as it was, and faults only on another thread.

Take any course of steps from a new host, whatever comes of each, and a manager that is there then.
The numbers that it has given to groups are all different, whether the groups are still
registered or not, and all that are registered are among them. As long as fewer than `2^64 - 1`
are given with it, a group that is opened gets a number that was not given before, and so does one
that is opened by name, with a handle or without one. After any further course of steps, it has
given the same numbers and perhaps some more, all different; and a number that was given, and
that no group had any more, no group has then, and nothing that is done under it has any effect. -/
theorem tracking_groups_keep_apart :
    (∀ (h : Host Script) (number : Nat) (id : GroupId) (call : GroupCall),
      SameGroupsBut number id h.state.managers ((call.act number id).on h).2.state.managers ∧
      (groupOf h.state.managers number id = none →
        ((call.act number id).on h).2 = h ∧
        (h.state.onThread = true → (call.act number id).on h = (.ok (), h)))) ∧
    ∀ runner platform steps (h : Host Script), Course (Host.new runner platform) steps h →
      ∀ number seat, h.state.managers.get? number = some seat →
        ∃ ids, Issued number ids h ∧ ids.Nodup ∧
          (∀ id record, groupOf h.state.managers number id = some record → id ∈ ids) ∧
          (h.state.onThread = true → ids.length + 1 < wordLimit - 1 → ∀ pid,
            (∃ id h', (Host.addGroup number pid).on h = (.ok (some id), h') ∧ id ∉ ids ∧
              Issued number (ids ++ [id]) h' ∧
              groupOf h'.state.managers number id = some ⟨pid, 0⟩ ∧
              SameGroupsBut number id h.state.managers h'.state.managers) ∧
            ∀ manager group owned, h.state.managers.number? manager = some number →
              ∃ id h', (openGroup manager group pid owned).on h
                  = (.ok (.group (GroupId.name id) (if owned then pid else id)), h') ∧
                id ∉ ids ∧ Issued number (ids ++ [id]) h' ∧
                h'.state.groupIds.find? group = some id ∧
                (owned = true → h'.state.groupHandles.find? group = some ⟨number, id, pid⟩)) ∧
          ∀ further h', Course h further h' →
            (∃ later, Issued number (ids ++ later) h' ∧ (ids ++ later).Nodup) ∧
            ∀ id ∈ ids, groupOf h.state.managers number id = none →
              groupOf h'.state.managers number id = none ∧
              ∀ call : GroupCall, ((call.act number id).on h').2 = h' := by
  have hnothing (h : Host Script) (number : Nat) (id : GroupId) (call : GroupCall)
      (hnone : groupOf h.state.managers number id = none) : ((call.act number id).on h).2 = h :=
    Ends.state (P := fun h' => h' = h)
      ((ends_groupCall_of_none hnone call).imp (fun _ _ hsame => hsame) fun _ _ => And.left)
  refine ⟨fun h number id call => ⟨(ends_groupCall_frame h number id call).state,
    fun hnone => ⟨hnothing h number id call hnone, fun hon => ?_⟩⟩,
    fun runner platform steps h hcourse number seat hseat => ?_⟩
  · rw [on_eq_ok_iff]
    refine (ends_groupCall_of_none hnone call).imp (fun _ _ hsame => ⟨rfl, hsame⟩) ?_
    exact fun _ _ hfault => Bool.noConfusion (hon.symm.trans hfault.2)
  obtain ⟨ids, hissued⟩ := hcourse.exists_issued hseat
  refine ⟨ids, hissued, hissued.nodup, fun id record => hissued.mem_of_groupOf,
    fun hon hroom pid => ⟨?_, fun manager group owned hname => ?_⟩,
    fun further h' hfurther => ?_⟩
  · obtain ⟨seat, id, ledger, hseat, hadd, hnew, hopened, hgroup, hsame⟩ :=
      hissued.exists_add hroom pid
    exact ⟨id, _, on_eq_ok_iff.2 ((ends_addGroup hon hseat hadd).2 ⟨rfl, rfl⟩), hnew, hopened,
      hgroup, hsame⟩
  · obtain ⟨reply, h', hopen, id, rfl, hopened⟩ :=
      ends_false_iff.1 (hissued.ends_openGroup hon hroom hname group pid owned)
    exact ⟨id, h', hopen, hopened⟩
  · obtain ⟨later, hlater, hclosed⟩ := hfurther.exists_issued_append hissued
    exact ⟨⟨later, hlater, hlater.nodup⟩, fun id hid hnone =>
      ⟨hclosed id hid hnone, fun call => hnothing h' number id call (hclosed id hid hnone)⟩⟩

/-- Two groups, of which the one with a handle is closed by its number. -/
def turnover : List Step :=
  [.newManager "gpu" (.fields { total := some 1000 }) [] none [],
    .addGroup "gpu" "tiles" 7,
    .createGroup "gpu" "canvas" 9,
    .report "gpu" "tiles" 0 300,
    .reportHandle "canvas" 0 200,
    .removeGroup "gpu" "canvas"]

/-- A third group comes, and the number of the closed one is used once more. -/
def belated : List Step :=
  [.addGroup "gpu" "video" 7, .report "gpu" "canvas" 200 50, .reportHandle "canvas" 200 0]

/-- The handle of the closed group is let go of in the end, and nothing happens. -/
theorem tracking_groups_keep_apart_turnover :
    ∃ h h' : Host Script, Course (Host.new "main" .desktop) turnover h ∧ Course h belated h' ∧
      Issued 0 [1, 2] h ∧ groupOf h.state.managers 0 1 = some ⟨7, 300⟩ ∧
      groupOf h.state.managers 0 2 = none ∧
      (∃ id h₁, (Host.addGroup 0 5).on h = (.ok (some id), h₁) ∧ id ∉ [1, 2]) ∧
      groupOf h'.state.managers 0 2 = none ∧
      (((GroupCall.letGo 9).act 0 2 : Act Script Unit).on h').2 = h' := by
  have hbooks : ((endOf 9 turnover (Host.new "main" .desktop)).state.managers.get? 0).map
      (fun seat => (seat.manager.ledger.next, seat.manager.ledger.groups.find? 1,
        seat.manager.ledger.groups.find? 2)) = some (3, some ⟨7, 300⟩, none) := by decide +kernel
  have hon : (endOf 9 turnover (Host.new "main" .desktop)).state.onThread = true := by
    decide +kernel
  have hcourse := course_endOf 9 turnover (Host.new "main" .desktop)
  generalize endOf 9 turnover (Host.new "main" .desktop) = h at hbooks hon hcourse
  obtain ⟨seat, hseat, hledger⟩ := Option.map_eq_some_iff.1 hbooks
  obtain ⟨hnext, htiles, hcanvas⟩ : seat.manager.ledger.next = 3 ∧
      seat.manager.ledger.groups.find? 1 = some ⟨7, 300⟩ ∧
      seat.manager.ledger.groups.find? 2 = none := by
    simpa using hledger
  rw [← groupOf_of_seat hseat] at htiles hcanvas
  obtain ⟨-, hlater⟩ := tracking_groups_keep_apart
  obtain ⟨ids, hissued, -, -, hopens, hfurther⟩ := hlater _ _ _ h hcourse 0 seat hseat
  obtain rfl : ids = [1, 2] := by
    obtain ⟨seat', hseat', hissues⟩ := hissued
    obtain rfl := Option.some.inj (hseat.symm.trans hseat')
    have hlength : 3 = 1 + ids.length := hnext.symm.trans hissues.next_eq
    rw [hissues.eq_range', show ids.length = 2 by omega]
    rfl
  have hbelated := course_endOf 9 belated h
  obtain ⟨⟨id, h₁, hadd, hnew, -⟩, -⟩ := hopens hon (by decide) 5
  obtain ⟨-, hclosed⟩ := hfurther belated _ hbelated
  obtain ⟨hcanvas', hnothing⟩ := hclosed 2 (by decide) hcanvas
  exact ⟨h, _, hcourse, hbelated, hissued, htiles, hcanvas, ⟨id, h₁, hadd, hnew⟩, hcanvas',
    hnothing (.letGo 9)⟩

end Compositor.Step
