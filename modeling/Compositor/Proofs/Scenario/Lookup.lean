import Compositor.Proofs.Host.Ends
import Compositor.Scenario.Perform

/-!
# Steps that look something up

Most steps name what they are about: a manager, a group, both. What is named is looked
up and is in use while it is dealt with, and tables of the embedder's own are written.
A property that does not look at any of this is kept by such a step as soon as it is
kept by what the step does with the things that it found.
-/

namespace Compositor.Host

open Compositor.Action

variable {S : Type}

section

variable {P E : Host S → Prop} {α : Type}

/-- What the embedder names is there and is dealt with, or nothing happens. -/
theorem preserves_withNamed (found : Option α) {f : α → Act S Reply}
    (hf : ∀ a, (f a).Preserves P E) : (withNamed found f).Preserves P E := by
  unfold withNamed
  cases found with
  | none => exact .pure _
  | some a => exact hf a

/-- Looking something up and dealing with it. -/
theorem preserves_lookUp {find : Residents S → Option α} {f : α → Act S Reply}
    (hf : ∀ a, (f a).Preserves P E) :
    (do withNamed (find (← residents)) f).Preserves P E :=
  preserves_residents.bind fun _ => preserves_withNamed _ hf

theorem keeps_withNamed (found : Option α) {f : α → Act S Reply} (hf : ∀ a, (f a).Keeps P) :
    (withNamed found f).Keeps P :=
  preserves_withNamed found fun a => (hf a).preserves

theorem keeps_lookUp {find : Residents S → Option α} {f : α → Act S Reply}
    (hf : ∀ a, (f a).Keeps P) : (do withNamed (find (← residents)) f).Keeps P :=
  preserves_lookUp fun a => (hf a).preserves

end

/-- Posting a script, unguarded and past every gate. -/
theorem preserves_post_plain {P E : Host S → Prop} (label : String) (delay : Nanos) {script : S}
    (hpost : (EventLoop.post (.scripted label script) delay : Act S Bool).Preserves P E) :
    (Host.post label delay .none none script).Preserves P E := by
  intro h hP
  unfold Host.post guardTask
  simp only [ends_bind, ends_pure]
  exact hpost h hP

/-- Posting a script, unguarded and through the gate of a name. -/
theorem preserves_post_gated {P E : Host S → Prop} (label : String) (delay : Nanos)
    (name : String) {script : S}
    (hpost : ∀ proxy, (postVia proxy (.scripted label script) delay : Act S Bool).Preserves P E) :
    (Host.post label delay .none (some name) script).Preserves P E := by
  unfold Host.post
  refine preserves_lookUp fun proxy h hP => ?_
  unfold guardTask
  simp only [ends_bind, ends_pure]
  exact hpost proxy h hP

theorem keeps_post_plain {P : Host S → Prop} (label : String) (delay : Nanos) {script : S}
    (hpost : (EventLoop.post (.scripted label script) delay : Act S Bool).Keeps P) :
    (Host.post label delay .none none script).Keeps P :=
  preserves_post_plain label delay hpost.preserves

theorem keeps_post_gated {P : Host S → Prop} (label : String) (delay : Nanos) (name : String)
    {script : S}
    (hpost : ∀ proxy, (postVia proxy (.scripted label script) delay : Act S Bool).Keeps P) :
    (Host.post label delay .none (some name) script).Keeps P :=
  preserves_post_gated label delay name fun proxy => (hpost proxy).preserves

/-- What an edit puts in the place of something good, if anything, is good. -/
theorem good_getD {Good : S → Prop} {given : Option S} (hgiven : ∀ s, given = some s → Good s)
    {known : S} (hknown : Good known) : Good (given.getD known) := by
  cases given with
  | none => exact hknown
  | some s => exact hgiven s rfl

/-- The property does not look at what is in use, at the thread, or at the tables of groups
and snapshots that the embedder keeps for itself; nor does what is left of it when an action
is halted, as far as it is put back then. -/
structure Indifferent (P : Host S → Prop) (E : Host S → Prop := fun _ => True) : Prop where
  onThread (h : Host S) (onThread : Bool) (hP : P h) :
    P { h with state := { h.state with onThread } }
  inUse (h : Host S) (inUse : List InUse) (hP : P h) :
    P { h with state := { h.state with inUse } }
  groupIds (h : Host S) (groupIds : Table String GroupId) (hP : P h) :
    P { h with state := { h.state with groupIds } }
  groupHandles (h : Host S) (groupHandles : Table String GroupHandle) (hP : P h) :
    P { h with state := { h.state with groupHandles } }
  snapshots (h : Host S) (snapshots : Table String (Table StubId StubStat)) (hP : P h) :
    P { h with state := { h.state with snapshots } }
  haltedOnThread (h : Host S) (onThread : Bool) (hE : E h) :
    E { h with state := { h.state with onThread } } := by exact fun _ _ _ => trivial
  haltedInUse (h : Host S) (inUse : List InUse) (hE : E h) :
    E { h with state := { h.state with inUse } } := by exact fun _ _ _ => trivial

namespace Indifferent

variable {P E : Host S → Prop}

theorem offThread (hP : Indifferent P E) {α : Type} {a : Act S α} (ha : a.Preserves P E) :
    (offThread a).Preserves P E :=
  preserves_offThread ha hP.onThread hP.haltedOnThread

theorem withManager (hP : Indifferent P E) (name : String) {f : Nat → Act S Reply}
    (hf : ∀ number, (f number).Preserves P E) : (withManager name f).Preserves P E :=
  preserves_lookUp fun number => preserves_holding _ (hf number) hP.inUse hP.haltedInUse

theorem withGroup (hP : Indifferent P E) (manager group : String)
    {f : Nat → GroupId → Act S Reply} (hf : ∀ number id, (f number id).Preserves P E) :
    (withGroup manager group f).Preserves P E :=
  preserves_lookUp fun id => hP.withManager manager fun number => hf number id

/-- Doing something with the state of a manager that is named. -/
theorem withSeat (hP : Indifferent P E) (name : String) {f : ManagerSeat S → Act S Reply}
    (hf : ∀ seat, (f seat).Preserves P E) :
    (Host.withManager name fun number => do withNamed (← seat? number) f).Preserves P E :=
  hP.withManager name fun number => (preserves_seat? number).bind fun found =>
    preserves_withNamed found hf

theorem showLastPass (hP : Indifferent P E) (name : String) (keep : Option String) :
    (showLastPass name keep).Preserves P E := by
  refine hP.withSeat name fun seat => ?_
  cases keep with
  | none => exact preserves_residents.bind fun _ => .pure _
  | some keep => exact .bind (preserves_change fun h => hP.snapshots h _) fun _ =>
      preserves_residents.bind fun _ => .pure _

theorem openGroup (hP : Indifferent P E) (manager group : String) (pid : Nat) (owned : Bool)
    (hadd : ∀ number, (addGroup number pid).Preserves P E)
    (hrelease : ∀ handle, (releaseHandle handle).Preserves P E) :
    (openGroup manager group pid owned).Preserves P E := by
  refine hP.withManager manager fun number => (hadd number).bind fun found =>
    preserves_withNamed found fun id => ?_
  refine .bind (preserves_change fun h => hP.groupIds h _) fun _ => ?_
  split
  · refine preserves_residents.bind fun r =>
      .bind (preserves_change fun h => hP.groupHandles h _) fun _ => ?_
    split
    · exact (hrelease _).bind fun _ => .pure _
    · exact .pure _
  · exact .pure _

theorem dropGroup (hP : Indifferent P E) (group : String)
    (hrelease : ∀ handle, (releaseHandle handle).Preserves P E) :
    (dropGroup group).Preserves P E := by
  refine preserves_residents.bind fun r => ?_
  split
  · exact .pure _
  · exact .bind (preserves_change fun h => hP.groupHandles h _) fun _ =>
      (hrelease _).bind fun _ => .pure _

end Indifferent

end Compositor.Host
