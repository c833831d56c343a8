import Compositor.Proofs.Host.Enduring

/-!
# Hosts in order

Whatever is done to a host, by whom and in whatever order, some things stay as they are: no task
waits that was due before the clock, the tasks that are kept beside the queue are the embedder's
own scripts, and each name of a scrollbar stands for a scrollbar of its own. None of this depends
on what the scripts do, so every host that can be reached is in order.
-/

namespace Compositor.Host

variable {S : Type}

/-- **A host is in order**: its queue is in time, no frame of a fade is kept beside it, and its
scrollbars have sound names. -/
structure IsOrdered (queue : TaskQueue (Task S)) (held : Table String (Task S))
    (scrollbars : Roster Scrollbar) : Prop where
  inTime : queue.InTime
  held {name : String} {task : Task S} (htask : held.find? name = some task) (fade : String) :
    task.fades fade = false
  names : scrollbars.Sound

/-- What is in order of a host. -/
def Ordered (h : Host S) : Prop := IsOrdered h.queue h.state.heldTasks h.state.scrollbars

theorem ordered_new (runner : String) (platform : Platform) :
    Ordered (Host.new runner platform : Host S) where
  inTime := TaskQueue.inTime_empty
  held htask := by cases htask
  names := .empty

namespace Ordered

variable {h : Host S}

theorem aside {h' : Host S} (hO : Ordered h) (hsame : h'.facets = h.facets) : Ordered h' := by
  have hqueue : h'.queue = h.queue := congrArg Facets.queue hsame
  have hheld : h'.state.heldTasks = h.state.heldTasks := congrArg Facets.heldTasks hsame
  have hbars : h'.state.scrollbars = h.state.scrollbars := congrArg Facets.scrollbars hsame
  unfold Ordered
  rw [hqueue, hheld, hbars]
  exact hO

theorem accept (hO : Ordered h) (task : Task S) (delay : Nanos) :
    Ordered { h with queue := h.queue.accept task delay } :=
  ⟨hO.inTime.accept task delay, hO.held, hO.names⟩

theorem keep (hO : Ordered h) (name : String) {task : Task S} (htask : task.Inert) :
    Ordered { h with state := { h.state with
      heldTasks := h.state.heldTasks.insert name task } } := by
  refine ⟨hO.inTime, fun {other _} hother fade => ?_, hO.names⟩
  by_cases heq : other = name
  · rw [heq, Table.find?_insert_self] at hother
    cases hother
    exact htask.2 fade
  · rw [Table.find?_insert_of_ne _ _ heq] at hother
    exact hO.held hother fade

end Ordered

/-- **Every single change leaves a host in order.** -/
theorem enduring_ordered : Enduring (S := S) Ordered Ordered where
  halted _ hO := hO
  aside hO hsame := hO.aside hsame
  haltedAside hO hsame := hO.aside hsame
  seen hO _ _ _ _ := hO
  posted hO _ _ _ _ := hO.accept ..
  kept hO name _ htask := hO.keep name htask
  released hO _ := ⟨hO.inTime, fun htask => hO.held (Table.find?_of_erase htask), hO.names⟩
  gated hO _ := hO
  barMade hO name bar := ⟨hO.inTime, hO.held, hO.names.enroll name bar⟩
  painted hO _ _ _ _ := ⟨hO.inTime, hO.held, hO.names.update ..⟩
  started hO _ _ _ _ := hO
  startedPosting hO _ _ _ _ _ := ⟨hO.inTime.accept .., hO.held, hO.names⟩
  stopped hO _ := hO
  made hO _ _ _ _ := hO
  unnamed hO _ := hO
  contextMade hO _ _ := hO
  contextDropped hO _ := hO
  clientMade hO _ _ := hO
  clientDropped hO _ := hO
  evolved hO _ := hO
  misreported hO _ _ _ _ := hO
  managerMade hO _ _ _ := hO
  managerDropped hO _ := hO
  restubbed hO _ := hO
  fadeSeen hO _ _ _ := hO
  framePosted hO _ _ _ := hO.accept ..
  barChanged hO _ _ := ⟨hO.inTime, hO.held, hO.names.update ..⟩
  moved hO _ hnone _ := ⟨hO.inTime.moved hnone, hO.held, hO.names⟩
  taken hO _ _ hpending := ⟨hO.inTime.without hpending, hO.held, hO.names⟩
  cleared hO := ⟨TaskQueue.inTime_clear _, hO.held, hO.names⟩
  accepts hO _ := ⟨⟨hO.inTime.sorted, hO.inTime.notBefore, hO.inTime.numbered⟩, hO.held, hO.names⟩

/-- What calls back leaves it in order, too, if scripts do. -/
theorem callsBack_ordered {run : S → Act S Unit}
    (hrun : ∀ script, (run script).Preserves Ordered Ordered) : CallsBack run Ordered Ordered :=
  enduring_ordered.callsBack hrun (fun _ _ hO => hO) (fun _ _ _ _ hO => hO.accept ..)
    (fun _ _ hO => hO) fun _ _ hO => hO

end Compositor.Host
