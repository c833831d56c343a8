import Mathlib.Algebra.BigOperators.Group.List.Basic
import Mathlib.Algebra.GroupWithZero.Nat
import Mathlib.Data.List.Induction
import Compositor.Proofs.Budget.Serving

/-!
# How a plan divides the budget

Serving a line of contenders threads what is left from one to the next, and each takes
the smaller of its demand and of that. In closed form: a contender finds the total less
the demands of everybody before it, and together the first `k` of the line take the
total or the sum of their demands, whichever is less (`Bounds.sum_bytes_take_grants`).

From this no sum or difference that the service forms can leave its word, so there is
always a plan, and `Plan.Divides` says what it is.
-/

namespace Compositor

namespace Grant

/-- The bytes of a grant. -/
def bytes (g : Grant) : Nat := g.assignment.allocation.bytes

/-- The bytes of the grants to visible stubs. -/
def visibleBytes (grants : List Grant) : Nat :=
  ((grants.filter fun g => g.assignment.visible).map bytes).sum

/-- The bytes of the grants to hidden stubs. -/
def hiddenBytes (grants : List Grant) : Nat :=
  ((grants.filter fun g => !g.assignment.visible).map bytes).sum

/-- A grant is to a visible or to a hidden stub. -/
theorem visibleBytes_add_hiddenBytes (grants : List Grant) :
    visibleBytes grants + hiddenBytes grants = (grants.map bytes).sum := by
  unfold visibleBytes hiddenBytes
  induction grants with
  | nil => rfl
  | cons g grants ih =>
    cases hg : g.assignment.visible <;> simp_all <;> omega

theorem visibleBytes_concat (grants : List Grant) (g : Grant) :
    visibleBytes (grants ++ [g])
      = visibleBytes grants + if g.assignment.visible then g.bytes else 0 := by
  unfold visibleBytes
  cases hg : g.assignment.visible <;> simp [hg]

theorem hiddenBytes_concat (grants : List Grant) (g : Grant) :
    hiddenBytes (grants ++ [g])
      = hiddenBytes grants + if g.assignment.visible then 0 else g.bytes := by
  unfold hiddenBytes
  cases hg : g.assignment.visible <;> simp [hg]

end Grant

namespace Bounds

/-- The demands of a line of contenders. -/
def demands (b : Bounds) (order : List Contender) : List Nat := order.mapIdx b.demand

/-- **What a line of contenders is granted**: each finds the total less the demands of
those before it. -/
def grants (b : Bounds) (order : List Contender) : List Grant :=
  order.mapIdx fun rank c => b.grant rank (b.total - (b.demands (order.take rank)).sum) c

@[simp] theorem demands_nil (b : Bounds) : b.demands [] = [] := rfl

@[simp] theorem demands_concat (b : Bounds) (order : List Contender) (c : Contender) :
    b.demands (order ++ [c]) = b.demands order ++ [b.demand order.length c] :=
  List.mapIdx_concat

@[simp] theorem grants_nil (b : Bounds) : b.grants [] = [] := rfl

@[simp] theorem grants_concat (b : Bounds) (order : List Contender) (c : Contender) :
    b.grants (order ++ [c])
      = b.grants order ++ [b.grant order.length (b.total - (b.demands order).sum) c] := by
  unfold grants
  rw [List.mapIdx_concat, List.take_left]
  refine congrArg (· ++ _) (List.mapIdx_eq_mapIdx_iff.2 fun i hi => ?_)
  rw [List.take_append_of_le_length hi.le]

@[simp] theorem length_grants (b : Bounds) (order : List Contender) :
    (b.grants order).length = order.length :=
  List.length_mapIdx

theorem getElem?_grants (b : Bounds) (order : List Contender) (k : Nat) :
    (b.grants order)[k]? = order[k]?.map fun c =>
      b.grant k (b.total - (b.demands (order.take k)).sum) c :=
  List.getElem?_mapIdx

/-- The first of a line demand what they would demand alone. -/
theorem take_demands (b : Bounds) (order : List Contender) (k : Nat) :
    (b.demands order).take k = b.demands (order.take k) := by
  refine List.ext_getElem? fun i => ?_
  unfold demands
  rw [List.getElem?_take, List.getElem?_mapIdx, List.getElem?_mapIdx, List.getElem?_take]
  split <;> rfl

/-- Whoever stands in a line, and those before, demand no more than all of it. -/
theorem sum_demands_take_add_le (b : Bounds) {order : List Contender} {rank : Nat}
    {c : Contender} (hc : order[rank]? = some c) :
    (b.demands (order.take rank)).sum + b.demand rank c ≤ (b.demands order).sum := by
  obtain ⟨hlt, rfl⟩ := List.getElem?_eq_some_iff.1 hc
  have hsplit := (b.demands order).sum_take_add_sum_drop (rank + 1)
  rw [take_demands, List.take_succ_eq_append_getElem hlt, demands_concat, List.sum_append,
    List.sum_singleton, List.length_take_of_le hlt.le] at hsplit
  omega

/-- The first of a line are granted what they would be granted alone. -/
theorem take_grants (b : Bounds) (order : List Contender) (k : Nat) :
    (b.grants order).take k = b.grants (order.take k) := by
  refine List.ext_getElem? fun i => ?_
  rw [List.getElem?_take, getElem?_grants, getElem?_grants, List.getElem?_take, List.take_take]
  split
  · next hi => rw [Nat.min_eq_left hi.le]
  · rfl

theorem map_index_grants (b : Bounds) (order : List Contender) :
    (b.grants order).map Grant.index = order.map Contender.index := by
  refine List.ext_getElem? fun i => ?_
  rw [List.getElem?_map, List.getElem?_map, getElem?_grants, Option.map_map]
  rfl

/-- A grant is to a visible stub if it is to one whose surface is visible. -/
theorem visible_of_getElem?_grants {b : Bounds} {order : List Contender} {k : Nat} {g : Grant}
    (hg : (b.grants order)[k]? = some g) :
    ∃ c, order[k]? = some c ∧ g.assignment.visible = c.surface.visible := by
  rw [getElem?_grants] at hg
  obtain ⟨c, hc, rfl⟩ := Option.map_eq_some_iff.1 hg
  exact ⟨c, hc, rfl⟩

/-- If the visible stand before the hidden, the grants to the visible are those of the
front. -/
theorem filter_visible_grants (b : Bounds) {front back : List Contender}
    (hfront : ∀ c ∈ front, c.surface.visible = true)
    (hback : ∀ c ∈ back, c.surface.visible = false) :
    ((b.grants (front ++ back)).filter fun g => g.assignment.visible) = b.grants front := by
  rw [← List.take_append_drop front.length (b.grants (front ++ back)), take_grants,
    List.take_left, List.filter_append]
  have hleft : ((b.grants front).filter fun g => g.assignment.visible) = b.grants front := by
    refine List.filter_eq_self.2 fun g hg => ?_
    obtain ⟨k, hk⟩ := List.getElem?_of_mem hg
    obtain ⟨c, hc, hvis⟩ := visible_of_getElem?_grants hk
    exact hvis.trans (hfront c (List.mem_of_getElem? hc))
  have hright : (((b.grants (front ++ back)).drop front.length).filter
      fun g => g.assignment.visible) = [] := by
    refine List.filter_eq_nil_iff.2 fun g hg => ?_
    obtain ⟨k, hk⟩ := List.getElem?_of_mem hg
    rw [List.getElem?_drop] at hk
    obtain ⟨c, hc, hvis⟩ := visible_of_getElem?_grants hk
    rw [List.getElem?_append_right (Nat.le_add_right _ _)] at hc
    rw [hvis, hback c (List.mem_of_getElem? hc)]
    exact Bool.false_ne_true
  rw [hleft, hright, List.append_nil]

/-- **A line takes the total or the sum of its demands**, whichever is less. -/
theorem sum_bytes_grants (b : Bounds) (order : List Contender) :
    ((b.grants order).map Grant.bytes).sum = min b.total (b.demands order).sum := by
  induction order using List.reverseRecOn with
  | nil => simp
  | append_singleton order c ih =>
    rw [grants_concat, demands_concat, List.map_append, List.sum_append, List.sum_append, ih]
    simp only [List.map_cons, List.map_nil, List.sum_singleton, Grant.bytes, grant]
    omega

/-- The first `k` of a line take the total or the sum of their demands, whichever is
less. -/
theorem sum_bytes_take_grants (b : Bounds) (order : List Contender) (k : Nat) :
    (((b.grants order).take k).map Grant.bytes).sum
      = min b.total (b.demands (order.take k)).sum := by
  rw [take_grants, sum_bytes_grants]

end Bounds

/-! ## Serving a line -/

namespace Service

/-- The service after a grant, in exact arithmetic. -/
def charge (s : Service) (g : Grant) : Service where
  remaining := s.remaining - g.bytes
  visibleBytes := s.visibleBytes + if g.assignment.visible then g.bytes else 0
  hiddenBytes := s.hiddenBytes + if g.assignment.visible then 0 else g.bytes
  grants := s.grants ++ [g]

/-- Serving a contender is exact, if what its sort was charged fits a word: a grant is never more
than what is left. -/
theorem serve_eq_map (b : Bounds) (s : Service) (c : Contender) :
    serve b s c = (Word.add (if c.surface.visible then s.visibleBytes else s.hiddenBytes)
      (b.grant s.grants.length s.remaining c).bytes).map
        fun _ => s.charge (b.grant s.grants.length s.remaining c) := by
  have hle : (b.grant s.grants.length s.remaining c).bytes ≤ s.remaining :=
    Nat.min_le_right _ _
  have hvis : (b.grant s.grants.length s.remaining c).assignment.visible = c.surface.visible :=
    rfl
  unfold serve charge
  rw [hvis]
  generalize b.grant s.grants.length s.remaining c = g at hle
  simp only [Word.sub_of_le hle, show g.assignment.allocation.bytes = g.bytes from rfl]
  cases c.surface.visible with
  | true =>
    show (Word.add s.visibleBytes g.bytes >>= fun v => pure { s with
      remaining := s.remaining - g.bytes, visibleBytes := v, grants := s.grants ++ [g] })
        = (Word.add s.visibleBytes g.bytes).map _
    unfold Word.add
    split <;> rfl
  | false =>
    show (Word.add s.hiddenBytes g.bytes >>= fun v => pure { s with
      remaining := s.remaining - g.bytes, hiddenBytes := v, grants := s.grants ++ [g] })
        = (Word.add s.hiddenBytes g.bytes).map _
    unfold Word.add
    split <;> rfl

/-- As long as all that is charged fits a word, nothing stands in the way. -/
theorem serve_eq_charge (b : Bounds) (s : Service) (c : Contender)
    (h : s.visibleBytes + s.hiddenBytes + s.remaining < wordLimit) :
    serve b s c = .ok (s.charge (b.grant s.grants.length s.remaining c)) := by
  have hle : (b.grant s.grants.length s.remaining c).bytes ≤ s.remaining :=
    Nat.min_le_right _ _
  rw [serve_eq_map, Word.add_of_lt (by split <;> omega)]
  rfl

theorem eq_charge_of_serve {b : Bounds} {s s' : Service} {c : Contender}
    (h : serve b s c = .ok s') : s' = s.charge (b.grant s.grants.length s.remaining c) := by
  rw [serve_eq_map] at h
  generalize Word.add _ _ = charged at h
  cases charged with
  | error f => cases h
  | ok bytes => exact (Except.ok.inj h).symm

/-- **The service of a line of contenders**: what is left, what was charged and what was
granted once all of the line have been served. -/
structure Serves (b : Bounds) (order : List Contender) (s : Service) : Prop where
  remaining : s.remaining = b.total - (b.demands order).sum
  visibleBytes : s.visibleBytes = Grant.visibleBytes (b.grants order)
  hiddenBytes : s.hiddenBytes = Grant.hiddenBytes (b.grants order)
  grants : s.grants = b.grants order

/-- What is charged to a line is the total or the sum of its demands, whichever is
less. -/
theorem Serves.charged {b : Bounds} {order : List Contender} {s : Service}
    (h : Serves b order s) :
    s.visibleBytes + s.hiddenBytes = min b.total (b.demands order).sum := by
  rw [h.visibleBytes, h.hiddenBytes, Grant.visibleBytes_add_hiddenBytes,
    Bounds.sum_bytes_grants]

/-- One more contender joins the line. -/
theorem Serves.concat {b : Bounds} {order : List Contender} {s : Service}
    (h : Serves b order s) (c : Contender) :
    Serves b (order ++ [c]) (s.charge (b.grant s.grants.length s.remaining c)) := by
  have hrank : s.grants.length = order.length := by rw [h.grants, Bounds.length_grants]
  rw [hrank, h.remaining]
  refine ⟨?_, ?_, ?_, ?_⟩
  · rw [Bounds.demands_concat, List.sum_append, List.sum_singleton]
    show s.remaining - min (b.demand order.length c) (b.total - (b.demands order).sum) = _
    rw [h.remaining]
    omega
  · rw [Bounds.grants_concat, Grant.visibleBytes_concat, ← h.visibleBytes]
    rfl
  · rw [Bounds.grants_concat, Grant.hiddenBytes_concat, ← h.hiddenBytes]
    rfl
  · rw [Bounds.grants_concat, ← h.grants]
    rfl

/-- A line that was served was served exactly, whatever the total. -/
theorem serves_of_foldlM {b : Bounds} {order : List Contender} {s : Service}
    (hrun : order.foldlM (serve b) { remaining := b.total } = .ok s) : Serves b order s := by
  induction order using List.reverseRecOn generalizing s with
  | nil =>
    obtain rfl := Except.ok.inj hrun
    exact ⟨rfl, rfl, rfl, rfl⟩
  | append_singleton order c ih =>
    rw [List.foldlM_append] at hrun
    cases hfront : order.foldlM (serve b) { remaining := b.total } with
    | error f =>
      rw [hfront] at hrun
      cases hrun
    | ok s₁ =>
      rw [hfront] at hrun
      have hlast : (serve b s₁ c >>= pure) = .ok s := hrun
      rw [bind_pure] at hlast
      rw [eq_charge_of_serve hlast]
      exact (ih hfront).concat c

/-- **A line can always be served**, if the total fits a word: what is left and what was
charged make up the total all along. -/
theorem foldlM_serve {b : Bounds} (hb : b.total < wordLimit) (order : List Contender) :
    ∃ s, order.foldlM (serve b) { remaining := b.total } = .ok s ∧ Serves b order s := by
  -- along the line from the front, since each service starts from what those before it left
  induction order using List.reverseRecOn with
  | nil => exact ⟨_, rfl, rfl, rfl, rfl, rfl⟩
  | append_singleton order c ih =>
    obtain ⟨s, hrun, hs⟩ := ih
    have hfits : s.visibleBytes + s.hiddenBytes + s.remaining < wordLimit := by
      rw [hs.charged, hs.remaining]
      omega
    refine ⟨_, ?_, hs.concat c⟩
    rw [List.foldlM_append, hrun]
    show (serve b s c >>= pure) = _
    rw [serve_eq_charge b s c hfits]
    rfl

end Service

/-! ## The plan -/

/-- In a list with distinct keys, looking for the key of a member finds it. -/
theorem find?_key_eq {α κ : Type} [DecidableEq κ] {key : α → κ} {l : List α}
    (hl : (l.map key).Nodup) {x : α} (hx : x ∈ l) :
    (l.find? fun y => key y = key x) = some x := by
  cases h : l.find? fun y => key y = key x with
  | none => simpa using List.find?_eq_none.1 h x hx
  | some y =>
    have hkey : key y = key x := by simpa using List.find?_some h
    rw [List.inj_on_of_nodup_map hl (List.mem_of_find?_eq_some h) hx hkey]

/-- If a function answers for every member of a list, what it answers stands at the same
place. -/
theorem getElem?_filterMap_of_isSome {α β : Type} {f : α → Option β} {l : List α}
    (h : ∀ x ∈ l, (f x).isSome = true) (i : Nat) :
    (l.filterMap f)[i]? = l[i]?.bind f := by
  have hmap : (l.filterMap f).map some = l.map f := by
    rw [List.map_filterMap_some_eq_filter_map_isSome]
    exact List.filter_eq_self.2 (by simpa using h)
  have hi := congrArg (fun m : List (Option β) => m[i]?) hmap
  simp only [List.getElem?_map] at hi
  cases hl : l[i]? <;> cases hr : (l.filterMap f)[i]? <;> simp_all

namespace Plan

/-- **What a plan says**, without service and without a fault in sight: the stubs with a
surface have what the line grants them, the others follow, and the counts and sums are
what their names promise. -/
structure Divides (b : Bounds) (stubs : List StubView) (p : Plan) : Prop where
  /-- The assignments are for the stubs in the order in which they were given. -/
  numbers : p.assignments.map Assignment.stub = stubs.map StubView.id
  /-- The contender of some rank is granted what the line grants it. -/
  served : ∀ {rank : Nat} {c : Contender}, (Contender.serving stubs)[rank]? = some c →
    p.assignments[c.index]? = some
      (b.grant rank (b.total - (b.demands ((Contender.serving stubs).take rank)).sum)
        c).assignment
  /-- A stub without a surface follows one that has. -/
  offscreen : ∀ {index : Nat} {stub : StubView}, stubs[index]? = some stub →
    stub.surface = none →
      p.assignments[index]? = some (follow (b.grants (Contender.serving stubs)) stub)
  visibleBytes : p.visibleBytes = Grant.visibleBytes (b.grants (Contender.serving stubs))
  hiddenBytes : p.hiddenBytes = Grant.hiddenBytes (b.grants (Contender.serving stubs))
  visibleStubs : p.visibleStubs =
    (Contender.serving stubs).countP fun c => c.surface.visible
  hiddenStubs : p.hiddenStubs =
    (Contender.serving stubs).countP fun c => !c.surface.visible
  offscreenStubs : p.offscreenStubs = stubs.countP fun s => s.surface.isNone

/-- The contender of some rank finds its grant by its place. -/
theorem assign_of_serving (b : Bounds) {stubs : List StubView} {rank : Nat} {c : Contender}
    (hc : (Contender.serving stubs)[rank]? = some c) :
    assign (b.grants (Contender.serving stubs)) c.stub c.index = some
      (b.grant rank (b.total - (b.demands ((Contender.serving stubs).take rank)).sum)
        c).assignment := by
  have hsurface := (Contender.mem_serving.1 (List.mem_of_getElem? hc)).2
  have hgrant : (b.grants (Contender.serving stubs))[rank]? = some
      (b.grant rank (b.total - (b.demands ((Contender.serving stubs).take rank)).sum) c) := by
    rw [Bounds.getElem?_grants, hc]
    rfl
  have hnodup : ((b.grants (Contender.serving stubs)).map Grant.index).Nodup := by
    rw [Bounds.map_index_grants]
    exact Contender.serving_nodup_index stubs
  have hfind := find?_key_eq hnodup (List.mem_of_getElem? hgrant)
  unfold assign
  rw [hsurface]
  exact congrArg (Option.map Grant.assignment) hfind

/-- Every stub is assigned something, under its own number. -/
theorem exists_assign_eq (b : Bounds) {stubs : List StubView} {index : Nat} {stub : StubView}
    (hget : stubs[index]? = some stub) :
    ∃ a, assign (b.grants (Contender.serving stubs)) stub index = some a ∧ a.stub = stub.id := by
  cases hs : stub.surface with
  | none =>
    refine ⟨follow (b.grants (Contender.serving stubs)) stub, by unfold assign; rw [hs], ?_⟩
    unfold follow
    split <;> rfl
  | some surface =>
    have hmem : (⟨index, stub, surface⟩ : Contender) ∈ Contender.serving stubs :=
      Contender.mem_serving.2 ⟨hget, hs⟩
    obtain ⟨rank, hrank⟩ := List.getElem?_of_mem hmem
    exact ⟨_, assign_of_serving b hrank, rfl⟩

/-- The plan that a service amounts to. -/
theorem ofStubs_eq_bind (b : Bounds) (stubs : List StubView) :
    ofStubs b stubs = (do
      let s ← (Contender.serving stubs).foldlM (Service.serve b) { remaining := b.total }
      pure
        { assignments := stubs.zipIdx.filterMap fun p => assign s.grants p.1 p.2
          visibleBytes := s.visibleBytes
          hiddenBytes := s.hiddenBytes
          visibleStubs := (Contender.serving stubs).countP fun c => c.surface.visible
          hiddenStubs := (Contender.serving stubs).countP fun c => !c.surface.visible
          offscreenStubs := stubs.countP fun s => s.surface.isNone }) :=
  rfl

/-- **Every plan divides the budget.** -/
theorem Divides.of_ok {b : Bounds} {stubs : List StubView} {p : Plan}
    (hplan : ofStubs b stubs = .ok p) : Divides b stubs p := by
  rw [ofStubs_eq_bind] at hplan
  cases hserved : (Contender.serving stubs).foldlM (Service.serve b) { remaining := b.total } with
  | error f =>
    rw [hserved] at hplan
    cases hplan
  | ok s =>
    rw [hserved] at hplan
    obtain rfl := Except.ok.inj hplan
    have hs := Service.serves_of_foldlM hserved
    -- nobody goes without an assignment, so leaving out who has none leaves out nobody
    have hassign : ∀ index, (stubs.zipIdx.filterMap fun p =>
        assign s.grants p.1 p.2)[index]? = stubs[index]?.bind fun stub =>
          assign (b.grants (Contender.serving stubs)) stub index := by
      intro index
      rw [hs.grants, getElem?_filterMap_of_isSome]
      · cases hget : stubs[index]? <;> simp [hget]
      · rintro ⟨stub, i⟩ hmem
        obtain ⟨a, ha, -⟩ := exists_assign_eq b (List.mk_mem_zipIdx_iff_getElem?.1 hmem)
        simp [ha]
    refine ⟨?_, ?_, ?_, hs.visibleBytes, hs.hiddenBytes, rfl, rfl, rfl⟩
    · refine List.ext_getElem? fun index => ?_
      rw [List.getElem?_map, List.getElem?_map, hassign]
      cases hget : stubs[index]? with
      | none => rfl
      | some stub =>
        obtain ⟨a, ha, hid⟩ := exists_assign_eq b hget
        simp [ha, hid]
    · intro rank c hc
      rw [hassign, (Contender.mem_serving.1 (List.mem_of_getElem? hc)).1]
      exact assign_of_serving b hc
    · intro index stub hget hs
      rw [hassign, hget]
      simp [assign, hs]

/-- **There is always a plan**, if the total fits a word, and it divides the budget. -/
theorem exists_divides (b : Bounds) (hb : b.total < wordLimit) (stubs : List StubView) :
    ∃ p, ofStubs b stubs = .ok p ∧ Divides b stubs p := by
  obtain ⟨s, hrun, -⟩ := Service.foldlM_serve hb (Contender.serving stubs)
  obtain ⟨p, hplan⟩ : ∃ p, ofStubs b stubs = .ok p := by
    rw [ofStubs_eq_bind, hrun]
    exact ⟨_, rfl⟩
  exact ⟨p, hplan, .of_ok hplan⟩

/-- What is charged is the total or the sum of all demands, whichever is less. -/
theorem Divides.charged {b : Bounds} {stubs : List StubView} {p : Plan}
    (h : Divides b stubs p) :
    p.visibleBytes + p.hiddenBytes = min b.total (b.demands (Contender.serving stubs)).sum := by
  rw [h.visibleBytes, h.hiddenBytes, Grant.visibleBytes_add_hiddenBytes,
    Bounds.sum_bytes_grants]

/-- What is charged can be added up, as it stays within the total. -/
theorem Divides.chargedBytes_eq {b : Bounds} {stubs : List StubView} {p : Plan}
    (h : Divides b stubs p) (hb : b.total < wordLimit) :
    p.chargedBytes = .ok (p.visibleBytes + p.hiddenBytes) := by
  have hcharged := h.charged
  exact Word.add_of_lt (by omega)

end Plan

end Compositor
