import Compositor.Proofs.Budget.Division

/-!
# Who may influence whom

A plan serves the more important first and never looks back, so those who are served
first cannot tell who comes after them. The sharp form of this is not about two plans
but about one: the stubs of a sort that is served before the rest are assigned exactly
what they would be assigned *if there were no others* (`Plan.Divides.assignedTo_eq`).
Two lists of stubs with the same stubs of such a sort are then both compared with the
list of these stubs alone.

Two sorts are served before the rest: the visible ones, and all that have a surface.

The proof pairs each contender with the contender that the same stub is when it is
alone. The two have different places, and nothing but places tells the partners apart;
a sort that goes by importance cannot see them, so it keeps the pairs together.
-/

namespace Compositor

/-- A stub apart from whom it shares a group with, which nobody asks one that has a
surface. -/
def StubView.apart (s : StubView) : StubView := { s with shares := [] }

/-- The stubs with a surface of a sort, each by itself. -/
def StubView.ofSort (keep : SurfaceState → Bool) (stubs : List StubView) : List StubView :=
  (stubs.filter fun s => s.surface.any keep).map apart

/-- What a plan assigns to the stubs with a surface of a sort, in their order. -/
def Plan.assignedTo (p : Plan) (stubs : List StubView) (keep : SurfaceState → Bool) :
    List Assignment :=
  ((stubs.zip p.assignments).filter fun e => e.1.surface.any keep).map Prod.snd

namespace Contender

/-- A contender apart from its place and its group. -/
def view (c : Contender) : StubView × SurfaceState := (c.stub.apart, c.surface)

theorem map_view_ofStubs (stubs : List StubView) :
    (ofStubs stubs).map view
      = stubs.filterMap fun s => s.surface.map fun surface => (s.apart, surface) := by
  unfold ofStubs
  rw [List.map_filterMap]
  conv_rhs => rw [← List.zipIdx_map_fst 0 stubs, List.filterMap_map]
  refine List.filterMap_congr fun ⟨s, index⟩ _ => ?_
  exact Option.map_map _ _ _

/-- Leaving out the stubs of other sorts leaves out their contenders. -/
theorem map_view_ofStubs_ofSort (keep : SurfaceState → Bool) (stubs : List StubView) :
    (ofStubs (StubView.ofSort keep stubs)).map view
      = (ofSort keep (ofStubs stubs)).map view := by
  have hfilter : (ofSort keep (ofStubs stubs)).map view
      = ((ofStubs stubs).map view).filter fun v => keep v.2 := by
    rw [List.filter_map]
    rfl
  rw [hfilter, map_view_ofStubs, map_view_ofStubs, StubView.ofSort, List.filterMap_map,
    List.filterMap_filter, List.filter_filterMap]
  refine List.filterMap_congr fun s _ => ?_
  cases hs : s.surface <;> simp [Option.filter, StubView.apart, hs]

/-! ## Partners -/

/-- The contenders of two lines in pairs, sorted. -/
def pairing (l₁ l₂ : List Contender) : List (Contender × Contender) :=
  (l₁.zip l₂).mergeSort fun e f => e.1.surface.le f.1.surface

theorem view_eq_of_mem_zip {l₁ l₂ : List Contender} (h : l₁.map view = l₂.map view)
    {e : Contender × Contender} (he : e ∈ l₁.zip l₂) : e.1.view = e.2.view := by
  obtain ⟨i, hi⟩ := List.getElem?_of_mem he
  obtain ⟨ha, hb⟩ := List.getElem?_zip_eq_some.1 hi
  have hview := congrArg (fun l => l[i]?) h
  simpa [ha, hb] using hview

/-- Sorting the pairs sorts the first line. -/
theorem map_fst_pairing {l₁ l₂ : List Contender} (h : l₁.map view = l₂.map view) :
    (pairing l₁ l₂).map Prod.fst = lineUp l₁ := by
  have hlen : l₁.length = l₂.length := by simpa using congrArg List.length h
  have hsort := List.map_mergeSort (f := Prod.fst) (l := l₁.zip l₂)
    (r := fun e f => e.1.surface.le f.1.surface) (s := fun a b => a.surface.le b.surface)
    fun _ _ _ _ => rfl
  rwa [List.map_fst_zip hlen.le] at hsort

/-- Sorting the pairs sorts the second line as well: the sort sees no places. -/
theorem map_snd_pairing {l₁ l₂ : List Contender} (h : l₁.map view = l₂.map view) :
    (pairing l₁ l₂).map Prod.snd = lineUp l₂ := by
  have hlen : l₁.length = l₂.length := by simpa using congrArg List.length h
  have hsurface : ∀ e ∈ l₁.zip l₂, e.1.surface = e.2.surface := fun e he =>
    congrArg Prod.snd (view_eq_of_mem_zip h he)
  have hsort := List.map_mergeSort (f := Prod.snd) (l := l₁.zip l₂)
    (r := fun e f => e.1.surface.le f.1.surface) (s := fun a b => a.surface.le b.surface)
    fun e he f hf => by rw [hsurface e he, hsurface f hf]
  rwa [List.map_snd_zip hlen.ge] at hsort

theorem mem_pairing {l₁ l₂ : List Contender} {e : Contender × Contender} :
    e ∈ pairing l₁ l₂ ↔ e ∈ l₁.zip l₂ :=
  List.mem_mergeSort

/-- Lines that look the same look the same when they are sorted. -/
theorem map_view_lineUp {l₁ l₂ : List Contender} (h : l₁.map view = l₂.map view) :
    (lineUp l₁).map view = (lineUp l₂).map view := by
  rw [← map_fst_pairing h, ← map_snd_pairing h, List.map_map, List.map_map]
  exact List.map_congr_left fun e he => view_eq_of_mem_zip h (mem_pairing.1 he)

end Contender

namespace Bounds

/-- A demand is not a matter of places. -/
theorem demand_congr (b : Bounds) (rank : Nat) {c d : Contender} (h : c.view = d.view) :
    b.demand rank c = b.demand rank d := by
  obtain ⟨hstub, hsurface⟩ := Prod.mk.inj h
  have hrequested : c.stub.apart.requested = d.stub.apart.requested := by rw [hstub]
  unfold demand
  rw [show c.stub.requested = d.stub.requested from hrequested, hsurface]

theorem demands_congr (b : Bounds) {l₁ l₂ : List Contender}
    (h : l₁.map Contender.view = l₂.map Contender.view) : b.demands l₁ = b.demands l₂ := by
  refine List.ext_getElem? fun i => ?_
  have hi := congrArg (fun l => l[i]?) h
  simp only [List.getElem?_map] at hi
  unfold demands
  rw [List.getElem?_mapIdx, List.getElem?_mapIdx]
  cases h₁ : l₁[i]? with
  | none =>
    rw [h₁] at hi
    rw [Option.map_eq_none_iff.1 hi.symm]
  | some c =>
    rw [h₁] at hi
    obtain ⟨d, h₂, hview⟩ := Option.map_eq_some_iff.1 hi.symm
    rw [h₂, Option.map_some, Option.map_some, b.demand_congr i hview]

/-- What is granted is not a matter of places. -/
theorem assignment_grant_congr (b : Bounds) (rank remaining : Nat) {c d : Contender}
    (h : c.view = d.view) :
    (b.grant rank remaining c).assignment = (b.grant rank remaining d).assignment := by
  have hdemand := b.demand_congr rank h
  obtain ⟨hstub, hsurface⟩ := Prod.mk.inj h
  have hid : c.stub.apart.id = d.stub.apart.id := by rw [hstub]
  unfold grant
  rw [hdemand, show c.stub.id = d.stub.id from hid, hsurface]

end Bounds

namespace Plan

/-- What stands at the places of the stubs of a sort, from some place on. -/
theorem map_some_zip_filter (keep : SurfaceState → Bool) (get : Nat → Option Assignment)
    (stubs : List StubView) (assignments : List Assignment) (start : Nat)
    (hlen : assignments.length = stubs.length)
    (hget : ∀ i, assignments[i]? = get (start + i)) :
    (((stubs.zip assignments).filter fun e => e.1.surface.any keep).map Prod.snd).map some
      = (Contender.ofSort keep ((stubs.zipIdx start).filterMap fun (stub, index) =>
          stub.surface.map fun surface => ⟨index, stub, surface⟩)).map
            fun c => get c.index := by
  induction stubs generalizing assignments start with
  | nil => rfl
  | cons s stubs ih =>
    obtain ⟨a, rest, rfl⟩ := List.exists_cons_of_length_eq_add_one hlen
    have hhead : get start = some a := (hget 0).symm
    have hrest := ih rest (start + 1) (Nat.succ.inj hlen) fun i => by
      rw [Nat.add_right_comm, Nat.add_assoc]
      exact hget (i + 1)
    rw [List.zip_cons_cons, List.zipIdx_cons]
    cases hs : s.surface with
    | none =>
      rw [List.filter_cons_of_neg (by simp [hs]), List.filterMap_cons_none (by simp [hs])]
      exact hrest
    | some surface =>
      simp only [List.filterMap_cons, hs, Option.map_some]
      cases hk : keep surface with
      | false =>
        rw [List.filter_cons_of_neg (by simp [hs, hk]), Contender.ofSort,
          List.filter_cons_of_neg (by simp [hk])]
        exact hrest
      | true =>
        rw [List.filter_cons_of_pos (by simp [hs, hk]), Contender.ofSort,
          List.filter_cons_of_pos (by simp [hk])]
        simp only [List.map_cons, hhead]
        exact congrArg (some a :: ·) hrest

/-- The contenders of a sort find their assignments at their places. -/
theorem Divides.map_some_assignedTo {b : Bounds} {stubs : List StubView} {p : Plan}
    (h : Divides b stubs p) (keep : SurfaceState → Bool) :
    (p.assignedTo stubs keep).map some
      = (Contender.ofSort keep (Contender.ofStubs stubs)).map fun c =>
          p.assignments[c.index]? := by
  have hlen : p.assignments.length = stubs.length := by
    simpa using congrArg List.length h.numbers
  exact map_some_zip_filter keep (fun i => p.assignments[i]?) stubs p.assignments 0 hlen
    fun i => by rw [Nat.zero_add]

/-- Among the stubs of a sort, all have a surface of the sort. -/
theorem ofSort_ofStubs_ofSort (keep : SurfaceState → Bool) (stubs : List StubView) :
    Contender.ofSort keep (Contender.ofStubs (StubView.ofSort keep stubs))
      = Contender.ofStubs (StubView.ofSort keep stubs) := by
  refine List.filter_eq_self.2 fun c hc => ?_
  obtain ⟨hget, hs⟩ := Contender.mem_ofStubs.1 hc
  obtain ⟨s, hmem, happart⟩ := List.mem_map.1 (List.mem_of_getElem? hget)
  have hsurface : s.surface = some c.surface := (congrArg StubView.surface happart).trans hs
  simpa [hsurface] using List.of_mem_filter hmem

/-- Who is served before the rest is served at the rank that they would have without the
rest. -/
theorem getElem?_serving {keep : SurfaceState → Bool} (hkeep : Contender.UpClosed keep)
    {stubs : List StubView} {rank : Nat} {c : Contender}
    (hc : (Contender.ofSort keep (Contender.serving stubs))[rank]? = some c) :
    (Contender.serving stubs)[rank]? = some c
      ∧ (Contender.serving stubs).take rank
        = (Contender.ofSort keep (Contender.serving stubs)).take rank := by
  obtain ⟨hlt, -⟩ := List.getElem?_eq_some_iff.1 hc
  constructor
  · rw [Contender.serving_eq_append hkeep stubs, List.getElem?_append_left hlt, hc]
  · conv_lhs => rw [Contender.serving_eq_append hkeep stubs]
    exact List.take_append_of_le_length hlt.le

/-- **Those who are served first might as well be alone.** The stubs of a sort that is
served before the rest are assigned what a plan for them alone assigns to them. -/
theorem Divides.assignedTo_eq {b : Bounds} {stubs : List StubView} {p q : Plan}
    {keep : SurfaceState → Bool} (hkeep : Contender.UpClosed keep) (hp : Divides b stubs p)
    (hq : Divides b (StubView.ofSort keep stubs) q) :
    p.assignedTo stubs keep = q.assignedTo (StubView.ofSort keep stubs) keep := by
  refine List.map_injective_iff.2 (Option.some_injective _) ?_
  rw [hp.map_some_assignedTo, hq.map_some_assignedTo]
  have hview : (Contender.ofSort keep (Contender.ofStubs stubs)).map Contender.view
      = (Contender.ofSort keep
          (Contender.ofStubs (StubView.ofSort keep stubs))).map Contender.view := by
    rw [ofSort_ofStubs_ofSort, Contender.map_view_ofStubs_ofSort]
  have hlen : (Contender.ofSort keep (Contender.ofStubs stubs)).length
      = (Contender.ofSort keep (Contender.ofStubs (StubView.ofSort keep stubs))).length := by
    simpa using congrArg List.length hview
  -- partners stand at the same rank of their lines, behind the same demands
  have hpartners : ∀ e ∈ (Contender.ofSort keep (Contender.ofStubs stubs)).zip
      (Contender.ofSort keep (Contender.ofStubs (StubView.ofSort keep stubs))),
      p.assignments[e.1.index]? = q.assignments[e.2.index]? := by
    intro e he
    obtain ⟨rank, hrank⟩ := List.getElem?_of_mem (Contender.mem_pairing.2 he)
    have hfst := congrArg (fun l => l[rank]?) (Contender.map_fst_pairing hview)
    have hsnd := congrArg (fun l => l[rank]?) (Contender.map_snd_pairing hview)
    simp only [List.getElem?_map, hrank, Option.map_some, ← Contender.ofSort_serving] at hfst hsnd
    obtain ⟨hmixed, htake₁⟩ := getElem?_serving hkeep hfst.symm
    obtain ⟨halone, htake₂⟩ := getElem?_serving hkeep hsnd.symm
    have hbefore : b.demands ((Contender.serving stubs).take rank)
        = b.demands ((Contender.serving (StubView.ofSort keep stubs)).take rank) := by
      rw [htake₁, htake₂, Contender.ofSort_serving, Contender.ofSort_serving]
      refine b.demands_congr ?_
      rw [List.map_take, List.map_take, Contender.map_view_lineUp hview]
    rw [hp.served hmixed, hq.served halone, hbefore,
      b.assignment_grant_congr rank _ (Contender.view_eq_of_mem_zip hview he)]
  calc (Contender.ofSort keep (Contender.ofStubs stubs)).map (fun c => p.assignments[c.index]?)
      = ((Contender.ofSort keep (Contender.ofStubs stubs)).zip
          (Contender.ofSort keep (Contender.ofStubs (StubView.ofSort keep stubs)))).map
            fun e => p.assignments[e.1.index]? := by
        conv_lhs => rw [← List.map_fst_zip hlen.le, List.map_map]
        rfl
    _ = ((Contender.ofSort keep (Contender.ofStubs stubs)).zip
          (Contender.ofSort keep (Contender.ofStubs (StubView.ofSort keep stubs)))).map
            fun e => q.assignments[e.2.index]? := List.map_congr_left hpartners
    _ = (Contender.ofSort keep (Contender.ofStubs (StubView.ofSort keep stubs))).map
          fun c => q.assignments[c.index]? := by
        conv_rhs => rw [← List.map_snd_zip hlen.ge, List.map_map]
        rfl

/-! ## Counts and sums -/

/-- The line of a sort is, but for the places, the line of the sort alone. -/
theorem demands_ofSort_serving (b : Bounds) (keep : SurfaceState → Bool)
    (stubs : List StubView) :
    b.demands (Contender.ofSort keep (Contender.serving stubs))
      = b.demands (Contender.serving (StubView.ofSort keep stubs)) := by
  rw [Contender.ofSort_serving]
  refine b.demands_congr ?_
  exact (Contender.map_view_lineUp (Contender.map_view_ofStubs_ofSort keep stubs)).symm

/-- The visible stubs are counted among themselves. -/
theorem Divides.visibleStubs_eq {b : Bounds} {stubs : List StubView} {p : Plan}
    (h : Divides b stubs p) :
    p.visibleStubs
      = (Contender.ofStubs (StubView.ofSort SurfaceState.visible stubs)).length := by
  have hlen := congrArg List.length
    (Contender.map_view_ofStubs_ofSort SurfaceState.visible stubs)
  rw [List.length_map, List.length_map] at hlen
  rw [h.visibleStubs, (Contender.serving_perm stubs).countP_eq, hlen,
    List.countP_eq_length_filter]
  rfl

/-- **The visible stubs together get the total or the sum of their demands**, whichever is
less. -/
theorem Divides.visibleBytes_eq {b : Bounds} {stubs : List StubView} {p : Plan}
    (h : Divides b stubs p) :
    p.visibleBytes = min b.total
      (b.demands (Contender.serving (StubView.ofSort SurfaceState.visible stubs))).sum := by
  rw [h.visibleBytes, Grant.visibleBytes,
    Contender.serving_eq_append Contender.upClosed_visible stubs, Bounds.filter_visible_grants,
    Bounds.sum_bytes_grants, demands_ofSort_serving]
  · intro c hc
    exact (List.mem_filter.1 hc).2
  · intro c hc
    simpa using (List.mem_filter.1 hc).2

/-- The hidden stubs together get what the visible ones leave of the total or of the sum of
all demands. -/
theorem Divides.hiddenBytes_eq {b : Bounds} {stubs : List StubView} {p : Plan}
    (h : Divides b stubs p) :
    p.hiddenBytes = min b.total
      (b.demands (Contender.serving (StubView.ofSort (fun _ => true) stubs))).sum
        - p.visibleBytes := by
  have hall : Contender.ofSort (fun _ => true) (Contender.serving stubs)
      = Contender.serving stubs := List.filter_eq_self.2 fun _ _ => rfl
  rw [← demands_ofSort_serving, hall, ← h.charged, Nat.add_sub_cancel_left]

/-- A sort within a sort. -/
theorem ofSort_ofSort_true (keep : SurfaceState → Bool) (stubs : List StubView) :
    StubView.ofSort keep (StubView.ofSort (fun _ => true) stubs) = StubView.ofSort keep stubs := by
  unfold StubView.ofSort
  rw [List.filter_map, List.map_map, List.filter_filter]
  have happart : StubView.apart ∘ StubView.apart = StubView.apart := rfl
  rw [happart]
  refine congrArg (List.map _) (List.filter_congr fun s _ => ?_)
  cases hs : s.surface <;> simp [StubView.apart, hs]

/-- **Isolation.** Two lists of stubs with the same visible stubs in the same order, and
whatever hidden ones and ones without a surface between them, are planned alike as far as
the visible stubs go: each is assigned the same, and their number and bytes are the same.
Two lists that differ in stubs without a surface only are planned alike as far as the
stubs with one go. -/
theorem exists_isolates (b : Bounds) (hb : b.total < wordLimit) (stubs₁ stubs₂ : List StubView) :
    ∃ p₁ p₂, ofStubs b stubs₁ = .ok p₁ ∧ ofStubs b stubs₂ = .ok p₂
      ∧ p₁.assignments.map Assignment.stub = stubs₁.map StubView.id
      ∧ p₂.assignments.map Assignment.stub = stubs₂.map StubView.id
      ∧ (StubView.ofSort SurfaceState.visible stubs₁
            = StubView.ofSort SurfaceState.visible stubs₂ →
          p₁.assignedTo stubs₁ SurfaceState.visible = p₂.assignedTo stubs₂ SurfaceState.visible
            ∧ p₁.visibleBytes = p₂.visibleBytes ∧ p₁.visibleStubs = p₂.visibleStubs)
      ∧ (StubView.ofSort (fun _ => true) stubs₁ = StubView.ofSort (fun _ => true) stubs₂ →
          p₁.assignedTo stubs₁ (fun _ => true) = p₂.assignedTo stubs₂ (fun _ => true)
            ∧ p₁.visibleBytes = p₂.visibleBytes ∧ p₁.hiddenBytes = p₂.hiddenBytes) := by
  obtain ⟨p₁, h₁, hp₁⟩ := exists_divides b hb stubs₁
  obtain ⟨p₂, h₂, hp₂⟩ := exists_divides b hb stubs₂
  -- both plans are compared with one for the stubs of the sort alone
  have hassigned : ∀ keep, Contender.UpClosed keep →
      StubView.ofSort keep stubs₁ = StubView.ofSort keep stubs₂ →
        p₁.assignedTo stubs₁ keep = p₂.assignedTo stubs₂ keep := by
    intro keep hkeep hsame
    obtain ⟨q, -, hq⟩ := exists_divides b hb (StubView.ofSort keep stubs₁)
    rw [hp₁.assignedTo_eq hkeep hq, hp₂.assignedTo_eq hkeep (hsame ▸ hq), hsame]
  refine ⟨p₁, p₂, h₁, h₂, hp₁.numbers, hp₂.numbers, fun hsame => ⟨?_, ?_, ?_⟩,
    fun hsame => ?_⟩
  · exact hassigned _ Contender.upClosed_visible hsame
  · rw [hp₁.visibleBytes_eq, hp₂.visibleBytes_eq, hsame]
  · rw [hp₁.visibleStubs_eq, hp₂.visibleStubs_eq, hsame]
  · have hvisible : StubView.ofSort SurfaceState.visible stubs₁
        = StubView.ofSort SurfaceState.visible stubs₂ := by
      rw [← ofSort_ofSort_true, hsame, ofSort_ofSort_true]
    have hbytes : p₁.visibleBytes = p₂.visibleBytes := by
      rw [hp₁.visibleBytes_eq, hp₂.visibleBytes_eq, hvisible]
    exact ⟨hassigned _ Contender.upClosed_true hsame, hbytes, by
      rw [hp₁.hiddenBytes_eq, hp₂.hiddenBytes_eq, hsame, hbytes]⟩

/-- Two visible stubs, the second the more important one, and a hidden one that was there
before them. -/
def behindHidden : List StubView :=
  [{ id := 1, surface := some ⟨1, false, 9⟩, requested := 7 },
    { id := 2, surface := some ⟨2, true, 1⟩, requested := 6 },
    { id := 3, surface := some ⟨3, true, 2⟩, requested := 5, shares := [1] }]

/-- One without a surface that follows the first of them. -/
def follower : StubView := { id := 4, shares := [2] }

/-- The two visible ones with the follower between them and nobody hidden. -/
def aroundFollower : List StubView :=
  [{ id := 2, surface := some ⟨2, true, 1⟩, requested := 6 }, follower,
    { id := 3, surface := some ⟨3, true, 2⟩, requested := 5 }]

/-- The visible stubs are assigned the same whether they come behind a hidden one or around
a follower, and all that have a surface are if the follower comes first. -/
theorem exists_isolates_follower :
    let b : Bounds := ⟨12, 10, 1, 4, 3, none⟩
    b.total < wordLimit
      ∧ StubView.ofSort SurfaceState.visible behindHidden
        = StubView.ofSort SurfaceState.visible aroundFollower
      ∧ StubView.ofSort (fun _ => true) behindHidden
        = StubView.ofSort (fun _ => true) (follower :: behindHidden)
      ∧ ∃ p₁ p₂ p₃, ofStubs b behindHidden = .ok p₁ ∧ ofStubs b aroundFollower = .ok p₂
        ∧ ofStubs b (follower :: behindHidden) = .ok p₃
        ∧ p₁.assignedTo behindHidden SurfaceState.visible
          = p₂.assignedTo aroundFollower SurfaceState.visible
        ∧ p₁.assignedTo behindHidden (fun _ => true)
          = p₃.assignedTo (follower :: behindHidden) (fun _ => true)
        ∧ p₁.hiddenBytes = p₃.hiddenBytes := by
  intro b
  have hfits : b.total < wordLimit := by decide
  have hvisible : StubView.ofSort SurfaceState.visible behindHidden
      = StubView.ofSort SurfaceState.visible aroundFollower := by decide
  have hsurface : StubView.ofSort (fun _ => true) behindHidden
      = StubView.ofSort (fun _ => true) (follower :: behindHidden) := by decide
  obtain ⟨p₁, p₂, h₁, h₂, -, -, hfirst, -⟩ :=
    exists_isolates b hfits behindHidden aroundFollower
  obtain ⟨p₁', p₃, h₁', h₃, -, -, -, hsecond⟩ :=
    exists_isolates b hfits behindHidden (follower :: behindHidden)
  obtain rfl : p₁ = p₁' := Except.ok.inj (h₁.symm.trans h₁')
  obtain ⟨hassigned, -, hhidden⟩ := hsecond hsurface
  exact ⟨hfits, hvisible, hsurface, p₁, p₂, p₃, h₁, h₂, h₃, (hfirst hvisible).1, hassigned,
    hhidden⟩

end Plan

end Compositor
