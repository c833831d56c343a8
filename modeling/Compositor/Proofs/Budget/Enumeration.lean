import Compositor.Proofs.Budget.Isolation

/-!
# The order of enumeration

Whoever lists the stubs of a pass may list them in any order: only equally important ones
have to come one after the other as before, since whoever comes first among them is served
first. Nothing else of the order gets into a plan. The line of contenders is, but for their
places, the same (`Contender.map_view_serving_eq`); demands and grants see no places, and a
stub without a surface finds its owner along the line and not in the list.

A list that is sorted by importance is known as soon as each class of ties in it is, and a
stable sort leaves every such class as it came. So two enumerations that agree on every
class are lined up alike, and no place has to be followed through the sort.
-/

namespace Compositor

namespace SurfaceState

/-- **Equally important** surfaces: both are visible or both hidden, and they were used last at
the same time. -/
def isTied (s t : SurfaceState) : Bool := s.visible = t.visible ∧ s.lastUsed = t.lastUsed

theorem isTied_iff {s t : SurfaceState} :
    s.isTied t = true ↔ s.visible = t.visible ∧ s.lastUsed = t.lastUsed :=
  decide_eq_true_iff

@[simp] theorem isTied_self (s : SurfaceState) : s.isTied s = true := isTied_iff.2 ⟨rfl, rfl⟩

theorem isTied_of_le {s t : SurfaceState} (hst : s.le t = true) (hts : t.le s = true) :
    s.isTied t = true := by
  rw [le_iff] at hst hts
  rw [isTied_iff]
  rcases hst with hst | ⟨hst, hst'⟩
  · rcases hts with hts | ⟨hts, -⟩
    · omega
    · rw [hts] at hst
      exact absurd hst (Nat.lt_irrefl _)
  · rcases hts with hts | ⟨-, hts'⟩
    · rw [hst] at hts
      exact absurd hts (Nat.lt_irrefl _)
    · exact ⟨hst.symm, Nat.le_antisymm hts' hst'⟩

/-- Surfaces that are as important as a third one may be served in either order. -/
theorem le_of_isTied {r s t : SurfaceState} (hs : r.isTied s = true) (ht : r.isTied t = true) :
    s.le t = true := by
  rw [isTied_iff] at hs ht
  rw [le_iff]
  exact Or.inr ⟨ht.1.symm.trans hs.1, (ht.2.symm.trans hs.2).le⟩

/-- **A list that is sorted by importance is known by its classes of ties.** -/
theorem eq_of_forall_filter_isTied {α : Type} {surface : α → SurfaceState} {l₁ l₂ : List α}
    (h₁ : l₁.Pairwise fun a b => (surface a).le (surface b) = true)
    (h₂ : l₂.Pairwise fun a b => (surface a).le (surface b) = true)
    (hties : ∀ s : SurfaceState,
      (l₁.filter fun a => s.isTied (surface a)) = l₂.filter fun a => s.isTied (surface a)) :
    l₁ = l₂ := by
  have hmem (a : α) : a ∈ l₁ ↔ a ∈ l₂ := by
    have h := congrArg (a ∈ ·) (hties (surface a))
    simpa using h
  induction l₁ generalizing l₂ with
  | nil =>
    refine (List.eq_nil_iff_forall_not_mem.2 fun a ha => ?_).symm
    cases (hmem a).2 ha
  | cons a l₁ ih =>
    cases l₂ with
    | nil => cases (hmem a).1 (List.mem_cons_self ..)
    | cons b l₂ =>
      -- each of the two heads is no less important than the other
      have hle {x y : α} {l : List α}
          (hl : (x :: l).Pairwise fun a b => (surface a).le (surface b) = true)
          (hy : y ∈ x :: l) : (surface x).le (surface y) = true := by
        rcases List.mem_cons.1 hy with rfl | hy
        · exact le_of_isTied (isTied_self _) (isTied_self _)
        · exact List.rel_of_pairwise_cons hl hy
      have htied := isTied_of_le (hle h₁ ((hmem b).2 (List.mem_cons_self ..)))
        (hle h₂ ((hmem a).1 (List.mem_cons_self ..)))
      have hhead := hties (surface a)
      simp only [List.filter_cons, isTied_self, htied, if_true] at hhead
      obtain ⟨rfl, -⟩ := List.cons.inj hhead
      have htail (s : SurfaceState) : (l₁.filter fun a => s.isTied (surface a))
          = l₂.filter fun a => s.isTied (surface a) := by
        have h := hties s
        rw [List.filter_cons, List.filter_cons] at h
        split at h
        · exact (List.cons.inj h).2
        · exact h
      refine congrArg (a :: ·) (ih h₁.of_cons h₂.of_cons htail fun x => ?_)
      have h := congrArg (x ∈ ·) (htail (surface x))
      simpa using h

end SurfaceState

namespace Contender

/-- A stable sort leaves a class of ties as it came. -/
theorem lineUp_eq_self {s : SurfaceState} {l : List Contender}
    (hl : ∀ c ∈ l, s.isTied c.surface = true) : lineUp l = l := by
  refine List.mergeSort_of_pairwise (List.pairwise_iff_getElem.2 fun i j hi hj _ => ?_)
  exact SurfaceState.le_of_isTied (hl _ (List.getElem_mem hi)) (hl _ (List.getElem_mem hj))

/-- The contenders of a class of ties stand in the line as they came. -/
theorem map_view_ofSort_serving (s : SurfaceState) (stubs : List StubView) :
    (ofSort s.isTied (serving stubs)).map view
      = (ofStubs (StubView.ofSort s.isTied stubs)).map view := by
  have hline : lineUp (ofSort s.isTied (ofStubs stubs)) = ofSort s.isTied (ofStubs stubs) :=
    lineUp_eq_self fun c hc => (List.mem_filter.1 hc).2
  rw [ofSort_serving, hline, map_view_ofStubs_ofSort]

/-- **The line does not tell how the stubs were enumerated**, apart from ties. -/
theorem map_view_serving_eq {stubs₁ stubs₂ : List StubView}
    (hties : ∀ s : SurfaceState,
      StubView.ofSort s.isTied stubs₁ = StubView.ofSort s.isTied stubs₂) :
    (serving stubs₁).map view = (serving stubs₂).map view := by
  have hsorted (stubs : List StubView) :
      ((serving stubs).map view).Pairwise fun a b => a.2.le b.2 = true :=
    List.pairwise_map.2 ((serving_isServing stubs).pairwise.imp Precedes.le)
  have hfilter (s : SurfaceState) (stubs : List StubView) :
      (((serving stubs).map view).filter fun v => s.isTied v.2)
        = (ofStubs (StubView.ofSort s.isTied stubs)).map view := by
    rw [← map_view_ofSort_serving, List.filter_map]
    rfl
  refine SurfaceState.eq_of_forall_filter_isTied (hsorted stubs₁) (hsorted stubs₂) fun s => ?_
  rw [hfilter, hfilter, hties]

end Contender

namespace Bounds

/-- What a line is granted is not a matter of places. -/
theorem map_assignment_grants_congr (b : Bounds) {l₁ l₂ : List Contender}
    (h : l₁.map Contender.view = l₂.map Contender.view) :
    (b.grants l₁).map Grant.assignment = (b.grants l₂).map Grant.assignment := by
  refine List.ext_getElem? fun rank => ?_
  have hrank := congrArg (fun l => l[rank]?) h
  have hbefore : b.demands (l₁.take rank) = b.demands (l₂.take rank) :=
    b.demands_congr (by rw [List.map_take, List.map_take, h])
  simp only [List.getElem?_map] at hrank
  rw [List.getElem?_map, List.getElem?_map, getElem?_grants, getElem?_grants, hbefore]
  cases h₁ : l₁[rank]? with
  | none =>
    rw [h₁] at hrank
    rw [Option.map_eq_none_iff.1 hrank.symm]
  | some c =>
    rw [h₁] at hrank
    obtain ⟨d, h₂, hview⟩ := Option.map_eq_some_iff.1 hrank.symm
    rw [h₂]
    exact congrArg some (b.assignment_grant_congr rank _ hview.symm)

end Bounds

namespace Grant

variable {grants₁ grants₂ : List Grant}

/-- The bytes of the grants of a sort are a matter of the assignments alone. -/
theorem map_bytes_filter_congr (h : grants₁.map assignment = grants₂.map assignment)
    (keep : Assignment → Bool) :
    (grants₁.filter fun g => keep g.assignment).map bytes
      = (grants₂.filter fun g => keep g.assignment).map bytes := by
  have hmap (grants : List Grant) : (grants.filter fun g => keep g.assignment).map bytes
      = ((grants.map assignment).filter keep).map fun a => a.allocation.bytes := by
    rw [List.filter_map, List.map_map]
    rfl
  rw [hmap, hmap, h]

theorem visibleBytes_congr (h : grants₁.map assignment = grants₂.map assignment) :
    visibleBytes grants₁ = visibleBytes grants₂ :=
  congrArg List.sum (map_bytes_filter_congr h Assignment.visible)

theorem hiddenBytes_congr (h : grants₁.map assignment = grants₂.map assignment) :
    hiddenBytes grants₁ = hiddenBytes grants₂ :=
  congrArg List.sum (map_bytes_filter_congr h fun a => !a.visible)

end Grant

namespace Plan

/-- What a plan gives to the stub of a number. -/
def given (p : Plan) (id : StubId) : Option Assignment := p.assignments.find? fun a => a.stub = id

/-- Whom a stub follows is a matter of the assignments alone. -/
theorem follow_congr {grants₁ grants₂ : List Grant}
    (h : grants₁.map Grant.assignment = grants₂.map Grant.assignment) (stub : StubView) :
    follow grants₁ stub = follow grants₂ stub := by
  have hfind (grants : List Grant) :
      (grants.find? fun g => stub.shares.contains g.assignment.stub).map Grant.assignment
        = (grants.map Grant.assignment).find? fun a => stub.shares.contains a.stub := by
    rw [List.find?_map]
    rfl
  have hsame := (hfind grants₁).trans ((congrArg _ h).trans (hfind grants₂).symm)
  unfold follow
  cases h₁ : grants₁.find? fun g => stub.shares.contains g.assignment.stub with
  | none =>
    rw [h₁] at hsame
    rw [Option.map_eq_none_iff.1 hsame.symm]
  | some g =>
    rw [h₁] at hsame
    obtain ⟨g', h₂, heq⟩ := Option.map_eq_some_iff.1 hsame.symm
    rw [h₂]
    dsimp only
    rw [heq]

variable {b : Bounds} {stubs : List StubView} {p : Plan}

/-- Among distinct numbers, what a plan gives to the number of a stub stands at the place of the
stub. -/
theorem Divides.given_eq (h : Divides b stubs p) (hids : (stubs.map StubView.id).Nodup)
    {index : Nat} {stub : StubView} (hget : stubs[index]? = some stub) :
    p.given stub.id = p.assignments[index]? := by
  have hnumber := congrArg (fun l => l[index]?) h.numbers
  simp only [List.getElem?_map, hget, Option.map_some] at hnumber
  obtain ⟨a, ha, hid⟩ := Option.map_eq_some_iff.1 hnumber
  rw [ha, ← hid]
  exact find?_key_eq (h.numbers ▸ hids) (List.mem_of_getElem? ha)

/-- A plan gives something to the numbers of its stubs, and to no other. -/
theorem Divides.isSome_given_iff (h : Divides b stubs p) (id : StubId) :
    (p.given id).isSome = true ↔ id ∈ stubs.map StubView.id := by
  unfold given
  rw [← h.numbers, List.find?_isSome, List.mem_map]
  simp only [decide_eq_true_eq]

/-- Plans for two enumerations give the same to a stub that stands in both, if they line up the
contenders alike. -/
theorem Divides.getElem?_eq {stubs₁ stubs₂ : List StubView} {p₁ p₂ : Plan}
    (h₁ : Divides b stubs₁ p₁) (h₂ : Divides b stubs₂ p₂)
    (hids : (stubs₂.map StubView.id).Nodup)
    (hview : (Contender.serving stubs₁).map Contender.view
      = (Contender.serving stubs₂).map Contender.view)
    {i j : Nat} {stub : StubView} (hi : stubs₁[i]? = some stub) (hj : stubs₂[j]? = some stub) :
    p₁.assignments[i]? = p₂.assignments[j]? := by
  cases hs : stub.surface with
  | none =>
    rw [h₁.offscreen hi hs, h₂.offscreen hj hs,
      follow_congr (b.map_assignment_grants_congr hview) stub]
  | some surface =>
    have hmem : (⟨i, stub, surface⟩ : Contender) ∈ Contender.serving stubs₁ :=
      Contender.mem_serving.2 ⟨hi, hs⟩
    obtain ⟨rank, hrank⟩ := List.getElem?_of_mem hmem
    have hpartner := congrArg (fun l => l[rank]?) hview
    simp only [List.getElem?_map, hrank, Option.map_some] at hpartner
    obtain ⟨d, hd, hdview⟩ := Option.map_eq_some_iff.1 hpartner.symm
    -- the partner is the stub itself, which has one place only
    have hplace : d.index = j := by
      have hdget := (Contender.mem_serving.1 (List.mem_of_getElem? hd)).1
      have hid : d.stub.id = stub.id := congrArg (fun v => v.1.id) hdview
      have hdlt : d.index < (stubs₂.map StubView.id).length := by
        rw [List.length_map]
        exact (List.getElem?_eq_some_iff.1 hdget).1
      refine (List.getElem?_inj hdlt hids).1 ?_
      rw [List.getElem?_map, List.getElem?_map, hdget, hj, Option.map_some, Option.map_some, hid]
    have hbefore : b.demands ((Contender.serving stubs₁).take rank)
        = b.demands ((Contender.serving stubs₂).take rank) :=
      b.demands_congr (by rw [List.map_take, List.map_take, hview])
    have hfirst := h₁.served hrank
    have hsecond := h₂.served hd
    rw [hplace] at hsecond
    rw [hfirst, hsecond, hbefore, b.assignment_grant_congr rank _ hdview]

/-- **Enumeration matters only for ties.** Take stubs with distinct numbers in two orders, such
that equally important ones come one after the other alike. For all bounds with a total that
fits a word there are plans for both, which give the same to the stub of each number – bytes,
buffers, visibility and the stub whose memory it lives on – and to no other number anything, and
which agree in all sums and counts. -/
theorem exists_given_eq_of_perm (b : Bounds) (hb : b.total < wordLimit)
    {stubs₁ stubs₂ : List StubView} (hids : (stubs₁.map StubView.id).Nodup)
    (hperm : stubs₁.Perm stubs₂)
    (hties : ∀ s : SurfaceState, (stubs₁.filter fun stub => stub.surface.any s.isTied)
      = stubs₂.filter fun stub => stub.surface.any s.isTied) :
    ∃ p₁ p₂, ofStubs b stubs₁ = .ok p₁ ∧ ofStubs b stubs₂ = .ok p₂
      ∧ (∀ id, p₁.given id = p₂.given id)
      ∧ (∀ id, (p₁.given id).isSome = true ↔ id ∈ stubs₁.map StubView.id)
      ∧ p₁.visibleBytes = p₂.visibleBytes ∧ p₁.hiddenBytes = p₂.hiddenBytes
      ∧ p₁.visibleStubs = p₂.visibleStubs ∧ p₁.hiddenStubs = p₂.hiddenStubs
      ∧ p₁.offscreenStubs = p₂.offscreenStubs := by
  obtain ⟨p₁, hp₁, h₁⟩ := exists_divides b hb stubs₁
  obtain ⟨p₂, hp₂, h₂⟩ := exists_divides b hb stubs₂
  have hids₂ : (stubs₂.map StubView.id).Nodup := (hperm.map _).nodup_iff.1 hids
  have hview : (Contender.serving stubs₁).map Contender.view
      = (Contender.serving stubs₂).map Contender.view :=
    Contender.map_view_serving_eq fun s => congrArg (List.map StubView.apart) (hties s)
  have hgrants := b.map_assignment_grants_congr hview
  have hcount (keep : SurfaceState → Bool) :
      ((Contender.serving stubs₁).countP fun c => keep c.surface)
        = (Contender.serving stubs₂).countP fun c => keep c.surface := by
    have hmap (stubs : List StubView) : ((Contender.serving stubs).countP fun c => keep c.surface)
        = ((Contender.serving stubs).map Contender.view).countP fun v => keep v.2 := by
      rw [List.countP_map]
      rfl
    rw [hmap, hmap, hview]
  refine ⟨p₁, p₂, hp₁, hp₂, fun id => ?_, h₁.isSome_given_iff, ?_, ?_, ?_, ?_, ?_⟩
  · by_cases hid : id ∈ stubs₁.map StubView.id
    · obtain ⟨stub, hmem, rfl⟩ := List.mem_map.1 hid
      obtain ⟨i, hi⟩ := List.getElem?_of_mem hmem
      obtain ⟨j, hj⟩ := List.getElem?_of_mem (hperm.mem_iff.1 hmem)
      rw [h₁.given_eq hids hi, h₂.given_eq hids₂ hj, h₁.getElem?_eq h₂ hids₂ hview hi hj]
    · have hnone₁ := mt (h₁.isSome_given_iff id).1 hid
      have hnone₂ := mt (h₂.isSome_given_iff id).1 fun hid₂ =>
        hid ((hperm.map StubView.id).mem_iff.2 hid₂)
      rw [Option.not_isSome_iff_eq_none.1 hnone₁, Option.not_isSome_iff_eq_none.1 hnone₂]
  · rw [h₁.visibleBytes, h₂.visibleBytes, Grant.visibleBytes_congr hgrants]
  · rw [h₁.hiddenBytes, h₂.hiddenBytes, Grant.hiddenBytes_congr hgrants]
  · rw [h₁.visibleStubs, h₂.visibleStubs, hcount SurfaceState.visible]
  · rw [h₁.hiddenStubs, h₂.hiddenStubs, hcount fun s => !s.visible]
  · rw [h₁.offscreenStubs, h₂.offscreenStubs, hperm.countP_eq]

/-- Two tied stubs with a more important one between them, a hidden one, and one without a
surface that follows both of the tied ones. -/
def listed : List StubView :=
  [{ id := 1, surface := some ⟨1, true, 4⟩, requested := 7 },
    { id := 2, surface := some ⟨2, true, 9⟩, requested := 6 },
    { id := 3, surface := some ⟨3, true, 4⟩, requested := 5 },
    { id := 4, surface := some ⟨4, false, 9⟩, requested := 8 },
    { id := 5, shares := [3, 1] }]

/-- The same stubs in another order, the tied ones still one after the other. -/
def shuffled : List StubView :=
  [{ id := 5, shares := [3, 1] },
    { id := 4, surface := some ⟨4, false, 9⟩, requested := 8 },
    { id := 1, surface := some ⟨1, true, 4⟩, requested := 7 },
    { id := 3, surface := some ⟨3, true, 4⟩, requested := 5 },
    { id := 2, surface := some ⟨2, true, 9⟩, requested := 6 }]

/-- In either order each of the five stubs is given the same. -/
theorem exists_given_eq_of_perm_shuffled :
    let b : Bounds := ⟨12, 10, 1, 4, 3, none⟩
    b.total < wordLimit ∧ (listed.map StubView.id).Nodup ∧ listed.Perm shuffled
      ∧ (∀ s : SurfaceState, (listed.filter fun stub => stub.surface.any s.isTied)
        = shuffled.filter fun stub => stub.surface.any s.isTied)
      ∧ ∃ p₁ p₂, ofStubs b listed = .ok p₁ ∧ ofStubs b shuffled = .ok p₂
        ∧ (∀ id ∈ [1, 2, 3, 4, 5], p₁.given id = p₂.given id ∧ (p₁.given id).isSome = true)
        ∧ p₁.visibleBytes = p₂.visibleBytes := by
  intro b
  have hfits : b.total < wordLimit := by decide
  have hids : (listed.map StubView.id).Nodup := by decide
  have hperm : listed.Perm shuffled := by decide
  have hties : ∀ s : SurfaceState, (listed.filter fun stub => stub.surface.any s.isTied)
      = shuffled.filter fun stub => stub.surface.any s.isTied := by
    rintro ⟨_, visible, lastUsed⟩
    -- a surface is tied to none of them, to the one used at nine, or to the two at four
    by_cases hfour : lastUsed = 4
    · subst hfour
      cases visible <;> rfl
    · by_cases hnine : lastUsed = 9
      · subst hnine
        cases visible <;> rfl
      · simp [listed, shuffled, SurfaceState.isTied, hfour, hnine]
  obtain ⟨p₁, p₂, h₁, h₂, hgiven, hsome, hbytes, -⟩ :=
    exists_given_eq_of_perm b hfits hids hperm hties
  refine ⟨hfits, hids, hperm, hties, p₁, p₂, h₁, h₂, fun id hid => ⟨hgiven id, ?_⟩, hbytes⟩
  exact (hsome id).2 hid

end Plan

end Compositor
