import Compositor.Proofs.Budget.Conservation

/-!
# How much one stub gets

The bounds of a pass come from the limits of a platform: a ceiling for what one stub may get,
and a floor that is cut to the ceiling. So the two cannot cross, whatever the constants are.
Nobody gets more than the ceiling, a hidden stub no more than the floor, and a stub without a
surface what its owner gets. A visible stub falls below the floor in one case only: it takes
the last of the total, and then nothing is left for those who are served after it.
-/

namespace Compositor

namespace Bounds

/-- What a hidden stub may have. -/
theorem demand_le_of_hidden (b : Bounds) (rank : Nat) {c : Contender}
    (hhidden : c.surface.visible = false) :
    b.demand rank c ≤ min c.stub.requested b.hiddenAllowance := by
  rcases Nat.lt_or_ge rank b.softLimit with hrank | hrank
  · exact (demand_of_hidden hhidden hrank).le
  · rw [demand_of_hidden_past hhidden hrank]
    exact Nat.zero_le _

/-- If the floor is not above the ceiling, and hidden stubs may keep no more than the ceiling,
nobody may have more than the ceiling. -/
theorem demand_le_maxStub {b : Bounds} (hfloor : b.minStub ≤ b.maxStub)
    (hhidden : b.hiddenAllowance ≤ b.maxStub) (rank : Nat) (c : Contender) :
    b.demand rank c ≤ b.maxStub := by
  cases hvisible : c.surface.visible with
  | true =>
    rw [demand_of_visible hvisible]
    exact Nat.le_trans (b.visibleDemand_le _) (Nat.max_le.2 ⟨Nat.le_refl _, hfloor⟩)
  | false => exact (b.demand_le_of_hidden rank hvisible).trans ((Nat.min_le_right ..).trans hhidden)

/-- What a visible stub may have is the floor at least. -/
theorem minStub_le_demand (b : Bounds) (rank : Nat) {c : Contender}
    (hvisible : c.surface.visible = true) : b.minStub ≤ b.demand rank c := by
  rw [demand_of_visible hvisible]
  exact b.minStub_le_visibleDemand _

end Bounds

namespace Plan

variable {b : Bounds} {stubs : List StubView} {p : Plan} {rank : Nat} {c : Contender}

/-- **Whatever is assigned was granted along the line**, or is nothing: a stub without a surface
has what its owner was granted. -/
theorem Divides.allocation_eq_grant (h : Divides b stubs p) {a : Assignment}
    (ha : a ∈ p.assignments) :
    a.allocation = .empty ∨ ∃ g ∈ b.grants (Contender.serving stubs),
      a.allocation = g.assignment.allocation := by
  obtain ⟨index, hindex⟩ := List.getElem?_of_mem ha
  have hnumber := congrArg (fun l => l[index]?) h.numbers
  simp only [List.getElem?_map, hindex, Option.map_some] at hnumber
  obtain ⟨stub, hstub, -⟩ := Option.map_eq_some_iff.1 hnumber.symm
  cases hs : stub.surface with
  | some surface =>
    obtain ⟨rank, hrank⟩ := List.getElem?_of_mem (Contender.mem_serving.2
      (show stubs[(⟨index, stub, surface⟩ : Contender).index]? = some stub ∧ _ from ⟨hstub, hs⟩))
    have hserved := h.served hrank
    have hgrant := b.getElem?_grants (Contender.serving stubs) rank
    rw [hrank] at hgrant
    rw [hindex] at hserved
    exact Or.inr ⟨_, List.mem_of_getElem? hgrant,
      congrArg Assignment.allocation (Option.some.inj hserved)⟩
  | none =>
    obtain rfl := Option.some.inj (hindex.symm.trans (h.offscreen hstub hs))
    unfold follow
    split
    · next owner hfind => exact Or.inr ⟨owner, List.mem_of_find?_eq_some hfind, rfl⟩
    · exact Or.inl rfl

/-- Nobody is assigned more than anybody may have, or than there is. -/
theorem Divides.bytes_le (h : Divides b stubs p) {most : Nat}
    (hmost : ∀ rank c, b.demand rank c ≤ most) {a : Assignment} (ha : a ∈ p.assignments) :
    a.allocation.bytes ≤ min b.total most := by
  rcases h.allocation_eq_grant ha with hnone | ⟨g, hg, hsame⟩
  · rw [hnone]
    exact Nat.zero_le _
  · obtain ⟨rank, hrank⟩ := List.getElem?_of_mem hg
    rw [Bounds.getElem?_grants] at hrank
    obtain ⟨c, -, rfl⟩ := Option.map_eq_some_iff.1 hrank
    rw [hsame]
    show min (b.demand rank c) (b.total - _) ≤ _
    have hdemand := hmost rank c
    omega

/-- **Who gets less than their demand takes the last of the total**: all of it is charged, and
nothing is left for those who are served after them. -/
theorem Divides.exhausted_of_lt (h : Divides b stubs p)
    (hc : (Contender.serving stubs)[rank]? = some c)
    (hless : p.bytesAt c.index < b.demand rank c) :
    p.visibleBytes + p.hiddenBytes = b.total
      ∧ ∀ d ∈ (Contender.serving stubs).drop (rank + 1), p.bytesAt d.index = 0 := by
  rw [h.bytesAt_eq hc] at hless
  have hall := b.sum_demands_take_add_le hc
  refine ⟨by rw [h.charged]; omega, fun d hd => ?_⟩
  obtain ⟨k, hk⟩ := List.getElem?_of_mem hd
  rw [List.getElem?_drop] at hk
  -- whoever is served later finds less left than they did
  have hbefore : ((Contender.serving stubs).take (rank + 1 + k))[rank]? = some c := by
    rw [List.getElem?_take_of_lt (by omega), hc]
  have hsum := b.sum_demands_take_add_le hbefore
  rw [List.take_take, Nat.min_eq_left (by omega)] at hsum
  rw [h.bytesAt_eq hk]
  omega

/-- **The limits of a platform hold for each stub.** Whatever the ceiling and the floor, for every
total that fits a word, every soft limit, any number of windows and every list of stubs there is
a plan. No assignment is above the ceiling or the total, also none of a stub without a surface.
A hidden stub gets no more than it asks for, and no more than the floor. A visible one gets the
floor at least, unless the total is used up: then whoever is served after it gets nothing. -/
theorem exists_within_limits (limits : Limits) {total : Nat} (htotal : total < wordLimit)
    (softLimit : Nat) (windows : Option Nat) (stubs : List StubView) :
    ∃ p order, ofStubs (.ofLimits limits total softLimit windows) stubs = .ok p
      ∧ Contender.IsServing stubs order
      ∧ p.assignments.map Assignment.stub = stubs.map StubView.id
      ∧ (∀ a ∈ p.assignments, a.allocation.bytes ≤ min total (limits.maxStubBytes total))
      ∧ (∀ c ∈ order, c.surface.visible = false →
          p.bytesAt c.index ≤ min c.stub.requested (limits.minStubBytes total))
      ∧ ∀ rank c, order[rank]? = some c → c.surface.visible = true →
          p.bytesAt c.index < limits.minStubBytes total →
            p.chargedBytes = .ok total
              ∧ ∀ d ∈ order.drop (rank + 1), p.bytesAt d.index = 0 := by
  obtain ⟨p, hp, hdiv⟩ :=
    exists_divides (.ofLimits limits total softLimit windows) htotal stubs
  have hmost (rank : Nat) (c : Contender) :
      (Bounds.ofLimits limits total softLimit windows).demand rank c
        ≤ limits.maxStubBytes total :=
    Bounds.demand_le_maxStub (limits.minStubBytes_le total) (limits.minStubBytes_le total) rank c
  refine ⟨p, Contender.serving stubs, hp, Contender.serving_isServing stubs, hdiv.numbers,
    fun a ha => hdiv.bytes_le hmost ha, fun c hc hhidden => ?_,
    fun rank c hc hvisible hbelow => ?_⟩
  · obtain ⟨rank, hrank⟩ := List.getElem?_of_mem hc
    rw [hdiv.bytesAt_eq hrank]
    exact Nat.le_trans (Nat.min_le_left ..) (Bounds.demand_le_of_hidden _ rank hhidden)
  · obtain ⟨hcharged, hnothing⟩ := hdiv.exhausted_of_lt hc
      (Nat.lt_of_lt_of_le hbelow
        ((Bounds.ofLimits limits total softLimit windows).minStub_le_demand rank hvisible))
    have hall : p.visibleBytes + p.hiddenBytes = total := hcharged
    have hfits := Word.add_of_lt (a := p.visibleBytes) (b := p.hiddenBytes) (by omega)
    exact ⟨hall ▸ hfits, hnothing⟩

/-- Limits with a floor above their ceiling, which is a share that is divided by nothing. -/
def lopsided : Limits where
  platform := .android
  defaultTotal := 0
  ceiling := .fraction 0 (some 6)
  floor := 8
  softLimit := 0

/-- Of ten bytes the first visible stub of the crowd gets the ceiling, and the second the rest,
which is below the floor. All is charged, and the hidden stub gets nothing. -/
theorem exists_within_limits_lopsided :
    (10 : Nat) < wordLimit
      ∧ ∃ p, ofStubs (.ofLimits lopsided 10 3 none) crowd = .ok p ∧ p.chargedBytes = .ok 10
        ∧ ((Contender.serving crowd).drop 2).map (fun d => p.bytesAt d.index) = [0] := by
  have hfits : (10 : Nat) < wordLimit := by decide
  obtain ⟨p, order, hp, horder, -, -, -, hfloor⟩ :=
    exists_within_limits lopsided hfits 3 none crowd
  obtain rfl := horder.eq_serving
  obtain ⟨p', hp', hdiv⟩ := exists_divides (.ofLimits lopsided 10 3 none) hfits crowd
  obtain rfl : p' = p := Except.ok.inj (hp'.symm.trans hp)
  obtain ⟨c, hc, hvisible, hdemand⟩ : ∃ c, (Contender.serving crowd)[1]? = some c
      ∧ c.surface.visible = true ∧ (Bounds.ofLimits lopsided 10 3 none).demand 1 c = 6 :=
    ⟨_, by cbv, by decide, by decide⟩
  have htaken : ((Bounds.ofLimits lopsided 10 3 none).demands
      ((Contender.serving crowd).take 1)).sum = 6 := by cbv
  have hbytes := hdiv.bytesAt_eq hc
  rw [hdemand, htaken] at hbytes
  obtain ⟨hcharged, hnothing⟩ := hfloor 1 c hc hvisible (by rw [hbytes]; decide)
  refine ⟨hfits, p', hp, hcharged, ?_⟩
  obtain ⟨d, hd⟩ : ∃ d, (Contender.serving crowd).drop 2 = [d] := ⟨_, by cbv⟩
  rw [hd] at hnothing ⊢
  rw [List.map_singleton, hnothing d List.mem_cons_self]

end Plan

end Compositor
