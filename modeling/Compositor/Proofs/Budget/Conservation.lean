import Mathlib.Data.List.Permutation
import Compositor.Proofs.Budget.Division

/-!
# Conservation of the budget

However the stubs of a pass are mixed, whatever they ask for and however the bounds
cross, there is a plan. Read along the order of service it hands out exactly the demands
until the total is used up: the first `k` contenders together get the total or the sum
of their demands, whichever is less, for every `k`. So nothing is handed out twice, and
nothing is left over while somebody could use it.

The sums of demands are sums of natural numbers. They may well be beyond a word, and
nothing in a plan forms them.
-/

namespace Compositor

namespace Plan

/-- The bytes that a plan assigns to the stub at some place. -/
def bytesAt (p : Plan) (index : Nat) : Nat :=
  ((p.assignments[index]?).map fun a => a.allocation.bytes).getD 0

/-- The bytes of the contenders are those of their grants. -/
theorem Divides.map_bytesAt {b : Bounds} {stubs : List StubView} {p : Plan}
    (h : Divides b stubs p) (k : Nat) :
    ((Contender.serving stubs).take k).map (fun c => p.bytesAt c.index)
      = ((b.grants (Contender.serving stubs)).take k).map Grant.bytes := by
  rw [Bounds.take_grants]
  refine List.ext_getElem? fun rank => ?_
  rw [List.getElem?_map, List.getElem?_map, Bounds.getElem?_grants]
  cases hc : ((Contender.serving stubs).take k)[rank]? with
  | none => rfl
  | some c =>
    rw [List.getElem?_take] at hc
    split at hc
    · next hrank =>
      have hbytes := h.served hc
      simp only [Option.map_some, bytesAt, hbytes, Option.getD_some, List.take_take,
        Nat.min_eq_left hrank.le, Grant.bytes]
    · cases hc

/-- The contender of some rank gets its demand or what is left, whichever is less. -/
theorem Divides.bytesAt_eq {b : Bounds} {stubs : List StubView} {p : Plan}
    (h : Divides b stubs p) {rank : Nat} {c : Contender}
    (hc : (Contender.serving stubs)[rank]? = some c) :
    p.bytesAt c.index
      = min (b.demand rank c) (b.total - (b.demands ((Contender.serving stubs).take rank)).sum) := by
  rw [bytesAt, h.served hc]
  rfl

/-- As long as something is left, everybody got all of their demand. -/
theorem Divides.bytesAt_eq_demand {b : Bounds} {stubs : List StubView} {p : Plan}
    (h : Divides b stubs p) (hleft : p.visibleBytes + p.hiddenBytes < b.total)
    {rank : Nat} {c : Contender} (hc : (Contender.serving stubs)[rank]? = some c) :
    p.bytesAt c.index = b.demand rank c := by
  have hall := h.charged
  have hsum := b.sum_demands_take_add_le hc
  have hbytes := h.bytesAt_eq hc
  omega

/-- **Conservation of the budget.** For every list of stubs and all bounds with a total
that fits a word there is a plan, with one assignment for each stub, in their order. Along
the order of service the first `k` contenders are assigned the total or the sum of their
demands, whichever is less. What is charged is what is assigned to all of them, it stays
within the total, and it stays below only if each demand is met. -/
theorem exists_conserves (b : Bounds) (hb : b.total < wordLimit) (stubs : List StubView) :
    ∃ p order, ofStubs b stubs = .ok p ∧ Contender.IsServing stubs order
      ∧ p.assignments.map Assignment.stub = stubs.map StubView.id
      ∧ (∀ k, ((order.take k).map fun c => p.bytesAt c.index).sum
          = min b.total (b.demands (order.take k)).sum)
      ∧ p.chargedBytes = .ok (p.visibleBytes + p.hiddenBytes)
      ∧ p.visibleBytes + p.hiddenBytes = (order.map fun c => p.bytesAt c.index).sum
      ∧ p.visibleBytes + p.hiddenBytes ≤ b.total
      ∧ (p.visibleBytes + p.hiddenBytes < b.total →
          ∀ rank c, order[rank]? = some c → p.bytesAt c.index = b.demand rank c) := by
  obtain ⟨p, hp, hdiv⟩ := exists_divides b hb stubs
  have htake : ∀ k, (((Contender.serving stubs).take k).map fun c => p.bytesAt c.index).sum
      = min b.total (b.demands ((Contender.serving stubs).take k)).sum := fun k => by
    rw [hdiv.map_bytesAt, Bounds.sum_bytes_take_grants]
  have hall := htake (Contender.serving stubs).length
  rw [List.take_length] at hall
  have hcharged := hdiv.charged
  refine ⟨p, Contender.serving stubs, hp, Contender.serving_isServing stubs, hdiv.numbers,
    htake, Word.add_of_lt (by omega), hcharged.trans hall.symm, by omega,
    fun hleft rank c hc => hdiv.bytesAt_eq_demand hleft hc⟩

/-- Bounds that cross: a visible stub gets at most three bytes and at least five. -/
def crossing : Bounds where
  total := 10
  maxStub := 3
  minStub := 5
  hiddenAllowance := 4
  softLimit := 3
  windows := none

/-- A hidden stub and a visible one that ask for as much as there can be, one without a
surface, and a visible one that asks for nothing under a number that was there before. -/
def crowd : List StubView :=
  [{ id := 1, surface := some ⟨1, false, 9⟩, requested := wordLimit - 1 },
    { id := 2, shares := [3] },
    { id := 3, surface := some ⟨2, true, 1⟩, requested := wordLimit - 1 },
    { id := 3, surface := some ⟨3, true, 2⟩ }]

/-- In the crowd the two visible stubs get the five bytes each that make up the total,
and nothing is left for the hidden one. -/
theorem exists_conserves_crowd :
    crossing.total < wordLimit
      ∧ ∃ p, ofStubs crossing crowd = .ok p ∧ p.chargedBytes = .ok 10
        ∧ ((Contender.serving crowd).take 1).map (fun c => p.bytesAt c.index) = [5] := by
  have hfits : crossing.total < wordLimit := by decide
  obtain ⟨p, order, hp, horder, -, htake, hcharged, hall, -⟩ :=
    exists_conserves crossing hfits crowd
  obtain rfl := horder.eq_serving
  refine ⟨hfits, p, hp, ?_, ?_⟩
  · have hdemands : (crossing.demands ((Contender.serving crowd).take 3)).sum = 14 := by cbv
    have hlength : (Contender.serving crowd).take 3 = Contender.serving crowd := by cbv
    have hthree := htake 3
    rw [hdemands, hlength, ← hall] at hthree
    rw [hcharged, hthree]
    rfl
  · have hdemands : (crossing.demands ((Contender.serving crowd).take 1)).sum = 5 := by cbv
    have hone := htake 1
    rw [hdemands] at hone
    obtain ⟨c, hc⟩ : ∃ c, (Contender.serving crowd).take 1 = [c] := ⟨_, by cbv⟩
    rw [hc] at hone ⊢
    simpa [crossing] using hone

end Plan

end Compositor
