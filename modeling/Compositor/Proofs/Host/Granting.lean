import Compositor.Proofs.Budget.Following
import Compositor.Proofs.Host.Ends

/-!
# Handing out a plan

A pass plans for the stubs that its owner enumerated, by their numbers, and pairs the
numbers with the assignments place by place when it hands them out. So it matters that a
plan has one assignment for each stub, in the order of the list, though it is made in the
order of service: then each stub is handed what was meant for it, and one without a surface
what its owner has.
-/

namespace Compositor

namespace Host

open Compositor.Action

variable {S : Type}

/-- What a pass plans over are the stubs that it was given, in their order. -/
theorem ends_planPass (run : S → Act S Unit) (b : Bounds) (ids : List StubId) (h : Host S) :
    (planPass run b ids).Ends h
      (fun p _ => ∃ views : List StubView, views.map StubView.id = ids
        ∧ Plan.ofStubs b views = .ok p) fun _ _ => True := by
  refine (ends_planPass_views run b ids h).imp (fun p _ hviews => ?_) fun _ _ _ => trivial
  obtain ⟨views, hids, -, hp⟩ := hviews
  exact ⟨views, hids, hp⟩

end Host

namespace Plan

/-- Numbers go with the assignments that are for them. -/
theorem Divides.zip_assignments {b : Bounds} {stubs : List StubView} {p : Plan}
    (h : Divides b stubs p) :
    (stubs.map StubView.id).zip p.assignments = p.assignments.map fun a => (a.stub, a) := by
  have hzip : (p.assignments.map Assignment.stub).zip (p.assignments.map id)
      = p.assignments.map fun a => (a.stub, id a) := List.zip_map'
  rw [List.map_id] at hzip
  rw [← h.numbers, hzip]
  rfl

/-- **Each stub is given one thing, and who has no surface what its owner has.** For all
bounds with a total that fits a word and all stubs there is a plan; it has one assignment
for each stub, at the place of the stub and under its number; and the stubs that it counts
as visible, hidden and without a surface are all of them. A stub without a surface is given
the bytes, the buffers and the visibility of an owner, if a stub of its group has a surface,
and else nothing. Whenever a pass plans with these bounds, it hands each stub what the plan
has for the number of that stub. -/
theorem exists_follows_owner (b : Bounds) (hb : b.total < wordLimit) (stubs : List StubView) :
    ∃ p, ofStubs b stubs = .ok p
      ∧ p.assignments.length = stubs.length
      ∧ (∀ {i : Nat} {stub : StubView}, stubs[i]? = some stub →
          (p.assignments[i]?).map Assignment.stub = some stub.id)
      ∧ p.visibleStubs + p.hiddenStubs + p.offscreenStubs = stubs.length
      ∧ (∀ {i : Nat} {follower : StubView}, stubs[i]? = some follower →
          follower.surface = none →
            ((∃ other ∈ stubs, other.surface.isSome = true ∧ follower.sharesWith other = true) →
              ∃ j owner a, StubView.IsOwner stubs follower j owner ∧ p.assignments[j]? = some a
                ∧ p.assignments[i]?
                  = some ⟨follower.id, a.visible, a.allocation, some owner.id⟩)
            ∧ ((∀ other ∈ stubs, other.surface.isSome = true →
                follower.sharesWith other = false) →
              p.assignments[i]? = some ⟨follower.id, false, .empty, none⟩))
      ∧ ∀ {S : Type} (run : S → Host.Act S Unit) (ids : List StubId) (h h' : Host S) (q : Plan),
          (Host.planPass run b ids).on h = (.ok q, h') →
            ids.zip q.assignments = q.assignments.map fun a => (a.stub, a) := by
  obtain ⟨p, hp, hdiv⟩ := exists_divides b hb stubs
  refine ⟨p, hp, ?_, fun {i stub} hget => ?_, hdiv.stubs_add, fun hget hoff =>
    ⟨hdiv.exists_isOwner hget hoff, hdiv.getElem?_of_forall hget hoff⟩,
    fun run ids h h' q hon => ?_⟩
  · simpa using congrArg List.length hdiv.numbers
  · rw [← List.getElem?_map, hdiv.numbers, List.getElem?_map, hget, Option.map_some]
  · obtain ⟨views, rfl, hq⟩ := (Host.ends_planPass run b ids h).of_on hon
    obtain ⟨q', hq', hdiv'⟩ := exists_divides b hb views
    obtain rfl : q = q' := Except.ok.inj (hq.symm.trans hq')
    exact hdiv'.zip_assignments

/-- Two visible stubs that tie, with a hidden one before them, and one without a surface that
shares a group with all three. -/
def family : List StubView :=
  [{ id := 4, shares := [3, 2, 1] },
    { id := 1, surface := some ⟨1, false, 9⟩, requested := 8 },
    { id := 2, surface := some ⟨2, true, 5⟩, requested := 7 },
    { id := 3, surface := some ⟨3, true, 5⟩, requested := 6 }]

/-- The one without a surface lives on the memory of the first of the two that tie. -/
theorem exists_follows_owner_family :
    let b : Bounds := ⟨12, 10, 1, 4, 3, none⟩
    b.total < wordLimit ∧ ∃ p, ofStubs b family = .ok p ∧ p.assignments.length = 4
      ∧ (p.assignments[0]?).map Assignment.sharesWith = some (some 2)
      ∧ (p.assignments[0]?).map Assignment.allocation
        = (p.assignments[2]?).map Assignment.allocation := by
  intro b
  have hfits : b.total < wordLimit := by decide
  obtain ⟨p, hp, hlength, -, -, hoff, -⟩ := exists_follows_owner b hfits family
  obtain ⟨j, owner, a, howner, ha, hfollow⟩ := (hoff (i := 0) rfl rfl).1
    ⟨family[2], by decide, rfl, by decide⟩
  -- nobody but the third in the list can be the owner
  have hthird : family[2]? = some family[2] := rfl
  have htwo := howner.foremost hthird rfl (by decide)
  have hget := howner.get
  obtain rfl : j = 2 := by
    match j, hget with
    | 0, hget => cases hget; exact absurd howner.surface (by decide)
    | 1, hget => cases hget; exact absurd htwo.1 (by decide)
    | 2, _ => rfl
    | 3, hget => cases hget; exact absurd (htwo.2 (by decide)) (by decide)
    | n + 4, hget => cases hget
  cases hget
  refine ⟨hfits, p, hp, hlength, ?_, ?_⟩
  · rw [hfollow]; rfl
  · rw [hfollow, ha]; rfl

end Plan

end Compositor
