import Compositor.Proofs.Budget.Division

/-!
# Whom a stub without a surface follows

A stub without a surface is not charged: it lives on the memory of a stub that has one and
shares its group. Of several such stubs it follows the most important, and of equally
important ones the first in the list (`StubView.IsOwner`). The plan finds the owner by
going along the line of contenders until the first that shares the group, and that line
was sorted; what is said here is about the list that was handed in, and about importance as
two stubs are compared.
-/

namespace Compositor

theorem SurfaceState.order_eq_lt_iff {s t : SurfaceState} :
    s.order t = .lt ↔ t.le s = false := by
  rw [Bool.eq_false_iff, Ne, le_iff, order]
  cases s.visible <;> cases t.visible <;>
    simp [Ordering.then_eq_lt, Nat.compare_eq_lt]

namespace StubView

theorem isMoreImportant_iff {a b : StubView} {s t : SurfaceState} (ha : a.surface = some s)
    (hb : b.surface = some t) : a.isMoreImportant b = true ↔ t.le s = false := by
  rw [← SurfaceState.order_eq_lt_iff, isMoreImportant, ha, hb]
  exact beq_iff_eq

/-- The **owner** of the memory that a stub without a surface lives on: a stub of its group
that has a surface, such that no other is more important, and none that is as important
comes earlier in the list. -/
structure IsOwner (stubs : List StubView) (follower : StubView) (index : Nat)
    (owner : StubView) : Prop where
  get : stubs[index]? = some owner
  surface : owner.surface.isSome = true
  shares : follower.sharesWith owner = true
  foremost : ∀ {j : Nat} {other : StubView}, stubs[j]? = some other →
    other.surface.isSome = true → follower.sharesWith other = true →
      other.isMoreImportant owner = false
        ∧ (owner.isMoreImportant other = false → index ≤ j)

section Owners

variable {stubs stubs' : List StubView} {follower owner owner' : StubView} {index index' : Nat}

/-- A stub has one owner. -/
theorem IsOwner.unique (h : IsOwner stubs follower index owner)
    (h' : IsOwner stubs follower index' owner') : index = index' :=
  Nat.le_antisymm
    ((h.foremost h'.get h'.surface h'.shares).2 (h'.foremost h.get h.surface h.shares).1)
    ((h'.foremost h.get h.surface h.shares).2 (h.foremost h'.get h'.surface h'.shares).1)

/-- What is looked at of a stub when somebody without a surface looks for an owner. -/
def face (s : StubView) : StubId × Option SurfaceState := (s.id, s.surface)

theorem isMoreImportant_congr {a a' b b' : StubView} (ha : a.face = a'.face)
    (hb : b.face = b'.face) : a.isMoreImportant b = a'.isMoreImportant b' := by
  unfold isMoreImportant
  rw [show a.surface = a'.surface from congrArg Prod.snd ha,
    show b.surface = b'.surface from congrArg Prod.snd hb]

theorem sharesWith_congr {a a' : StubView} (ha : a.face = a'.face) :
    follower.sharesWith a = follower.sharesWith a' := by
  unfold sharesWith
  rw [show a.id = a'.id from congrArg Prod.fst ha]

theorem exists_of_face {i : Nat} {s : StubView} (hfaces : stubs.map face = stubs'.map face)
    (hs : stubs[i]? = some s) : ∃ s', stubs'[i]? = some s' ∧ s'.face = s.face := by
  have hi := congrArg (fun l => l[i]?) hfaces
  simp only [List.getElem?_map, hs, Option.map_some] at hi
  exact Option.map_eq_some_iff.1 hi.symm

theorem map_id_of_faces (hfaces : stubs.map face = stubs'.map face) :
    stubs.map StubView.id = stubs'.map StubView.id := by
  have hids := congrArg (List.map Prod.fst) hfaces
  rwa [List.map_map, List.map_map] at hids

theorem map_surface_of_faces (hfaces : stubs.map face = stubs'.map face) :
    stubs.map StubView.surface = stubs'.map StubView.surface := by
  have hsurfaces := congrArg (List.map Prod.snd) hfaces
  rwa [List.map_map, List.map_map] at hsurfaces

/-- Whether there is anybody to follow is a matter of faces, too. -/
theorem forall_of_faces (hfaces : stubs.map face = stubs'.map face)
    (hnone : ∀ other ∈ stubs, other.surface.isSome = true → follower.sharesWith other = false) :
    ∀ other ∈ stubs', other.surface.isSome = true → follower.sharesWith other = false := by
  intro other hmem hsome
  obtain ⟨j, hj⟩ := List.getElem?_of_mem hmem
  obtain ⟨known, hknown, hface⟩ := exists_of_face hfaces.symm hj
  rw [← sharesWith_congr hface]
  refine hnone known (List.mem_of_getElem? hknown) ?_
  rwa [show known.surface = other.surface from congrArg Prod.snd hface]

/-- **Who owns whose memory is a matter of numbers and surfaces**, not of what anybody asks for. -/
theorem IsOwner.of_faces (h : IsOwner stubs follower index owner)
    (hfaces : stubs.map face = stubs'.map face) :
    ∃ owner', owner'.id = owner.id ∧ IsOwner stubs' follower index owner' := by
  obtain ⟨owner', hget, hface⟩ := exists_of_face hfaces h.get
  refine ⟨owner', congrArg Prod.fst hface, hget, ?_, ?_,
    fun {k} {rival} hrival hsurface hshares => ?_⟩
  · rw [show owner'.surface = owner.surface from congrArg Prod.snd hface]
    exact h.surface
  · rw [sharesWith_congr hface]
    exact h.shares
  · obtain ⟨other, hthere, hsame⟩ := exists_of_face hfaces.symm hrival
    rw [← sharesWith_congr hsame] at hshares
    rw [show rival.surface = other.surface from (congrArg Prod.snd hsame).symm] at hsurface
    have hforemost := h.foremost hthere hsurface hshares
    rwa [isMoreImportant_congr hsame hface.symm, isMoreImportant_congr hface.symm hsame]
      at hforemost

end Owners

end StubView

/-- Of two contenders in the line the one in front is not the less important, and if neither
is more important it came first. -/
theorem Contender.Precedes.isMoreImportant {a b : Contender} (h : a.Precedes b)
    (ha : a.stub.surface = some a.surface) (hb : b.stub.surface = some b.surface) :
    b.stub.isMoreImportant a.stub = false
      ∧ (a.stub.isMoreImportant b.stub = false → a.index ≤ b.index) := by
  constructor
  · rw [Bool.eq_false_iff, Ne, StubView.isMoreImportant_iff hb ha, h.le]
    exact Bool.noConfusion
  · intro hnot
    rw [Bool.eq_false_iff, Ne, StubView.isMoreImportant_iff ha hb, Bool.not_eq_false,
      SurfaceState.le_iff] at hnot
    rcases h with ⟨hva, hvb⟩ | ⟨hv, ht | ⟨-, hindex⟩⟩
    · simp [hva, hvb] at hnot
    · simp only [hv, Nat.lt_irrefl, true_and, false_or] at hnot
      exact absurd hnot (Nat.not_le.2 ht)
    · exact hindex.le

/-- The line is as long as there are stubs with a surface. -/
theorem Contender.length_serving (stubs : List StubView) :
    (serving stubs).length = stubs.countP fun s => s.surface.isSome := by
  rw [(serving_perm stubs).length_eq, ofStubs, List.length_filterMap_eq_countP]
  conv_rhs => rw [← List.zipIdx_map_fst 0 stubs, List.countP_map]
  exact List.countP_congr fun _ _ => by simp

namespace Plan

variable {b : Bounds} {stubs : List StubView} {p : Plan}

/-- A stub without a surface that shares a group with nobody in the line gets nothing. -/
theorem follow_eq_of_forall (b : Bounds) {order : List Contender} {follower : StubView}
    (h : ∀ c ∈ order, follower.sharesWith c.stub = false) :
    follow (b.grants order) follower = ⟨follower.id, false, .empty, none⟩ := by
  have hnone : ((b.grants order).find? fun g => follower.shares.contains g.assignment.stub)
      = none := by
    refine List.find?_eq_none.2 fun g hg => ?_
    obtain ⟨rank, hrank⟩ := List.getElem?_of_mem hg
    rw [Bounds.getElem?_grants] at hrank
    obtain ⟨c, hc, rfl⟩ := Option.map_eq_some_iff.1 hrank
    exact Bool.eq_false_iff.1 (h c (List.mem_of_getElem? hc))
  unfold follow
  rw [hnone]

/-- A stub without a surface that shares a group with somebody in the line follows the first
in the line with whom it does. -/
theorem exists_follow_eq (b : Bounds) {order : List Contender} {follower : StubView}
    {c : Contender} (hc : c ∈ order) (hshares : follower.sharesWith c.stub = true) :
    ∃ rank first, order[rank]? = some first ∧ follower.sharesWith first.stub = true
      ∧ (∀ k < rank, ∀ d, order[k]? = some d → follower.sharesWith d.stub = false)
      ∧ follow (b.grants order) follower =
        let a := (b.grant rank (b.total - (b.demands (order.take rank)).sum) first).assignment
        ⟨follower.id, a.visible, a.allocation, some first.stub.id⟩ := by
  cases hfind : (b.grants order).find? fun g => follower.shares.contains g.assignment.stub with
  | none =>
    obtain ⟨rank, hrank⟩ := List.getElem?_of_mem hc
    have hgrant := b.getElem?_grants order rank
    rw [hrank, Option.map_some] at hgrant
    exact absurd hshares (List.find?_eq_none.1 hfind _ (List.mem_of_getElem? hgrant))
  | some g =>
    obtain ⟨hg, rank, hlt, hget, hbefore⟩ := List.find?_eq_some_iff_getElem.1 hfind
    have hrank := List.getElem?_eq_getElem hlt
    rw [hget, Bounds.getElem?_grants] at hrank
    obtain ⟨first, hfirst, rfl⟩ := Option.map_eq_some_iff.1 hrank
    refine ⟨rank, first, hfirst, hg, fun k hk d hd => ?_, ?_⟩
    · have hgrant := b.getElem?_grants order k
      rw [hd, Option.map_some, List.getElem?_eq_some_iff] at hgrant
      obtain ⟨hklt, hkget⟩ := hgrant
      have hnot := hbefore k hk
      rw [hkget] at hnot
      exact Bool.not_eq_true' _ ▸ hnot
    · unfold follow
      rw [hfind]
      rfl

/-- **Whoever shares a group with a stub that has a surface follows an owner.** -/
theorem Divides.exists_isOwner (h : Divides b stubs p) {i : Nat} {follower : StubView}
    (hget : stubs[i]? = some follower) (hoff : follower.surface = none)
    (hsome : ∃ other ∈ stubs, other.surface.isSome = true ∧ follower.sharesWith other = true) :
    ∃ j owner a, StubView.IsOwner stubs follower j owner ∧ p.assignments[j]? = some a
      ∧ p.assignments[i]? = some ⟨follower.id, a.visible, a.allocation, some owner.id⟩ := by
  -- every stub of the group that has a surface stands somewhere in the line
  have hline {j : Nat} {other : StubView} (hj : stubs[j]? = some other)
      (hs : other.surface.isSome = true) :
      ∃ c ∈ Contender.serving stubs, c.index = j ∧ c.stub = other := by
    obtain ⟨surface, hs⟩ := Option.isSome_iff_exists.1 hs
    exact ⟨⟨j, other, surface⟩, Contender.mem_serving.2 ⟨hj, hs⟩, rfl, rfl⟩
  obtain ⟨other, hmem, hs, hshares⟩ := hsome
  obtain ⟨j, hj⟩ := List.getElem?_of_mem hmem
  obtain ⟨c, hc, -, rfl⟩ := hline hj hs
  obtain ⟨rank, first, hfirst, hfirstShares, hbefore, hfollow⟩ := exists_follow_eq b hc hshares
  obtain ⟨hfirstGet, hfirstSurface⟩ := Contender.mem_serving.1 (List.mem_of_getElem? hfirst)
  refine ⟨first.index, first.stub, _, ⟨hfirstGet, by rw [hfirstSurface]; rfl, hfirstShares,
    fun {k} {rival} hk hrival hrivalShares => ?_⟩, h.served hfirst,
    (h.offscreen hget hoff).trans (congrArg some hfollow)⟩
  obtain ⟨d, hd, rfl, rfl⟩ := hline hk hrival
  obtain ⟨rank', hd'⟩ := List.getElem?_of_mem hd
  obtain ⟨hdlt, hdget⟩ := List.getElem?_eq_some_iff.1 hd'
  obtain ⟨hlt, hfirstEq⟩ := List.getElem?_eq_some_iff.1 hfirst
  rcases Nat.lt_trichotomy rank' rank with hrank | rfl | hrank
  · rw [hbefore rank' hrank d hd'] at hrivalShares
    cases hrivalShares
  · obtain rfl := hfirstEq.symm.trans hdget
    refine ⟨?_, fun _ => Nat.le_refl _⟩
    rw [Bool.eq_false_iff, Ne, StubView.isMoreImportant_iff hfirstSurface hfirstSurface,
      SurfaceState.le_iff.2 (Or.inr ⟨rfl, Nat.le_refl _⟩)]
    exact Bool.noConfusion
  · have hpairwise := List.pairwise_iff_getElem.1
      (Contender.serving_isServing stubs).pairwise rank rank' hlt hdlt hrank
    rw [hfirstEq, hdget] at hpairwise
    exact hpairwise.isMoreImportant hfirstSurface (Contender.mem_serving.1 hd).2

/-- Whoever has an owner has what the owner has. -/
theorem Divides.getElem?_of_isOwner (h : Divides b stubs p) {i j : Nat}
    {follower owner : StubView} (hget : stubs[i]? = some follower)
    (hoff : follower.surface = none) (howner : StubView.IsOwner stubs follower j owner) :
    ∃ a, p.assignments[j]? = some a
      ∧ p.assignments[i]? = some ⟨follower.id, a.visible, a.allocation, some owner.id⟩ := by
  obtain ⟨j', owner', a, howner', ha, hi⟩ := h.exists_isOwner hget hoff
    ⟨owner, List.mem_of_getElem? howner.get, howner.surface, howner.shares⟩
  obtain rfl := howner.unique howner'
  obtain rfl := Option.some.inj (howner.get.symm.trans howner'.get)
  exact ⟨a, ha, hi⟩

/-- Whoever shares a group with no stub that has a surface gets nothing. -/
theorem Divides.getElem?_of_forall (h : Divides b stubs p) {i : Nat} {follower : StubView}
    (hget : stubs[i]? = some follower) (hoff : follower.surface = none)
    (hnone : ∀ other ∈ stubs, other.surface.isSome = true → follower.sharesWith other = false) :
    p.assignments[i]? = some ⟨follower.id, false, .empty, none⟩ := by
  refine (h.offscreen hget hoff).trans (congrArg some (follow_eq_of_forall b fun c hc => ?_))
  obtain ⟨hc, hs⟩ := Contender.mem_serving.1 hc
  exact hnone c.stub (List.mem_of_getElem? hc) (by rw [hs]; rfl)

/-- The visible, the hidden and those without a surface are all there are. -/
theorem Divides.stubs_add (h : Divides b stubs p) :
    p.visibleStubs + p.hiddenStubs + p.offscreenStubs = stubs.length := by
  have hline := Contender.length_serving stubs
  have hsorts := List.length_eq_countP_add_countP (fun c : Contender => c.surface.visible)
    (l := Contender.serving stubs)
  have hall := List.length_eq_countP_add_countP (fun s : StubView => s.surface.isSome)
    (l := stubs)
  simp only [Bool.not_eq_true, Option.isSome_eq_false_iff] at hsorts hall
  rw [h.visibleStubs, h.hiddenStubs, h.offscreenStubs]
  simp only [Bool.decide_eq_false] at hsorts
  simp only [Bool.decide_eq_true] at hall
  omega

end Plan

end Compositor
