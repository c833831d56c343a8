import Mathlib.Data.List.Permutation
import Mathlib.Data.Prod.Lex
import Compositor.Proofs.Budget.Following

/-!
# Importance

Whether one stub is more important than another is decided case by case, on whether each has
a surface and then on the two surfaces; and the line of contenders is sorted by a comparison
of its own, which sees surfaces only. Behind both is one measure of a stub
(`StubView.importance`), whose values are in a line, so importance is a strict weak order:
nobody is more important than itself, it goes on from one to the next, and so does being
equally important.

Such an order and the order of the list leave only one way to line up the stubs that have a
surface (`Contender.LinedUp`). The line that a plan serves is this one.
-/

namespace Compositor

namespace StubView

/-- **How much a stub counts**: first whether it has a surface, then whether that is visible,
then when it was used last. -/
def importance (s : StubView) : ℕ ×ₗ ℕ ×ₗ ℕ :=
  match s.surface with
  | some surface => toLex (1, toLex (surface.visible.toNat, surface.lastUsed))
  | none => toLex (0, toLex (0, 0))

/-- Neither of two stubs is more important than the other. -/
def IsAsImportantAs (a b : StubView) : Prop :=
  a.isMoreImportant b = false ∧ b.isMoreImportant a = false

/-- **The more important stub counts for more.** -/
theorem isMoreImportant_iff_lt {a b : StubView} :
    a.isMoreImportant b = true ↔ b.importance < a.importance := by
  cases ha : a.surface with
  | none =>
    cases hb : b.surface <;> simp [isMoreImportant, importance, ha, hb, Prod.Lex.toLex_le_toLex]
  | some s =>
    cases hb : b.surface with
    | none => simp [isMoreImportant, importance, ha, hb, Prod.Lex.toLex_lt_toLex]
    | some t =>
      rw [isMoreImportant_iff ha hb, Bool.eq_false_iff, Ne, SurfaceState.le_iff]
      simp only [importance, ha, hb, Prod.Lex.toLex_lt_toLex]
      cases s.visible <;> cases t.visible <;> simp

theorem isMoreImportant_eq_false_iff {a b : StubView} :
    a.isMoreImportant b = false ↔ a.importance ≤ b.importance := by
  rw [Bool.eq_false_iff, Ne, isMoreImportant_iff_lt, not_lt]

/-- Stubs are equally important if they count for the same. -/
theorem isAsImportantAs_iff {a b : StubView} :
    a.IsAsImportantAs b ↔ a.importance = b.importance := by
  unfold IsAsImportantAs
  rw [isMoreImportant_eq_false_iff, isMoreImportant_eq_false_iff]
  exact le_antisymm_iff.symm

/-- Nobody is more important than itself. -/
theorem isMoreImportant_self (s : StubView) : s.isMoreImportant s = false :=
  isMoreImportant_eq_false_iff.2 le_rfl

theorem isMoreImportant_trans {a b c : StubView} (hab : a.isMoreImportant b = true)
    (hbc : b.isMoreImportant c = true) : a.isMoreImportant c = true := by
  rw [isMoreImportant_iff_lt] at *
  exact hbc.trans hab

theorem IsAsImportantAs.trans {a b c : StubView} (hab : a.IsAsImportantAs b)
    (hbc : b.IsAsImportantAs c) : a.IsAsImportantAs c := by
  rw [isAsImportantAs_iff] at *
  exact hab.trans hbc

end StubView

namespace Contender

/-- **A line by importance** of the stubs of a list that have a surface: each of them stands in
it once, a more important one stands in front of a less important one, and equally important
ones stand in the order of the list. -/
structure LinedUp (stubs : List StubView) (order : List Contender) : Prop where
  nodup : order.Nodup
  mem_iff (c : Contender) :
    c ∈ order ↔ stubs[c.index]? = some c.stub ∧ c.stub.surface = some c.surface
  moreImportant {i j : Nat} {a b : Contender} (ha : order[i]? = some a) (hb : order[j]? = some b)
    (hab : a.stub.isMoreImportant b.stub = true) : i < j
  asImportant {i j : Nat} {a b : Contender} (ha : order[i]? = some a) (hb : order[j]? = some b)
    (hab : a.stub.IsAsImportantAs b.stub) (hindex : a.index < b.index) : i < j

/-- Of two contenders the more important one precedes the other, and of equally important ones the
one that came first. -/
theorem precedes_iff {a b : Contender} (ha : a.stub.surface = some a.surface)
    (hb : b.stub.surface = some b.surface) :
    a.Precedes b ↔ a.stub.isMoreImportant b.stub = true ∨
      a.stub.IsAsImportantAs b.stub ∧ a.index < b.index := by
  rw [StubView.isAsImportantAs_iff, StubView.isMoreImportant_iff_lt]
  simp only [Precedes, StubView.importance, ha, hb, Prod.Lex.toLex_lt_toLex]
  cases a.surface.visible <;> cases b.surface.visible <;> simp

section Lines

variable {stubs : List StubView} {order : List Contender} {i j : Nat} {a b : Contender}

/-- **Along the line of a plan everybody precedes those behind**, so whoever precedes another
stands in front of it. -/
theorem lt_of_precedes (ha : (serving stubs)[i]? = some a) (hb : (serving stubs)[j]? = some b)
    (hab : a.Precedes b) : i < j := by
  have hrule (k l : Nat) (c d : Contender) (hc : (serving stubs)[k]? = some c)
      (hd : (serving stubs)[l]? = some d) (hkl : k < l) : c.Precedes d := by
    obtain ⟨hk, rfl⟩ := List.getElem?_eq_some_iff.1 hc
    obtain ⟨hl, rfl⟩ := List.getElem?_eq_some_iff.1 hd
    exact List.pairwise_iff_getElem.1 (serving_isServing stubs).pairwise k l hk hl hkl
  rcases Nat.lt_trichotomy i j with hlt | rfl | hgt
  · exact hlt
  · obtain rfl := Option.some.inj (ha.symm.trans hb)
    exact absurd hab hab.asymm
  · exact absurd (hrule j i b a hb ha hgt) hab.asymm

/-- The line of a plan is one by importance. -/
theorem linedUp_serving (stubs : List StubView) : LinedUp stubs (serving stubs) where
  nodup := (serving_nodup_index stubs).of_map _
  mem_iff _ := mem_serving
  moreImportant ha hb hab :=
    lt_of_precedes ha hb <| (precedes_iff (mem_serving.1 (List.mem_of_getElem? ha)).2
      (mem_serving.1 (List.mem_of_getElem? hb)).2).2 (.inl hab)
  asImportant ha hb hab hindex :=
    lt_of_precedes ha hb <| (precedes_iff (mem_serving.1 (List.mem_of_getElem? ha)).2
      (mem_serving.1 (List.mem_of_getElem? hb)).2).2 (.inr ⟨hab, hindex⟩)

/-- Contenders who came at the same place are the same. -/
theorem LinedUp.eq_of_index (h : LinedUp stubs order) (ha : a ∈ order) (hb : b ∈ order)
    (hindex : a.index = b.index) : a = b := by
  obtain ⟨hget, hsurface⟩ := (h.mem_iff a).1 ha
  obtain ⟨hget', hsurface'⟩ := (h.mem_iff b).1 hb
  have hstub : a.stub = b.stub := Option.some.inj (hget.symm.trans (hindex ▸ hget'))
  rw [hstub] at hsurface
  cases a
  cases b
  simp_all

/-- **Importance and the order of the list leave nothing open.** -/
theorem LinedUp.isServing (h : LinedUp stubs order) : IsServing stubs order where
  perm := by
    refine (List.perm_ext_iff_of_nodup h.nodup ?_).2 fun c => (h.mem_iff c).trans mem_ofStubs.symm
    exact (ofStubs_nodup_index stubs).of_map _
  pairwise := by
    refine List.pairwise_iff_getElem.2 fun k l hk hl hkl => ?_
    have hget := List.getElem?_eq_getElem hk
    have hget' := List.getElem?_eq_getElem hl
    have hmem := List.getElem_mem hk
    have hmem' := List.getElem_mem hl
    rw [precedes_iff ((h.mem_iff _).1 hmem).2 ((h.mem_iff _).1 hmem').2]
    have hnot : ¬ l < k := Nat.lt_asymm hkl
    -- the one behind is not more important, and it did not come first
    by_cases hmore : order[k].stub.isMoreImportant order[l].stub = true
    · exact .inl hmore
    · have hless : order[l].stub.isMoreImportant order[k].stub = false :=
        Bool.eq_false_iff.2 fun hless => hnot (h.moreImportant hget' hget hless)
      have hmore := Bool.eq_false_iff.2 hmore
      refine .inr ⟨⟨hmore, hless⟩, ?_⟩
      rcases Nat.lt_trichotomy order[k].index order[l].index with hlt | heq | hgt
      · exact hlt
      · have hsame := (List.Nodup.getElem_inj_iff h.nodup).1 (h.eq_of_index hmem hmem' heq)
        exact absurd hsame hkl.ne
      · exact absurd (h.asImportant hget' hget ⟨hless, hmore⟩ hgt) hnot

/-- There is only one line by importance. -/
theorem linedUp_iff : LinedUp stubs order ↔ order = serving stubs :=
  ⟨fun h => h.isServing.eq_serving, fun h => h ▸ linedUp_serving stubs⟩

end Lines

end Contender

namespace Plan

/-- **Importance is a strict weak order, and the plan serves by it.** Nobody is more important than
itself, who is more important than one that is more important than a third is more important
than the third, and who is as important as one that is as important as a third is as
important as the third. For every list of stubs there is exactly one line by importance of those
that have a surface, and the plan is what comes of serving these one after the other, in
this order. -/
theorem exists_serves_by_importance (b : Bounds) (hb : b.total < wordLimit) :
    (∀ s : StubView, s.isMoreImportant s = false) ∧
    (∀ r s t : StubView, r.isMoreImportant s = true → s.isMoreImportant t = true →
      r.isMoreImportant t = true) ∧
    (∀ r s t : StubView, r.IsAsImportantAs s → s.IsAsImportantAs t → r.IsAsImportantAs t) ∧
    ∀ stubs : List StubView, ∃ order,
      (∀ order', Contender.LinedUp stubs order' ↔ order' = order) ∧
      ∃ s p, order.foldlM (Service.serve b) { remaining := b.total } = .ok s ∧
        s.grants.map Grant.index = order.map Contender.index ∧ ofStubs b stubs = .ok p ∧
        p.assignments = stubs.zipIdx.filterMap fun (stub, index) => assign s.grants stub index := by
  refine ⟨StubView.isMoreImportant_self, fun _ _ _ => StubView.isMoreImportant_trans,
    fun _ _ _ => StubView.IsAsImportantAs.trans, fun stubs => ?_⟩
  obtain ⟨s, hserved, hs⟩ := Service.foldlM_serve hb (Contender.serving stubs)
  refine ⟨Contender.serving stubs, fun _ => Contender.linedUp_iff, s, _, hserved, ?_,
    by rw [ofStubs_eq_bind, hserved]; rfl, rfl⟩
  rw [hs.grants, Bounds.map_index_grants]

/-- A total that is soon used up. -/
def scarce : Bounds where
  total := 7
  maxStub := 4
  minStub := 1
  hiddenAllowance := 2
  softLimit := 3
  windows := none

/-- Two hidden stubs that were used at the same time, one without a surface between them, and two
visible ones, of which the second was used last. -/
def queueing : List StubView :=
  [{ id := 1, surface := some ⟨1, false, 5⟩, requested := 3 }, { id := 2, shares := [1] },
    { id := 3, surface := some ⟨2, true, 1⟩, requested := 3 },
    { id := 4, surface := some ⟨3, false, 5⟩, requested := 3 },
    { id := 5, surface := some ⟨4, true, 3⟩, requested := 3 }]

/-- Of these the last is served first, then the other one that is visible, and then the hidden
ones as they came. -/
theorem exists_serves_by_importance_queueing :
    scarce.total < wordLimit ∧ ∃ order s, Contender.LinedUp queueing order ∧
      order.map Contender.index = [4, 2, 0, 3] ∧
      order.foldlM (Service.serve scarce) { remaining := scarce.total } = .ok s ∧
      s.grants.map Grant.index = [4, 2, 0, 3] := by
  have hfits : scarce.total < wordLimit := by decide
  obtain ⟨-, -, -, hserves⟩ := exists_serves_by_importance scarce hfits
  obtain ⟨order, hunique, s, p, hserved, hindices, -⟩ := hserves queueing
  obtain rfl := (hunique _).1 (Contender.linedUp_serving queueing)
  have horder : (Contender.serving queueing).map Contender.index = [4, 2, 0, 3] := by cbv
  exact ⟨hfits, _, s, (hunique _).2 rfl, horder, hserved, hindices.trans horder⟩

end Plan

end Compositor
