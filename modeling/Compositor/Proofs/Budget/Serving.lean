import Mathlib.Data.List.Sort
import Mathlib.Data.List.Nodup
import Compositor.Budget.Plan

/-!
# The order of service

A plan serves contenders in the order in which a stable sort by importance leaves
them. What that order *is* can be said without sorting: a contender goes before
another if it is visible and the other is hidden, or else if it was used later, or
else if it came first. Since no two contenders came at the same place this leaves
nothing open, and there is exactly one way to line them up
(`Contender.IsServing.eq_serving`).

The rule also says which parts of the line stand on their own. Contenders of the more
important sort are a prefix of the line, and that prefix is the line that they would
form by themselves (`Contender.serving_eq_append`).
-/

namespace Compositor

namespace SurfaceState

/-- Importance is transitive. -/
theorem le_trans {s t u : SurfaceState} (hst : s.le t = true) (htu : t.le u = true) :
    s.le u = true := by
  rw [le_iff] at *
  rcases hst with h₁ | ⟨h₁, h₁'⟩ <;> rcases htu with h₂ | ⟨h₂, h₂'⟩
  · exact Or.inl (h₂.trans h₁)
  · exact Or.inl (h₂ ▸ h₁)
  · exact Or.inl (h₁ ▸ h₂)
  · exact Or.inr ⟨h₂.trans h₁, h₂'.trans h₁'⟩

/-- Any two surfaces can be compared. -/
theorem le_total (s t : SurfaceState) : (s.le t || t.le s) = true := by
  rw [Bool.or_eq_true, le_iff, le_iff]
  cases s.visible <;> cases t.visible <;> simp [Nat.le_total]

end SurfaceState

namespace Contender

/-- **The rule of service**: the visible before the hidden, then the one used last, then
the one that came first. -/
def Precedes (a b : Contender) : Prop :=
  (a.surface.visible = true ∧ b.surface.visible = false)
    ∨ (a.surface.visible = b.surface.visible
      ∧ (b.surface.lastUsed < a.surface.lastUsed
        ∨ (a.surface.lastUsed = b.surface.lastUsed ∧ a.index < b.index)))

/-- A line of the contenders of a list of stubs that keeps the rule of service. -/
structure IsServing (stubs : List StubView) (order : List Contender) : Prop where
  /-- Every contender stands in the line, and nobody twice. -/
  perm : order.Perm (ofStubs stubs)
  pairwise : order.Pairwise Precedes

theorem Precedes.le {a b : Contender} (h : Precedes a b) : a.surface.le b.surface = true := by
  rw [SurfaceState.le_iff]
  rcases h with ⟨ha, hb⟩ | ⟨hv, ht⟩
  · exact Or.inl (by simp [ha, hb])
  · exact Or.inr ⟨hv.symm, ht.elim Nat.le_of_lt fun h => h.1.symm.le⟩

theorem Precedes.asymm {a b : Contender} (hab : Precedes a b) : ¬ Precedes b a := by
  unfold Precedes at *
  grind

/-- Importance alone, which the sort goes by, agrees with the rule as far as it goes. -/
theorem precedes_of_le {a b : Contender} (hle : a.surface.le b.surface = true)
    (htie : b.surface.le a.surface = true → a.index < b.index) : Precedes a b := by
  rw [SurfaceState.le_iff] at hle htie
  rcases hle with hv | ⟨hv, ht⟩
  · refine Or.inl ?_
    cases hb : b.surface.visible <;> cases ha : a.surface.visible <;> simp_all
  · refine Or.inr ⟨hv.symm, ?_⟩
    rcases Nat.lt_or_eq_of_le ht with hlt | heq
    · exact Or.inl hlt
    · exact Or.inr ⟨heq.symm, htie (Or.inr ⟨hv.symm, heq.symm.le⟩)⟩

/-! ## Contenders and their places -/

theorem mem_ofStubs {stubs : List StubView} {c : Contender} :
    c ∈ ofStubs stubs ↔ stubs[c.index]? = some c.stub ∧ c.stub.surface = some c.surface := by
  unfold ofStubs
  rw [List.mem_filterMap]
  constructor
  · rintro ⟨⟨stub, index⟩, hmem, hc⟩
    obtain ⟨surface, hs, rfl⟩ := Option.map_eq_some_iff.1 hc
    exact ⟨List.mk_mem_zipIdx_iff_getElem?.1 hmem, hs⟩
  · rintro ⟨hget, hs⟩
    exact ⟨(c.stub, c.index), List.mk_mem_zipIdx_iff_getElem?.2 hget, by simp [hs]⟩

/-- Contenders are listed in the order of their places. -/
theorem ofStubs_pairwise_index (stubs : List StubView) :
    (ofStubs stubs).Pairwise fun a b => a.index < b.index := by
  unfold ofStubs
  rw [List.pairwise_filterMap]
  have hlt : stubs.zipIdx.Pairwise fun a b => a.2 < b.2 := by
    rw [List.pairwise_iff_getElem]
    intro i j hi hj hij
    simpa using hij
  refine hlt.imp ?_
  rintro ⟨s, i⟩ ⟨t, j⟩ hij a ha b hb
  obtain ⟨_, _, rfl⟩ := Option.map_eq_some_iff.1 ha
  obtain ⟨_, _, rfl⟩ := Option.map_eq_some_iff.1 hb
  exact hij

theorem ofStubs_nodup_index (stubs : List StubView) :
    ((ofStubs stubs).map Contender.index).Nodup :=
  List.pairwise_map.2 ((ofStubs_pairwise_index stubs).imp Nat.ne_of_lt)

/-! ## The sort keeps the rule -/

/-- Sorts contenders by importance, ties left as they came. -/
def lineUp (l : List Contender) : List Contender :=
  l.mergeSort fun a b => a.surface.le b.surface

/-- Contenders who came in the order of their places are lined up by the rule. -/
theorem lineUp_pairwise {l : List Contender} (hl : l.Pairwise fun a b => a.index < b.index) :
    (lineUp l).Pairwise Precedes := by
  unfold lineUp
  induction l with
  | nil => simp
  | cons a l ih =>
    -- the first contender goes right behind those that are strictly more important
    obtain ⟨front, back, hsort, hrest, hfront⟩ := @List.mergeSort_cons Contender
      (fun a b => a.surface.le b.surface)
      (fun _ _ _ => SurfaceState.le_trans) (fun _ _ => SurfaceState.le_total _ _) a l
    have hle := @List.pairwise_mergeSort Contender (fun a b => a.surface.le b.surface)
      (fun _ _ _ => SurfaceState.le_trans) (fun _ _ => SurfaceState.le_total _ _) (a :: l)
    have hmem : ∀ b ∈ front ++ back, a.index < b.index := fun b hb =>
      List.rel_of_pairwise_cons hl (List.mem_mergeSort.1 (hrest ▸ hb))
    have hold := hrest ▸ ih hl.of_cons
    rw [hsort] at hle ⊢
    rw [List.pairwise_append, List.pairwise_cons] at hle ⊢
    rw [List.pairwise_append] at hold
    refine ⟨hold.1, ⟨fun b hb => ?_, hold.2.1⟩, fun b hb c hc => ?_⟩
    · exact precedes_of_le (hle.2.1.1 b hb) fun _ => hmem b (List.mem_append_right _ hb)
    · rcases List.mem_cons.1 hc with rfl | hc
      · refine precedes_of_le (hle.2.2 b hb c List.mem_cons_self) fun hcb => ?_
        have hnot := hfront b hb
        simp [hcb] at hnot
      · exact hold.2.2 b hb c hc

/-- **The order of service keeps the rule.** -/
theorem serving_isServing (stubs : List StubView) : IsServing stubs (serving stubs) :=
  ⟨serving_perm stubs, lineUp_pairwise (ofStubs_pairwise_index stubs)⟩

/-- Two lines of the same contenders that keep the rule are the same. -/
theorem eq_of_perm_of_pairwise {l₁ l₂ : List Contender} (hp : l₁.Perm l₂)
    (h₁ : l₁.Pairwise Precedes) (h₂ : l₂.Pairwise Precedes) : l₁ = l₂ :=
  hp.eq_of_pairwise (fun _ _ _ _ hab hba => absurd hba hab.asymm) h₁ h₂

/-- **There is only one line that keeps the rule.** -/
theorem IsServing.eq_serving {stubs : List StubView} {order : List Contender}
    (h : IsServing stubs order) : order = serving stubs :=
  eq_of_perm_of_pairwise (h.perm.trans (serving_perm stubs).symm) h.pairwise
    (serving_isServing stubs).pairwise

theorem mem_serving {stubs : List StubView} {c : Contender} :
    c ∈ serving stubs ↔ stubs[c.index]? = some c.stub ∧ c.stub.surface = some c.surface := by
  rw [(serving_perm stubs).mem_iff, mem_ofStubs]

theorem serving_nodup_index (stubs : List StubView) :
    ((serving stubs).map Contender.index).Nodup :=
  ((serving_perm stubs).map _).nodup_iff.2 (ofStubs_nodup_index stubs)

/-! ## Parts of the line -/

/-- A sort of surface such that whatever is at least as important is of the sort too. -/
def UpClosed (keep : SurfaceState → Bool) : Prop :=
  ∀ s t : SurfaceState, keep t = true → s.le t = true → keep s = true

theorem upClosed_visible : UpClosed SurfaceState.visible := by
  intro s t ht hle
  rw [SurfaceState.le_iff] at hle
  cases hs : s.visible <;> simp_all

theorem upClosed_true : UpClosed fun _ => true := fun _ _ _ _ => rfl

/-- The contenders whose surface is of a sort. -/
def ofSort (keep : SurfaceState → Bool) (order : List Contender) : List Contender :=
  order.filter fun c => keep c.surface

/-- A list in which nothing comes behind what lacks a property and has the property itself
is the part that has it, followed by the part that lacks it. -/
theorem eq_filter_append_filter {α : Type} {p : α → Bool} {l : List α}
    (h : l.Pairwise fun a b => p b = true → p a = true) :
    l = l.filter p ++ l.filter fun a => !p a := by
  induction l with
  | nil => rfl
  | cons a l ih =>
    rw [List.pairwise_cons] at h
    cases ha : p a with
    | true =>
      rw [List.filter_cons_of_pos ha, List.filter_cons_of_neg (by simp [ha])]
      exact congrArg (a :: ·) (ih h.2)
    | false =>
      have hnone : ∀ b ∈ l, p b = false := fun b hb =>
        Bool.eq_false_iff.2 fun hb' => by simp [h.1 b hb hb'] at ha
      have hleft : l.filter p = [] := List.filter_eq_nil_iff.2 (by simpa using hnone)
      have hright : l.filter (fun a => !p a) = l := List.filter_eq_self.2 (by simpa using hnone)
      simp [ha, hleft, hright]

/-- **The more important sort is served first**, and the rest after all of it. -/
theorem serving_eq_append {keep : SurfaceState → Bool} (h : UpClosed keep)
    (stubs : List StubView) :
    serving stubs = ofSort keep (serving stubs) ++ ofSort (fun s => !keep s) (serving stubs) :=
  eq_filter_append_filter ((serving_isServing stubs).pairwise.imp fun hab hb => h _ _ hb hab.le)

/-- The contenders of a sort are served in the order in which they would be served if
there were no others. -/
theorem ofSort_serving (keep : SurfaceState → Bool) (stubs : List StubView) :
    ofSort keep (serving stubs) = lineUp (ofSort keep (ofStubs stubs)) := by
  refine eq_of_perm_of_pairwise ?_ ((serving_isServing stubs).pairwise.filter _)
    (lineUp_pairwise ((ofStubs_pairwise_index stubs).filter _))
  exact ((serving_perm stubs).filter _).trans (List.mergeSort_perm _ _).symm

end Contender

end Compositor
