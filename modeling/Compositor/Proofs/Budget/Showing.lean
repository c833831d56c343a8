import Compositor.Proofs.Budget.Conservation
import Compositor.Proofs.Table

/-!
# What is shown of a plan

The outcome of a pass is shown twice: stub by stub, in a table by the numbers of the stubs,
and summed up, in counts and bytes of the visible and of the hidden stubs. The table is made
from the assignments and the sums are made along the line of service, so they meet in the
stubs themselves: with distinct numbers each stub has its own entry, and what is summed up for
a sort of stubs are the entries of the stubs of that sort. Stubs without a surface are in the
table with what they follow, and are in neither sum.
-/

namespace Compositor

/-- The bytes of a stub in what is shown of a pass. -/
def bytesShown (stats : Table StubId StubStat) (id : StubId) : Nat :=
  ((stats.find? id).map fun s => s.allocation.bytes).getD 0

/-- What is taken of the members of a sort depends on the sorts and on what is taken alone. -/
theorem map_filter_eq_of_map_eq {α β κ ω : Type} {l : List α} {l' : List β} {sort : α → κ}
    {weight : α → ω} {sort' : β → κ} {weight' : β → ω}
    (h : l.map (fun x => (sort x, weight x)) = l'.map fun y => (sort' y, weight' y))
    (keep : κ → Bool) :
    (l.filter fun x => keep (sort x)).map weight
      = (l'.filter fun y => keep (sort' y)).map weight' := by
  have hleft : (l.filter fun x => keep (sort x)).map weight
      = ((l.map fun x => (sort x, weight x)).filter fun z => keep z.1).map Prod.snd := by
    rw [List.filter_map, List.map_map]
    rfl
  rw [hleft, h, List.filter_map, List.map_map]
  rfl

namespace Plan

variable {b : Bounds} {views : List StubView} {p : Plan}

/-! ## Stub by stub -/

/-- With distinct numbers, the table lists the assignments. -/
theorem Divides.entries_stats (h : Divides b views p) (hids : (views.map StubView.id).Nodup) :
    p.stats.entries = p.assignments.map fun a => (a.stub, ⟨a.visible, a.allocation⟩) := by
  refine Table.entries_ofList ?_
  rw [List.map_map]
  exact h.numbers ▸ hids

/-- **There is one entry for each stub**, and no other. -/
theorem Divides.keys_stats (h : Divides b views p) (hids : (views.map StubView.id).Nodup) :
    p.stats.keys = views.map StubView.id := by
  unfold Table.keys
  rw [h.entries_stats hids, List.map_map]
  exact h.numbers

theorem Divides.find?_stats (h : Divides b views p) (hids : (views.map StubView.id).Nodup)
    {a : Assignment} (ha : a ∈ p.assignments) :
    p.stats.find? a.stub = some ⟨a.visible, a.allocation⟩ := by
  refine Table.find?_of_mem_entries ?_ ?_
  · rw [h.keys_stats hids]
    exact hids
  · rw [h.entries_stats hids]
    exact List.mem_map_of_mem (f := fun a => (a.stub, (⟨a.visible, a.allocation⟩ : StubStat))) ha

/-- The entry of a stub has the bytes that the plan assigns to it at its place. -/
theorem Divides.bytesShown_eq (h : Divides b views p) (hids : (views.map StubView.id).Nodup)
    {index : Nat} {view : StubView} (hget : views[index]? = some view) :
    bytesShown p.stats view.id = p.bytesAt index := by
  have hnumber := congrArg (fun l => l[index]?) h.numbers
  simp only [List.getElem?_map, hget, Option.map_some] at hnumber
  obtain ⟨a, ha, hid⟩ := Option.map_eq_some_iff.1 hnumber
  unfold bytesShown bytesAt
  rw [← hid, h.find?_stats hids (List.mem_of_getElem? ha), ha]
  rfl

/-! ## Summed up -/

/-- Contenders are the stubs with a surface, at their places. -/
theorem map_ofStubs_filter (keep : SurfaceState → Bool) (weight : Nat → Nat)
    (views : List StubView) :
    ((Contender.ofStubs views).filter fun c => keep c.surface).map (fun c => weight c.index)
      = (views.zipIdx.filter fun v => v.1.surface.any keep).map fun v => weight v.2 := by
  unfold Contender.ofStubs
  induction views.zipIdx with
  | nil => rfl
  | cons v rest ih =>
    obtain ⟨view, index⟩ := v
    cases hsurface : view.surface with
    | none => simpa [hsurface] using ih
    | some s => cases hkeep : keep s <;> simpa [hsurface, hkeep] using ih

/-- **What a sort of stubs was granted is the sum of their entries.** -/
theorem Divides.sum_bytes_filter (h : Divides b views p) (hids : (views.map StubView.id).Nodup)
    (keep : Bool → Bool) :
    (((b.grants (Contender.serving views)).filter
        fun g => keep g.assignment.visible).map Grant.bytes).sum
      = ((views.filter fun v => v.surface.any fun s => keep s.visible).map
        fun v => bytesShown p.stats v.id).sum := by
  -- along the line of service, each contender has its grant
  have hserved : (b.grants (Contender.serving views)).map
        (fun g => (g.assignment.visible, g.bytes))
      = (Contender.serving views).map fun c => (c.surface.visible, p.bytesAt c.index) := by
    refine List.ext_getElem? fun rank => ?_
    rw [List.getElem?_map, List.getElem?_map, Bounds.getElem?_grants]
    cases hc : (Contender.serving views)[rank]? with
    | none => rfl
    | some c =>
      simp only [Option.map_some, bytesAt, h.served hc, Option.getD_some]
      rfl
  rw [map_filter_eq_of_map_eq hserved keep]
  -- the line is made of the stubs with a surface
  have hperm := ((Contender.serving_perm views).filter fun c => keep c.surface.visible).map
    fun c => p.bytesAt c.index
  rw [hperm.sum_eq, map_ofStubs_filter (fun s => keep s.visible) p.bytesAt]
  -- and each stub has its entry
  have hplaced : views.zipIdx.map (fun v => (v.1.surface, p.bytesAt v.2))
      = views.map fun v => (v.surface, bytesShown p.stats v.id) := by
    refine List.ext_getElem? fun index => ?_
    rw [List.getElem?_map, List.getElem?_map, List.getElem?_zipIdx]
    cases hget : views[index]? with
    | none => rfl
    | some view => simp [h.bytesShown_eq hids hget]
  exact congrArg List.sum (map_filter_eq_of_map_eq hplaced (Option.any fun s => keep s.visible))

/-- So is the number of the stubs of a sort that were served. -/
theorem countP_serving (keep : Bool → Bool) (views : List StubView) :
    ((Contender.serving views).countP fun c => keep c.surface.visible)
      = views.countP fun v => v.surface.any fun s => keep s.visible := by
  have hmap := congrArg List.length
    (map_ofStubs_filter (fun s => keep s.visible) id views)
  rw [List.length_map, List.length_map, ← List.countP_eq_length_filter,
    ← List.countP_eq_length_filter] at hmap
  rw [(Contender.serving_perm views).countP_eq, hmap]
  conv_rhs => rw [← List.zipIdx_map_fst 0 views, List.countP_map]
  rfl

/-- **What is summed up are the entries**: of the visible stubs and of the hidden ones, each sort
with its number. -/
theorem Divides.breakdown (h : Divides b views p) {ids : List StubId}
    (hviews : views.map StubView.id = ids) (hids : ids.Nodup)
    {surface : StubId → Option SurfaceState}
    (hsurfaces : views.map StubView.surface = ids.map surface) :
    p.visibleBytes = ((ids.filter fun id => (surface id).any SurfaceState.visible).map
        (bytesShown p.stats)).sum ∧
      p.hiddenBytes = ((ids.filter fun id => (surface id).any fun s => !s.visible).map
        (bytesShown p.stats)).sum ∧
      p.visibleStubs = (ids.countP fun id => (surface id).any SurfaceState.visible) ∧
      p.hiddenStubs = (ids.countP fun id => (surface id).any fun s => !s.visible) ∧
      p.offscreenStubs = ids.countP fun id => (surface id).isNone := by
  obtain rfl := hviews
  -- a stub has the surface that its view has
  have hsame : views.map (fun v => (v.surface, bytesShown p.stats v.id))
      = (views.map StubView.id).map fun id => (surface id, bytesShown p.stats id) := by
    rw [List.map_map] at hsurfaces ⊢
    refine List.map_congr_left fun v hv => ?_
    rw [List.map_inj_left.1 hsurfaces v hv]
    rfl
  have hcount (keep : Option SurfaceState → Bool) : (views.countP fun v => keep v.surface)
      = (views.map StubView.id).countP fun id => keep (surface id) := by
    have hcounts := congrArg (List.countP keep) hsurfaces
    rwa [List.countP_map, List.countP_map] at hcounts
  refine ⟨?_, ?_, ?_, ?_, h.offscreenStubs.trans (hcount Option.isNone)⟩
  · exact h.visibleBytes.trans ((h.sum_bytes_filter hids id).trans
      (congrArg List.sum (map_filter_eq_of_map_eq hsame (Option.any SurfaceState.visible))))
  · exact h.hiddenBytes.trans ((h.sum_bytes_filter hids not).trans
      (congrArg List.sum (map_filter_eq_of_map_eq hsame (Option.any fun s => !s.visible))))
  · exact h.visibleStubs.trans ((countP_serving id views).trans
      (hcount (Option.any SurfaceState.visible)))
  · exact h.hiddenStubs.trans ((countP_serving not views).trans
      (hcount (Option.any fun s => !s.visible)))

/-- What was charged stays within the total. -/
theorem Divides.charged_le (h : Divides b views p) : p.visibleBytes + p.hiddenBytes ≤ b.total := by
  rw [h.charged]
  exact Nat.min_le_left _ _

end Plan

end Compositor
