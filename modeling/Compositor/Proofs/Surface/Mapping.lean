import Compositor.DebugRect
import Compositor.Proofs.Geometry.Enclosing

/-!
# When the overlay of a frame is complete

The overlay maps rectangles of a frame to the screen: what was painted of a layer, layers that
changed, damage, the surfaces and their reflections. Where the rectangles of a frame have far
edges that are coordinates nothing else can fail, so the overlay is complete exactly if each
rectangle that it asks for can be mapped.

A list of members is read together with the condition that it *hinges on*. Conditions of
families that are gathered one behind the other are joined, and the outcome of saving is read
off the condition of the whole.
-/

namespace Compositor

namespace Rect

variable {a b : Rect}

/-- The far edges of a common part are coordinates if those of its operands are. -/
theorem Edged.intersect (ha : a.Edged) (hb : b.Edged) :
    ∃ i, a.intersect b = .ok i ∧ i.Edged := by
  obtain ⟨i, hi, ⟨rfl, -⟩ | ⟨-, hbetween⟩⟩ := intersect_eq ha hb
  · exact ⟨_, hi, ⟨0, rfl⟩, ⟨0, rfl⟩⟩
  · obtain ⟨⟨ra, hra⟩, ⟨ba, hba⟩⟩ := ha
    obtain ⟨⟨rb, hrb⟩, ⟨bb, hbb⟩⟩ := hb
    refine ⟨i, hi, ⟨min ra rb, ?_⟩, ⟨min ba bb, ?_⟩⟩
    · rw [right_eq_ok, Coord.toInt_min, right_eq_ok.1 hra, right_eq_ok.1 hrb, hbetween.right]
    · rw [bottom_eq_ok, Coord.toInt_min, bottom_eq_ok.1 hba, bottom_eq_ok.1 hbb, hbetween.bottom]

end Rect

namespace DebugRect.Member

/-- **Members hinge on a condition**: under it each of them is a rectangle, without it one of
them is the fault of a difference, and none of them is any other fault. -/
structure Hinge (p : Prop) (ms : List DebugRect.Member) : Prop where
  complete : p → ∀ m ∈ ms, ∃ d, m = .ok d
  fault : ¬ p → .error .subOverflow ∈ ms
  only : ∀ m ∈ ms, (∃ d, m = .ok d) ∨ m = .error .subOverflow

variable {p q : Prop} {ms ns : List DebugRect.Member}

namespace Hinge

theorem congr (h : Hinge p ms) (hiff : p ↔ q) : Hinge q ms := propext hiff ▸ h

/-- Members that are all there hinge on nothing. -/
theorem of_ok (h : ∀ m ∈ ms, ∃ d, m = .ok d) : Hinge True ms :=
  ⟨fun _ => h, fun hnot => absurd trivial hnot, fun m hm => .inl (h m hm)⟩

theorem nil : Hinge True [] := of_ok fun _ hm => absurd hm List.not_mem_nil

theorem append (hms : Hinge p ms) (hns : Hinge q ns) : Hinge (p ∧ q) (ms ++ ns) where
  complete hpq m hm :=
    (List.mem_append.1 hm).elim (hms.complete hpq.1 m) (hns.complete hpq.2 m)
  fault hnot := by
    rcases not_and_or.1 hnot with hp | hq
    · exact List.mem_append_left _ (hms.fault hp)
    · exact List.mem_append_right _ (hns.fault hq)
  only m hm := (List.mem_append.1 hm).elim (hms.only m) (hns.only m)

theorem flatMap {α : Type} {xs : List α} {condition : α → Prop}
    {members : α → List DebugRect.Member} (h : ∀ x ∈ xs, Hinge (condition x) (members x)) :
    Hinge (∀ x ∈ xs, condition x) (xs.flatMap members) where
  complete hall m hm := by
    obtain ⟨x, hx, hm⟩ := List.mem_flatMap.1 hm
    exact (h x hx).complete (hall x hx) m hm
  fault hnot := by
    simp only [not_forall] at hnot
    obtain ⟨x, hx, hnot⟩ := hnot
    exact List.mem_flatMap.2 ⟨x, hx, (h x hx).fault hnot⟩
  only m hm := by
    obtain ⟨x, hx, hm⟩ := List.mem_flatMap.1 hm
    exact (h x hx).only m hm

/-- Members one for each element. -/
theorem map {α : Type} {xs : List α} {condition : α → Prop} {member : α → DebugRect.Member}
    (h : ∀ x ∈ xs, Hinge (condition x) [member x]) :
    Hinge (∀ x ∈ xs, condition x) (xs.map member) := by
  rw [List.map_eq_flatMap]
  exact flatMap h

/-- Members that are gathered if a switch is on. -/
theorem gathered (h : Hinge p ms) (switch : Bool) :
    Hinge (switch = true → p) (if switch then ms else []) := by
  cases switch with
  | true => exact h.congr (by simp only [forall_const])
  | false =>
    exact nil.congr (by simp only [Bool.false_eq_true, false_implies])

/-- The member of a rectangle that is mapped. -/
theorem mapped {r : Rect} (h : r.Edged) (kind : DebugRectKind) (t : Transform) :
    Hinge (r.Maps t) [.of kind (r.mapEnclosing t)] := by
  obtain ⟨hmaps, hfault⟩ := Rect.mapEnclosing_cases h t
  have hof : r.Maps t → ∃ d, DebugRect.Member.of kind (r.mapEnclosing t) = .ok d := by
    intro hr
    obtain ⟨m, hm, -⟩ := hmaps hr
    rw [hm]
    exact ⟨_, rfl⟩
  have herror : ¬ r.Maps t →
      DebugRect.Member.of kind (r.mapEnclosing t) = .error .subOverflow := by
    intro hr
    rw [hfault hr]
    rfl
  refine ⟨fun hr m hm => ?_, fun hr => ?_, fun m hm => ?_⟩
  · obtain rfl := List.mem_singleton.1 hm
    exact hof hr
  · exact List.mem_singleton.2 (herror hr).symm
  · obtain rfl := List.mem_singleton.1 hm
    exact (Classical.em (r.Maps t)).imp hof herror

/-- **The outcome of storing members** is told by what they hinge on. -/
theorem outcome (h : Hinge p ms) :
    (p → (DebugRectHistory.beforeFault ms).1 = .ok ()) ∧
      (¬ p → (DebugRectHistory.beforeFault ms).1 = .error .subOverflow) := by
  obtain ⟨hcomplete, hfault, honly⟩ := h
  induction ms with
  | nil => exact ⟨fun _ => rfl, fun hp => absurd (hfault hp) List.not_mem_nil⟩
  | cons m rest ih =>
    rcases honly m List.mem_cons_self with ⟨d, rfl⟩ | rfl
    · exact ih (fun hp m hm => hcomplete hp m (List.mem_cons_of_mem _ hm))
        (fun hp => (List.mem_cons.1 (hfault hp)).resolve_left fun heq => by cases heq)
        fun m hm => honly m (List.mem_cons_of_mem _ hm)
    · refine ⟨fun hp => ?_, fun _ => rfl⟩
      obtain ⟨d, hd⟩ := hcomplete hp _ List.mem_cons_self
      cases hd

end Hinge

end DebugRect.Member

open DebugRect.Member

namespace DebugFrame

/-- **The far edges of the rectangles of a frame are coordinates.** -/
structure Edged (f : DebugFrame) : Prop where
  content : ∀ s ∈ f.surfaces, s.content.Edged
  damage : ∀ s ∈ f.surfaces, s.damage.Edged
  bounds : ∀ layer ∈ f.layers, layer.bounds.Edged
  updated : ∀ layer ∈ f.layers, layer.updated.Edged

/-- **A frame can be mapped** as far as the settings ask: each rectangle of the overlay that is
taken to the screen can be mapped. -/
structure Maps (f : DebugFrame) (settings : DebugRectSettings) : Prop where
  paint : settings.paint = true → ∀ layer ∈ f.layers, ∀ painted,
    layer.updated.intersect layer.bounds = .ok painted → painted.Maps layer.screen
  propertyChanged : settings.propertyChanged = true → ∀ layer ∈ f.layers,
    layer.propertyChanged = true → layer.bounds.Maps layer.screen
  surfaceDamage : settings.surfaceDamage = true → ∀ s ∈ f.surfaces, s.damage.Maps s.screen
  screenSpace : settings.screenSpace = true → ∀ s ∈ f.surfaces, s.content.Maps s.screen
  replicas : settings.screenSpace = true → settings.replicaScreenSpace = true →
    ∀ s ∈ f.surfaces, ∀ t ∈ s.replicaScreen, s.content.Maps t

variable {f : DebugFrame}

/-- A rectangle without a pixel can be mapped. -/
theorem maps_of_isEmpty {r : Rect} (h : r.isEmpty = true) (t : Transform) : r.Maps t := by
  intro hpixel
  rw [h] at hpixel
  cases hpixel

theorem hinge_paintOf {layer : LayerSnapshot} (hupdated : layer.updated.Edged)
    (hbounds : layer.bounds.Edged) :
    Hinge (∀ painted, layer.updated.intersect layer.bounds = .ok painted →
      painted.Maps layer.screen) (paintOf layer) := by
  obtain ⟨painted, hpainted, hedged⟩ := hupdated.intersect hbounds
  unfold paintOf
  rw [hpainted]
  dsimp only
  have hcondition : painted.Maps layer.screen ↔
      ∀ painted', (.ok painted : Except Fault Rect) = .ok painted' →
        painted'.Maps layer.screen := by
    simp only [Except.ok.injEq, forall_eq']
  cases hempty : painted.isEmpty with
  | true =>
    rw [if_pos rfl]
    exact Hinge.nil.congr
      (hcondition.symm.trans (iff_of_true (maps_of_isEmpty hempty _) trivial)).symm
  | false => exact (Hinge.mapped hedged .paint layer.screen).congr hcondition

theorem hinge_paint (h : f.Edged) :
    Hinge (∀ layer ∈ f.layers, ∀ painted,
      layer.updated.intersect layer.bounds = .ok painted → painted.Maps layer.screen) f.paint :=
  Hinge.flatMap fun layer hlayer => hinge_paintOf (h.updated layer hlayer) (h.bounds layer hlayer)

/-- A condition on what passes a filter for having a pixel is one on everything that passes the
rest of the filter. -/
theorem forall_filter_maps {α : Type} (xs : List α) (keep : α → Bool) (rect : α → Rect)
    (screen : α → Transform) :
    (∀ x ∈ xs.filter fun x => keep x && !(rect x).isEmpty, (rect x).Maps (screen x)) ↔
      ∀ x ∈ xs, keep x = true → (rect x).Maps (screen x) := by
  simp only [List.mem_filter, Bool.and_eq_true, Bool.not_eq_true', and_imp]
  refine forall₂_congr fun x _ => forall_congr' fun _ =>
    ⟨fun hmaps hpixel => ?_, fun hmaps _ => hmaps⟩
  exact hmaps hpixel hpixel

theorem hinge_propertyChanged (h : f.Edged) :
    Hinge (∀ layer ∈ f.layers, layer.propertyChanged = true → layer.bounds.Maps layer.screen)
      f.propertyChanged := by
  refine (Hinge.map fun layer hlayer => ?_).congr
    (forall_filter_maps f.layers LayerSnapshot.propertyChanged LayerSnapshot.bounds
      LayerSnapshot.screen)
  exact Hinge.mapped (h.bounds layer (List.mem_of_mem_filter hlayer)) .propertyChanged layer.screen

theorem hinge_surfaceDamage (h : f.Edged) :
    Hinge (∀ s ∈ f.surfaces, s.damage.Maps s.screen) f.surfaceDamage := by
  have hcondition := forall_filter_maps f.surfaces (fun _ => true) RenderSurface.damage
    RenderSurface.screen
  simp only [Bool.true_and, forall_const] at hcondition
  refine (Hinge.map fun s hs => ?_).congr hcondition
  exact Hinge.mapped (h.damage s (List.mem_of_mem_filter hs)) .surfaceDamage s.screen

theorem hinge_replica {s : RenderSurface} (h : s.content.Edged) :
    Hinge (∀ t ∈ s.replicaScreen, s.content.Maps t)
      (s.replicaScreenRect.toList.map (.of .replicaScreenSpace)) := by
  unfold RenderSurface.replicaScreenRect
  cases s.replicaScreen with
  | none => exact Hinge.nil.congr (iff_of_true trivial fun t ht => by cases ht)
  | some t =>
    exact (Hinge.mapped h .replicaScreenSpace t).congr
      (by simp only [Option.mem_some, forall_eq'])

theorem hinge_screenSpace (h : f.Edged) (replicas : Bool) :
    Hinge (∀ s ∈ f.surfaces, s.content.Maps s.screen ∧
      (replicas = true → ∀ t ∈ s.replicaScreen, s.content.Maps t))
      (f.screenSpace replicas) :=
  Hinge.flatMap fun s hs =>
    (Hinge.mapped (h.content s hs) .screenSpace s.screen).append
      ((hinge_replica (h.content s hs)).gathered replicas)

/-- **The members of the overlay hinge on the frame being mapped.** -/
theorem hinge_members (h : f.Edged) (settings : DebugRectSettings) :
    Hinge (f.Maps settings) (f.members settings) := by
  have hoccluding : Hinge True f.occlusion := Hinge.of_ok fun m hm => by
    obtain ⟨rect, -, rfl⟩ := List.mem_map.1 hm
    exact ⟨_, rfl⟩
  refine (((((hinge_paint h).gathered settings.paint).append
    ((hinge_propertyChanged h).gathered settings.propertyChanged)).append
    ((hinge_surfaceDamage h).gathered settings.surfaceDamage)).append
    ((hinge_screenSpace h settings.replicaScreenSpace).gathered settings.screenSpace)).append
    (hoccluding.gathered settings.occluding) |>.congr ?_
  constructor
  · rintro ⟨⟨⟨⟨hpaint, hchanged⟩, hdamage⟩, hscreen⟩, -⟩
    exact ⟨hpaint, hchanged, hdamage, fun hon s hs => (hscreen hon s hs).1,
      fun hon hreplicas s hs => (hscreen hon s hs).2 hreplicas⟩
  · rintro ⟨hpaint, hchanged, hdamage, hscreen, hreplicas⟩
    exact ⟨⟨⟨⟨hpaint, hchanged⟩, hdamage⟩,
      fun hon s hs => ⟨hscreen hon s hs, fun hboth => hreplicas hon hboth s hs⟩⟩, fun _ => trivial⟩

end DebugFrame

namespace DebugRectHistory

/-- **A rectangle is mapped, and a frame saved, exactly if it can be.** For every transform, with
infinite entries or entries that are no number as well, a rectangle whose far edges are
coordinates is mapped to one around the images of its corners if along either axis these fit;
if they do not the difference of two edges is a fault. And a frame of such rectangles is saved
if each rectangle that the settings ask for can be mapped, and if not stops at that fault. -/
theorem maps_and_saves_or_faults {r : Rect} (hr : r.Edged) (t : Transform) (h : DebugRectHistory)
    {f : DebugFrame} (hf : f.Edged) (settings : DebugRectSettings) :
    (r.Maps t → ∃ m, r.mapEnclosing t = .ok m ∧
        (r.isEmpty = false → m.Surrounds (r.images t))) ∧
      (¬ r.Maps t → r.mapEnclosing t = .error .subOverflow) ∧
      (f.Maps settings → (h.save f settings).1 = .ok ()) ∧
      (¬ f.Maps settings → (h.save f settings).1 = .error .subOverflow) := by
  obtain ⟨hmaps, hfault⟩ := Rect.mapEnclosing_cases hr t
  obtain ⟨hsaves, hstops⟩ := (DebugFrame.hinge_members hf settings).outcome
  exact ⟨hmaps, hfault, hsaves, hstops⟩

/-- A projection whose last component is the first coordinate: what is on the edge where that is
zero has no image, or one that is infinite. -/
def vanishing : Transform where
  xAxis := ⟨Transform.one, Transform.zero, Transform.zero, Transform.one⟩
  yAxis := ⟨Transform.zero, Transform.one, Transform.zero, Transform.zero⟩
  zAxis := ⟨Transform.zero, Transform.zero, Transform.one, Transform.zero⟩
  origin := ⟨Transform.zero, Transform.zero, Transform.zero, Transform.zero⟩

/-- A frame of one surface that is reflected on the screen in that projection. -/
def vanishingFrame : DebugFrame where
  surfaces := [{ id := 1, content := .ofSize 10 10, replica := some { screen := vanishing } }]

/-- Two corners without a projection are no obstacle: the rectangle is mapped, and the frame
saved. -/
theorem maps_and_saves_vanishing :
    (∃ m, (Rect.ofSize 10 10).mapEnclosing vanishing = .ok m ∧
      m.Surrounds ((Rect.ofSize 10 10).images vanishing)) ∧
      (save {} vanishingFrame .all).1 = .ok () := by
  have hedged : (Rect.ofSize 10 10).Edged := ⟨⟨10, by decide⟩, ⟨10, by decide⟩⟩
  have hmaps : (Rect.ofSize 10 10).Maps vanishing := by decide +kernel
  have hself : (Rect.ofSize 10 10).Maps .identity := by decide +kernel
  have hframe : vanishingFrame.Edged := by
    refine ⟨fun s hs => ?_, fun s hs => ?_, fun layer hlayer => ?_, fun layer hlayer => ?_⟩
    · obtain rfl := List.mem_singleton.1 hs
      exact hedged
    · obtain rfl := List.mem_singleton.1 hs
      exact ⟨⟨0, by decide⟩, ⟨0, by decide⟩⟩
    · cases hlayer
    · cases hlayer
  have hframeMaps : vanishingFrame.Maps .all := by
    refine ⟨fun _ layer hlayer => ?_, fun _ layer hlayer => ?_, fun _ s hs => ?_,
      fun _ s hs => ?_, fun _ _ s hs t ht => ?_⟩
    · cases hlayer
    · cases hlayer
    · obtain rfl := List.mem_singleton.1 hs
      exact DebugFrame.maps_of_isEmpty rfl _
    · obtain rfl := List.mem_singleton.1 hs
      exact hself
    · obtain rfl := List.mem_singleton.1 hs
      cases ht
      exact hmaps
  obtain ⟨hrect, -, hsaves, -⟩ := maps_and_saves_or_faults hedged vanishing {} hframe .all
  obtain ⟨m, hm, hsurrounds⟩ := hrect hmaps
  exact ⟨⟨m, hm, hsurrounds rfl⟩, hsaves hframeMaps⟩

/-- The square of twenty around the origin. -/
def centred : Rect := ⟨-10, -10, 20, 20⟩

/-- A thousand million in single precision. -/
def thousandMillion : Float32 := Float32.ofBits 0x4E6E6B28

/-- **Every corner is in front and has a finite image, and mapping is a fault.** Scaled far enough
the opposite edges are more than the longest side apart, and a frame of this one rectangle is
not saved. -/
theorem centred_not_mapped :
    let t : Transform := .scaling thousandMillion thousandMillion Transform.one
    let f : DebugFrame := { surfaces := [{ id := 1, content := centred, screen := t }] }
    centred.right = .ok 10 ∧ centred.bottom = .ok 10 ∧
      centred.mapEnclosing t = .error .subOverflow ∧
      (save {} f .all).1 = .error .subOverflow := by
  exact ⟨by decide, by decide, by decide +kernel, by decide +kernel⟩

end DebugRectHistory

end Compositor
