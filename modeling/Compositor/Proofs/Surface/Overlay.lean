import Mathlib.Data.List.Basic
import Compositor.DebugRect

/-!
# Which switch shows which family

The overlay gathers up to six families into one list. Read by kind, that list falls apart
into the families again: each is stored as it is computed from the frame, whatever else is
shown and whatever was stored before. A switch decides about its own family alone – but for
the reflections, which are gathered in the walk that gathers the surfaces, and stay away
with these although their own switch is on.

What belongs to a family is said here from the surfaces and layers of the frame (`family`),
apart from how the overlay gathers it: those that have something to show, in their order, and
where each of them is on the screen. That the overlay gathers just these is proved of one
family after the other.
-/

namespace Compositor

namespace DebugRect.Member

/-- Whether a member may be of a kind; one that is a fault may be of any. -/
def isOf (kind : DebugRectKind) : DebugRect.Member → Bool
  | .ok d => d.kind = kind
  | .error _ => true

/-- A rectangle is of one kind. -/
theorem kind_eq {kind kind' : DebugRectKind} {d : DebugRect}
    (h : isOf kind (.ok d) = true) (h' : isOf kind' (.ok d) = true) : kind = kind' :=
  (of_decide_eq_true h).symm.trans (of_decide_eq_true h')

/-- A rectangle where it is on the screen, or the fault of taking it there. -/
def shown (kind : DebugRectKind) (r : Rect) (t : Transform) : DebugRect.Member := do
  return { kind, rect := ← r.mapEnclosing t }

theorem of_mapEnclosing (kind : DebugRectKind) (r : Rect) (t : Transform) :
    DebugRect.Member.of kind (r.mapEnclosing t) = shown kind r t := by
  unfold shown DebugRect.Member.of
  cases r.mapEnclosing t <;> rfl

theorem isOf_shown (kind : DebugRectKind) (r : Rect) (t : Transform) :
    isOf kind (shown kind r t) = true := by
  unfold shown
  cases r.mapEnclosing t with
  | error fault => rfl
  | ok rect => exact decide_eq_true rfl

end DebugRect.Member

open DebugRect.Member

namespace DebugFrame

/-- **The family of a kind**, computed from a frame and nothing else, in the order of surfaces
and layers: a rectangle for each layer of which something was painted, for each layer that
changed and has a pixel, for each damaged surface, for each surface, for each that is reflected
on the screen, and for each rectangle that hides what is behind it. -/
def family (f : DebugFrame) : DebugRectKind → List DebugRect.Member
  | .paint =>
    ((f.surfaces.flatMap fun s => s.layers).filter fun layer =>
      (layer.updated.intersect layer.bounds).map Rect.isEmpty ≠ .ok true).map fun layer => do
        shown .paint (← layer.updated.intersect layer.bounds) layer.screen
  | .propertyChanged =>
    ((f.surfaces.flatMap fun s => s.layers).filter fun layer =>
      layer.propertyChanged ∧ ¬ layer.bounds.isEmpty).map fun layer =>
        shown .propertyChanged layer.bounds layer.screen
  | .surfaceDamage =>
    (f.surfaces.filter fun s => ¬ s.damage.isEmpty).map fun s =>
      shown .surfaceDamage s.damage s.screen
  | .replicaScreenSpace =>
    f.surfaces.filterMap fun s => s.replicaScreen.map fun t =>
      shown .replicaScreenSpace s.content t
  | .screenSpace => f.surfaces.map fun s => shown .screenSpace s.content s.screen
  | .occluding => f.occluding.map fun rect => .ok { kind := .occluding, rect }

variable {f : DebugFrame} {kind kind' : DebugRectKind} {m : DebugRect.Member}

/-- The members of a family are of its kind. -/
theorem isOf_of_mem_family (h : m ∈ f.family kind) : m.isOf kind = true := by
  cases kind with
  | paint =>
    obtain ⟨layer, -, rfl⟩ := List.mem_map.1 h
    cases layer.updated.intersect layer.bounds with
    | error fault => rfl
    | ok painted => exact isOf_shown .paint painted layer.screen
  | propertyChanged =>
    obtain ⟨layer, -, rfl⟩ := List.mem_map.1 h
    exact isOf_shown _ _ _
  | surfaceDamage =>
    obtain ⟨s, -, rfl⟩ := List.mem_map.1 h
    exact isOf_shown _ _ _
  | replicaScreenSpace =>
    obtain ⟨s, -, hm⟩ := List.mem_filterMap.1 h
    obtain ⟨t, -, rfl⟩ := Option.map_eq_some_iff.1 hm
    exact isOf_shown _ _ _
  | screenSpace =>
    obtain ⟨s, -, rfl⟩ := List.mem_map.1 h
    exact isOf_shown _ _ _
  | occluding =>
    obtain ⟨rect, -, rfl⟩ := List.mem_map.1 h
    rfl

/-! ## What is gathered

Each walk of the overlay gathers a family. -/

/-- To gather at most one member for each element is to pick the elements that have one. -/
theorem flatMap_eq_map_filter {α : Type} {gather : α → List DebugRect.Member} {keep : α → Bool}
    {member : α → DebugRect.Member} (h : ∀ x, gather x = if keep x then [member x] else [])
    (xs : List α) : xs.flatMap gather = (xs.filter keep).map member := by
  induction xs with
  | nil => rfl
  | cons x xs ih =>
    rw [List.flatMap_cons, ih, h, List.filter_cons]
    split <;> rfl

theorem paint_eq (f : DebugFrame) : f.paint = f.family .paint := by
  refine flatMap_eq_map_filter (fun layer => ?_) f.layers
  unfold paintOf
  cases layer.updated.intersect layer.bounds with
  | error fault => rfl
  | ok painted =>
    cases hempty : painted.isEmpty with
    | true => simp [Except.map, hempty]
    | false =>
      simp only [Except.map, hempty, of_mapEnclosing]
      rfl

theorem propertyChanged_eq (f : DebugFrame) :
    f.propertyChanged = f.family .propertyChanged := by
  unfold propertyChanged family layers LayerSnapshot.screenRect
  simp [of_mapEnclosing]

theorem surfaceDamage_eq (f : DebugFrame) : f.surfaceDamage = f.family .surfaceDamage := by
  unfold surfaceDamage family
  simp [of_mapEnclosing]

theorem occlusion_eq (f : DebugFrame) : f.occlusion = f.family .occluding := rfl

/-- What the walk over the surfaces gathers behind a surface: its reflection, if it is to. -/
def reflections (replicas : Bool) (s : RenderSurface) : List DebugRect.Member :=
  if replicas then
    (s.replicaScreen.map fun t => shown .replicaScreenSpace s.content t).toList
  else []

theorem isOf_of_mem_reflections {replicas : Bool} {s : RenderSurface}
    (h : m ∈ reflections replicas s) : m.isOf .replicaScreenSpace = true := by
  unfold reflections at h
  split at h
  · obtain ⟨t, -, rfl⟩ := Option.map_eq_some_iff.1 (Option.mem_toList.1 h)
    exact isOf_shown _ _ _
  · cases h

theorem flatMap_reflections (replicas : Bool) :
    f.surfaces.flatMap (reflections replicas) =
      if replicas then f.family .replicaScreenSpace else [] := by
  cases replicas with
  | true => exact (List.filterMap_eq_flatMap_toList _ _).symm
  | false => simp [reflections]

/-- The walk over the surfaces: where each of them is, and then its reflection. -/
theorem screenSpace_eq (f : DebugFrame) (replicas : Bool) :
    f.screenSpace replicas = f.surfaces.flatMap fun s =>
      shown .screenSpace s.content s.screen :: reflections replicas s := by
  unfold screenSpace reflections RenderSurface.screenRect RenderSurface.replicaScreenRect
  refine List.flatMap_congr fun s _ => ?_
  rw [of_mapEnclosing]
  cases s.replicaScreen with
  | none => rfl
  | some t =>
    simp only [Option.map_some, Option.toList_some, List.map_cons, List.map_nil, of_mapEnclosing]

theorem members_eq (f : DebugFrame) (settings : DebugRectSettings) :
    f.members settings =
      (if settings.paint then f.family .paint else [])
        ++ (if settings.propertyChanged then f.family .propertyChanged else [])
        ++ (if settings.surfaceDamage then f.family .surfaceDamage else [])
        ++ (if settings.screenSpace then f.screenSpace settings.replicaScreenSpace else [])
        ++ (if settings.occluding then f.family .occluding else []) := by
  unfold members
  rw [paint_eq, propertyChanged_eq, surfaceDamage_eq, occlusion_eq]

/-! ## What is read by kind -/

/-- Read by kind, a list of members of one kind without a fault is all there or all gone. -/
theorem filter_isOf (kind kind' : DebugRectKind) {ms : List DebugRect.Member}
    (hkind : ∀ m ∈ ms, m.isOf kind = true) (hok : ∀ m ∈ ms, ∃ d, m = .ok d) :
    ms.filter (isOf kind') = if kind = kind' then ms else [] := by
  split
  · next heq => exact List.filter_eq_self.2 fun m hm => heq ▸ hkind m hm
  · next hne =>
    refine List.filter_eq_nil_iff.2 fun m hm hm' => hne ?_
    obtain ⟨d, rfl⟩ := hok m hm
    exact kind_eq (hkind _ hm) hm'

/-- Read by kind, the walk over the surfaces falls apart into these and their reflections. -/
theorem filter_screenSpace {replicas : Bool}
    (hok : ∀ m ∈ f.screenSpace replicas, ∃ d, m = .ok d) :
    (f.screenSpace replicas).filter (isOf kind) =
      (if .screenSpace = kind then f.family .screenSpace else []) ++
        if .replicaScreenSpace = kind ∧ replicas then f.family .replicaScreenSpace else [] := by
  rw [screenSpace_eq] at hok ⊢
  have hone (s : RenderSurface) (hs : s ∈ f.surfaces) :
      (shown .screenSpace s.content s.screen :: reflections replicas s).filter (isOf kind) =
        (if .screenSpace = kind then [shown .screenSpace s.content s.screen] else []) ++
          if .replicaScreenSpace = kind then reflections replicas s else [] := by
    have hokAt := fun m hm => hok m (List.mem_flatMap.2 ⟨s, hs, hm⟩)
    rw [← List.singleton_append, List.filter_append,
      filter_isOf .screenSpace kind (fun m hm => List.mem_singleton.1 hm ▸ isOf_shown _ _ _)
        fun m hm => hokAt m (List.mem_cons.2 (.inl (List.mem_singleton.1 hm))),
      filter_isOf .replicaScreenSpace kind (fun m hm => isOf_of_mem_reflections hm)
        fun m hm => hokAt m (List.mem_cons_of_mem _ hm)]
  rw [List.filter_flatMap, List.flatMap_congr hone]
  cases kind <;> simp [flatMap_reflections, family, List.map_eq_flatMap]

/-! ## What is stored -/

/-- Read by kind, a family that may be gathered or not. -/
theorem filter_gathered {switch : Bool}
    (hok : ∀ m ∈ (if switch then f.family kind else []), ∃ d, m = .ok d) :
    (if switch then f.family kind else []).filter (isOf kind') =
      if switch ∧ kind = kind' then f.family kind else [] := by
  cases switch with
  | false => simp
  | true =>
    simpa using filter_isOf kind kind' (fun m hm => isOf_of_mem_family hm) hok

/-- Read by kind, the members that the settings ask for fall apart into the families. -/
theorem filter_members {settings : DebugRectSettings}
    (hok : ∀ m ∈ f.members settings, ∃ d, m = .ok d) :
    (f.members settings).filter (isOf kind) =
      if settings.shows kind ∧ (kind = .replicaScreenSpace → settings.screenSpace)
        then f.family kind else [] := by
  rw [members_eq] at hok ⊢
  simp only [List.mem_append, or_imp, forall_and] at hok
  obtain ⟨⟨⟨⟨hpaint, hchanged⟩, hdamage⟩, hscreen⟩, hoccluding⟩ := hok
  have hwalk : (if settings.screenSpace then f.screenSpace settings.replicaScreenSpace
      else []).filter (isOf kind) =
      if settings.screenSpace then
        (if .screenSpace = kind then f.family .screenSpace else []) ++
          if .replicaScreenSpace = kind ∧ settings.replicaScreenSpace then
            f.family .replicaScreenSpace else []
      else [] := by
    split
    · next hon =>
      rw [if_pos hon] at hscreen
      exact filter_screenSpace hscreen
    · rfl
  rw [List.filter_append, List.filter_append, List.filter_append, List.filter_append, hwalk,
    filter_gathered hpaint, filter_gathered hchanged, filter_gathered hdamage,
    filter_gathered hoccluding]
  cases kind <;> simp [DebugRectSettings.shows]
  cases settings.screenSpace <;> cases settings.replicaScreenSpace <;> rfl

end DebugFrame

namespace DebugRectHistory

/-- Members that are stored without a fault are what is stored. -/
theorem eq_map_of_beforeFault {ms : List DebugRect.Member}
    (h : (beforeFault ms).1 = .ok ()) :
    ms = (beforeFault ms).2.map .ok := by
  induction ms with
  | nil => rfl
  | cons m rest ih =>
    cases m with
    | error fault => cases h
    | ok d => exact congrArg _ (ih h)

/-- **Each switch decides about its own family**, and that of the surfaces about the
reflections too. Whatever was stored before, what a frame stores of a kind is the family of
the kind as computed from the frame if the kind's switch is on – and for reflections that of
the surfaces – and nothing if not. -/
theorem stored_of_kind (h : DebugRectHistory) (frame : DebugFrame)
    (settings : DebugRectSettings) (hsaved : (h.save frame settings).1 = .ok ())
    (kind : DebugRectKind) :
    ((h.save frame settings).2.rects.filter (·.kind = kind)).map .ok =
      if settings.shows kind ∧ (kind = .replicaScreenSpace → settings.screenSpace)
        then frame.family kind else [] := by
  have hmembers := eq_map_of_beforeFault hsaved
  have hok : ∀ m ∈ frame.members settings, ∃ d, m = .ok d := by
    intro m hm
    rw [hmembers] at hm
    obtain ⟨d, -, rfl⟩ := List.mem_map.1 hm
    exact ⟨d, rfl⟩
  rw [← DebugFrame.filter_members hok, hmembers, List.filter_map]
  rfl

/-- A frame with something of every kind. The first surface is damaged and has one layer that
was painted in part and one that changed; the second is drawn without a reflection and still
has one on the screen. -/
def eventfulFrame : DebugFrame where
  surfaces :=
    [{ id := 1, content := .ofSize 800 600, damage := .ofSize 10 10
       layers :=
        [{ id := 1, bounds := .ofSize 50 50, updated := ⟨10, 10, 100, 5⟩
           screen := .shift (Grid.ofCoord 100) (Grid.ofCoord 0) (Grid.ofCoord 0) },
          { id := 2, bounds := .ofSize 20 20, propertyChanged := true }] },
      { id := 2, content := .ofSize 30 30
        screen := .shift (Grid.ofCoord 100) (Grid.ofCoord 0) (Grid.ofCoord 0)
        replica := some { screen := some .identity } }]
  occluding := [⟨1, 2, 3, 4⟩]

/-- With all switches on, each kind is stored as its family: nothing for the layer that was not
painted, for the one that did not change, or for the surface without damage. -/
theorem stored_of_kind_eventful :
    let stored := fun kind => ((save {} eventfulFrame .all).2.rects.filter (·.kind = kind)).map
      DebugRect.rect
    (save {} eventfulFrame .all).1 = .ok () ∧
      stored .paint = [⟨110, 10, 40, 5⟩] ∧
      stored .propertyChanged = [⟨0, 0, 20, 20⟩] ∧
      stored .surfaceDamage = [⟨0, 0, 10, 10⟩] ∧
      stored .screenSpace = [⟨0, 0, 800, 600⟩, ⟨100, 0, 30, 30⟩] ∧
      stored .replicaScreenSpace = [⟨0, 0, 30, 30⟩] ∧
      stored .occluding = [⟨1, 2, 3, 4⟩] := by
  intro stored
  have hsaved : (save {} eventfulFrame .all).1 = .ok () := by decide +kernel
  have hstored (kind : DebugRectKind) (rects : List Rect)
      (hfamily : eventfulFrame.family kind = (rects.map (DebugRect.mk kind)).map Except.ok) :
      stored kind = rects := by
    have hkind := stored_of_kind {} eventfulFrame .all hsaved kind
    rw [if_pos ⟨by cases kind <;> rfl, fun _ => rfl⟩, hfamily] at hkind
    have hrects := List.map_injective_iff.2 (fun _ _ => Except.ok.inj) hkind
    show List.map _ _ = _
    rw [hrects, List.map_map]
    exact List.map_id rects
  exact ⟨hsaved, hstored _ _ (by decide +kernel), hstored _ _ (by decide +kernel),
    hstored _ _ (by decide +kernel), hstored _ _ (by decide +kernel),
    hstored _ _ (by decide +kernel), hstored _ _ (by decide +kernel)⟩

/-- A frame of two surfaces, the second of which has a reflection where it is itself. -/
def reflectingFrame : DebugFrame where
  surfaces :=
    [{ id := 1, content := .ofSize 800 600 },
      { id := 2, content := .ofSize 30 30
        replica := some ⟨some .identity, some .identity⟩ }]

/-- **The switch of the reflections alone shows nothing.** The settings count as showing
something, and the family of the reflections has a member, but none is stored. -/
theorem reflections_need_surfaces :
    let settings : DebugRectSettings := { replicaScreenSpace := true }
    settings.any = true ∧ settings.shows .replicaScreenSpace = true ∧
      reflectingFrame.family .replicaScreenSpace =
        [.ok { kind := .replicaScreenSpace, rect := .ofSize 30 30 }] ∧
      (save {} reflectingFrame settings).1 = .ok () ∧
      (save {} reflectingFrame settings).2.rects = [] := by
  exact ⟨rfl, rfl, by decide +kernel, rfl, rfl⟩

end DebugRectHistory

end Compositor
