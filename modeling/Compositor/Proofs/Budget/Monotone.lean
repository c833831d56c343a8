import Mathlib.Algebra.Order.BigOperators.Group.List
import Mathlib.Algebra.Order.Group.Nat
import Compositor.Proofs.Budget.Conservation
import Compositor.Proofs.Budget.Following
import Compositor.Proofs.Budget.Isolation

/-!
# More asked for, and more to divide

What a contender gets depends on those before it by one number only, the sum of what they
demand. So two plans are compared by comparing sums of demands along the line of service.

If one stub asks for more, the line stays as it is and one demand in it grows. Those before it
do not notice. It gets no less itself, since what is left for it is the same. Those behind it find
no more left than they did. And the sum of all demands is no smaller, so no less is charged.

If there is more to divide, no demand that the limits of a platform admit gets smaller: floor,
ceiling and the even part of a window all grow with the total. So no less is handed out to the
visible, nor to all. A single stub may well get less of a larger total, if those before it take
more.
-/

namespace Compositor

namespace Bounds

/-- Demands that compare rank by rank compare in their sums. -/
theorem sum_demands_le {b b' : Bounds} {order order' : List Contender}
    (hlength : order.length = order'.length)
    (hdemand : ∀ {rank : Nat} {c c' : Contender}, order[rank]? = some c → order'[rank]? = some c' →
      b.demand rank c ≤ b'.demand rank c') :
    (b.demands order).sum ≤ (b'.demands order').sum := by
  refine List.Forall₂.sum_le_sum (List.forall₂_iff_get.2 ⟨?_, fun rank hrank hrank' => ?_⟩)
  · rw [demands, demands, List.length_mapIdx, List.length_mapIdx, hlength]
  · rw [demands, List.length_mapIdx] at hrank hrank'
    simp only [demands, List.get_eq_getElem, List.getElem_mapIdx]
    exact hdemand (List.getElem?_eq_getElem hrank) (List.getElem?_eq_getElem hrank')

/-- Whoever asks for more demands no less. -/
theorem demand_le_demand (b : Bounds) (rank : Nat) {c c' : Contender}
    (hsurface : c.surface = c'.surface) (hmore : c.stub.requested ≤ c'.stub.requested) :
    b.demand rank c ≤ b.demand rank c' := by
  have hwanted : b.wanted c.stub.requested ≤ b.wanted c'.stub.requested := by
    cases hmode : b.windows with
    | none =>
      rw [wanted_of_none hmode, wanted_of_none hmode]
      exact hmore
    | some windows => rw [wanted_of_windows hmode, wanted_of_windows hmode]
  cases hvisible : c'.surface.visible with
  | true =>
    rw [demand_of_visible (hsurface ▸ hvisible), demand_of_visible hvisible]
    exact max_le_max_left _ (min_le_min_right _ hwanted)
  | false =>
    rcases Nat.lt_or_ge rank b.softLimit with hrank | hrank
    · rw [demand_of_hidden (hsurface ▸ hvisible) hrank, demand_of_hidden hvisible hrank]
      exact min_le_min_right _ hmore
    · rw [demand_of_hidden_past (hsurface ▸ hvisible) hrank, demand_of_hidden_past hvisible hrank]

/-- If one contender asks for more, the first of the line demand no less together. -/
theorem sum_demands_take_le_set (b : Bounds) {order : List Contender} {rank : Nat}
    {c : Contender} (hc : order[rank]? = some c) (c' : Contender) (hsurface : c.surface = c'.surface)
    (hmore : c.stub.requested ≤ c'.stub.requested) (k : Nat) :
    (b.demands (order.take k)).sum ≤ (b.demands ((order.set rank c').take k)).sum := by
  refine sum_demands_le (by simp) fun {i d d'} hd hd' => ?_
  rw [List.getElem?_take] at hd hd'
  split at hd
  · next hik =>
    rw [if_pos hik] at hd'
    by_cases hi : i = rank
    · subst hi
      rw [List.getElem?_set_self (List.getElem?_eq_some_iff.1 hc).1] at hd'
      obtain rfl := Option.some.inj hd'
      obtain rfl := Option.some.inj (hc.symm.trans hd)
      exact b.demand_le_demand i hsurface hmore
    · rw [List.getElem?_set_ne (Ne.symm hi), hd] at hd'
      rw [Option.some.inj hd']
  · cases hd

end Bounds

/-! ## One stub asks for more -/

namespace Contender

/-- A contender apart from its stub: where it came, and what its surface is. -/
def place (c : Contender) : Nat × SurfaceState := (c.index, c.surface)

/-- The line of the places is sorted out of the surfaces alone. -/
theorem map_place_serving (stubs : List StubView) :
    (serving stubs).map place
      = ((stubs.map StubView.surface).zipIdx.filterMap fun (surface, index) =>
          surface.map (index, ·)).mergeSort fun a b => a.2.le b.2 := by
  have hsort := List.map_mergeSort (f := place) (l := ofStubs stubs)
    (r := fun a b => a.surface.le b.surface) (s := fun a b => a.2.le b.2) fun _ _ _ _ => rfl
  refine hsort.trans (congrArg (List.mergeSort · _) ?_)
  unfold ofStubs
  rw [List.map_filterMap, List.zipIdx_map, List.filterMap_map]
  refine List.filterMap_congr fun ⟨stub, index⟩ _ => ?_
  exact Option.map_map _ _ _

/-- **Who is served when is a matter of surfaces alone.** -/
theorem map_place_serving_eq {stubs stubs' : List StubView}
    (hsame : stubs.map StubView.surface = stubs'.map StubView.surface) :
    (serving stubs).map place = (serving stubs').map place := by
  rw [map_place_serving, map_place_serving, hsame]

theorem map_index_serving_eq {stubs stubs' : List StubView}
    (hsame : stubs.map StubView.surface = stubs'.map StubView.surface) :
    (serving stubs).map index = (serving stubs').map index := by
  have hplaces := congrArg (List.map Prod.fst) (map_place_serving_eq hsame)
  rwa [List.map_map, List.map_map] at hplaces

theorem eq_of_place_of_stub {c d : Contender} (hplace : c.place = d.place)
    (hstub : c.stub = d.stub) : c = d := by
  obtain ⟨index, stub, surface⟩ := c
  obtain ⟨index', stub', surface'⟩ := d
  obtain ⟨rfl, rfl⟩ : index = index' ∧ surface = surface' := Prod.mk.inj hplace
  obtain rfl : stub = stub' := hstub
  rfl

/-- Who came at one place stands at one rank. -/
theorem rank_eq_of_index_eq {stubs : List StubView} {rank rank' : Nat} {c d : Contender}
    (hc : (serving stubs)[rank]? = some c) (hd : (serving stubs)[rank']? = some d)
    (hindex : c.index = d.index) : rank = rank' := by
  refine (List.getElem?_inj ?_ (serving_nodup_index stubs)).1 ?_
  · rw [List.length_map]
    exact (List.getElem?_eq_some_iff.1 hc).1
  · rw [List.getElem?_map, List.getElem?_map, hc, hd, Option.map_some, Option.map_some, hindex]

/-- **A stub that is exchanged for one with the same surface is exchanged in the line**, which
is left as it was otherwise. -/
theorem serving_set {stubs : List StubView} {rank : Nat} {c : Contender} {stub : StubView}
    (hc : (serving stubs)[rank]? = some c) (hsurface : stub.surface = some c.surface) :
    serving (stubs.set c.index stub) = (serving stubs).set rank { c with stub } := by
  obtain ⟨hget, hknown⟩ := mem_serving.1 (List.mem_of_getElem? hc)
  obtain ⟨hlt, hstub⟩ := List.getElem?_eq_some_iff.1 hget
  have hsame : (stubs.set c.index stub).map StubView.surface = stubs.map StubView.surface := by
    have hself : (stubs.map StubView.surface).set c.index stub.surface
        = stubs.map StubView.surface := by
      rw [hsurface, ← hknown, ← hstub, ← List.map_set, List.set_getElem_self]
    rw [List.map_set, hself]
  -- at each rank stands who came there before, with the stub that is there now
  refine List.ext_getElem? fun k => ?_
  have hk := congrArg (fun l => l[k]?) (map_place_serving_eq hsame)
  simp only [List.getElem?_map] at hk
  by_cases hrank : rank = k
  · subst hrank
    rw [hc] at hk
    obtain ⟨d, hd, hplace⟩ := Option.map_eq_some_iff.1 hk
    have hindex : d.index = c.index := congrArg Prod.fst hplace
    have hdget := (mem_serving.1 (List.mem_of_getElem? hd)).1
    rw [hindex, List.getElem?_set_self hlt] at hdget
    rw [hd, List.getElem?_set_self (List.getElem?_eq_some_iff.1 hc).1]
    exact congrArg some (eq_of_place_of_stub hplace (Option.some.inj hdget).symm)
  · rw [List.getElem?_set_ne hrank]
    cases hd : (serving stubs)[k]? with
    | none =>
      rw [hd] at hk
      exact Option.map_eq_none_iff.1 hk
    | some d =>
      rw [hd] at hk
      obtain ⟨d', hd', hplace⟩ := Option.map_eq_some_iff.1 hk
      have hindex : d'.index = d.index := congrArg Prod.fst hplace
      have hdget := (mem_serving.1 (List.mem_of_getElem? hd')).1
      rw [hindex,
        List.getElem?_set_ne fun heq => hrank (rank_eq_of_index_eq hc hd heq),
        (mem_serving.1 (List.mem_of_getElem? hd)).1] at hdget
      rw [hd']
      exact congrArg some (eq_of_place_of_stub hplace (Option.some.inj hdget).symm)

end Contender

namespace Plan

section Raised

variable {b : Bounds} {stubs : List StubView} {p p' : Plan} {rank k : Nat} {c d : Contender}
  {stub : StubView}

/-- What a contender of another rank is granted once a stub was exchanged. -/
theorem Divides.getElem?_eq_of_ne (h' : Divides b (stubs.set c.index stub) p')
    (hc : (Contender.serving stubs)[rank]? = some c) (hsurface : stub.surface = some c.surface)
    (hd : (Contender.serving stubs)[k]? = some d) (hk : rank ≠ k) :
    p'.assignments[d.index]? = some (b.grant k (b.total - (b.demands
      (((Contender.serving stubs).set rank { c with stub }).take k)).sum) d).assignment := by
  have hline := Contender.serving_set hc hsurface
  rw [← hline]
  refine h'.served ?_
  rw [hline, List.getElem?_set_ne hk, hd]

/-- Those in front do not notice what a stub behind them asks for. -/
theorem Divides.getElem?_eq_of_lt (h : Divides b stubs p)
    (h' : Divides b (stubs.set c.index stub) p')
    (hc : (Contender.serving stubs)[rank]? = some c) (hsurface : stub.surface = some c.surface)
    (hd : (Contender.serving stubs)[k]? = some d) (hk : k < rank) :
    p'.assignments[d.index]? = p.assignments[d.index]? := by
  rw [h'.getElem?_eq_of_ne hc hsurface hd (Nat.ne_of_gt hk), List.take_set_of_le hk.le, h.served hd]

/-- Those behind get no more if a stub in front of them asks for more. -/
theorem Divides.bytesAt_le_of_gt (h : Divides b stubs p)
    (h' : Divides b (stubs.set c.index stub) p')
    (hc : (Contender.serving stubs)[rank]? = some c) (hsurface : stub.surface = some c.surface)
    (hmore : c.stub.requested ≤ stub.requested)
    (hd : (Contender.serving stubs)[k]? = some d) (hk : rank < k) :
    p'.bytesAt d.index ≤ p.bytesAt d.index := by
  have hsum := b.sum_demands_take_le_set hc { c with stub } rfl hmore k
  rw [h.bytesAt_eq hd, bytesAt, h'.getElem?_eq_of_ne hc hsurface hd (Nat.ne_of_lt hk)]
  show min (b.demand k d) _ ≤ _
  omega

/-- Whoever asks for more gets no less. -/
theorem Divides.bytesAt_le_self (h : Divides b stubs p)
    (h' : Divides b (stubs.set c.index stub) p')
    (hc : (Contender.serving stubs)[rank]? = some c) (hsurface : stub.surface = some c.surface)
    (hmore : c.stub.requested ≤ stub.requested) : p.bytesAt c.index ≤ p'.bytesAt c.index := by
  have hline := Contender.serving_set hc hsurface
  have hself : (Contender.serving (stubs.set c.index stub))[rank]? = some { c with stub } := by
    rw [hline, List.getElem?_set_self (List.getElem?_eq_some_iff.1 hc).1]
  have hdemand : b.demand rank c ≤ b.demand rank { c with stub } :=
    b.demand_le_demand rank rfl hmore
  have hbytes : p'.bytesAt c.index = min (b.demand rank { c with stub }) _ :=
    h'.bytesAt_eq hself
  rw [hline, List.take_set_of_le (Nat.le_refl rank)] at hbytes
  rw [h.bytesAt_eq hc, hbytes]
  omega

/-- No less is charged if a stub asks for more. -/
theorem Divides.charged_le_raised (h : Divides b stubs p)
    (h' : Divides b (stubs.set c.index stub) p')
    (hc : (Contender.serving stubs)[rank]? = some c) (hsurface : stub.surface = some c.surface)
    (hmore : c.stub.requested ≤ stub.requested) :
    p.visibleBytes + p.hiddenBytes ≤ p'.visibleBytes + p'.hiddenBytes := by
  have hsum := b.sum_demands_take_le_set hc { c with stub } rfl hmore
    (Contender.serving stubs).length
  rw [List.take_length, List.take_of_length_le (by rw [List.length_set])] at hsum
  rw [h.charged, h'.charged, Contender.serving_set hc hsurface]
  omega

/-- Whom a stub without a surface follows does not depend on what anybody asks for. -/
theorem map_face_set (hget : stubs[k]? = some stub) (requested : Nat) :
    (stubs.set k { stub with requested }).map StubView.face = stubs.map StubView.face := by
  obtain ⟨hlt, rfl⟩ := List.getElem?_eq_some_iff.1 hget
  rw [List.map_set, show StubView.face { stubs[k] with requested } = stubs[k].face from rfl,
    ← List.map_set, List.set_getElem_self]

end Raised

/-- **Asking for more helps oneself, at the cost of those behind.** Take any bounds with a total that
fits a word, and exchange one stub that has a surface for one that asks for more. There is a plan
for each of the two lists, and both serve the same line. Those in front of the stub are assigned
just what they were. It gets no less than before, those behind it get no more, visible or hidden,
and what is charged in all is no less. Whoever has no surface has in both plans what its owner has
there, which is the same stub, and nothing in both if there is no owner. -/
theorem exists_raises (b : Bounds) (hb : b.total < wordLimit) {stubs : List StubView} {place : Nat}
    {stub : StubView} (hget : stubs[place]? = some stub) (hsurface : stub.surface.isSome = true)
    {more : Nat} (hmore : stub.requested ≤ more) :
    ∃ (p p' : Plan) (order order' : List Contender) (rank : Nat), ofStubs b stubs = .ok p
      ∧ ofStubs b (stubs.set place { stub with requested := more }) = .ok p'
      ∧ p.assignments.map Assignment.stub = stubs.map StubView.id
      ∧ p'.assignments.map Assignment.stub = stubs.map StubView.id
      ∧ Contender.IsServing stubs order
      ∧ Contender.IsServing (stubs.set place { stub with requested := more }) order'
      ∧ order'.map Contender.index = order.map Contender.index
      ∧ (order[rank]?).map Contender.index = some place
      ∧ (∀ k < rank, ∀ c : Contender, order[k]? = some c →
          p'.assignments[c.index]? = p.assignments[c.index]?)
      ∧ p.bytesAt place ≤ p'.bytesAt place
      ∧ (∀ k > rank, ∀ c : Contender, order[k]? = some c → p'.bytesAt c.index ≤ p.bytesAt c.index)
      ∧ (∃ charged charged', p.chargedBytes = .ok charged ∧ p'.chargedBytes = .ok charged'
        ∧ charged ≤ charged')
      ∧ (∀ (i : Nat) (follower : StubView), stubs[i]? = some follower → follower.surface = none →
          (∀ (j : Nat) (owner : StubView), StubView.IsOwner stubs follower j owner →
            ∃ a a' : Assignment, p.assignments[j]? = some a ∧ p'.assignments[j]? = some a'
              ∧ p.assignments[i]? = some ⟨follower.id, a.visible, a.allocation, some owner.id⟩
              ∧ p'.assignments[i]? = some ⟨follower.id, a'.visible, a'.allocation, some owner.id⟩)
          ∧ ((∀ other ∈ stubs, other.surface.isSome = true → follower.sharesWith other = false) →
            p.assignments[i]? = some ⟨follower.id, false, .empty, none⟩
              ∧ p'.assignments[i]? = some ⟨follower.id, false, .empty, none⟩)) := by
  obtain ⟨surface, hsome⟩ := Option.isSome_iff_exists.1 hsurface
  obtain ⟨rank, hrank⟩ := List.getElem?_of_mem (Contender.mem_serving.2
    (show stubs[(⟨place, stub, surface⟩ : Contender).index]? = some stub ∧ _ from ⟨hget, hsome⟩))
  obtain ⟨p, hp, h⟩ := exists_divides b hb stubs
  obtain ⟨p', hp', h'⟩ := exists_divides b hb (stubs.set place { stub with requested := more })
  have hraised : StubView.surface { stub with requested := more } = some surface := hsome
  have hfaces := map_face_set hget more
  refine ⟨p, p', Contender.serving stubs, _, rank, hp, hp', h.numbers,
    h'.numbers.trans (StubView.map_id_of_faces hfaces), Contender.serving_isServing stubs,
    Contender.serving_isServing _,
    Contender.map_index_serving_eq (StubView.map_surface_of_faces hfaces),
    congrArg (Option.map Contender.index) hrank,
    fun k hk c hc => h.getElem?_eq_of_lt h' hrank hraised hc hk,
    h.bytesAt_le_self h' hrank hraised hmore,
    fun k hk c hc => h.bytesAt_le_of_gt h' hrank hraised hmore hc hk,
    ⟨_, _, h.chargedBytes_eq hb, h'.chargedBytes_eq hb, h.charged_le_raised h' hrank hraised hmore⟩,
    fun i follower hfollower hoff => ?_⟩
  have hother : place ≠ i := by
    rintro rfl
    obtain rfl := Option.some.inj (hget.symm.trans hfollower)
    rw [hsome] at hoff
    cases hoff
  have hfollower' : (stubs.set place { stub with requested := more })[i]? = some follower := by
    rw [List.getElem?_set_ne hother, hfollower]
  refine ⟨fun j owner howner => ?_, fun hnone => ⟨h.getElem?_of_forall hfollower hoff hnone,
    h'.getElem?_of_forall hfollower' hoff (StubView.forall_of_faces hfaces.symm hnone)⟩⟩
  obtain ⟨owner', hid, howner'⟩ := howner.of_faces hfaces.symm
  obtain ⟨a, ha, hi⟩ := h.getElem?_of_isOwner hfollower hoff howner
  obtain ⟨a', ha', hi'⟩ := h'.getElem?_of_isOwner hfollower' hoff howner'
  exact ⟨a, a', ha, ha', hi, hid ▸ hi'⟩

/-- Bounds that leave room for two of three. -/
def narrow : Bounds where
  total := 10
  maxStub := 6
  minStub := 2
  hiddenAllowance := 8
  softLimit := 3
  windows := none

/-- A visible stub that asks for three bytes. -/
def asker : StubView :=
  { id := 1, surface := some ⟨1, true, 1⟩, requested := 3 }

/-- A visible stub, two hidden ones, and one without a surface that follows the first of these. -/
def quartet : List StubView :=
  [asker,
    { id := 2, surface := some ⟨2, false, 5⟩, requested := 4 },
    { id := 3, shares := [2] },
    { id := 4, surface := some ⟨3, false, 2⟩, requested := 4 }]

/-- In the quartet the visible stub asks for eight bytes instead of three and gets its six, at the
cost of the last in the line. -/
theorem exists_raises_quartet :
    narrow.total < wordLimit ∧ quartet[0]? = some asker ∧ asker.surface.isSome = true
      ∧ asker.requested ≤ 8
      ∧ ∃ p p', ofStubs narrow quartet = .ok p
        ∧ ofStubs narrow (quartet.set 0 { asker with requested := 8 }) = .ok p'
        ∧ p.bytesAt 0 ≤ p'.bytesAt 0
        ∧ ((Contender.serving quartet).take 3).map (fun c => p.bytesAt c.index) = [3, 4, 3]
        ∧ ((Contender.serving (quartet.set 0 { asker with requested := 8 })).take 3).map
          (fun c => p'.bytesAt c.index) = [6, 4, 0] := by
  have hfits : narrow.total < wordLimit := by decide
  have hget : quartet[0]? = some asker := rfl
  have hsurface : asker.surface.isSome = true := rfl
  have hmore : asker.requested ≤ 8 := by decide
  obtain ⟨p, p', -, -, -, hp, hp', -, -, -, -, -, -, -, hself, -⟩ :=
    exists_raises narrow hfits hget hsurface hmore
  refine ⟨hfits, hget, hsurface, hmore, p, p', hp, hp', hself, ?_, ?_⟩
  · rw [(Divides.of_ok hp).map_bytesAt]
    cbv
  · rw [(Divides.of_ok hp').map_bytesAt]
    cbv

end Plan

/-! ## More to divide -/

theorem StubCeiling.resolve_mono (ceiling : StubCeiling) {total total' : Nat}
    (hmore : total ≤ total') : ceiling.resolve total ≤ ceiling.resolve total' := by
  match ceiling with
  | .fraction divisor none => exact Nat.div_le_div_right hmore
  | .fraction divisor (some cap) => exact min_le_min_right cap (Nat.div_le_div_right hmore)
  | .absolute bytes => exact Nat.le_refl bytes

theorem Limits.minStubBytes_mono (limits : Limits) {total total' : Nat} (hmore : total ≤ total') :
    limits.minStubBytes total ≤ limits.minStubBytes total' :=
  min_le_min_left limits.floor (limits.ceiling.resolve_mono hmore)

namespace Bounds

/-- Limits admit no less of a larger total, to nobody. -/
theorem demand_ofLimits_mono (limits : Limits) {total total' : Nat} (hmore : total ≤ total')
    (softLimit : Nat) (windows : Option Nat) (rank : Nat) (c : Contender) :
    (ofLimits limits total softLimit windows).demand rank c
      ≤ (ofLimits limits total' softLimit windows).demand rank c := by
  have hceiling := limits.ceiling.resolve_mono hmore
  have hfloor := limits.minStubBytes_mono hmore
  have hwanted : (ofLimits limits total softLimit windows).wanted c.stub.requested
      ≤ (ofLimits limits total' softLimit windows).wanted c.stub.requested := by
    cases windows with
    | none => exact Nat.le_refl _
    | some windows => exact Nat.div_le_div_right hmore
  cases hvisible : c.surface.visible with
  | true =>
    rw [demand_of_visible hvisible, demand_of_visible hvisible]
    exact max_le_max hfloor (min_le_min hwanted (max_le_max hceiling hfloor))
  | false =>
    rcases Nat.lt_or_ge rank softLimit with hrank | hrank
    · rw [demand_of_hidden hvisible hrank, demand_of_hidden hvisible hrank]
      exact min_le_min_left c.stub.requested hfloor
    · rw [demand_of_hidden_past hvisible hrank]
      exact Nat.zero_le _

/-- So a line demands no less together. -/
theorem sum_demands_ofLimits_mono (limits : Limits) {total total' : Nat} (hmore : total ≤ total')
    (softLimit : Nat) (windows : Option Nat) (order : List Contender) :
    ((ofLimits limits total softLimit windows).demands order).sum
      ≤ ((ofLimits limits total' softLimit windows).demands order).sum :=
  sum_demands_le rfl fun {rank c c'} hc hc' => by
    obtain rfl := Option.some.inj (hc.symm.trans hc')
    exact demand_ofLimits_mono limits hmore softLimit windows rank c

end Bounds

namespace Plan

/-- **More to divide never lowers what is handed out.** Whatever the limits, for two totals that
fit a word, every soft limit, any number of windows and every list of stubs there is a plan for
either total. Of the larger one no less goes to the visible stubs together, and no less is charged
in all. It is so all along the order of service, which is the same: for every `k` the first `k`
are assigned no less together, though one of them may be assigned less. -/
theorem exists_grows (limits : Limits) {total total' : Nat} (hmore : total ≤ total')
    (htotal' : total' < wordLimit) (softLimit : Nat) (windows : Option Nat)
    (stubs : List StubView) :
    ∃ p p' order charged charged',
      ofStubs (.ofLimits limits total softLimit windows) stubs = .ok p
      ∧ ofStubs (.ofLimits limits total' softLimit windows) stubs = .ok p'
      ∧ Contender.IsServing stubs order
      ∧ (∀ k, ((order.take k).map fun c => p.bytesAt c.index).sum
          ≤ ((order.take k).map fun c => p'.bytesAt c.index).sum)
      ∧ p.visibleBytes ≤ p'.visibleBytes
      ∧ p.chargedBytes = .ok charged ∧ p'.chargedBytes = .ok charged' ∧ charged ≤ charged' := by
  have hdemands := Bounds.sum_demands_ofLimits_mono limits hmore softLimit windows
  have htotal := Nat.lt_of_le_of_lt hmore htotal'
  obtain ⟨p, hp, h⟩ := exists_divides (.ofLimits limits total softLimit windows) htotal stubs
  obtain ⟨p', hp', h'⟩ := exists_divides (.ofLimits limits total' softLimit windows) htotal' stubs
  refine ⟨p, p', Contender.serving stubs, _, _, hp, hp', Contender.serving_isServing stubs,
    fun k => ?_, ?_, h.chargedBytes_eq htotal, h'.chargedBytes_eq htotal', ?_⟩
  · rw [h.map_bytesAt, h'.map_bytesAt, Bounds.sum_bytes_take_grants, Bounds.sum_bytes_take_grants]
    exact min_le_min hmore (hdemands _)
  · rw [h.visibleBytes_eq, h'.visibleBytes_eq]
    exact min_le_min hmore (hdemands _)
  · rw [h.charged, h'.charged]
    exact min_le_min hmore (hdemands _)

/-- Limits with a floor of eight bytes and a ceiling of half the total. -/
def halved : Limits where
  platform := .desktop
  defaultTotal := 0
  ceiling := .fraction 2 none
  floor := 8
  softLimit := 2

/-- Of thirteen bytes the visible stubs of the crowd get six each and the hidden one the last, and
of fourteen they get seven each. All is handed out, though the hidden one gets less than before. -/
theorem exists_grows_crowd :
    (13 : Nat) ≤ 14 ∧ (14 : Nat) < wordLimit
      ∧ ∃ p p', ofStubs (.ofLimits halved 13 3 none) crowd = .ok p
        ∧ ofStubs (.ofLimits halved 14 3 none) crowd = .ok p'
        ∧ p.visibleBytes ≤ p'.visibleBytes
        ∧ ((Contender.serving crowd).take 3).map (fun c => p.bytesAt c.index) = [6, 6, 1]
        ∧ ((Contender.serving crowd).take 3).map (fun c => p'.bytesAt c.index) = [7, 7, 0] := by
  have hmore : (13 : Nat) ≤ 14 := by decide
  have hfits : (14 : Nat) < wordLimit := by decide
  obtain ⟨p, p', -, -, -, hp, hp', -, -, hvisible, -⟩ := exists_grows halved hmore hfits 3 none crowd
  refine ⟨hmore, hfits, p, p', hp, hp', hvisible, ?_, ?_⟩
  · rw [(Divides.of_ok hp).map_bytesAt]
    cbv
  · rw [(Divides.of_ok hp').map_bytesAt]
    cbv

end Plan

end Compositor
