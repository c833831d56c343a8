import Mathlib.Data.List.Count
import Mathlib.Data.List.Forall2
import Compositor.Proofs.Json.Records

/-!
# What a value says

What the parts of a value have to be for a reader to find something in them. An integer is
written in one way; a name is written as a text, or as the one member of an object whose value is
`null`; and a record is an array that lists all fields, or an object in which each field stands
once, in any order and among others.

Main statements: `int32?_eq_some`, `choice?_eq_some` and `isRecord_iff`.
-/

namespace Compositor.Json

/-- An integer is written in one way. -/
theorem Number.toInt?_eq_some {n : Number} {i : Int} : n.toInt? = some i ↔ n = .ofInt i := by
  refine ⟨fun h => ?_, fun h => h ▸ Number.toInt?_ofInt i⟩
  unfold toInt? at h
  split at h
  · next whole =>
    cases h
    have hsign : ¬ ((whole : Int) < 0) := Int.not_lt.2 (Int.natCast_nonneg whole)
    simp only [ofInt, hsign, decide_false, Int.natAbs_natCast]
  · next whole =>
    split at h
    · cases h
    · next hne =>
      cases h
      have hsign : -(whole : Int) < 0 := by omega
      simp only [ofInt, hsign, decide_true, Int.natAbs_neg, Int.natAbs_natCast]
  · cases h

namespace Value

variable {v : Value}

theorem int32?_eq_some {i : Int32} : v.int32? = some i ↔ v = .int i.toInt := by
  unfold int32?
  simp only [Option.bind_eq_some_iff, Coord.ofInt?_eq_some]
  constructor
  · rintro ⟨k, hk, rfl⟩
    cases v with
    | number n => exact congrArg Value.number (Number.toInt?_eq_some.1 hk)
    | _ => cases hk
  · rintro rfl
    exact ⟨i.toInt, Number.toInt?_ofInt _, rfl⟩

/-- A value names something: by a text, or by the one member of an object whose value is `null`. -/
def Names (name : String) (v : Value) : Prop := v = .str name ∨ v = .object [(some name, .null)]

theorem choice?_eq_some {name : String} : v.choice? = some name ↔ v.Names name := by
  constructor
  · intro h
    unfold choice? at h
    split at h
    · exact .inl (congrArg Value.text h)
    · exact .inr (congrArg (fun n => Value.object [(n, .null)]) h)
    · cases h
  · rintro (rfl | rfl) <;> rfl

/-! ## Records -/

/-- **A value is a record** of fields, each of which has a value of which something holds: an array
that lists these values, or an object in which each field stands once. The names of an object are
texts, and those that are not fields do not matter. -/
inductive IsRecord (fields : List (String × (Value → Prop))) : Value → Prop where
  | array {items : List Value} (h : List.Forall₂ (fun f v => f.2 v) fields items) :
    IsRecord fields (.array items)
  | object {members : List (Option String × Value)} (hnames : ∀ m ∈ members, m.1 ≠ none)
    (hfields : ∀ f ∈ fields, ∃ v,
      members.filter (fun m => m.1 = some f.1) = [(some f.1, v)] ∧ f.2 v) :
    IsRecord fields (.object members)

variable {members : List (Option String × Value)} {fields : List (String × (Value → Prop))}

/-- The names of an object, if they are all texts. -/
theorem names?_eq_some {names : List String} :
    names? members = some names ↔ members.map Prod.fst = names.map some := by
  induction members generalizing names with
  | nil =>
    rw [names?, Option.some_inj, List.map_nil, eq_comm (a := []), eq_comm (a := []),
      List.map_eq_nil_iff]
  | cons m rest ih =>
    simp only [names?, Option.bind_eq_bind, Option.bind_eq_some_iff, ih, Option.pure_def,
      Option.some.injEq]
    cases names with
    | nil => simp
    | cons name names => simp

/-- An object has names if they are all texts. -/
theorem exists_names? (h : ∀ m ∈ members, m.1 ≠ none) : ∃ names, names? members = some names := by
  induction members with
  | nil => exact ⟨[], rfl⟩
  | cons m rest ih =>
    obtain ⟨hm, hrest⟩ := List.forall_mem_cons.1 h
    obtain ⟨name, hname⟩ := Option.ne_none_iff_exists'.1 hm
    obtain ⟨names, hnames⟩ := ih hrest
    refine ⟨name :: names, names?_eq_some.2 ?_⟩
    rw [List.map_cons, List.map_cons, hname, names?_eq_some.1 hnames]

/-- Where an object has names, these are all texts. -/
theorem ne_none_of_names? {names : List String} (h : names? members = some names) :
    ∀ m ∈ members, m.1 ≠ none := by
  intro m hm
  have hmem : m.1 ∈ names.map some := names?_eq_some.1 h ▸ List.mem_map_of_mem hm
  obtain ⟨name, -, hname⟩ := List.mem_map.1 hmem
  exact hname ▸ Option.some_ne_none name

/-- **A field stands once** and has a value exactly if it is the only member of its name. -/
theorem filter_eq_singleton_iff {names : List String} (hnames : names? members = some names)
    {field : String} : members.filter (fun m => m.1 = some field) = [(some field, v)] ↔
      names.count field ≤ 1 ∧ member? members field = some v := by
  have hcount : names.count field = (members.filter fun m => m.1 = some field).length := by
    rw [← List.count_map_of_injective names some (fun _ _ => Option.some.inj),
      ← names?_eq_some.1 hnames, List.count, List.countP_map, List.countP_eq_length_filter]
    exact congrArg List.length (List.filter_congr fun m _ => beq_eq_decide m.1 (some field))
  have hname : ∀ m ∈ members.filter (fun m => m.1 = some field), m.1 = some field :=
    fun m hm => of_decide_eq_true (List.mem_filter.1 hm).2
  rw [hcount, member?, ← List.head?_filter]
  generalize members.filter (fun m => m.1 = some field) = found at hname
  rcases found with _ | ⟨⟨name, w⟩, _ | ⟨m, rest⟩⟩
  · simp
  · obtain rfl : name = some field := hname _ (List.mem_cons_self ..)
    simp
  · simp

/-- Something is found for each of a list, and it is right. -/
theorem forall_mem_iff_exists_forall₂ {α β : Type} {find : α → Option β} {P : α → β → Prop}
    {xs : List α} : (∀ x ∈ xs, ∃ y, find x = some y ∧ P x y) ↔
      ∃ ys, xs.map find = ys.map some ∧ List.Forall₂ P xs ys := by
  induction xs with
  | nil =>
    refine iff_of_true nofun ⟨[], rfl, .nil⟩
  | cons x xs ih =>
    rw [List.forall_mem_cons, ih]
    constructor
    · rintro ⟨⟨y, hy, hP⟩, ys, hys, hall⟩
      exact ⟨y :: ys, by rw [List.map_cons, List.map_cons, hy, hys], .cons hP hall⟩
    · rintro ⟨_, hys, hall⟩
      obtain _ | ⟨hP, hall⟩ := hall
      obtain ⟨hy, hys⟩ := List.cons.inj hys
      exact ⟨⟨_, hy, hP⟩, _, hys, hall⟩

/-- **A reader of records finds a value for each field** exactly in a record. -/
theorem isRecord_iff : IsRecord fields v ↔ ∃ given,
    fields? (fields.map Prod.fst) false v = some (given.map some) ∧
      List.Forall₂ (fun f w => f.2 w) fields given := by
  constructor
  · rintro (@⟨items, h⟩ | @⟨members, hnames, hfields⟩)
    · refine ⟨items, ?_, h⟩
      have hlength : items.length = (fields.map Prod.fst).length := by
        rw [List.length_map, h.length_eq]
      rw [fields?, if_pos (Nat.le_of_eq hlength), hlength, Nat.sub_self, List.replicate_zero,
        List.append_nil]
    · obtain ⟨names, hnames⟩ := exists_names? hnames
      simp only [filter_eq_singleton_iff hnames, and_assoc] at hfields
      have honce : (fields.map Prod.fst).all (fun f => decide (names.count f ≤ 1)) = true := by
        rw [List.all_map, List.all_eq_true]
        intro f hf
        obtain ⟨-, hcount, -⟩ := hfields f hf
        exact decide_eq_true hcount
      obtain ⟨given, hgiven, hall⟩ := forall_mem_iff_exists_forall₂.1 fun f hf =>
        (hfields f hf).imp fun v hv => hv.2
      refine ⟨given, ?_, hall⟩
      rw [← hgiven]
      simp only [fields?, hnames, honce, Bool.not_false, Bool.true_or, Bool.and_self, if_true,
        Option.bind_eq_bind, Option.bind_some, Option.pure_def, List.map_map, Function.comp_def]
  · rintro ⟨given, hgiven, hall⟩
    cases v with
    | array items =>
      rw [fields?] at hgiven
      split at hgiven
      · -- An array that stops early would leave the last fields without a value.
        have hitems := Option.some.inj hgiven
        have hnone : (fields.map Prod.fst).length - items.length = 0 := by
          by_contra hne
          have hmem : none ∈ given.map some :=
            hitems ▸ List.mem_append_right _ (List.mem_replicate.2 ⟨hne, rfl⟩)
          obtain ⟨w, -, hw⟩ := List.mem_map.1 hmem
          cases hw
        rw [hnone, List.replicate_zero, List.append_nil] at hitems
        obtain rfl := (List.map_inj_right fun _ _ => Option.some.inj).1 hitems
        exact .array hall
      · cases hgiven
    | object members =>
      simp only [fields?, Option.bind_eq_bind, Option.bind_eq_some_iff] at hgiven
      obtain ⟨names, hnames, hgiven⟩ := hgiven
      split at hgiven
      · next hconditions =>
        have hmembers := Option.some.inj hgiven
        rw [List.map_map] at hmembers
        have hfound := forall_mem_iff_exists_forall₂.2 ⟨given, hmembers, hall⟩
        have honce := List.all_eq_true.1 (Bool.and_eq_true _ _ ▸ hconditions).1
        refine .object (ne_none_of_names? hnames) fun f hf => ?_
        obtain ⟨w, hw, hP⟩ := hfound f hf
        have hcount := of_decide_eq_true (honce f.1 (List.mem_map_of_mem hf))
        exact ⟨w, (filter_eq_singleton_iff hnames).2 ⟨hcount, hw⟩, hP⟩
      · cases hgiven
    | null | bool b | number n | text chars => cases hgiven

/-- **An object of the fields in their order** is a record. -/
theorem isRecord_ofFields {members : List (String × Value)} (hnodup : (members.map Prod.fst).Nodup)
    (h : List.Forall₂ (fun f m => m.1 = f.1 ∧ f.2 m.2) fields members) :
    IsRecord fields (ofFields members) := by
  have hnames : fields.map Prod.fst = members.map Prod.fst := by
    rw [← List.forall₂_eq_eq_eq, List.forall₂_map_left_iff, List.forall₂_map_right_iff]
    exact h.imp fun f m hm => hm.1.symm
  have hfound : fields? (fields.map Prod.fst) false (ofFields members) =
      some ((fields.map Prod.fst).map (member? (named members))) :=
    fields?_named hnodup fun hstrict => nomatch hstrict
  refine isRecord_iff.2 ⟨members.map Prod.snd, ?_,
    List.forall₂_map_right_iff.2 (h.imp fun f m => And.right)⟩
  rw [hfound, hnames, List.map_map, List.map_map]
  exact congrArg some (List.map_congr_left fun m hm => member?_of_mem hnodup hm)

end Value

end Compositor.Json
