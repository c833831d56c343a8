import Mathlib.Data.List.Nodup
import Compositor.Json.Decode

/-!
# Records as objects

An object gives a record if each of its names is a text, if no field stands twice, and, for a
strict reader, if no other names stand there. Each field then has the value that it is given, in
whatever order the members stand, and none if it is not among them.
-/

namespace Compositor.Json.Value

variable {names fields : List String} {strict : Bool}

/-- Members whose names are texts. -/
def named (members : List (String × Value)) : List (Option String × Value) :=
  members.map fun m => (some m.1, m.2)

theorem names?_append (first second : List (Option String × Value)) :
    names? (first ++ second) =
      (names? first).bind fun names => (names? second).map fun more => names ++ more := by
  induction first with
  | nil => simp [names?]
  | cons m rest ih =>
    cases hname : m.1 <;> cases hrest : names? rest <;> cases hsecond : names? second <;>
      simp [names?, ih, hname, hrest, hsecond]

theorem names?_named (members : List (String × Value)) :
    names? (named members) = some (members.map Prod.fst) := by
  induction members with
  | nil => rfl
  | cons m rest ih =>
    have hcons : named (m :: rest) = (some m.1, m.2) :: named rest := rfl
    rw [hcons, names?, ih]
    rfl

/-- The value of a name that stands once. -/
theorem member?_of_mem {members : List (String × Value)} (hnodup : (members.map Prod.fst).Nodup)
    {name : String} {v : Value} (h : (name, v) ∈ members) :
    member? (named members) name = some v := by
  induction members with
  | nil => cases h
  | cons m rest ih =>
    rw [List.map_cons, List.nodup_cons] at hnodup
    have hcons : named (m :: rest) = (some m.1, m.2) :: named rest := rfl
    rw [hcons, member?]
    rcases List.mem_cons.1 h with rfl | h
    · rw [List.find?_cons_of_pos (by simp)]
      rfl
    · have hne : m.1 ≠ name := by
        rintro rfl
        exact hnodup.1 (List.mem_map.2 ⟨_, h, rfl⟩)
      rw [List.find?_cons_of_neg (by simpa using hne)]
      exact ih hnodup.2 h

/-- A name that does not stand there has no value. -/
theorem member?_of_not_mem {members : List (String × Value)} {name : String}
    (h : name ∉ members.map Prod.fst) : member? (named members) name = none := by
  have hnone : (named members).find? (fun m => m.1 = some name) = none := by
    refine List.find?_eq_none.2 fun m hm => ?_
    obtain ⟨m', hm', rfl⟩ := List.mem_map.1 hm
    simp only [Option.some.injEq, decide_eq_true_eq]
    rintro rfl
    exact h (List.mem_map.2 ⟨m', hm', rfl⟩)
  rw [member?, hnone]
  rfl

/-- **The fields of an object** whose names are distinct and known. -/
theorem fields?_named {members : List (String × Value)} (hnodup : (members.map Prod.fst).Nodup)
    (hknown : strict = true → ∀ m ∈ members, m.1 ∈ fields) :
    fields? fields strict (ofFields members) =
      some (fields.map (member? (named members))) := by
  have honce : fields.all (fun f => (members.map Prod.fst).count f ≤ 1) = true :=
    List.all_eq_true.2 fun f _ => decide_eq_true (List.nodup_iff_count_le_one.1 hnodup f)
  have hstrict : (!strict || (members.map Prod.fst).all (fields.contains ·)) = true := by
    cases hs : strict with
    | false => rfl
    | true =>
      refine List.all_eq_true.2 fun name hname => ?_
      obtain ⟨m, hm, rfl⟩ := List.mem_map.1 hname
      exact List.contains_iff_mem.2 (hknown hs m hm)
  have hobject : ofFields members = .object (named members) := rfl
  simp only [hobject, fields?, names?_named, Option.bind_eq_bind, Option.bind_some, honce, hstrict,
    Bool.and_self, if_true, Option.pure_def]

/-- **A further member is refused** if its name is not that of a field, or that of a field that
stands there already. -/
theorem fields?_further {before after : List (String × Value)} {extra : Option String × Value}
    (h : (∀ field ∈ fields, extra.1 ≠ some field) ∨
      ∃ field ∈ fields, extra.1 = some field ∧ field ∈ (before ++ after).map Prod.fst) :
    fields? fields true (.object (named before ++ extra :: named after)) = none := by
  obtain ⟨name, v⟩ := extra
  have hextra : names? ((name, v) :: named after) =
      name.map fun name => name :: after.map Prod.fst := by
    cases name with
    | none => rfl
    | some name => rw [names?, names?_named]; rfl
  simp only [fields?, names?_append, names?_named, hextra, Option.bind_eq_bind, Option.bind_some]
  cases name with
  | none => rfl
  | some name =>
    refine if_neg fun hall => ?_
    simp only [Bool.and_eq_true, List.all_eq_true, Bool.not_true, Bool.false_or,
      decide_eq_true_eq, List.contains_iff_mem] at hall
    obtain ⟨honce, hknown⟩ := hall
    rcases h with hunknown | ⟨field, hfield, hname, hrepeated⟩
    · have hmem := hknown name (List.mem_append_right _ List.mem_cons_self)
      exact hunknown name hmem rfl
    · cases hname
      have hcount := honce name hfield
      rw [List.map_append, ← List.count_pos_iff, List.count_append] at hrepeated
      rw [List.count_append, List.count_cons_self] at hcount
      omega

end Compositor.Json.Value
