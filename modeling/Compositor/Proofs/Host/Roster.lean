import Compositor.Host.Roster
import Compositor.Proofs.Table

/-!
# Rosters with sound names

A name of a roster stands for an object that is there, and not for the object of another
name. A name that was given up stood for an object that is still there, though nobody may have
a name for it. So whoever keeps a number that a name stood for keeps a number that is valid.
-/

namespace Compositor

/-- A change of one object loses none. -/
@[simp] theorem Roster.length_update {γ : Type} (r : Roster γ) (number : Nat) (f : γ → γ) :
    (r.update number f).members.length = r.members.length :=
  List.length_modify f r.members number

/-- **The names of a roster are sound**: each stands for an object that is there, or stood for
one, and no two stand for the same. -/
structure Roster.Sound {γ : Type} (r : Roster γ) : Prop where
  lt_of_name {name : String} {number : Nat} (hname : r.names.find? name = some number) :
    number < r.members.length
  lt_of_released {name : String} {number : Nat} (hname : r.released.find? name = some number) :
    number < r.members.length
  injective {name name' : String} {number : Nat} (hname : r.names.find? name = some number)
    (hname' : r.names.find? name' = some number) : name = name'

namespace Roster.Sound

variable {γ : Type} {r : Roster γ}

theorem empty : ({} : Roster γ).Sound := ⟨nofun, nofun, nofun⟩

theorem lt_of_lastNumber (h : r.Sound) {name : String} {number : Nat}
    (hname : r.lastNumber? name = some number) : number < r.members.length := by
  unfold lastNumber? number? at hname
  cases hfound : r.names.find? name with
  | some found =>
    rw [hfound] at hname
    cases hname
    exact h.lt_of_name hfound
  | none =>
    rw [hfound] at hname
    exact h.lt_of_released hname

theorem update (h : r.Sound) (number : Nat) (f : γ → γ) : (r.update number f).Sound := by
  have hlength := length_update r number f
  exact ⟨fun hname => hlength ▸ h.lt_of_name hname, fun hname => hlength ▸ h.lt_of_released hname,
    h.injective⟩

theorem length_add (r : Roster γ) (x : γ) :
    (r.add x).2.members.length = r.members.length + 1 :=
  List.length_append

theorem add (h : r.Sound) (x : γ) : (r.add x).2.Sound := by
  have hlength := length_add r x
  exact ⟨fun hname => hlength ▸ Nat.lt_succ_of_lt (h.lt_of_name hname),
    fun hname => hlength ▸ Nat.lt_succ_of_lt (h.lt_of_released hname), h.injective⟩

/-- A new object has a number that no name stands for. -/
theorem enroll (h : r.Sound) (name : String) (x : γ) : (r.enroll name x).2.Sound := by
  have hlength : (r.enroll name x).2.members.length = r.members.length + 1 := List.length_append
  have hfind (other : String) : (r.enroll name x).2.names.find? other
      = if other = name then some r.members.length else r.names.find? other := by
    show (r.names.insert name r.members.length).find? other = _
    split
    · next heq => rw [heq, Table.find?_insert_self]
    · next hne => rw [Table.find?_insert_of_ne _ _ hne]
  have hlt {other : String} {number : Nat}
      (hother : r.names.find? other = some number) : number ≠ r.members.length :=
    Nat.ne_of_lt (h.lt_of_name hother)
  refine ⟨fun {other number} hname => ?_, fun {other number} hname => ?_,
    fun {other other' number} hname hname' => ?_⟩
  · rw [hlength]
    rw [hfind] at hname
    split at hname
    · cases hname
      exact Nat.lt_succ_self _
    · exact Nat.lt_succ_of_lt (h.lt_of_name hname)
  · rw [hlength]
    have hreleased : (r.released.erase name).find? other = some number := hname
    exact Nat.lt_succ_of_lt (h.lt_of_released (Table.find?_of_erase hreleased))
  · rw [hfind] at hname hname'
    split at hname <;> split at hname'
    · next heq heq' => exact heq.trans heq'.symm
    · cases hname
      exact absurd rfl (hlt hname')
    · cases hname'
      exact absurd rfl (hlt hname)
    · exact h.injective hname hname'

theorem forget (h : r.Sound) (name : String) : (r.forget name).Sound := by
  unfold Roster.forget
  cases hnumber : r.number? name with
  | none => exact h
  | some number =>
    refine ⟨fun hname => h.lt_of_name (Table.find?_of_erase hname), fun {other n} hname => ?_,
      fun hname hname' => h.injective (Table.find?_of_erase hname) (Table.find?_of_erase hname')⟩
    by_cases heq : other = name
    · rw [show (r.released.insert name number).find? other = some number by
        rw [heq, Table.find?_insert_self]] at hname
      cases hname
      exact h.lt_of_name hnumber
    · exact h.lt_of_released ((Table.find?_insert_of_ne _ _ heq).symm.trans hname)

end Roster.Sound

namespace Roster

variable {γ : Type} {r : Roster γ} {number : Nat}

theorem get?_update_of_some {x : γ} (hx : r.get? number = some x) (f : γ → γ) :
    (r.update number f).get? number = some (f x) := by
  rw [get?_update_self, hx]
  rfl

/-- A change that leaves an object as it is leaves all as it is. -/
theorem update_eq_self {x : γ} {f : γ → γ} (hx : r.get? number = some x) (hf : f x = x) :
    r.update number f = r := by
  have hmembers : r.members.modify number f = r.members := by
    refine List.ext_getElem? fun i => ?_
    rw [List.getElem?_modify]
    split
    · next heq =>
      subst heq
      have hget : r.members[number]? = some x := hx
      rw [hget]
      exact congrArg some hf
    · cases r.members[i]? <;> rfl
  unfold update
  rw [hmembers]

/-- A change of an object that is not there changes nothing. -/
theorem update_of_none (hnone : r.get? number = none) (f : γ → γ) : r.update number f = r := by
  unfold update
  rw [List.modify_eq_self (List.getElem?_eq_none_iff.1 hnone)]

/-- It only matters what a change makes of the object that is there. -/
theorem update_congr {x : γ} {f g : γ → γ} (hx : r.get? number = some x) (hfg : f x = g x) :
    r.update number f = r.update number g := by
  have hmembers : r.members.modify number f = r.members.modify number g := by
    refine List.ext_getElem? fun i => ?_
    rw [List.getElem?_modify, List.getElem?_modify]
    split
    · next heq =>
      subst heq
      have hget : r.members[number]? = some x := hx
      rw [hget]
      exact congrArg some hfg
    · rfl
  unfold update
  rw [hmembers]

/-- An object that is there after one was changed is that one, or it was there before. -/
theorem get?_update_eq_some {n : Nat} {f : γ → γ} {y : γ}
    (hy : (r.update number f).get? n = some y) :
    (n = number ∧ ∃ x, r.get? n = some x ∧ y = f x) ∨ (n ≠ number ∧ r.get? n = some y) := by
  by_cases heq : n = number
  · rw [heq, get?_update_self] at hy
    obtain ⟨x, hx, rfl⟩ := Option.map_eq_some_iff.1 hy
    exact .inl ⟨heq, x, heq ▸ hx, rfl⟩
  · rw [get?_update_of_ne _ _ heq] at hy
    exact .inr ⟨heq, hy⟩

/-- What is true of all objects, and stays true of one that is changed, is true of all
after the change. -/
theorem forall_mem_update (number : Nat) {f : γ → γ} {P : γ → Prop}
    (hr : ∀ x ∈ r.members, P x) (hf : ∀ x, P x → P (f x)) :
    ∀ x ∈ (r.update number f).members, P x := by
  intro x hx
  obtain ⟨i, hi⟩ := List.mem_iff_getElem?.1 hx
  rcases get?_update_eq_some (r := r) (f := f) hi with ⟨-, y, hy, rfl⟩ | ⟨-, hx⟩
  · exact hf y (hr y (List.mem_of_getElem? hy))
  · exact hr x (List.mem_of_getElem? hx)

/-! ## Rosters of one object -/

section Sole

variable {x y : γ}

theorem get?_zero_of_sole (hsole : r.members = [x]) : r.get? 0 = some x := by
  unfold get?
  rw [hsole]
  rfl

theorem get?_succ_of_sole (hsole : r.members = [x]) (number : Nat) :
    r.get? (number + 1) = none := by
  unfold get?
  rw [hsole]
  rfl

/-- There is no other object. -/
theorem eq_of_sole (hsole : r.members = [x]) (hy : r.get? number = some y) :
    number = 0 ∧ y = x := by
  cases number with
  | zero => exact ⟨rfl, Option.some.inj (hy.symm.trans (get?_zero_of_sole hsole))⟩
  | succ number => cases hy.symm.trans (get?_succ_of_sole hsole number)

theorem members_update_zero (hsole : r.members = [x]) (f : γ → γ) :
    (r.update 0 f).members = [f x] := by
  unfold update
  rw [hsole]
  rfl

theorem update_succ_of_sole (hsole : r.members = [x]) (number : Nat) (f : γ → γ) :
    r.update (number + 1) f = r :=
  update_of_none (get?_succ_of_sole hsole number) f

end Sole

/-! ## Adding objects and giving up names -/

/-- A roster has gained an object, under a name or without one. -/
def Gains (r : Roster γ) (x : γ) (r' : Roster γ) : Prop := r'.members = r.members ++ [x]

theorem gains_add (r : Roster γ) (x : γ) : r.Gains x (r.add x).2 := rfl

theorem gains_enroll (r : Roster γ) (name : String) (x : γ) : r.Gains x (r.enroll name x).2 := rfl

namespace Gains

variable {r' : Roster γ} {x y : γ}

theorem mem_iff (h : r.Gains x r') : y ∈ r'.members ↔ y ∈ r.members ∨ y = x := by
  rw [h, List.mem_append, List.mem_singleton]

theorem length_le (h : r.Gains x r') : r.members.length ≤ r'.members.length := by
  rw [h, List.length_append]
  exact Nat.le_add_right ..

/-- An object that was there stays what it is. -/
theorem get?_of_some (h : r.Gains x r') (hy : r.get? number = some y) :
    r'.get? number = some y := by
  obtain ⟨hlt, -⟩ := List.getElem?_eq_some_iff.1 hy
  unfold get?
  rw [h, List.getElem?_append_left hlt]
  exact hy

/-- An object that is there was there before, unless it is the new one. -/
theorem get?_eq_some (h : r.Gains x r') (hy : r'.get? number = some y) :
    r.get? number = some y ∨ r.get? number = none ∧ y = x := by
  unfold get? at hy
  rw [h] at hy
  rcases Nat.lt_or_ge number r.members.length with hlt | hge
  · rw [List.getElem?_append_left hlt] at hy
    exact .inl hy
  · rw [List.getElem?_append_right hge] at hy
    exact .inr ⟨List.getElem?_eq_none hge, List.mem_singleton.1 (List.mem_of_getElem? hy)⟩

/-- The new object has the number that comes next. -/
theorem eq_length (h : r.Gains x r') (hy : r'.get? number = some y)
    (hnone : r.get? number = none) : number = r.members.length := by
  obtain ⟨hlt, -⟩ := List.getElem?_eq_some_iff.1 hy
  have hle := List.getElem?_eq_none_iff.1 hnone
  rw [h, List.length_append, List.length_singleton] at hlt
  omega

end Gains

/-- What gives up its name is still there. -/
@[simp] theorem members_forget (r : Roster γ) (name : String) :
    (r.forget name).members = r.members := by
  unfold forget
  split <;> rfl

@[simp] theorem length_forget (r : Roster γ) (name : String) :
    (r.forget name).members.length = r.members.length := by
  rw [members_forget]

@[simp] theorem get?_forget (r : Roster γ) (name : String) (number : Nat) :
    (r.forget name).get? number = r.get? number := by
  unfold get?
  rw [members_forget]

/-- An object that has no name does not get one when a name is given up. -/
theorem isNamed_forget {name : String}
    (h : (r.forget name).isNamed number = true) : r.isNamed number = true := by
  unfold forget at h
  split at h
  · exact h
  · unfold isNamed Table.values Table.erase at h
    obtain ⟨entry, hentry, heq⟩ := List.mem_map.1 (List.contains_iff_mem.1 h)
    exact List.contains_iff_mem.2 (List.mem_map.2 ⟨entry, (List.mem_filter.1 hentry).1, heq⟩)

/-- An object that was there has no new name when another one is enrolled. -/
theorem isNamed_of_enroll {name : String} {x : γ} (hlt : number < r.members.length)
    (h : (r.enroll name x).2.isNamed number = true) : r.isNamed number = true := by
  rcases Table.mem_values_insert (List.contains_iff_mem.1 h) with heq | hmem
  · exact absurd heq (Nat.ne_of_lt hlt)
  · exact List.contains_iff_mem.2 hmem

/-- A name stands for what it stood for, or for the object that is enrolled. -/
theorem number?_of_enroll {name other : String} {x : γ}
    (h : (r.enroll name x).2.number? other = some number) :
    r.number? other = some number ∨ r.get? number = none := by
  by_cases heq : other = name
  · have hnumber : some r.members.length = some number := by
      rw [← h, heq]
      exact (Table.find?_insert_self ..).symm
    exact .inr (List.getElem?_eq_none (Nat.le_of_eq (Option.some.inj hnumber)))
  · exact .inl ((Table.find?_insert_of_ne _ _ heq).symm.trans h)

theorem number?_of_forget {name other : String}
    (h : (r.forget name).number? other = some number) : r.number? other = some number := by
  unfold forget at h
  split at h
  · exact h
  · exact Table.find?_of_erase h

/-- An object that is changed as soon as it was added is added as it is then. -/
theorem update_add (r : Roster γ) (x : γ) (f : γ → γ) :
    (r.add x).2.update (r.add x).1 f = (r.add (f x)).2 := by
  have hmodify : (r.members ++ [x]).modify r.members.length f = r.members ++ [f x] := by
    rw [List.modify_eq_take_cons_drop (by simp)]
    simp
  unfold update add
  rw [hmodify]

end Roster

end Compositor
