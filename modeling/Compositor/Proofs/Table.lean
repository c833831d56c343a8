import Mathlib.Algebra.Order.BigOperators.Group.List
import Mathlib.Algebra.GroupWithZero.Nat
import Mathlib.Algebra.Order.Group.Nat
import Mathlib.Data.List.Induction
import Mathlib.Data.List.Nodup
import Compositor.Table

/-!
# Tables with distinct keys

A key that stands twice in a table would be found once and summed twice. Every
operation keeps the keys distinct, and as long as they are, a sum over the values
changes under a write or an erasure by what the written or erased key weighs – no
more, since no other entry has that key.
-/

namespace Compositor.Table

variable {κ ν : Type}

/-! ## Keys and what is found under them -/

section Finding

variable [DecidableEq κ]

theorem find?_cons (e : κ × ν) (rest : List (κ × ν)) (k : κ) :
    (⟨e :: rest⟩ : Table κ ν).find? k = if e.1 = k then some e.2 else find? ⟨rest⟩ k :=
  rfl

/-- A key has no value exactly if it is not among the keys. -/
theorem find?_eq_none_iff {t : Table κ ν} {k : κ} : t.find? k = none ↔ k ∉ t.keys := by
  obtain ⟨entries⟩ := t
  induction entries with
  | nil => simp [keys, find?, find?.go]
  | cons e rest ih =>
    have hkeys : (⟨e :: rest⟩ : Table κ ν).keys = e.1 :: keys ⟨rest⟩ := rfl
    rw [find?_cons, hkeys, List.mem_cons]
    by_cases h : e.1 = k
    · simp [h]
    · simp [h, Ne.symm h, ih]

/-- What is found under a key stands in the table with that key. -/
theorem mem_entries_of_find? {t : Table κ ν} {k : κ} {v : ν} (hv : t.find? k = some v) :
    (k, v) ∈ t.entries := by
  obtain ⟨entries⟩ := t
  induction entries with
  | nil => cases hv
  | cons e rest ih =>
    rw [find?_cons] at hv
    split at hv
    · next hk =>
      obtain rfl := Option.some.inj hv
      exact List.mem_cons.2 (.inl (Prod.ext hk.symm rfl))
    · exact List.mem_cons_of_mem _ (ih hv)

/-- What is found after an erasure was there before. -/
theorem find?_of_erase {t : Table κ ν} {k k' : κ} {v : ν} (hv : (t.erase k).find? k' = some v) :
    t.find? k' = some v := by
  by_cases heq : k' = k
  · rw [heq, find?_erase_self] at hv
    cases hv
  · rwa [find?_erase_of_ne _ heq] at hv

/-- Among distinct keys, what stands in a table with a key is found under it. -/
theorem find?_of_mem_entries {t : Table κ ν} (ht : t.keys.Nodup) {k : κ} {v : ν}
    (hv : (k, v) ∈ t.entries) : t.find? k = some v := by
  obtain ⟨entries⟩ := t
  induction entries with
  | nil => cases hv
  | cons e rest ih =>
    obtain ⟨hnot, hrest⟩ := List.nodup_cons.1 ht
    rw [find?_cons]
    rcases List.mem_cons.1 hv with rfl | hv
    · exact if_pos rfl
    · have hne : e.1 ≠ k := fun hk => hnot (List.mem_map.2 ⟨_, hv, hk.symm⟩)
      rw [if_neg hne]
      exact ih hrest hv

theorem mem_keys_of_find? {t : Table κ ν} {k : κ} {v : ν} (hv : t.find? k = some v) :
    k ∈ t.keys :=
  List.mem_map.2 ⟨_, mem_entries_of_find? hv, rfl⟩

end Finding

/-! ## The keys under writing and erasing -/

section Writing

variable [DecidableEq κ]

theorem insert_cons (e : κ × ν) (rest : List (κ × ν)) (k : κ) (v : ν) :
    (⟨e :: rest⟩ : Table κ ν).insert k v
      = if e.1 = k then ⟨(k, v) :: rest⟩ else ⟨e :: (insert ⟨rest⟩ k v).entries⟩ := by
  unfold insert
  split
  · next h => rw [insert.go, if_pos h]
  · next h => rw [insert.go, if_neg h]

/-- Writing under a known key leaves the keys as they are, and writing under a new one
puts it behind them. -/
theorem keys_insert (t : Table κ ν) (k : κ) (v : ν) :
    (t.insert k v).keys = if k ∈ t.keys then t.keys else t.keys ++ [k] := by
  obtain ⟨entries⟩ := t
  induction entries with
  | nil => rfl
  | cons e rest ih =>
    have hkeys : (⟨e :: rest⟩ : Table κ ν).keys = e.1 :: keys ⟨rest⟩ := rfl
    rw [insert_cons, hkeys]
    by_cases h : e.1 = k
    · simp [h, keys]
    · have hcons : (⟨e :: (insert ⟨rest⟩ k v).entries⟩ : Table κ ν).keys
          = e.1 :: (insert ⟨rest⟩ k v).keys := rfl
      rw [if_neg h, hcons, ih]
      by_cases hk : k ∈ keys ⟨rest⟩
      · simp [hk]
      · simp [hk, Ne.symm h]

/-- A new key goes behind the others. -/
theorem entries_insert_of_notMem {t : Table κ ν} {k : κ} (hk : k ∉ t.keys) (v : ν) :
    (t.insert k v).entries = t.entries ++ [(k, v)] := by
  obtain ⟨entries⟩ := t
  induction entries with
  | nil => rfl
  | cons e rest ih =>
    obtain ⟨hne, hrest⟩ := not_or.1 (List.mem_cons.not.1 hk)
    rw [insert_cons, if_neg (Ne.symm hne)]
    exact congrArg (e :: ·) (ih hrest)

/-- A table of pairs with distinct keys lists them as they were given. -/
theorem entries_ofList {pairs : List (κ × ν)} (hpairs : (pairs.map Prod.fst).Nodup) :
    (ofList pairs).entries = pairs := by
  induction pairs using List.reverseRecOn with
  | nil => rfl
  | append_singleton pairs e ih =>
    rw [List.map_append, List.nodup_append'] at hpairs
    obtain ⟨hfront, -, hnew⟩ := hpairs
    have hkeys : e.1 ∉ (ofList pairs).keys := by
      unfold keys
      rw [ih hfront]
      exact fun he => hnew he (List.mem_singleton_self _)
    have hlast : ofList (pairs ++ [e]) = (ofList pairs).insert e.1 e.2 := List.foldl_append ..
    rw [hlast, entries_insert_of_notMem hkeys, ih hfront]

theorem mem_keys_insert {t : Table κ ν} {k k' : κ} {v : ν} :
    k' ∈ (t.insert k v).keys ↔ k' = k ∨ k' ∈ t.keys := by
  rw [keys_insert]
  split
  · next hk => exact ⟨.inr, by rintro (rfl | h); exacts [hk, h]⟩
  · rw [List.mem_append, List.mem_singleton, or_comm]

theorem nodup_keys_insert {t : Table κ ν} (ht : t.keys.Nodup) (k : κ) (v : ν) :
    (t.insert k v).keys.Nodup := by
  rw [keys_insert]
  split
  · exact ht
  · next hk => exact List.concat_eq_append ▸ ht.concat hk

/-- A value that is there after a write was written or was there before. -/
theorem mem_values_insert {t : Table κ ν} {k : κ} {v u : ν} (hu : u ∈ (t.insert k v).values) :
    u = v ∨ u ∈ t.values := by
  obtain ⟨entries⟩ := t
  induction entries with
  | nil => exact .inl (List.mem_singleton.1 hu)
  | cons e rest ih =>
    rw [insert_cons] at hu
    split at hu
    · exact (List.mem_cons.1 hu).imp id (List.mem_cons_of_mem e.2)
    · rcases List.mem_cons.1 hu with rfl | hu
      · exact .inr (List.mem_cons_self ..)
      · exact (ih hu).imp id (List.mem_cons_of_mem e.2)

theorem keys_erase (t : Table κ ν) (k : κ) : (t.erase k).keys = t.keys.filter (· ≠ k) := by
  unfold erase keys
  rw [List.filter_map]
  rfl

theorem nodup_keys_erase {t : Table κ ν} (ht : t.keys.Nodup) (k : κ) :
    (t.erase k).keys.Nodup := by
  rw [keys_erase]
  exact ht.filter _

theorem mem_keys_of_mem_keys_erase {t : Table κ ν} {k k' : κ} (h : k' ∈ (t.erase k).keys) :
    k' ∈ t.keys := by
  rw [keys_erase] at h
  exact (List.mem_filter.1 h).1

end Writing

/-! ## Sums over the values -/

/-- The sum of what the values weigh. -/
def weigh (w : ν → Nat) (t : Table κ ν) : Nat := (t.values.map w).sum

@[simp] theorem weigh_cons (w : ν → Nat) (e : κ × ν) (rest : List (κ × ν)) :
    weigh w (⟨e :: rest⟩ : Table κ ν) = w e.2 + weigh w (⟨rest⟩ : Table κ ν) := by
  unfold weigh values
  rw [List.map_cons, List.map_cons, List.sum_cons]

variable [DecidableEq κ] {w : ν → Nat} {t : Table κ ν} {k : κ}

/-- A value under a new key adds its weight. -/
theorem weigh_insert_of_none (hk : t.find? k = none) (v : ν) :
    (t.insert k v).weigh w = t.weigh w + w v := by
  obtain ⟨entries⟩ := t
  induction entries with
  | nil => simp [insert, insert.go, weigh, values]
  | cons e rest ih =>
    rw [find?_cons] at hk
    split at hk
    · cases hk
    · next h =>
      rw [insert_cons, if_neg h, weigh_cons, weigh_cons, ih hk, Nat.add_assoc]

/-- A value under a known key takes the place of the one before it. -/
theorem weigh_insert_of_some {u : ν} (hk : t.find? k = some u) (v : ν) :
    (t.insert k v).weigh w + w u = t.weigh w + w v := by
  obtain ⟨entries⟩ := t
  induction entries with
  | nil => cases hk
  | cons e rest ih =>
    rw [find?_cons] at hk
    split at hk
    · next h =>
      obtain rfl := Option.some.inj hk
      rw [insert_cons, if_pos h, weigh_cons, weigh_cons]
      show w v + weigh w _ + w e.2 = w e.2 + weigh w _ + w v
      omega
    · next h =>
      rw [insert_cons, if_neg h, weigh_cons, weigh_cons, Nat.add_assoc, ih hk, Nat.add_assoc]

/-- Erasing a key takes away the weight of its value. Here the keys have to be distinct,
since every entry of the key goes. -/
theorem weigh_erase (ht : t.keys.Nodup) {u : ν} (hk : t.find? k = some u) :
    (t.erase k).weigh w + w u = t.weigh w := by
  obtain ⟨entries⟩ := t
  induction entries with
  | nil => cases hk
  | cons e rest ih =>
    obtain ⟨hnot, hrest⟩ := List.nodup_cons.1 ht
    rw [find?_cons] at hk
    split at hk
    · next h =>
      obtain rfl := Option.some.inj hk
      -- the keys are distinct, so no other entry goes
      have hall : rest.filter (fun x => decide (x.1 ≠ k)) = rest := by
        refine List.filter_eq_self.2 fun x hx => decide_eq_true fun hxk => hnot ?_
        exact List.mem_map.2 ⟨x, hx, hxk.trans h.symm⟩
      have herase : (⟨e :: rest⟩ : Table κ ν).erase k = ⟨rest⟩ := by
        unfold erase
        rw [List.filter_cons_of_neg (by simpa using h), hall]
      rw [herase, weigh_cons, Nat.add_comm]
    · next h =>
      have herase : (⟨e :: rest⟩ : Table κ ν).erase k = ⟨e :: (erase ⟨rest⟩ k).entries⟩ := by
        unfold erase
        rw [List.filter_cons_of_pos (by simpa using h)]
      rw [herase, weigh_cons, weigh_cons, Nat.add_assoc, ih hrest hk]

/-- No value weighs more than all of them. -/
theorem le_weigh {u : ν} (hk : t.find? k = some u) : w u ≤ t.weigh w :=
  List.single_le_sum (fun _ _ => Nat.zero_le _) _
    (List.mem_map_of_mem (List.mem_map_of_mem (f := Prod.snd) (mem_entries_of_find? hk)))

end Compositor.Table
