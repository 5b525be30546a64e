import Mathlib.Tactic.SplitIfs
import Polyglot.Table

/-!
What a table holds after a key is given a value. The keys stay distinct, and every other key keeps
what it had. A list of keys without its repetitions keeps the order in which they first come.
-/

namespace Polyglot

theorem nodup_eraseDups {α : Type} [DecidableEq α] (values : List α) : values.eraseDups.Nodup := by
  match values with
  | [] => exact List.nodup_nil
  | value :: rest =>
      have : (rest.filter fun other => !other == value).length < rest.length + 1 :=
        Nat.lt_succ_of_le (List.length_filter_le _ _)
      rw [List.eraseDups_cons, List.nodup_cons, List.mem_eraseDups]
      exact ⟨by simp, nodup_eraseDups _⟩
termination_by values.length

theorem eraseDups_concat {α : Type} [DecidableEq α] (values : List α) (value : α) :
    (values ++ [value]).eraseDups =
      if value ∈ values then values.eraseDups else values.eraseDups ++ [value] := by
  rw [List.eraseDups_append]
  split
  · rename_i h
    simp [List.removeAll, h]
  · rename_i h
    simp [List.removeAll, List.eraseDups_cons, h]

/-- A lookup from the end finds the value that a key has last. -/
theorem lookup_reverse_eq_some_iff {α : Type} {pairs : List (String × α)} {key : String}
    {value : α} : pairs.reverse.lookup key = some value ↔
      ∃ before after, pairs = before ++ (key, value) :: after ∧ ∀ pair ∈ after, pair.1 ≠ key := by
  rw [List.lookup_eq_some_iff]
  constructor
  · rintro ⟨after, before, heq, hafter⟩
    refine ⟨before.reverse, after.reverse, ?_, fun pair hpair => ?_⟩
    · rw [← List.reverse_reverse pairs, heq, List.reverse_append, List.reverse_cons,
        List.append_assoc, List.singleton_append]
    · exact (bne_iff_ne.mp (hafter pair (List.mem_reverse.mp hpair))).symm
  · rintro ⟨before, after, rfl, hafter⟩
    refine ⟨after.reverse, before.reverse, ?_, fun pair hpair => ?_⟩
    · rw [List.reverse_append, List.reverse_cons, List.append_assoc, List.singleton_append]
    · exact bne_iff_ne.mpr (hafter pair (List.mem_reverse.mp hpair)).symm

namespace Table

variable {α : Type}

theorem get?_cons (entry : String × α) (rest : Table α) (key : String) :
    Table.get? (entry :: rest) key = if key = entry.1 then some entry.2 else rest.get? key := by
  obtain ⟨k, v⟩ := entry
  by_cases h : key = k
  · simp [get?, h]
  · have hk : (key == k) = false := by simpa using h
    simp [get?, List.lookup_cons, hk, h]

theorem get?_put (table : Table α) (key other : String) (value : α) :
    (table.put key value).get? other = if other = key then some value else table.get? other := by
  induction table with
  | nil => rw [put, get?_cons]
  | cons entry rest ih =>
      obtain ⟨k, v⟩ := entry
      by_cases hk : k = key
      · subst hk
        by_cases ho : other = k <;> simp [put, get?_cons, ho]
      · by_cases ho : other = k
        · subst ho
          simp [put, get?_cons, hk]
        · simp [put, get?_cons, hk, ho, ih]

@[simp]
theorem get?_put_self (table : Table α) (key : String) (value : α) :
    (table.put key value).get? key = some value := by
  rw [get?_put, if_pos rfl]

theorem get?_remove (table : Table α) (key other : String) :
    (table.remove key).get? other = if other = key then none else table.get? other := by
  induction table with
  | nil => simp [remove, get?]
  | cons entry rest ih =>
      obtain ⟨k, v⟩ := entry
      rw [remove, List.filter_cons]
      by_cases hk : k = key
      · subst hk
        rw [if_neg (by simp)]
        rw [remove] at ih
        rw [ih, get?_cons]
        split_ifs <;> rfl
      · rw [if_pos (by simpa using hk)]
        rw [remove] at ih
        by_cases ho : other = k
        · subst ho
          simp [get?_cons, hk]
        · simp [get?_cons, ho, ih]

theorem mem_of_get? {table : Table α} {key : String} {value : α} (h : table.get? key = some value) :
    (key, value) ∈ table := by
  obtain ⟨before, after, rfl, -⟩ := List.lookup_eq_some_iff.mp h
  exact List.mem_append_right _ List.mem_cons_self

theorem get?_of_mem {table : Table α} (hnodup : table.keys.Nodup) {key : String} {value : α}
    (h : (key, value) ∈ table) : table.get? key = some value := by
  induction table with
  | nil => cases h
  | cons entry rest ih =>
      obtain ⟨hnew, hrest⟩ := List.nodup_cons.mp hnodup
      rw [get?_cons]
      rcases List.mem_cons.mp h with rfl | hmem
      · rw [if_pos rfl]
      · have hkey : key ∈ rest.map (·.1) := List.mem_map_of_mem hmem
        have hne : key ≠ entry.1 := by
          rintro rfl
          exact hnew hkey
        rw [if_neg hne, ih hrest hmem]

theorem get?_eq_none_iff {table : Table α} {key : String} :
    table.get? key = none ↔ key ∉ table.keys := by
  simp only [get?, List.lookup_eq_none_iff, keys, List.mem_map, not_exists, not_and, bne_iff_ne,
    ne_eq]
  constructor
  · intro h entry hmem heq
    exact h entry hmem heq.symm
  · intro h entry hmem heq
    exact h entry hmem heq.symm

theorem contains_eq_false_iff {table : Table α} {key : String} :
    table.contains key = false ↔ key ∉ table.keys := by
  rw [contains, Option.isSome_eq_false_iff, Option.isNone_iff_eq_none, get?_eq_none_iff]

theorem keys_put (table : Table α) (key : String) (value : α) :
    (table.put key value).keys = if key ∈ table.keys then table.keys else table.keys ++ [key] := by
  induction table with
  | nil => rfl
  | cons entry rest ih =>
      obtain ⟨k, v⟩ := entry
      by_cases hk : k = key
      · subst hk
        simp [put, keys]
      · have hk' : ¬key = k := fun h => hk h.symm
        simp only [put, if_neg hk, keys, List.map_cons, List.mem_cons, hk', false_or] at ih ⊢
        rw [ih]
        by_cases hmem : key ∈ rest.map (·.1)
        · simp only [hmem, if_true]
        · simp only [hmem, if_false, List.cons_append]

theorem nodup_keys_put {table : Table α} (h : table.keys.Nodup) (key : String) (value : α) :
    (table.put key value).keys.Nodup := by
  rw [keys_put]
  split_ifs with hmem
  · exact h
  · refine List.nodup_append.mpr ⟨h, by simp, ?_⟩
    rintro a ha b hb rfl
    exact hmem (List.mem_singleton.mp hb ▸ ha)

theorem mem_put {table : Table α} {key : String} {value : α} {entry : String × α}
    (h : entry ∈ table.put key value) : entry = (key, value) ∨ entry ∈ table := by
  induction table with
  | nil => exact Or.inl (List.mem_singleton.mp h)
  | cons first rest ih =>
      obtain ⟨k, v⟩ := first
      rw [put] at h
      split_ifs at h with hk
      · rcases List.mem_cons.mp h with heq | hmem
        · exact Or.inl heq
        · exact Or.inr (List.mem_cons_of_mem _ hmem)
      · rcases List.mem_cons.mp h with heq | hmem
        · exact Or.inr (heq ▸ List.mem_cons_self)
        · exact (ih hmem).imp_right (List.mem_cons_of_mem _)

/-- A new key goes to the end. -/
theorem put_of_not_mem {table : Table α} {key : String} (h : key ∉ table.keys) (value : α) :
    table.put key value = table ++ [(key, value)] := by
  induction table with
  | nil => rfl
  | cons entry rest ih =>
      obtain ⟨k, v⟩ := entry
      simp only [keys, List.map_cons, List.mem_cons, not_or] at h
      rw [put, if_neg (Ne.symm h.1), ih h.2, List.cons_append]

/-- The last key keeps its place. -/
theorem put_append_singleton {table : Table α} {key : String} (h : key ∉ table.keys)
    (old value : α) :
    Table.put key value (table ++ [(key, old)]) = table ++ [(key, value)] := by
  induction table with
  | nil => simp [put]
  | cons entry rest ih =>
      obtain ⟨k, v⟩ := entry
      simp only [keys, List.map_cons, List.mem_cons, not_or] at h
      rw [List.cons_append, put, if_neg (Ne.symm h.1), ih h.2, List.cons_append]

theorem put_put (table : Table α) (key : String) (old value : α) :
    (table.put key old).put key value = table.put key value := by
  induction table with
  | nil => simp [put]
  | cons entry rest ih =>
      obtain ⟨k, v⟩ := entry
      by_cases hk : k = key
      · simp [put, hk]
      · simp [put, hk, ih]

/-- A table that is computed key by key. -/
theorem get?_map (keys : List String) (f : String → α) (key : String) :
    Table.get? (keys.map fun k => (k, f k)) key = if key ∈ keys then some (f key) else none := by
  induction keys with
  | nil => rfl
  | cons k rest ih =>
      rw [List.map_cons, get?_cons, ih]
      by_cases hk : key = k
      · subst hk
        simp
      · simp [hk]

theorem put_map_of_mem {keys : List String} (hnodup : keys.Nodup) {key : String} (h : key ∈ keys)
    (f : String → α) (value : α) :
    Table.put key value (keys.map fun k => (k, f k)) =
      keys.map fun k => (k, if k = key then value else f k) := by
  induction keys with
  | nil => cases h
  | cons k rest ih =>
      obtain ⟨hnew, hrest⟩ := List.nodup_cons.mp hnodup
      rw [List.map_cons, List.map_cons, put]
      by_cases hk : k = key
      · subst hk
        have hsame : (rest.map fun other => (other, f other)) =
            rest.map fun other => (other, if other = k then value else f other) := by
          refine List.map_congr_left fun other hother => ?_
          have hne : other ≠ k := fun heq => hnew (heq ▸ hother)
          rw [if_neg hne]
        rw [if_pos rfl, if_pos rfl, hsame]
      · have hmem : key ∈ rest := (List.mem_cons.mp h).resolve_left fun heq => hk heq.symm
        rw [if_neg hk, if_neg hk, ih hrest hmem]

theorem not_mem_keys_append {table : Table α} {key other : String} (h : key ∉ table.keys)
    (hne : key ≠ other) (value : α) : key ∉ Table.keys (table ++ [(other, value)]) := by
  intro hmem
  rw [keys, List.map_append] at hmem
  rcases List.mem_append.mp hmem with hold | hlast
  · exact h hold
  · exact hne (List.mem_singleton.mp hlast)

end Table
end Polyglot
