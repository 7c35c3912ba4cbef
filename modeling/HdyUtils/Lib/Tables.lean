import Mathlib

/-! Tables of rows with a primary key, and the row that a key has after each change. -/

/-- A list of rows in which no two have the same key. -/
structure Table {κ : Type*} (ρ : Type*) (key : ρ → κ) where
  rows : List ρ
  unique : (rows.map key).Nodup

namespace Table

variable {κ ρ : Type*} [DecidableEq κ] {key : ρ → κ}

def empty : Table ρ key := ⟨[], List.nodup_nil⟩

/-- The row with a key. -/
def get (t : Table ρ key) (k : κ) : Option ρ := t.rows.find? fun r => key r = k

/-- Adds a row, in place of the one with its key. -/
def insertOrReplace (t : Table ρ key) (r : ρ) : Table ρ key where
  rows := t.rows.filter (fun r' => key r' ≠ key r) ++ [r]
  unique := by
    rw [List.map_append, List.map_singleton, List.nodup_append]
    refine ⟨t.unique.sublist (List.filter_sublist.map key), List.nodup_singleton _, ?_⟩
    intro k hk k' hk' heq
    obtain ⟨r', hr', rfl⟩ := List.mem_map.mp hk
    rw [List.mem_singleton.mp hk'] at heq
    simp [heq] at hr'

/-- Adds a row, unless there is one with its key. -/
def insertOrIgnore (t : Table ρ key) (r : ρ) : Table ρ key :=
  if (t.get (key r)).isSome then t else t.insertOrReplace r

/-- Changes the rows that meet a condition, and no key. -/
def update (t : Table ρ key) (p : ρ → Bool) (f : ρ → ρ) (hf : ∀ r, key (f r) = key r) :
    Table ρ key where
  rows := t.rows.map fun r => if p r then f r else r
  unique := by
    have hkeys : (t.rows.map fun r => if p r then f r else r).map key = t.rows.map key := by
      rw [List.map_map]
      refine List.map_congr_left fun r _ => ?_
      show key (if p r then f r else r) = key r
      split
      · exact hf r
      · rfl
    rw [hkeys]
    exact t.unique

/-- Takes out the rows that meet a condition. -/
def delete (t : Table ρ key) (p : ρ → Bool) : Table ρ key where
  rows := t.rows.filter fun r => !p r
  unique := t.unique.sublist (List.filter_sublist.map key)

variable {t : Table ρ key} {r : ρ} {k : κ} {p : ρ → Bool}

/-! ### Lookups -/

theorem get_eq_some_iff : t.get k = some r ↔ r ∈ t.rows ∧ key r = k := by
  unfold get
  constructor
  · intro h
    exact ⟨List.mem_of_find?_eq_some h, by simpa using List.find?_some h⟩
  · rintro ⟨hmem, rfl⟩
    cases hfind : t.rows.find? fun r' => key r' = key r with
    | none =>
      have hne := List.find?_eq_none.mp hfind r hmem
      simp at hne
    | some r' =>
      have hkey : key r' = key r := by simpa using List.find?_some hfind
      rw [List.inj_on_of_nodup_map t.unique (List.mem_of_find?_eq_some hfind) hmem hkey]

theorem key_of_get (h : t.get k = some r) : key r = k := (get_eq_some_iff.mp h).2

@[simp] theorem get_empty : (empty : Table ρ key).get k = none := rfl

theorem get_insertOrReplace (t : Table ρ key) (r : ρ) (k : κ) :
    (t.insertOrReplace r).get k = if key r = k then some r else t.get k := by
  ext r'
  rw [get_eq_some_iff]
  split
  · next hk =>
    simp only [insertOrReplace, List.mem_append, List.mem_filter, List.mem_singleton,
      decide_eq_true_eq, Option.some.injEq]
    constructor
    · rintro ⟨⟨-, hne⟩ | rfl, rfl⟩
      · exact absurd hk.symm hne
      · rfl
    · rintro rfl
      exact ⟨.inr rfl, hk⟩
  · next hk =>
    simp only [insertOrReplace, List.mem_append, List.mem_filter, List.mem_singleton,
      decide_eq_true_eq, get_eq_some_iff]
    constructor
    · rintro ⟨⟨hmem, -⟩ | rfl, hkey⟩
      · exact ⟨hmem, hkey⟩
      · exact absurd hkey hk
    · rintro ⟨hmem, rfl⟩
      exact ⟨.inl ⟨hmem, fun heq => hk heq.symm⟩, rfl⟩

theorem get_update (t : Table ρ key) (p : ρ → Bool) (f : ρ → ρ) (hf : ∀ r, key (f r) = key r)
    (k : κ) : (t.update p f hf).get k = (t.get k).map fun r => if p r then f r else r := by
  have hkey (r : ρ) : key (if p r then f r else r) = key r := by
    split
    · exact hf r
    · rfl
  ext r'
  rw [get_eq_some_iff, Option.map_eq_some_iff]
  simp only [update, List.mem_map, get_eq_some_iff]
  constructor
  · rintro ⟨⟨r, hmem, rfl⟩, hk⟩
    exact ⟨r, ⟨hmem, (hkey r).symm.trans hk⟩, rfl⟩
  · rintro ⟨r, ⟨hmem, hk⟩, rfl⟩
    exact ⟨⟨r, hmem, rfl⟩, (hkey r).trans hk⟩

theorem get_delete (t : Table ρ key) (p : ρ → Bool) (k : κ) :
    (t.delete p).get k = (t.get k).filter fun r => !p r := by
  ext r
  rw [get_eq_some_iff, Option.filter_eq_some_iff, get_eq_some_iff]
  simp only [delete, List.mem_filter]
  tauto

/-- A key that is in a table stays in it. -/
theorem isSome_insertOrIgnore (t : Table ρ key) (r : ρ) {k : κ} (h : (t.get k).isSome) :
    ((t.insertOrIgnore r).get k).isSome := by
  unfold insertOrIgnore
  split
  · exact h
  · rw [get_insertOrReplace]
    split
    · rfl
    · exact h

theorem isSome_insertOrIgnore_self (t : Table ρ key) (r : ρ) :
    ((t.insertOrIgnore r).get (key r)).isSome := by
  unfold insertOrIgnore
  split
  · assumption
  · rw [get_insertOrReplace, if_pos rfl]
    rfl

end Table
