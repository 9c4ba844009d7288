import Mathlib.Data.List.Nodup
import Mathlib.Data.List.Perm.Basic

/-!
# Keyed tables

A `Table` is the list of the rows of a database table in insertion order.  The primary key is part
of the type: two rows of a table never share a key, so a row is determined by its key and `find`
loses nothing against the list.
-/

namespace Reasoning

/-- Rows with a primary key. -/
class Keyed (ρ : Type) (κ : outParam Type) where
  key : ρ → κ

export Keyed (key)

structure Table (ρ : Type) {κ : Type} [Keyed ρ κ] where
  rows : List ρ
  keys_nodup : (rows.map key).Nodup

namespace Table

variable {ρ κ : Type} [Keyed ρ κ]

instance : EmptyCollection (Table ρ) := ⟨⟨[], List.nodup_nil⟩⟩

instance : Membership ρ (Table ρ) := ⟨fun t r => r ∈ t.rows⟩

@[simp] theorem rows_empty : (∅ : Table ρ).rows = [] := rfl

theorem mem_def {t : Table ρ} {r : ρ} : r ∈ t ↔ r ∈ t.rows := Iff.rfl

theorem ext_rows {s t : Table ρ} (h : s.rows = t.rows) : s = t := by
  cases s
  cases t
  congr

theorem eq_of_key_eq {t : Table ρ} {r s : ρ} (hr : r ∈ t) (hs : s ∈ t) (h : key r = key s) :
    r = s :=
  List.inj_on_of_nodup_map t.keys_nodup hr hs h

variable [DecidableEq κ]

/-- The row with the given primary key. -/
def find (t : Table ρ) (k : κ) : Option ρ :=
  t.rows.find? (fun r => decide (key r = k))

theorem find_eq_some {t : Table ρ} {k : κ} {r : ρ} : t.find k = some r ↔ r ∈ t ∧ key r = k := by
  constructor
  · intro h
    exact ⟨List.mem_of_find?_eq_some h, by simpa using List.find?_some h⟩
  · intro h
    rcases hf : t.find k with _ | s
    · have hn := List.find?_eq_none.mp hf r h.1
      simp [h.2] at hn
    · have hs : key s = k := by simpa using List.find?_some hf
      rw [eq_of_key_eq h.1 (List.mem_of_find?_eq_some hf) (h.2.trans hs.symm)]

theorem find_eq_none {t : Table ρ} {k : κ} : t.find k = none ↔ ∀ r ∈ t, key r ≠ k := by
  simp [find, List.find?_eq_none, mem_def]

theorem mem_of_find {t : Table ρ} {k : κ} {r : ρ} (h : t.find k = some r) : r ∈ t :=
  (find_eq_some.mp h).1

theorem key_of_find {t : Table ρ} {k : κ} {r : ρ} (h : t.find k = some r) : key r = k :=
  (find_eq_some.mp h).2

theorem find_of_mem {t : Table ρ} {r : ρ} (h : r ∈ t) : t.find (key r) = some r :=
  find_eq_some.mpr ⟨h, rfl⟩

@[simp] theorem find_empty (k : κ) : (∅ : Table ρ).find k = none := rfl

/-- One row has the key. -/
theorem filter_key {t : Table ρ} {k : κ} {r : ρ} (h : t.find k = some r) :
    t.rows.filter (fun s => key s = k) = [r] := by
  obtain ⟨hmem, hkey⟩ := find_eq_some.mp h
  have hnodup := t.keys_nodup.of_map
  have hsame : ∀ s ∈ t.rows.filter (fun s => key s = k), s = r := by
    intro s hs
    rw [List.mem_filter, decide_eq_true_iff] at hs
    exact eq_of_key_eq hs.1 hmem (hs.2.trans hkey.symm)
  have hr : r ∈ t.rows.filter (fun s => key s = k) :=
    List.mem_filter.mpr ⟨hmem, decide_eq_true hkey⟩
  have hperm : [r].Perm (t.rows.filter (fun s => key s = k)) := by
    rw [List.perm_ext_iff_of_nodup (List.nodup_singleton r) (hnodup.filter _)]
    intro s
    rw [List.mem_singleton]
    exact ⟨fun he => he ▸ hr, hsame s⟩
  exact (List.singleton_perm.mp hperm).symm

/-- The rows after writing `r`: the row with its key is replaced in place, a new key is appended. -/
def putRows (r : ρ) : List ρ → List ρ
  | [] => [r]
  | s :: rest => if key s = key r then r :: rest else s :: putRows r rest

theorem mem_putRows_key {r : ρ} {rows : List ρ} {k : κ} :
    k ∈ (putRows r rows).map key ↔ k = key r ∨ k ∈ rows.map key := by
  induction rows with
  | nil => simp [putRows]
  | cons s rest ih =>
      unfold putRows
      split
      · rename_i h
        simp only [List.map_cons, List.mem_cons, h]
        tauto
      · rw [List.map_cons, List.mem_cons, ih, List.map_cons, List.mem_cons]
        tauto

theorem putRows_nodup {r : ρ} {rows : List ρ} (h : (rows.map key).Nodup) :
    ((putRows r rows).map key).Nodup := by
  induction rows with
  | nil => simp [putRows]
  | cons s rest ih =>
      rw [List.map_cons, List.nodup_cons] at h
      unfold putRows
      split
      · rename_i hk
        rw [List.map_cons, List.nodup_cons, ← hk]
        exact h
      · rename_i hk
        rw [List.map_cons, List.nodup_cons, mem_putRows_key]
        exact ⟨fun hm => hm.elim hk h.1, ih h.2⟩

/-- Write a row: update the row with its key, or insert it. -/
def put (t : Table ρ) (r : ρ) : Table ρ :=
  ⟨putRows r t.rows, putRows_nodup t.keys_nodup⟩

theorem find_put (t : Table ρ) (r : ρ) (k : κ) :
    (t.put r).find k = if key r = k then some r else t.find k := by
  change (putRows r t.rows).find? _ = if key r = k then some r else t.rows.find? _
  generalize t.rows = rows
  induction rows with
  | nil =>
      by_cases h : key r = k <;> simp [putRows, h]
  | cons s rest ih =>
      unfold putRows
      by_cases hs : key s = key r
      · rw [if_pos hs]
        by_cases h : key r = k
        · simp [h]
        · simp [h, hs]
      · rw [if_neg hs, List.find?_cons, List.find?_cons]
        by_cases h : key s = k
        · have hne : key r ≠ k := fun hr => hs (h.trans hr.symm)
          simp [h, hne]
        · simp only [h, decide_false, ih]

@[simp] theorem find_put_self (t : Table ρ) (r : ρ) : (t.put r).find (key r) = some r := by
  rw [find_put, if_pos rfl]

theorem find_put_ne (t : Table ρ) {r : ρ} {k : κ} (h : key r ≠ k) :
    (t.put r).find k = t.find k := by
  rw [find_put, if_neg h]

theorem putRows_mem {r : ρ} {rows : List ρ} (hn : (rows.map key).Nodup) (h : r ∈ rows) :
    putRows r rows = rows := by
  induction rows with
  | nil => cases h
  | cons s rest ih =>
      rw [List.map_cons, List.nodup_cons] at hn
      unfold putRows
      split
      · rename_i hk
        rcases List.mem_cons.mp h with rfl | hr
        · rfl
        · exact absurd (hk ▸ List.mem_map_of_mem hr) hn.1
      · rename_i hk
        rcases List.mem_cons.mp h with rfl | hr
        · exact absurd rfl hk
        · rw [ih hn.2 hr]

/-- Writing a row that is there already changes nothing. -/
theorem put_of_find {t : Table ρ} {r : ρ} {k : κ} (h : t.find k = some r) : t.put r = t :=
  ext_rows (putRows_mem t.keys_nodup (mem_of_find h))

theorem mem_put {t : Table ρ} {r s : ρ} : s ∈ t.put r ↔ s = r ∨ s ∈ t ∧ key s ≠ key r := by
  constructor
  · intro h
    have hf := find_of_mem h
    rw [find_put] at hf
    split at hf
    · exact .inl (Option.some.inj hf).symm
    · rename_i hk
      exact .inr ⟨mem_of_find hf, Ne.symm hk⟩
  · intro h
    rcases h with rfl | ⟨hs, hk⟩
    · exact mem_of_find (find_put_self t s)
    · exact mem_of_find ((find_put_ne t (Ne.symm hk)).trans (find_of_mem hs))

theorem mem_put_self (t : Table ρ) (r : ρ) : r ∈ t.put r :=
  mem_put.mpr (.inl rfl)

/-- A write keeps every key. -/
theorem exists_key_put {t : Table ρ} {r : ρ} {k : κ} (h : ∃ s ∈ t, key s = k) :
    ∃ s ∈ t.put r, key s = k := by
  obtain ⟨s, hs, hk⟩ := h
  by_cases hr : key s = key r
  · exact ⟨r, mem_put_self t r, hr.symm.trans hk⟩
  · exact ⟨s, mem_put.mpr (.inr ⟨hs, hr⟩), hk⟩

/-- A row with a new key is appended. -/
theorem rows_put_of_find_none {t : Table ρ} {r : ρ} (h : t.find (key r) = none) :
    (t.put r).rows = t.rows ++ [r] := by
  have hn : ∀ s ∈ t.rows, key s ≠ key r := find_eq_none.mp h
  change putRows r t.rows = t.rows ++ [r]
  generalize t.rows = rows at hn
  induction rows with
  | nil => rfl
  | cons s rest ih =>
      unfold putRows
      rw [if_neg (hn s List.mem_cons_self), ih (fun x hx => hn x (List.mem_cons_of_mem s hx)),
        List.cons_append]

/-- A row with a stored key is replaced in place. -/
theorem rows_put_of_find_some {t : Table ρ} {r s : ρ} (h : t.find (key r) = some s) :
    (t.put r).rows = t.rows.map (fun x => if key x = key r then r else x) := by
  have hmem : s ∈ t.rows := mem_of_find h
  have hkey : key s = key r := key_of_find h
  have hnodup := t.keys_nodup
  change putRows r t.rows = _
  generalize t.rows = rows at hmem hnodup
  induction rows with
  | nil => cases hmem
  | cons x rest ih =>
      rw [List.map_cons, List.nodup_cons] at hnodup
      unfold putRows
      by_cases hx : key x = key r
      · rw [if_pos hx, List.map_cons, if_pos hx]
        congr 1
        symm
        -- the other rows have other keys
        refine (List.map_congr_left fun y hy => if_neg fun hyr => ?_).trans (List.map_id rest)
        exact hnodup.1 (hx.trans hyr.symm ▸ List.mem_map_of_mem hy)
      · rw [if_neg hx, List.map_cons, if_neg hx]
        rcases List.mem_cons.mp hmem with rfl | hm
        · exact absurd hkey hx
        · rw [ih hm hnodup.2]

theorem mem_keys {t : Table ρ} {k : κ} : k ∈ t.rows.map key ↔ (t.find k).isSome = true := by
  rw [Option.isSome_iff_ne_none, Ne, find_eq_none, List.mem_map]
  constructor
  · intro ⟨r, hr, hk⟩ h
    exact h r hr hk
  · intro h
    by_contra hn
    exact h fun r hr hk => hn ⟨r, hr, hk⟩

/-- A stored key is written in place, a new one is appended. -/
theorem keys_put_of_find_some {t : Table ρ} {r s : ρ} (h : t.find (key r) = some s) :
    (t.put r).rows.map key = t.rows.map key := by
  rw [rows_put_of_find_some h, List.map_map]
  apply List.map_congr_left
  intro x _
  change key (if key x = key r then r else x) = key x
  by_cases hx : key x = key r
  · rw [if_pos hx, hx]
  · rw [if_neg hx]

theorem keys_put_of_find_none {t : Table ρ} {r : ρ} (h : t.find (key r) = none) :
    (t.put r).rows.map key = t.rows.map key ++ [key r] := by
  rw [rows_put_of_find_none h, List.map_append, List.map_singleton]

end Table

end Reasoning
