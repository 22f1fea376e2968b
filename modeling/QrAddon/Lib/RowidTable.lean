import Mathlib

/-!
# Tables with SQLite row ids

A table without a primary key: every row has a `ROWID`, a new row gets one more
than the largest present (1 in an empty table), and the rows are kept in the
order of their ids. `values` forgets the ids; the lemmas say what each operation
does to `values`.
-/

structure RowidTable (α : Type) where
  rows : List (ℕ × α)
  sorted : (rows.map Prod.fst).Pairwise (· < ·)

namespace RowidTable

variable {α : Type}

def empty : RowidTable α := ⟨[], List.Pairwise.nil⟩

def values (t : RowidTable α) : List α := t.rows.map Prod.snd

def rowids (t : RowidTable α) : List ℕ := t.rows.map Prod.fst

/-- One more than the largest id. -/
def nextRowid (t : RowidTable α) : ℕ := (t.rowids.getLast?).elim 1 (· + 1)

theorem lt_nextRowid {t : RowidTable α} {i : ℕ} (h : i ∈ t.rowids) : i < t.nextRowid := by
  unfold nextRowid
  rcases List.eq_nil_or_concat t.rowids with hn | ⟨l, j, hl⟩
  · simp [hn] at h
  · have hs : (l ++ [j]).Pairwise (· < ·) := by
      rw [← List.concat_eq_append, ← hl]
      exact t.sorted
    rw [hl, List.concat_eq_append] at h ⊢
    simp only [List.getLast?_append, List.getLast?_singleton, Option.some_or, Option.elim_some]
    rcases List.mem_append.mp h with hi | hi
    · have := (List.pairwise_append.mp hs).2.2 i hi j (List.mem_singleton.mpr rfl)
      omega
    · have := List.mem_singleton.mp hi
      omega

def insert (t : RowidTable α) (a : α) : RowidTable α :=
  ⟨t.rows ++ [(t.nextRowid, a)], by
    rw [List.map_append, List.pairwise_append]
    refine ⟨t.sorted, List.pairwise_singleton _ _, ?_⟩
    intro i hi j hj
    simp only [List.map_cons, List.map_nil, List.mem_singleton] at hj
    rw [hj]
    exact lt_nextRowid hi⟩

/-- `DELETE ... WHERE ROWID = i`. -/
def delete (t : RowidTable α) (i : ℕ) : RowidTable α :=
  ⟨t.rows.filter fun r => r.1 ≠ i, by
    exact t.sorted.sublist (List.filter_sublist.map Prod.fst)⟩

@[simp] theorem values_empty : (empty : RowidTable α).values = [] := rfl

@[simp] theorem values_insert (t : RowidTable α) (a : α) :
    (t.insert a).values = t.values ++ [a] := by
  simp [insert, values]

@[simp] theorem rows_length (t : RowidTable α) : t.rows.length = t.values.length := by
  simp [values]

/-- Deleting the smallest id takes the oldest row away. -/
theorem values_delete_head {t : RowidTable α} {i : ℕ} (h : t.rowids.head? = some i) :
    (t.delete i).values = t.values.tail := by
  obtain ⟨rows, sorted⟩ := t
  simp only [rowids, delete, values] at h sorted ⊢
  cases rows with
  | nil => simp at h
  | cons r rest =>
    obtain ⟨j, a⟩ := r
    simp only [List.map_cons, List.head?_cons, Option.some.injEq] at h
    subst h
    simp only [List.map_cons, List.pairwise_cons] at sorted
    have hrest : rest.filter (fun r => r.1 ≠ j) = rest := by
      rw [List.filter_eq_self]
      intro r hr
      have := sorted.1 r.1 (List.mem_map_of_mem hr)
      simpa using Nat.ne_of_gt this
    rw [List.filter_cons_of_neg (by simp), hrest]
    rfl

/-! ## Renaming

`MapsTo f t u`: `u` has the rows of `t` under the same ids, each mapped by `f`. -/

section

variable {β : Type} {f : α → β} {t : RowidTable α} {u : RowidTable β}

def MapsTo (f : α → β) (t : RowidTable α) (u : RowidTable β) : Prop :=
  u.rows = t.rows.map (Prod.map id f)

theorem MapsTo.rowids (h : MapsTo f t u) : u.rowids = t.rowids := by
  have hrows : u.rows = t.rows.map (Prod.map id f) := h
  unfold RowidTable.rowids
  rw [hrows, List.map_map]
  rfl

theorem MapsTo.values (h : MapsTo f t u) : u.values = t.values.map f := by
  have hrows : u.rows = t.rows.map (Prod.map id f) := h
  unfold RowidTable.values
  rw [hrows, List.map_map, List.map_map]
  rfl

theorem MapsTo.insert (h : MapsTo f t u) (a : α) : MapsTo f (t.insert a) (u.insert (f a)) := by
  have hrows : u.rows = t.rows.map (Prod.map id f) := h
  have hnext : u.nextRowid = t.nextRowid := by
    unfold nextRowid
    rw [h.rowids]
  unfold MapsTo RowidTable.insert
  simp only [hrows, hnext, List.map_append, List.map_cons, List.map_nil, Prod.map_apply, id_eq]

theorem MapsTo.delete (h : MapsTo f t u) (i : ℕ) : MapsTo f (t.delete i) (u.delete i) := by
  have hrows : u.rows = t.rows.map (Prod.map id f) := h
  unfold MapsTo RowidTable.delete
  simp only [hrows, List.filter_map]
  rfl

end

end RowidTable
