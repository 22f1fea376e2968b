import Mathlib

/-!
# Tables with a primary key

A table is a list of rows no two of which agree on the key. `insert` keeps the
table when the key is taken, `modify` rewrites the row of one key and may not
change a key, so a table with a duplicate key cannot be built. Every fact about
contents is stated for `find?`.
-/

structure KeyedTable {α κ : Type} (key : α → κ) where
  rows : List α
  nodup : (rows.map key).Nodup

namespace KeyedTable

variable {α κ : Type} {key : α → κ}

@[ext] theorem ext {t u : KeyedTable key} (h : t.rows = u.rows) : t = u := by
  cases t
  cases u
  simp only [mk.injEq]
  exact h

/-- The table without rows. -/
def empty (key : α → κ) : KeyedTable key := ⟨[], List.nodup_nil⟩

variable [DecidableEq κ]

/-- The row of a key. -/
def find? (t : KeyedTable key) (k : κ) : Option α := t.rows.find? fun a => key a = k

theorem find?_eq_some {t : KeyedTable key} {k : κ} {a : α} :
    t.find? k = some a ↔ a ∈ t.rows ∧ key a = k := by
  constructor
  · intro h
    exact ⟨List.mem_of_find?_eq_some h, by simpa using List.find?_some h⟩
  · rintro ⟨ha, rfl⟩
    obtain ⟨b, hb⟩ : ∃ b, t.find? (key a) = some b := by
      rw [← Option.isSome_iff_exists, find?, List.find?_isSome]
      exact ⟨a, ha, by simp⟩
    have hmem : b ∈ t.rows := List.mem_of_find?_eq_some hb
    have hkey : key b = key a := by simpa using List.find?_some hb
    rw [hb, List.inj_on_of_nodup_map t.nodup hmem ha hkey]

theorem find?_eq_none {t : KeyedTable key} {k : κ} :
    t.find? k = none ↔ k ∉ t.rows.map key := by
  rw [find?, List.find?_eq_none]
  simp only [decide_eq_true_eq, List.mem_map, not_exists, not_and]

@[simp] theorem find?_empty (k : κ) : (empty key).find? k = none := rfl

theorem key_of_find? {t : KeyedTable key} {k : κ} {a : α} (h : t.find? k = some a) : key a = k :=
  (find?_eq_some.mp h).2

/-- There is one row for a key that is found, and none for any other. -/
theorem count_rows (t : KeyedTable key) (k : κ) :
    (t.rows.filter fun a => key a = k).length = if (t.find? k).isSome then 1 else 0 := by
  have hcount : (t.rows.filter fun a => key a = k).length = (t.rows.map key).count k := by
    rw [List.count, List.countP_map, List.countP_eq_length_filter]
    congr 1
  rw [hcount]
  cases h : t.find? k with
  | none => simpa using List.count_eq_zero.mpr (find?_eq_none.mp h)
  | some a =>
    have hmem : k ∈ t.rows.map key :=
      List.mem_map.mpr ⟨a, (find?_eq_some.mp h).1, key_of_find? h⟩
    simpa using List.count_eq_one_of_mem t.nodup hmem

/-! ## Insert -/

/-- The row goes to the end, unless its key is taken. -/
def insert (t : KeyedTable key) (a : α) : KeyedTable key :=
  if h : key a ∈ t.rows.map key then t
  else ⟨t.rows ++ [a], by
    rw [List.map_append, List.nodup_append]
    refine ⟨t.nodup, List.nodup_singleton _, ?_⟩
    intro k hk k' hk' he
    simp only [List.map_cons, List.map_nil, List.mem_singleton] at hk'
    exact h (hk' ▸ he ▸ hk)⟩

theorem insert_of_found {t : KeyedTable key} {a : α} (h : t.find? (key a) ≠ none) :
    t.insert a = t := by
  unfold insert
  rw [dif_pos (by by_contra hn; exact h (find?_eq_none.mpr hn))]

theorem find?_insert {t : KeyedTable key} {a : α} (h : t.find? (key a) = none) (k : κ) :
    (t.insert a).find? k = if k = key a then some a else t.find? k := by
  have hrows : (t.insert a).rows = t.rows ++ [a] := by
    unfold insert
    rw [dif_neg (find?_eq_none.mp h)]
  unfold find? at h ⊢
  rw [hrows, List.find?_append]
  by_cases hk : k = key a
  · subst hk
    simp [h]
  · have hne : ¬ key a = k := fun he => hk he.symm
    simp [hk, hne]

/-! ## Update -/

/-- Rewrites the row of the key `k`. -/
def modify (t : KeyedTable key) (k : κ) (f : α → α) (hf : ∀ a, key (f a) = key a) :
    KeyedTable key :=
  ⟨t.rows.map fun a => if key a = k then f a else a, by
    have hkeys : (t.rows.map fun a => if key a = k then f a else a).map key = t.rows.map key := by
      rw [List.map_map]
      apply List.map_congr_left
      intro a _
      simp only [Function.comp_apply]
      split
      · exact hf a
      · rfl
    rw [hkeys]
    exact t.nodup⟩

theorem find?_modify (t : KeyedTable key) (k : κ) (f : α → α) (hf : ∀ a, key (f a) = key a)
    (k' : κ) : (t.modify k f hf).find? k' = if k' = k then (t.find? k').map f else t.find? k' := by
  have hcomp : ((fun a => decide (key a = k')) ∘ fun a => if key a = k then f a else a)
      = fun a => decide (key a = k') := by
    funext a
    simp only [Function.comp_apply]
    split
    · rw [hf]
    · rfl
  simp only [find?, modify, List.find?_map, hcomp]
  cases h : t.rows.find? fun a => key a = k' with
  | none => simp
  | some a =>
    have hkey : key a = k' := by simpa using List.find?_some h
    by_cases hk : k' = k <;> simp [hkey, hk]

/-! ## Sums over the rows -/

section

variable {w : α → ℕ} {t : KeyedTable key}

theorem rows_insert {a : α} (h : t.find? (key a) = none) : (t.insert a).rows = t.rows ++ [a] := by
  unfold insert
  rw [dif_neg (find?_eq_none.mp h)]

theorem length_modify (k : κ) (f : α → α) (hf : ∀ a, key (f a) = key a) :
    (t.modify k f hf).rows.length = t.rows.length := List.length_map _

/-- The weight of one row changes, that of the others stays. -/
theorem sum_modify {k : κ} {f : α → α} {hf : ∀ a, key (f a) = key a} {a : α}
    (ha : t.find? k = some a) {d : ℕ} (hd : w (f a) = w a + d) :
    ((t.modify k f hf).rows.map w).sum = (t.rows.map w).sum + d := by
  obtain ⟨hmem, rfl⟩ := find?_eq_some.mp ha
  obtain ⟨pre, post, hrows⟩ := List.append_of_mem hmem
  have hnodup := t.nodup
  rw [hrows, List.map_append, List.map_cons, List.nodup_middle, List.nodup_cons, List.mem_append]
    at hnodup
  have hother : ∀ l : List α, key a ∉ l.map key →
      l.map (fun b => if key b = key a then f b else b) = l := by
    intro l hl
    conv_rhs => rw [← List.map_id l]
    apply List.map_congr_left
    intro b hb
    refine if_neg fun h => hl ?_
    rw [← h]
    exact List.mem_map_of_mem hb
  obtain ⟨hpre, hpost⟩ := not_or.mp hnodup.1
  simp only [modify, hrows, List.map_append, List.map_cons, hother pre hpre, hother post hpost,
    if_true, List.sum_append, List.sum_cons, hd]
  omega

/-- A row that is there weighs no more than all of them. -/
theorem weight_le {k : κ} {a : α} (ha : t.find? k = some a) : w a ≤ (t.rows.map w).sum :=
  List.single_le_sum (fun _ _ => Nat.zero_le _) _ (List.mem_map_of_mem (find?_eq_some.mp ha).1)

end

/-! ## Renaming

`MapsTo f t u`: the rows of `u` are those of `t`, each mapped by `f`. If `f` acts on the
keys by an injective `g`, the operations keep this. -/

section

variable {β κ' : Type} {key' : β → κ'} {f : α → β} {g : κ → κ'} {t : KeyedTable key}
  {u : KeyedTable key'}

def MapsTo (f : α → β) (t : KeyedTable key) (u : KeyedTable key') : Prop := u.rows = t.rows.map f

variable [DecidableEq κ']

theorem MapsTo.find? (h : MapsTo f t u) (hf : ∀ a, key' (f a) = g (key a))
    (hg : Function.Injective g) (k : κ) : u.find? (g k) = (t.find? k).map f := by
  have hcomp : ((fun b => decide (key' b = g k)) ∘ f) = fun a => decide (key a = k) := by
    funext a
    simp only [Function.comp_apply, hf, hg.eq_iff]
  have hrows : u.rows = t.rows.map f := h
  unfold KeyedTable.find?
  rw [hrows, List.find?_map, hcomp]

theorem MapsTo.insert (h : MapsTo f t u) (hf : ∀ a, key' (f a) = g (key a))
    (hg : Function.Injective g) (a : α) : MapsTo f (t.insert a) (u.insert (f a)) := by
  have hrows : u.rows = t.rows.map f := h
  have hkeys : u.rows.map key' = (t.rows.map key).map g := by
    rw [hrows, List.map_map, List.map_map]
    exact List.map_congr_left fun a _ => hf a
  have hmem : key' (f a) ∈ u.rows.map key' ↔ key a ∈ t.rows.map key := by
    rw [hkeys, hf, List.mem_map_of_injective hg]
  unfold MapsTo KeyedTable.insert
  by_cases hk : key a ∈ t.rows.map key
  · rw [dif_pos hk, dif_pos (hmem.mpr hk)]
    exact h
  · rw [dif_neg hk, dif_neg (mt hmem.mp hk)]
    simp only [hrows, List.map_append, List.map_cons, List.map_nil]

theorem MapsTo.modify (h : MapsTo f t u) (hf : ∀ a, key' (f a) = g (key a))
    (hg : Function.Injective g) (k : κ) {φ : α → α} {φ' : β → β} (hφ : ∀ a, key (φ a) = key a)
    (hφ' : ∀ b, key' (φ' b) = key' b) (hcomm : ∀ a, φ' (f a) = f (φ a)) :
    MapsTo f (t.modify k φ hφ) (u.modify (g k) φ' hφ') := by
  have hrows : u.rows = t.rows.map f := h
  unfold MapsTo KeyedTable.modify
  simp only [hrows, List.map_map]
  apply List.map_congr_left
  intro a _
  simp only [Function.comp_apply, hf, hg.eq_iff]
  split
  · exact hcomm a
  · rfl

end

end KeyedTable
