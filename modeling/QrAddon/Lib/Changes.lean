import Mathlib

/-!
# Repeat suppression with a sentinel

A stream of records, of which only the changes are passed on: a record whose key is
the key of the record before it is dropped. `changes` is that list. A program keeps the
last key in a memory that must hold something before the first record: `suppress` is
that program, with what the memory holds as its first argument.

`suppress_eq_changes_iff`: the two agree exactly when the first record does not have the
key that the memory starts with. `suppress_length_le` makes a disagreement on one of
several streams visible in their concatenation.
-/

namespace Changes

variable {α κ : Type} [DecidableEq κ] (key : α → κ)

/-- The first record, and every record whose key differs from that of the record before
it. -/
def changes (l : List α) : List α :=
  (((none :: l.map fun a => some (key a)).zip l).filter fun p => p.1 ≠ some (key p.2)).map
    Prod.snd

/-- The loop: a record is passed on and remembered when its key is not the one in the
memory. -/
def suppress (memory : κ) : List α → List α
  | [] => []
  | a :: l => if key a ≠ memory then a :: suppress (key a) l else suppress memory l

/-- What the memory holds is the key of the record before, so `suppress` compares every
record with its predecessor, and the first one with the sentinel. -/
theorem suppress_eq (memory : κ) (l : List α) :
    suppress key memory l =
      (((some memory :: l.map fun a => some (key a)).zip l).filter
        fun p => p.1 ≠ some (key p.2)).map Prod.snd := by
  induction l generalizing memory with
  | nil => rfl
  | cons a l ih =>
    rw [suppress]
    split
    · next h => simp [ih, Ne.symm h]
    · next h =>
      obtain rfl : key a = memory := not_not.mp h
      simp [ih]

theorem changes_cons (a : α) (l : List α) :
    changes key (a :: l) = a :: suppress key (key a) l := by
  rw [suppress_eq]
  rfl

/-- A first record that the memory does not know starts the list of changes. -/
theorem suppress_of_head {memory : κ} {l : List α}
    (h : (l.head?.map key) ≠ some memory) : suppress key memory l = changes key l := by
  cases l with
  | nil => rfl
  | cons a l =>
    have ha : key a ≠ memory := by simpa using h
    rw [suppress, if_pos ha, changes_cons]

/-- A first record with the key in the memory is missing. -/
theorem suppress_of_sentinel {memory : κ} {l : List α}
    (h : (l.head?.map key) = some memory) :
    (suppress key memory l).length + 1 = (changes key l).length := by
  cases l with
  | nil => cases h
  | cons a l =>
    obtain rfl : key a = memory := by simpa using h
    rw [suppress, if_neg (not_not.mpr rfl), changes_cons, List.length_cons]

/-- The suppressed stream, under any map, is that of the changes exactly when the first
key is not the sentinel. -/
theorem suppress_eq_changes_iff {β : Type} (f : α → β) {memory : κ} {l : List α} :
    (suppress key memory l).map f = (changes key l).map f ↔
      (l.head?.map key) ≠ some memory := by
  constructor
  · intro h hs
    have hlen := congrArg List.length h
    rw [List.length_map, List.length_map, ← suppress_of_sentinel key hs] at hlen
    exact Nat.succ_ne_self _ hlen.symm
  · intro h
    rw [suppress_of_head key h]

theorem suppress_length_le (memory : κ) (l : List α) :
    (suppress key memory l).length ≤ (changes key l).length := by
  by_cases h : (l.head?.map key) = some memory
  · exact (suppress_of_sentinel key h).le.trans' (Nat.le_succ _)
  · rw [suppress_of_head key h]

/-- Of two ways to make lists from the members of a list, the second never shorter: the
concatenations agree exactly when every member's lists do. -/
theorem flatMap_eq_iff {γ β : Type} {f g : γ → List β} {l : List γ}
    (hle : ∀ c ∈ l, (f c).length ≤ (g c).length) :
    l.flatMap f = l.flatMap g ↔ ∀ c ∈ l, f c = g c := by
  constructor
  · intro h
    induction l with
    | nil => exact nofun
    | cons c l ih =>
      have hc := hle c List.mem_cons_self
      have hl : ∀ c ∈ l, (f c).length ≤ (g c).length := fun c hc => hle c (by simp [hc])
      have hrest : (l.flatMap f).length ≤ (l.flatMap g).length := by
        simp only [List.length_flatMap]
        exact List.sum_le_sum hl
      rw [List.flatMap_cons, List.flatMap_cons] at h
      have hlen := congrArg List.length h
      rw [List.length_append, List.length_append] at hlen
      obtain ⟨hhead, htail⟩ := List.append_inj h (by omega)
      intro c' hc'
      rcases List.mem_cons.mp hc' with rfl | hc'
      · exact hhead
      · exact ih hl htail c' hc'
  · exact List.flatMap_congr

end Changes
