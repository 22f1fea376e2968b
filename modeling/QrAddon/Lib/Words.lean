import Mathlib

/-!
# The words of an input

A reader that skips separators and takes what stands in front of the next one, again and
again, gets the pieces between the separators in their order. `next?` is one turn of the
reader and `all` are the pieces.
-/

namespace Words

variable {α : Type} (sep : α → Bool)

/-- The next word of the input and what stands behind it. -/
def next? (l : List α) : Option (List α × List α) :=
  match l.dropWhile sep with
  | [] => none
  | a :: l => some ((a :: l).takeWhile fun b => !sep b, (a :: l).dropWhile fun b => !sep b)

/-- The pieces between the separators. -/
def all (l : List α) : List (List α) := (l.splitOnP sep).filter fun w => !w.isEmpty

variable {sep}

theorem all_cons_sep {a : α} (ha : sep a = true) (l : List α) : all sep (a :: l) = all sep l := by
  rw [all, all, List.splitOnP_cons_eq_if_modifyHead, if_pos ha]
  rfl

theorem all_dropWhile (l : List α) : all sep (l.dropWhile sep) = all sep l := by
  induction l with
  | nil => rfl
  | cons a l ih =>
    by_cases ha : sep a = true
    · rw [List.dropWhile_cons_of_pos ha, ih, all_cons_sep ha]
    · rw [List.dropWhile_cons_of_neg ha]

theorem all_word {w : List α} (hne : w ≠ []) (hw : ∀ a ∈ w, sep a = false) {rest : List α}
    (hrest : ∀ a ∈ rest.head?, sep a = true) : all sep (w ++ rest) = w :: all sep rest := by
  cases rest with
  | nil =>
    rw [List.append_nil, all, List.splitOnP_eq_singleton hw]
    simpa [all] using hne
  | cons a rest =>
    have ha : sep a = true := hrest a rfl
    rw [all_cons_sep ha, all, List.splitOnP_append_cons_of_forall_mem hw a ha]
    simp [all, hne]

theorem all_of_none {l : List α} (h : next? sep l = none) : all sep l = [] := by
  rw [← all_dropWhile]
  unfold next? at h
  split at h
  · next hnil =>
    rw [hnil]
    rfl
  · cases h

theorem all_of_some {l w rest : List α} (h : next? sep l = some (w, rest)) :
    all sep l = w :: all sep rest := by
  rw [← all_dropWhile]
  unfold next? at h
  split at h
  · cases h
  · next a l' hcons =>
    obtain ⟨rfl, rfl⟩ := Prod.mk.inj (Option.some.inj h)
    have ha : sep a = false := by
      have hhead := List.head?_dropWhile_not sep l
      rw [hcons] at hhead
      simpa using hhead
    rw [hcons]
    conv_lhs => rw [← List.takeWhile_append_dropWhile (p := fun b => !sep b) (l := a :: l')]
    apply all_word
    · simp [ha]
    · intro b hb
      simpa using List.mem_takeWhile_imp hb
    · intro b hb
      have hhead := List.head?_dropWhile_not (fun b => !sep b) (a :: l')
      rw [Option.mem_def.mp hb] at hhead
      simpa using hhead

/-- A turn of the reader takes a piece from the front of the input. -/
theorem append_of_some {l w rest : List α} (h : next? sep l = some (w, rest)) :
    ∃ blank, l = blank ++ w ++ rest ∧ ∀ a ∈ blank, sep a = true := by
  refine ⟨l.takeWhile sep, ?_, fun a ha => List.mem_takeWhile_imp ha⟩
  unfold next? at h
  split at h
  · cases h
  · next a l' hcons =>
    obtain ⟨rfl, rfl⟩ := Prod.mk.inj (Option.some.inj h)
    rw [List.append_assoc, List.takeWhile_append_dropWhile, ← hcons,
      List.takeWhile_append_dropWhile]

end Words
