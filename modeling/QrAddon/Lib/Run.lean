import Mathlib

/-!
# Runs of a deterministic machine

`exec step s l` is the state after the inputs `l`, and `visits step s l` lists
every state met on the way with the input taken there. An invariant is proved
once per step and lifted to a run by `exec_invariant`; a property of every step
of a run is one of every member of `visits`, and `mem_visits` turns a member
into a prefix of the run.
-/

namespace Run

variable {σ ι : Type} (step : σ → ι → σ)

def exec (s : σ) (l : List ι) : σ := l.foldl step s

def visits : σ → List ι → List (σ × ι)
  | _, [] => []
  | s, i :: l => (s, i) :: visits (step s i) l

variable {step}

@[simp] theorem exec_nil (s : σ) : exec step s [] = s := rfl

@[simp] theorem exec_cons (s : σ) (i : ι) (l : List ι) :
    exec step s (i :: l) = exec step (step s i) l := rfl

theorem exec_append (s : σ) (l m : List ι) :
    exec step s (l ++ m) = exec step (exec step s l) m := List.foldl_append

@[simp] theorem exec_snoc (s : σ) (l : List ι) (i : ι) :
    exec step s (l ++ [i]) = step (exec step s l) i := exec_append s l [i]

@[simp] theorem visits_nil (s : σ) : visits step s [] = [] := rfl

@[simp] theorem visits_cons (s : σ) (i : ι) (l : List ι) :
    visits step s (i :: l) = (s, i) :: visits step (step s i) l := rfl

theorem visits_append (s : σ) (l m : List ι) :
    visits step s (l ++ m) = visits step s l ++ visits step (exec step s l) m := by
  induction l generalizing s with
  | nil => rfl
  | cons i l ih => simp [ih]

@[simp] theorem visits_snoc (s : σ) (l : List ι) (i : ι) :
    visits step s (l ++ [i]) = visits step s l ++ [(exec step s l, i)] := visits_append s l [i]

/-- The inputs of the visits are the inputs of the run. -/
theorem visits_inputs (s : σ) (l : List ι) : (visits step s l).map Prod.snd = l := by
  induction l generalizing s with
  | nil => rfl
  | cons i l ih => simp [ih]

/-- A visit is a prefix of the run followed by one more input. -/
theorem mem_visits {s : σ} {l : List ι} {v : σ × ι} (h : v ∈ visits step s l) :
    ∃ pre post, l = pre ++ v.2 :: post ∧ v.1 = exec step s pre := by
  induction l generalizing s with
  | nil => simp at h
  | cons i l ih =>
    simp only [visits_cons, List.mem_cons] at h
    rcases h with rfl | h
    · exact ⟨[], l, rfl, rfl⟩
    · obtain ⟨pre, post, hl, hv⟩ := ih h
      exact ⟨i :: pre, post, by rw [hl]; rfl, hv⟩

/-- What holds at the start and is kept by every step of the run holds at its
end. -/
theorem exec_invariant {P : σ → Prop} {s : σ} {l : List ι} (h0 : P s)
    (hstep : ∀ v ∈ visits step s l, P v.1 → P (step v.1 v.2)) : P (exec step s l) := by
  induction l generalizing s with
  | nil => exact h0
  | cons i l ih =>
    refine ih (hstep (s, i) (by simp) h0) ?_
    intro v hv
    exact hstep v (by simp [hv])

/-- An invariant of the machine holds at every visit. -/
theorem visits_invariant {P : σ → Prop} {s : σ} {l : List ι} (h0 : P s)
    (hstep : ∀ s i, P s → P (step s i)) : ∀ v ∈ visits step s l, P v.1 := by
  intro v hv
  obtain ⟨pre, _, _, hs⟩ := mem_visits hv
  rw [hs]
  exact exec_invariant h0 fun w _ => hstep w.1 w.2

/-- Induction from the end on the inputs of two runs that correspond one to one. -/
theorem forall₂_snoc_induction {ι' : Type} {R : ι → ι' → Prop} {P : List ι → List ι' → Prop}
    (nil : P [] [])
    (snoc : ∀ l m a b, List.Forall₂ R l m → R a b → P l m → P (l ++ [a]) (m ++ [b]))
    {l : List ι} {m : List ι'} (h : List.Forall₂ R l m) : P l m := by
  induction l using List.reverseRecOn generalizing m with
  | nil =>
    cases h
    exact nil
  | append_singleton l a ih =>
    have hrev := List.forall₂_reverse_iff.mpr h
    rw [List.reverse_append, List.reverse_singleton, List.singleton_append] at hrev
    obtain ⟨b, mrev, hab, hlm, hm⟩ := List.forall₂_cons_left_iff.mp hrev
    have hm : m = mrev.reverse ++ [b] := by
      rw [← List.reverse_reverse m, hm, List.reverse_cons]
    have hlm : List.Forall₂ R l mrev.reverse := by
      rw [← List.reverse_reverse l]
      exact List.forall₂_reverse_iff.mpr hlm
    rw [hm]
    exact snoc l _ a b hlm hab (ih hlm)

end Run
