import QrAddon.Lib.Run

/-!
# A slot and a condition variable without a predicate

A producer overwrites a slot and notifies; a consumer locks, waits, and on waking
up takes what the slot holds. The notification reaches the consumer only inside
`wait`, and nothing remembers one that came too early. The consumer also leaves
the lock between taking a value and coming back to wait.

`delivered_iff`: in a run of any machine that embeds such a slot, every published
value is taken exactly once and in order, except for one that is about to be
taken, exactly when every publication happens while the consumer is waiting.
-/

namespace Mailbox

/-- Where the consumer is: about to lock and wait, inside `wait`, woken up but
without the lock, and between taking a value and locking again. -/
inductive Pc
  | entering
  | waiting
  | notified
  | between
deriving DecidableEq, Repr

/-- The slot, with the history of what was written to it and what was taken. -/
structure State (α : Type) where
  pc : Pc
  slot : α
  published : List α
  taken : List α

inductive Label (α : Type)
  | publish (a : α)
  | consumer

variable {α : Type}

/-- `notify_one`. -/
def Pc.notify : Pc → Pc
  | .waiting => .notified
  | pc => pc

def step (s : State α) : Label α → State α
  | .publish a =>
    { s with slot := a, published := s.published ++ [a], pc := s.pc.notify }
  | .consumer =>
    match s.pc with
    | .entering => { s with pc := .waiting }
    -- inside `wait` the consumer is blocked
    | .waiting => s
    | .notified => { s with pc := .between, taken := s.taken ++ [s.slot] }
    | .between => { s with pc := .entering }

/-- What a woken consumer is about to take. -/
def State.pending (s : State α) : List α := if s.pc = .notified then [s.slot] else []

/-- Everything published was taken, exactly once and in order, or is pending. -/
def State.Delivered (s : State α) : Prop := s.published = s.taken ++ s.pending

/-- More was published than taken and pending. -/
def State.Behind (s : State α) : Prop := (s.taken ++ s.pending).length < s.published.length

theorem State.Behind.not_delivered {s : State α} (h : s.Behind) : ¬ s.Delivered := by
  intro hd
  unfold Behind at h
  rw [← hd] at h
  exact lt_irrefl _ h

@[simp] theorem pending_of_ne {s : State α} (h : s.pc ≠ .notified) : s.pending = [] := if_neg h

@[simp] theorem pending_of_eq {s : State α} (h : s.pc = .notified) : s.pending = [s.slot] :=
  if_pos h

/-! ## One step -/

/-- The consumer moves a value from pending to taken. -/
theorem consumer_kept (s : State α) :
    (step s .consumer).published = s.published ∧
      (step s .consumer).taken ++ (step s .consumer).pending = s.taken ++ s.pending := by
  cases h : s.pc <;> simp [step, h, State.pending]

theorem length_publish (s : State α) (a : α) :
    (step s (.publish a)).published.length = s.published.length + 1 := List.length_append

/-- A publication to a waiting consumer becomes pending. -/
theorem publish_waiting {s : State α} (h : s.pc = .waiting) (a : α) :
    (step s (.publish a)).taken ++ (step s (.publish a)).pending =
      s.taken ++ s.pending ++ [a] := by
  simp [step, h, State.pending, Pc.notify]

/-- A publication to any other consumer is overwritten or overwrites. -/
theorem publish_elsewhere {s : State α} (h : s.pc ≠ .waiting) (a : α) :
    ((step s (.publish a)).taken ++ (step s (.publish a)).pending).length =
      (s.taken ++ s.pending).length := by
  cases hpc : s.pc with
  | waiting => exact absurd hpc h
  | entering => simp [step, hpc, State.pending, Pc.notify]
  | notified => simp [step, hpc, State.pending, Pc.notify]
  | between => simp [step, hpc, State.pending, Pc.notify]

theorem step_delivered {s : State α} (hs : s.Delivered) {e : Label α}
    (he : ∀ a, e = .publish a → s.pc = .waiting) : (step s e).Delivered := by
  unfold State.Delivered at hs ⊢
  cases e with
  | consumer =>
    obtain ⟨hp, ht⟩ := consumer_kept s
    rw [hp, ht]
    exact hs
  | publish a =>
    rw [publish_waiting (he a rfl), ← hs]
    rfl

theorem step_behind {s : State α} (hs : s.Behind) (e : Label α) : (step s e).Behind := by
  unfold State.Behind at hs ⊢
  cases e with
  | consumer =>
    obtain ⟨hp, ht⟩ := consumer_kept s
    rw [hp, ht]
    exact hs
  | publish a =>
    have hpub := length_publish s a
    by_cases h : s.pc = .waiting
    · rw [publish_waiting h, List.length_append, hpub]
      exact Nat.add_lt_add_right hs 1
    · rw [publish_elsewhere h, hpub]
      exact Nat.lt_succ_of_lt hs

/-- A publication that finds no waiting consumer puts the consumer behind. -/
theorem step_missed {s : State α} (hs : s.Delivered) (h : s.pc ≠ .waiting) (a : α) :
    (step s (.publish a)).Behind := by
  unfold State.Behind
  rw [publish_elsewhere h, length_publish, hs]
  exact Nat.lt_succ_self _

/-! ## Runs of a machine with a mailbox in it -/

section

variable {σ ι : Type} {next : σ → ι → σ} {view : σ → State α} {label : σ → ι → Option (Label α)}

/-- Along a run, the consumer is up to date or behind. -/
theorem delivered_or_behind
    (hview : ∀ s i, view (next s i) = (label s i).elim (view s) (step (view s)))
    {s : σ} (h0 : (view s).Delivered) (l : List ι) :
    (view (Run.exec next s l)).Delivered ∨ (view (Run.exec next s l)).Behind := by
  refine Run.exec_invariant (P := fun s => (view s).Delivered ∨ (view s).Behind) (.inl h0) ?_
  rintro ⟨s, i⟩ _ h
  simp only [hview]
  cases hl : label s i with
  | none => exact h
  | some e =>
    simp only [Option.elim_some]
    rcases h with h | h
    · by_cases he : ∀ a, e = .publish a → (view s).pc = .waiting
      · exact .inl (step_delivered h he)
      · obtain ⟨a, ha⟩ := not_forall.mp he
        obtain ⟨rfl, hpc⟩ := Classical.not_imp.mp ha
        exact .inr (step_missed h hpc a)
    · exact .inr (step_behind h e)

/-- A machine whose steps are mailbox steps or leave the mailbox alone delivers
everything exactly when it publishes only to a waiting consumer. -/
theorem delivered_iff
    (hview : ∀ s i, view (next s i) = (label s i).elim (view s) (step (view s)))
    {s : σ} (h0 : (view s).Delivered) (l : List ι) :
    (view (Run.exec next s l)).Delivered ↔
      ∀ v ∈ Run.visits next s l, ∀ a, label v.1 v.2 = some (.publish a) →
        (view v.1).pc = .waiting := by
  constructor
  · intro h v hv a ha
    by_contra hpc
    obtain ⟨pre, post, hl, hpre⟩ := Run.mem_visits hv
    have hbehind : (view (next v.1 v.2)).Behind := by
      rw [hview, ha]
      simp only [Option.elim_some]
      rcases delivered_or_behind hview h0 pre with hd | hb
      · rw [hpre] at hpc ⊢
        exact step_missed hd hpc a
      · rw [hpre]
        exact step_behind hb _
    -- what is missed stays missed
    have hend : (view (Run.exec next (next v.1 v.2) post)).Behind := by
      refine Run.exec_invariant (P := fun s => (view s).Behind) hbehind ?_
      rintro ⟨s, i⟩ _ hb
      simp only [hview]
      cases label s i with
      | none => exact hb
      | some e => exact step_behind hb e
    rw [hl, Run.exec_append, Run.exec_cons, ← hpre] at h
    exact hend.not_delivered h
  · intro h
    refine Run.exec_invariant (P := fun s => (view s).Delivered) h0 ?_
    rintro ⟨s, i⟩ hv hd
    simp only [hview]
    cases hl : label s i with
    | none => exact hd
    | some e => exact step_delivered hd fun a ha => h (s, i) hv a (hl.trans (congrArg some ha))

end

end Mailbox
