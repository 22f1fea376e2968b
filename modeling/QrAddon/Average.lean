import QrAddon.Loop

/-!
# What `fitPose` averages

`fitPose` divides the sum of the selected rows by the configured threshold. The
number of rows it selects depends on what the log still holds: the retention
trigger, a failed insert or a branch that logged nothing leave fewer rows, and
then the result is not their mean.

Results:
1. `trueAverage_fitPose`: a call is a true average exactly when its query fails or
   the log holds as many rows of the code as the threshold says.
2. `fitCalls_average_iff`: the same for every call in every run of the main loop.
3. `half_pose`: with room for one row, two sightings give half of the pose.
-/

namespace QrAddon

section

variable [Doubles]

/-- A call of `fitPose` leaves the pose alone or stores the arithmetic mean of the rows
that its query selected, as doubles have it; it divides their sum by their number, and
without rows it changes nothing. -/
structure TrueAverage (c : FitCall) : Prop where
  pose : c.after = c.before ∨
    c.rows ≠ [] ∧ c.after.Averages (c.rows.map fun r => r.pose.read)
  divisor : ∀ k, c.divisor = some k → k = c.rows.length ∧ c.rows ≠ []
  empty : c.rows = [] → c.after = c.before

/-- The query fails, or the table holds at least as many rows of the code as the
threshold says, and at least one. -/
def FitCall.Covered (c : FitCall) : Prop :=
  c.ok = false ∨
    0 < c.threshold.toNat ∧ c.threshold.toNat ≤ (SelfDb.rowsOf c.id c.table).length

instance (c : FitCall) : Decidable c.Covered :=
  inferInstanceAs (Decidable (_ ∨ _ ∧ _))

def Event.fit? : Event → Option FitCall
  | .fit c => some c
  | _ => none

omit [Doubles] in
theorem Event.fit?_eq_some {e : Event} {c : FitCall} : e.fit? = some c ↔ e = .fit c := by
  cases e <;> simp [Event.fit?]

/-- All calls of `fitPose` in a run. -/
def fitCalls (cfg : Config ℚ) (account : Account) (l : List Act) : List FitCall :=
  (stepsMain cfg account l).flatMap fun v => (eventsOf cfg account v).filterMap Event.fit?

/-! ## One call -/

/-- A call is a true average exactly when it is covered. -/
theorem trueAverage_fitPose (ok : Bool) (scan : ScanOrder) (t : SelfTable) (n : UInt16)
    (dm : DmInfo ℚ) :
    TrueAverage (SelfDb.fitPose ok scan t n dm).2 ↔ (SelfDb.fitPose ok scan t n dm).2.Covered := by
  have hlen := SelfDb.length_fitRows scan t dm.id n
  cases ok with
  | false =>
    constructor
    · intro _
      exact .inl rfl
    · intro _
      exact ⟨.inl rfl, fun _ => (nomatch ·), fun _ => rfl⟩
  | true =>
    constructor
    · intro h
      -- the divisor is the threshold, the number of rows their minimum
      obtain ⟨hk, hne⟩ := h.divisor n.toNat rfl
      have hpos : 0 < (SelfDb.fitRows scan t dm.id n).length := List.length_pos_of_ne_nil hne
      have hk : n.toNat = (SelfDb.fitRows scan t dm.id n).length := hk
      have hcov : 0 < n.toNat ∧ n.toNat ≤ (SelfDb.rowsOf dm.id t.values).length := by omega
      exact .inr hcov
    · intro h
      obtain ⟨hpos, hle⟩ : 0 < n.toNat ∧ n.toNat ≤ (SelfDb.rowsOf dm.id t.values).length :=
        h.resolve_left fun hf => nomatch hf
      have hrows : (SelfDb.fitRows scan t dm.id n).length = n.toNat := by omega
      have hne : SelfDb.fitRows scan t dm.id n ≠ [] := by
        apply List.ne_nil_of_length_pos
        omega
      have hafter : (SelfDb.fitPose true scan t n dm).2.after = DmPose.computedMean
          ((SelfDb.fitRows scan t dm.id n).map fun r => r.pose.read) := SelfDb.fitPose_mean hrows
      have hmean : ((SelfDb.fitPose true scan t n dm).2.after).Averages
          ((SelfDb.fitRows scan t dm.id n).map fun r => r.pose.read) := by
        rw [hafter]
        apply DoublesLemmas.averages_of_perm (.refl _)
        · rwa [List.length_map, hrows]
        · rw [List.length_map, hrows]
          exact n.toNat_lt
      refine ⟨.inr ⟨hne, hmean⟩, ?_, fun h => absurd h hne⟩
      intro k hk
      obtain rfl : n.toNat = k := Option.some.inj hk
      exact ⟨hrows.symm, hne⟩

/-! ## Every call of a run -/

namespace AverageLemmas

variable {cfg : Config ℚ} {account : Account}

/-- A request is not a call of `fitPose`. -/
theorem requestOf_ne_fit (cfg : Config ℚ) (d : CustomerPackage ℚ) (env : BranchEnv) (t : Turn)
    (mode : Mode) (dm : DmInfo ℚ) (rpcId : UInt64) (c : FitCall) :
    .fit c ≠ requestOf cfg d env t mode dm rpcId := by
  unfold requestOf
  split <;> exact fun h => nomatch h

/-- The record is that of a call of `fitPose`. -/
def IsCall (c : FitCall) : Prop := ∃ ok scan tab n dm, c = (SelfDb.fitPose ok scan tab n dm).2

/-- A branch adds no record of `fitPose` but that of a call it makes. -/
theorem branch_fit {d : CustomerPackage ℚ} {env : BranchEnv} {mode : Mode} {t t' : Turn}
    (h : BranchStep cfg account d env mode t t') {c : FitCall} (hc : .fit c ∈ t'.events) :
    .fit c ∈ t.events ∨ IsCall c := by
  cases h with
  | unknown _ _ _ _ hev | disabled _ _ _ _ _ _ _ hev =>
    left
    simpa [hev] using hc
  | recommended r hrow hoff hcnt hdm huser hlog hev =>
    rw [hev] at hc
    rcases List.mem_append.mp hc with hc | hc
    · exact .inl hc
    · simp only [List.mem_cons, reduceCtorEq, Event.fit.injEq, List.not_mem_nil, or_false,
        false_or] at hc
      exact .inr ⟨_, _, _, _, _, hc⟩
  | near _ _ _ _ _ _ _ hev | far _ _ _ _ _ _ _ hev =>
    left
    simpa [hev, requestOf_ne_fit] using hc

theorem fit_of_mem {l : List Act} {c : FitCall} (hc : c ∈ fitCalls cfg account l) : IsCall c := by
  obtain ⟨⟨s, a⟩, hv, hc⟩ := List.mem_flatMap.mp hc
  obtain ⟨e, he, hec⟩ := List.mem_filterMap.mp hc
  obtain rfl : e = .fit c := Event.fit?_eq_some.mp hec
  cases a with
  | toggle id b => cases he
  | sighting i =>
    have hbody : ∀ c, .fit c ∈ (iterate cfg account s i).events → IsCall c := by
      apply loopBody_invariant (P := fun t => ∀ c, .fit c ∈ t.events → IsCall c)
        (s := s.trigger i.trig i.deviInfo) (stepsMain_whetherCb hv)
      · exact fun _ => nofun
      · intro env mode t t' hb ht c hc
        exact (branch_fit hb hc).elim (ht c) id
    exact hbody c he

end AverageLemmas

open AverageLemmas

variable {cfg : Config ℚ} {account : Account}

/-- In every run from empty databases, a call of `fitPose` is a true average exactly
when its query fails or the log still holds at least the threshold's number of
rows of the code, and at least one. -/
theorem fitCalls_average_iff {l : List Act} {c : FitCall} (hc : c ∈ fitCalls cfg account l) :
    TrueAverage c ↔ c.Covered := by
  obtain ⟨ok, scan, tab, n, dm, rfl⟩ := fit_of_mem hc
  exact trueAverage_fitPose ok scan tab n dm

end

open scoped Exact

/-- `exConfig` with a log of one row. -/
def exTight : Config ℚ := { exConfig with maxRowSelfDb := 1 }

/-- The code 7, recorded twice at the same pose. -/
def exStill : List Act :=
  [.sighting (exSighting .recording 7 ⟨8, 4, 0⟩), .sighting (exSighting .recording 7 ⟨8, 4, 0⟩)]

/-- With enough room, the two recordings are averaged. -/
theorem fitCalls_average_exStill : ∃ c ∈ fitCalls exConfig exAccount exStill, TrueAverage c := by
  have hmem : ∃ c ∈ fitCalls exConfig exAccount exStill, c.Covered := by decide +kernel
  obtain ⟨c, hc, hcov⟩ := hmem
  exact ⟨c, hc, (fitCalls_average_iff hc).mpr hcov⟩

/-- The trigger keeps one row, `fitPose` divides it by the repeat number 2, and the
code that was seen twice at (8, 4) is recommended at (4, 2). -/
theorem half_pose : ∃ c ∈ fitCalls exTight exAccount exStill,
    c.rows.length = 1 ∧ c.divisor = some 2 ∧ c.before = ⟨8, 4, 0⟩ ∧ c.after = ⟨4, 2, 0⟩ ∧
      ¬ TrueAverage c := by
  have hmem : ∃ c ∈ fitCalls exTight exAccount exStill,
      c.rows.length = 1 ∧ c.divisor = some 2 ∧ c.before = ⟨8, 4, 0⟩ ∧ c.after = ⟨4, 2, 0⟩ := by
    decide +kernel
  obtain ⟨c, hc, hrows, hdiv, hbefore, hafter⟩ := hmem
  refine ⟨c, hc, hrows, hdiv, hbefore, hafter, ?_⟩
  intro h
  have := (h.divisor 2 hdiv).1
  omega

end QrAddon
