import QrAddon.Smooth

/-!
# When a code is recommended

The repeat number is tested by equality, on one counter for both modes, and only for a
code that the look-up found disabled. RECORDING also recommends every enabled code that
it meets. A count can therefore pass the repeat number without a test.

Results:
1. `recommended_run`: over a clean run, the flag of a code records whether one of its
   sightings was such an occasion.
2. `oftenRecommended_iff`: a code that was counted often enough is recommended exactly
   when there was one.
3. `recommend_missed`: two sightings in LOCALIZATION, and the RECORDING count starts at
   three.
-/

namespace QrAddon

section

variable [Doubles]

open LifecycleLemmas

section

variable (cfg : Config ℚ) (account : Account)

/-- The flag of a code, false without a row. -/
def recommended (s : Main) (id : UInt32) : Bool := (s.user.find? id).any (·.recommend)

/-- The sighting finds a row and recommends it: its count reaches the repeat number, or
RECORDING meets it enabled. -/
def Recommends (v : Main × Sighting) : Prop :=
  ∃ r ∈ v.1.user.find? v.2.deviInfo.dmId,
    Reaches cfg v.2.mode r ∨ r.enable = true ∧ v.2.mode = .recording

instance (v : Main × Sighting) : Decidable (Recommends cfg v) :=
  inferInstanceAs (Decidable (∃ r ∈ v.1.user.find? v.2.deviInfo.dmId, _ ∨ _ ∧ _))

/-- The sighting is of a code that is not enabled, and it counts it for at least the
repeat number's time. -/
def Due (v : Main × Sighting) : Prop :=
  match v.1.user.find? v.2.deviInfo.dmId with
  | none => (cfg.repeatNum v.2.mode).toNat ≤ 1
  | some r => r.enable = false ∧ (cfg.repeatNum v.2.mode).toNat ≤ (counted r).cnt.toNat

/-- Behind the iteration, the code is recommended if it is disabled and its count is at
least the repeat number of the mode. -/
def OftenIsRecommended (v : Main × Sighting) : Prop :=
  ∀ r ∈ (iterate cfg account v.1 v.2).user.find? v.2.deviInfo.dmId,
    r.enable = false → (cfg.repeatNum v.2.mode).toNat ≤ r.dmCnt → r.recommend = true

end

namespace RecommendLemmas

variable {cfg : Config ℚ} {account : Account} {s : Main} {i : Sighting}

theorem recommended_toggle (id' : UInt32) (b : Bool) (id : UInt32) :
    recommended (act cfg account s (.toggle id' b)) id = recommended s id := by
  simp only [recommended, act, UserDb.find?_setEnable]
  split
  · cases s.user.find? id <;> rfl
  · rfl

theorem recommended_other (h : s.whetherCb = false) (hi : i.Clean) {id : UInt32}
    (hid : i.deviInfo.dmId ≠ id) :
    recommended (iterate cfg account s i).toMain id = recommended s id := by
  simp only [recommended]
  rw [clean_other h hi hid]

/-- A clean sighting sets the flag of its code if it is such an occasion, and never
clears it. -/
theorem recommended_own (h : s.whetherCb = false) (hi : i.Clean) :
    recommended (iterate cfg account s i).toMain i.deviInfo.dmId = true ↔
      recommended s i.deviInfo.dmId = true ∨ Recommends cfg (s, i) := by
  cases hrow : s.user.find? i.deviInfo.dmId with
  | none =>
    have hnew := (clean_none cfg account h hi hrow).1
    simp [recommended, Recommends, hrow, hnew, UserDb.row]
  | some r =>
    have hfind := (clean_some cfg account h hi hrow).1
    simp only [recommended, Recommends, hrow, hfind, Option.any_some, UserDb.setColumns,
      Option.mem_def, Option.some.injEq, exists_eq_left']
    exact rewritten_recommend

end RecommendLemmas

open RecommendLemmas

variable {cfg : Config ℚ} {account : Account}

/-- The flag of a code over a clean run. -/
theorem recommended_run {l : List Act} (hclean : ∀ a ∈ l, a.Clean) (id : UInt32) :
    recommended (runMain cfg account l) id = true ↔
      ∃ v ∈ sightingsOf cfg account id l, Recommends cfg v := by
  induction l using List.reverseRecOn with
  | nil => simp [recommended, runMain, Main.start, sightingsOf, stepsMain]
  | append_singleton l a ih =>
    have ih := ih fun b hb => hclean b (List.mem_append_left _ hb)
    have hflag := runMain_whetherCb cfg account l
    rw [runMain_snoc]
    cases a with
    | toggle id' b => rw [recommended_toggle, sightingsOf_toggle, ih]
    | sighting i =>
      have hi : i.Clean := hclean (.sighting i) (by simp)
      rw [sightingsOf_sighting]
      by_cases hid : i.deviInfo.dmId = id
      · subst hid
        rw [if_pos rfl]
        simp only [List.mem_append, List.mem_singleton, or_and_right, exists_or, exists_eq_left]
        exact (recommended_own hflag hi).trans (or_congr ih Iff.rfl)
      · rw [if_neg hid, List.append_nil, ← ih]
        simp only [act, recommended_other hflag hi hid]

/-- The property in terms of the state before the iteration. -/
theorem oftenRecommended_due {s : Main} {i : Sighting} (h : s.whetherCb = false) (hi : i.Clean) :
    OftenIsRecommended cfg account (s, i) ↔ (Due cfg (s, i) →
      recommended (iterate cfg account s i).toMain i.deviInfo.dmId = true) := by
  cases hrow : s.user.find? i.deviInfo.dmId with
  | none =>
    have hnew := (clean_none cfg account h hi hrow).1
    simp [OftenIsRecommended, Due, recommended, hrow, hnew, UserDb.row]
  | some r =>
    have hfind := (clean_some cfg account h hi hrow).1
    simp only [OftenIsRecommended, Due, recommended, hrow, hfind, Option.mem_def,
      Option.some.injEq, forall_eq', UserDb.setColumns, rewritten_enable, rewritten_cnt,
      counted_cnt, and_imp,
      Option.any_some]

variable (cfg account) in
/-- Behind a sighting that ends a clean run, a code that is disabled and counted at
least the repeat number of times is recommended exactly when one of its sightings was
an occasion for it. -/
theorem oftenRecommended_iff {l : List Act} {i : Sighting} (hclean : ∀ a ∈ l, a.Clean)
    (hi : i.Clean) :
    OftenIsRecommended cfg account (runMain cfg account l, i) ↔
      (Due cfg (runMain cfg account l, i) →
        ∃ v ∈ sightingsOf cfg account i.deviInfo.dmId (l ++ [.sighting i]), Recommends cfg v) := by
  have hsnoc : ∀ a ∈ l ++ [Act.sighting i], a.Clean := by
    intro a ha
    rcases List.mem_append.mp ha with ha | ha
    · exact hclean a ha
    · rw [List.mem_singleton.mp ha]
      exact hi
  rw [oftenRecommended_due (runMain_whetherCb cfg account l) hi, ← recommended_run hsnoc,
    runMain_snoc]
  rfl

end

open scoped Exact

/-- The second recording is the occasion. -/
theorem oftenRecommended_exTwice :
    OftenIsRecommended exConfig exAccount
      (runMain exConfig exAccount (exTwice.take 1), exSighting .recording 7 ⟨3, 2, 0⟩) := by
  have hclean : ∀ a ∈ exTwice.take 1, a.Clean := by
    intro a ha
    rw [List.mem_singleton.mp ha]
    exact exSighting_clean (by decide) (by decide) _
  apply (oftenRecommended_iff exConfig exAccount hclean
    (exSighting_clean (by decide) (by decide) _)).mpr
  intro _
  decide +kernel

/-- The code 7, located twice and recorded once. The repeat number is 3 in LOCALIZATION
and 2 in RECORDING. -/
def exMixed : List Act :=
  [.sighting (exSighting .localization 7 0), .sighting (exSighting .localization 7 0),
    .sighting (exSighting .recording 7 0)]

/-- Every statement succeeds and the code is never enabled. Its count is 3 behind the
recording, its flag is not set. -/
theorem recommend_missed :
    (∀ a ∈ exMixed, a.Clean) ∧
      (runMain exConfig exAccount exMixed).user.find? 7 = some ⟨7, 0, 3, 0, false, false⟩ ∧
      ¬ OftenIsRecommended exConfig exAccount
        (runMain exConfig exAccount (exMixed.take 2), exSighting .recording 7 0) := by
  have hrow : (runMain exConfig exAccount exMixed).user.find? 7 =
      some ⟨7, 0, 3, 0, false, false⟩ := by decide +kernel
  refine ⟨?_, hrow, ?_⟩
  · intro a ha
    simp only [exMixed, List.mem_cons, List.not_mem_nil, or_false] at ha
    rcases ha with rfl | rfl | rfl <;> exact exSighting_clean (by decide) (by decide) _
  · intro h
    exact absurd (h _ hrow rfl (by decide)) (by decide)

end QrAddon
