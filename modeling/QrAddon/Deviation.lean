import QrAddon.Smooth

/-!
# The three records of a deviation

A deviation is counted in the user row, sent as bit 2 of a diagnostic word and flagged
in the logged row. The first two are written where the test is made. The flag of the
logged row is set there and cleared nowhere on the way of a known code: the snapshot
has whatever the previous iteration left in the `DM`.

Results:
1. `recordsAgree_iff`: the records agree with the test exactly when the flag is not left
   over and the stored count survives `atoi`.
2. `flag_left_over`: a code that is not enabled is logged as deviating.
-/

namespace QrAddon

section

variable [Doubles]

open LifecycleLemmas

section

variable (cfg : Config ℚ) (account : Account) (v : Main × Sighting)

/-- The user row of the code counts one deviation more. -/
def sloppyGrows : Bool :=
  match v.1.user.find? v.2.deviInfo.dmId,
    (iterate cfg account v.1 v.2).user.find? v.2.deviInfo.dmId with
  | some r, some r' => r'.sloppyCnt = r.sloppyCnt + 1
  | _, _ => false

/-- The word has its bit 2 set. -/
def Event.isBit2 : Event → Bool
  | .diag word => word.toNat.testBit 2
  | _ => false

/-- A diagnostic word with bit 2 is sent. -/
def sendsBit2 : Bool := (iterate cfg account v.1 v.2).events.any Event.isBit2

/-- The row that the iteration inserts into the self table. -/
def loggedRow : SelfRow := SelfDb.row (iterate cfg account v.1 v.2).ori

/-- The test and its three records have the same outcome. -/
def RecordsAgree : Prop :=
  List.TFAE [deviates cfg v = true, sloppyGrows cfg account v = true,
    sendsBit2 cfg account v = true, (loggedRow cfg account v).haveSloppy = true]

/-- For a found row: its count of deviations is an `int` if it is to grow, and the
`DM` carries no flag of an earlier iteration if the code does not deviate. -/
def FlagFresh : Prop :=
  ∀ r, v.1.user.find? v.2.deviInfo.dmId = some r →
    (Far cfg r (v.1.turn v.2).dm → r.sloppyCnt < 2 ^ 31) ∧
      (v.1.dm.haveSloppy = true → Far cfg r (v.1.turn v.2).dm)

end

namespace DeviationLemmas

variable {cfg : Config ℚ} {account : Account} {s : Main} {i : Sighting}

variable (cfg) in
theorem deviates_iff_far {r : UserRow} (hrow : s.user.find? i.deviInfo.dmId = some r) :
    deviates cfg (s, i) = true ↔ Far cfg r (s.turn i).dm := deviates_known hrow

/-- A request is not a diagnostic word. -/
theorem isBit2_requestOf (d : CustomerPackage ℚ) (env : BranchEnv) (t : Turn) (mode : Mode)
    (dm : DmInfo ℚ) (rpcId : UInt64) : (requestOf cfg d env t mode dm rpcId).isBit2 = false := by
  unfold requestOf
  split <;> rfl

/-- A branch shows bit 2 for a found row exactly when the row deviates. -/
theorem shown_bit2 (d : CustomerPackage ℚ) (env : BranchEnv) (mode : Mode) (t : Turn)
    (r : UserRow) (self : SelfTable) :
    (shown cfg account d env mode t r self).any Event.isBit2 = true ↔ Far cfg r t.ori := by
  unfold shown
  by_cases hon : r.enable = true
  · have hlogin : ∀ q, (Event.login q).isBit2 = false := fun _ => rfl
    have hbit : (Event.diag 4).isBit2 = true := by decide
    by_cases hfar : Far cfg r t.ori <;>
      simp [hon, hfar, isBit2_requestOf, hlogin, hbit]
  · have hoff : ¬ Far cfg r t.ori := fun hf => hon hf.1
    by_cases hr : Reaches cfg mode r <;> simp [hon, hoff, hr, Event.isBit2]

/-- The count grows by one exactly when the row deviates and `atoi` reads it back. -/
theorem sloppyCnt_grows (env : BranchEnv) (mode : Mode) (r : UserRow) (ori : DmInfo ℚ)
    (self : SelfTable) :
    (rewritten cfg env mode r ori self).sloppyCnt.toNat = r.sloppyCnt + 1 ↔
      Far cfg r ori ∧ r.sloppyCnt < 2 ^ 31 := by
  rw [rewritten_sloppyCnt]
  by_cases hfar : Far cfg r ori
  · simp only [hfar, if_true, true_and]
    exact readCounter_succ_iff r.sloppyCnt
  · simp only [hfar, if_false, add_zero, false_and, iff_false]
    exact readCounter_ne_succ r.sloppyCnt

end DeviationLemmas

open DeviationLemmas

variable {cfg : Config ℚ} {account : Account} {s : Main} {i : Sighting}

theorem recordsAgree_new (h : s.whetherCb = false) (hi : i.Clean)
    (hrow : s.user.find? i.deviInfo.dmId = none) : RecordsAgree cfg account (s, i) := by
  have hgrows : sloppyGrows cfg account (s, i) = false := by simp only [sloppyGrows, hrow]
  have hbit : sendsBit2 cfg account (s, i) = false := by
    simp only [sendsBit2, (clean_none cfg account h hi hrow).2]
    rfl
  have hflag : (loggedRow cfg account (s, i)).haveSloppy = false := by
    simp only [loggedRow, clean_ori h hi, hrow]
    simp only [snapshot]
    split <;> rfl
  simp only [RecordsAgree, deviates_new hrow, hgrows, hbit, hflag]
  tfae_finish

variable (cfg account) in
/-- The three records of a known code. -/
theorem records_known (h : s.whetherCb = false) (hi : i.Clean) {r : UserRow}
    (hrow : s.user.find? i.deviInfo.dmId = some r) :
    (sloppyGrows cfg account (s, i) = true ↔ Far cfg r (s.turn i).dm ∧ r.sloppyCnt < 2 ^ 31) ∧
      (sendsBit2 cfg account (s, i) = true ↔ Far cfg r (s.turn i).dm) ∧
      ((loggedRow cfg account (s, i)).haveSloppy = true ↔
        Far cfg r (s.turn i).dm ∨ s.dm.haveSloppy = true) := by
  obtain ⟨hfind, hev⟩ := clean_some cfg account h hi hrow
  refine ⟨?_, ?_, ?_⟩
  · simp only [sloppyGrows, hrow, hfind, decide_eq_true_eq]
    exact sloppyCnt_grows _ _ _ _ _
  · simp only [sendsBit2, hev, List.any_cons, Event.isBit2, Bool.false_or]
    exact shown_bit2 _ _ _ _ _ _
  · have hflag : (s.turn i).ori.haveSloppy = s.dm.haveSloppy := by
      rw [Main.turn_ori, s.turn_frame i]
    rw [← hflag]
    simp only [loggedRow, clean_ori h hi, hrow]
    exact snapshot_haveSloppy

variable (cfg account) in
/-- After every run, a clean iteration inserts one self row, and the test and the three
records have the same outcome exactly when the flag in the `DM` is fresh and the count
is one that `atoi` reads back. -/
theorem recordsAgree_iff (l : List Act) (hi : i.Clean) :
    (iterate cfg account (runMain cfg account l) i).self =
        SelfDb.keepRowsSize cfg.maxRowSelfDb
          ((runMain cfg account l).self.insert (loggedRow cfg account (runMain cfg account l, i))) ∧
      (RecordsAgree cfg account (runMain cfg account l, i) ↔
        FlagFresh cfg (runMain cfg account l, i)) := by
  have h := runMain_whetherCb cfg account l
  generalize runMain cfg account l = s at h ⊢
  refine ⟨clean_self h hi, ?_⟩
  cases hrow : s.user.find? i.deviInfo.dmId with
  | none =>
    refine ⟨fun _ r hr => ?_, fun _ => recordsAgree_new h hi hrow⟩
    rw [hrow] at hr
    cases hr
  | some r =>
    have hdev := deviates_iff_far cfg hrow
    obtain ⟨hgrows, hbit, hflag⟩ := records_known cfg account h hi hrow
    have hfresh : FlagFresh cfg (s, i) ↔
        (Far cfg r (s.turn i).dm → r.sloppyCnt < 2 ^ 31) ∧
          (s.dm.haveSloppy = true → Far cfg r (s.turn i).dm) := by
      constructor
      · exact fun hf => hf r hrow
      · intro hf r' hr'
        obtain rfl : r = r' := Option.some.inj (hrow.symm.trans hr')
        exact hf
    rw [hfresh]
    constructor
    · intro hall
      have h01 := hdev.symm.trans ((hall.out 0 1).trans hgrows)
      have h03 := hdev.symm.trans ((hall.out 0 3).trans hflag)
      exact ⟨fun hf => (h01.mp hf).2, fun hs => h03.mpr (.inr hs)⟩
    · rintro ⟨hcnt, hstale⟩
      have h01 : Far cfg r (s.turn i).dm ↔ Far cfg r (s.turn i).dm ∧ r.sloppyCnt < 2 ^ 31 :=
        ⟨fun hf => ⟨hf, hcnt hf⟩, And.left⟩
      have h03 : Far cfg r (s.turn i).dm ↔
          Far cfg r (s.turn i).dm ∨ s.dm.haveSloppy = true :=
        ⟨.inl, fun hor => hor.elim id hstale⟩
      unfold RecordsAgree
      tfae_have 1 ↔ 2 := hdev.trans (h01.trans hgrows.symm)
      tfae_have 1 ↔ 3 := hdev.trans hbit.symm
      tfae_have 1 ↔ 4 := hdev.trans (h03.trans hflag.symm)
      tfae_finish

end

open scoped Exact

/-- Code 9 is new; code 7 is recorded, enabled, and seen 5 away from where it is stored. -/
def exStray : List Act :=
  [.sighting (exSighting .recording 9 0), .sighting (exSighting .recording 7 0),
    .toggle 7 true, .sighting (exSighting .recording 7 ⟨5, 0, 0⟩)]

/-- The stray sighting itself is recorded consistently. -/
theorem recordsAgree_exStray :
    RecordsAgree exConfig exAccount (runMain exConfig exAccount (exStray.take 3),
      exSighting .recording 7 ⟨5, 0, 0⟩) := by
  have hfresh : (runMain exConfig exAccount (exStray.take 3)).dm.haveSloppy = false := by
    decide +kernel
  have hrow : (runMain exConfig exAccount (exStray.take 3)).user.find? 7 =
      some ⟨7, 0, 1, 0, false, true⟩ := by decide +kernel
  apply (recordsAgree_iff exConfig exAccount (exStray.take 3)
    (exSighting_clean (by decide) (by decide) _)).2.mpr
  intro r hr
  obtain rfl : (⟨7, 0, 1, 0, false, true⟩ : UserRow) = r :=
    Option.some.inj (hrow.symm.trans hr)
  refine ⟨fun _ => by decide, fun hs => ?_⟩
  rw [hfresh] at hs
  cases hs

/-- The next sighting is of code 9, which is not enabled and lies where it is stored.
Nothing is counted or sent for it, and its row has the flag. -/
theorem flag_left_over :
    (exSighting .recording 9 0).Clean ∧
      deviates exConfig (runMain exConfig exAccount exStray, exSighting .recording 9 0) = false ∧
      sloppyGrows exConfig exAccount
        (runMain exConfig exAccount exStray, exSighting .recording 9 0) = false ∧
      sendsBit2 exConfig exAccount
        (runMain exConfig exAccount exStray, exSighting .recording 9 0) = false ∧
      (loggedRow exConfig exAccount
        (runMain exConfig exAccount exStray, exSighting .recording 9 0)).haveSloppy = true ∧
      ¬ RecordsAgree exConfig exAccount
        (runMain exConfig exAccount exStray, exSighting .recording 9 0) := by
  have hdev : deviates exConfig
      (runMain exConfig exAccount exStray, exSighting .recording 9 0) = false := by decide +kernel
  have hflag : (loggedRow exConfig exAccount
      (runMain exConfig exAccount exStray, exSighting .recording 9 0)).haveSloppy = true := by
    decide +kernel
  refine ⟨exSighting_clean (by decide) (by decide) _, hdev, by decide +kernel, by decide +kernel,
    hflag, ?_⟩
  intro h
  have htrue := (h.out 0 3).mpr hflag
  rw [hdev] at htrue
  cases htrue

end QrAddon
