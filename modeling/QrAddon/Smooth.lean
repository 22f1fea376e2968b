import QrAddon.Effect
import QrAddon.Lifecycle

/-!
# Runs without failures

A smooth iteration has one mode and every statement of it succeeds; its code may be 0 and
its mode INIT, in which nothing happens. Over a run of smooth iterations the count of a
code is a function of how often it was met. The id 0 is never found, so a second sighting
of it leaves its row as the first one wrote it.

`countOf_run` is the run lemma for the counts, `smooth_fit` says when a fit does not
depend on the order in which SQLite visits the log.
-/

namespace QrAddon

open LifecycleLemmas

section

variable [Doubles]

/-- One mode, and every statement of its branch succeeds. -/
structure Sighting.Smooth (i : Sighting) : Prop where
  steady : i.Steady i.mode
  lookup : (i.env i.mode).lookup.rc = .ok
  fit : (i.env i.mode).fitOk = true
  user : (i.env i.mode).userOk = true
  self : (i.env i.mode).selfOk = true

/-- The operator may do anything, sightings are smooth. -/
def Act.Smooth : Act → Prop
  | .sighting i => i.Smooth
  | .toggle _ _ => True

/-- The fit query of a sighting visits the rows of a code in the order of their ids. -/
def Act.Ordered : Act → Prop
  | .sighting i => (i.env i.mode).scan.Stable
  | .toggle _ _ => True

/-- A sighting of the code `id` outside INIT. -/
def Act.meets (id : UInt32) : Act → Bool
  | .sighting i => i.mode ≠ .init ∧ i.deviInfo.dmId = id
  | .toggle _ _ => false

/-- How often a code was met in a run. -/
def met (id : UInt32) (l : List Act) : ℕ := l.countP (Act.meets id)

/-- What a look-up of `id` returns if it does not fail. -/
def known (s : Main) (id : UInt32) : Option UserRow := if id = 0 then none else s.user.find? id

/-- The count that the user table holds after `n` sightings of a code. Each of them reads
it back through `atoi` and adds one. -/
def storedCnt : ℕ → ℕ
  | 0 => 0
  | n + 1 => (readCounter (storedCnt n) + 1).toNat

/-- The count in the row of a code, if it has one. -/
def countOf (s : Main) (id : UInt32) : Option ℕ := (s.user.find? id).map (·.dmCnt)

/-- What that is after `n` sightings. The id 0 stays at its first count. -/
def countAt (id : UInt32) (n : ℕ) : Option ℕ :=
  if n = 0 then none else some (if id = 0 then 1 else storedCnt n)

variable {cfg : Config ℚ} {account : Account} {s : Main} {i : Sighting}

/-- A new turn keeps everything of the `DM` but the id and the pose. -/
theorem Main.turn_frame (s : Main) (i : Sighting) : (s.turn i).dm =
    { s.dm with id := (s.turn i).dm.id, pose := (s.turn i).dm.pose } :=
  @dmTrigger_frame ℚ Doubles.toAdd i.trig i.deviInfo ⟨s.dm, s.locStat, s.rokitPose⟩

/-! ## One smooth iteration -/

omit [Doubles] in
theorem Sighting.Smooth.fixed (hi : i.Smooth) (hm : i.mode ≠ .init) : i.Fixed i.mode :=
  hi.steady.fixed hm

theorem smooth_effect (h : s.whetherCb = false) (hi : i.Smooth) (hm : i.mode ≠ .init) :
    iterate cfg account s i =
      effect cfg account i.body.deviInfo (i.env i.mode) i.mode (s.turn i) :=
  iterate_effect cfg account h (hi.fixed hm)

variable (cfg account) in
theorem smooth_idle (hi : i.Smooth) (hm : i.mode = .init) :
    (iterate cfg account s i).toMain = s ∧ (iterate cfg account s i).events = [] := by
  have hsteady := hi.steady
  rw [hm] at hsteady
  exact iterate_idle cfg account hsteady

theorem smooth_lookedUp (hi : i.Smooth) (hm : i.mode ≠ .init) :
    UserDb.lookedUp (s.turn i).user (i.env i.mode).lookup (s.turn i).dm.id =
      known s i.deviInfo.dmId := by
  rw [(hi.fixed hm).turn_id]
  unfold UserDb.lookedUp known
  by_cases h0 : i.deviInfo.dmId = 0 <;> simp [hi.lookup, h0]

/-- The row that a smooth iteration logs. -/
theorem smooth_ori (h : s.whetherCb = false) (hi : i.Smooth) (hm : i.mode ≠ .init) :
    (iterate cfg account s i).ori =
      snapshot cfg i.mode (s.turn i).ori (known s i.deviInfo.dmId) := by
  rw [smooth_effect h hi hm, effect_ori, smooth_lookedUp hi hm]

theorem smooth_self (h : s.whetherCb = false) (hi : i.Smooth) (hm : i.mode ≠ .init) :
    (iterate cfg account s i).self =
      SelfDb.addContent true cfg.maxRowSelfDb s.self (iterate cfg account s i).ori := by
  rw [smooth_effect h hi hm, effect_self, hi.self, Main.turn_self]

omit [Doubles] in
theorem known_some {id : UInt32} {r : UserRow} (h : known s id = some r) :
    s.user.find? id = some r ∧ r.dmId = id := by
  unfold known at h
  split at h
  · cases h
  · exact ⟨h, KeyedTable.key_of_find? h⟩

omit [Doubles] in
/-- The id 0 is never found. -/
theorem known_ne_zero {id : UInt32} {r : UserRow} (h : known s id = some r) : id ≠ 0 := by
  intro h0
  rw [known, if_pos h0] at h
  cases h

variable (cfg account) in
/-- A code that the look-up does not find. -/
theorem smooth_none (h : s.whetherCb = false) (hi : i.Smooth) (hm : i.mode ≠ .init)
    (hrow : known s i.deviInfo.dmId = none) :
    (iterate cfg account s i).dm = (s.turn i).dm.clearRemainingInfo.updateCnt ∧
      (iterate cfg account s i).user =
        UserDb.addContent true s.user (iterate cfg account s i).dm ∧
      (iterate cfg account s i).events = [.lookup i.mode (s.turn i).dm, .diag 1] := by
  rw [smooth_effect h hi hm, effect_none ((smooth_lookedUp hi hm).trans hrow), hi.user]
  exact ⟨rfl, rfl, rfl⟩

variable (cfg account) in
/-- A code that it finds. -/
theorem smooth_some (h : s.whetherCb = false) (hi : i.Smooth) (hm : i.mode ≠ .init)
    {r : UserRow} (hrow : known s i.deviInfo.dmId = some r) :
    (iterate cfg account s i).dm = rewritten cfg (i.env i.mode) i.mode r (s.turn i).ori
        (iterate cfg account s i).self ∧
      (iterate cfg account s i).user =
        UserDb.updateDataBase true s.user (iterate cfg account s i).dm ∧
      (iterate cfg account s i).events = .lookup i.mode (s.turn i).dm ::
        shown cfg account i.body.deviInfo (i.env i.mode) i.mode (s.turn i) r
          (iterate cfg account s i).self := by
  rw [smooth_effect h hi hm, effect_some ((smooth_lookedUp hi hm).trans hrow), hi.user]
  exact ⟨rfl, rfl, rfl⟩

/-- The `DM` is about the code of the package. -/
theorem smooth_dm_id (h : s.whetherCb = false) (hi : i.Smooth) (hm : i.mode ≠ .init) :
    (iterate cfg account s i).dm.id = i.deviInfo.dmId := by
  cases hrow : known s i.deviInfo.dmId with
  | none =>
    rw [(smooth_none cfg account h hi hm hrow).1]
    exact (hi.fixed hm).turn_id s
  | some r =>
    rw [(smooth_some cfg account h hi hm hrow).1, rewritten_id]
    exact (known_some hrow).2

variable (cfg account) in
/-- No other code's row changes. -/
theorem smooth_other (h : s.whetherCb = false) (hi : i.Smooth) (hm : i.mode ≠ .init)
    {id : UInt32} (hid : id ≠ i.deviInfo.dmId) :
    (iterate cfg account s i).user.find? id = s.user.find? id := by
  have hne : id ≠ (iterate cfg account s i).dm.id := by
    rw [smooth_dm_id h hi hm]
    exact hid
  cases hrow : known s i.deviInfo.dmId with
  | none =>
    rw [(smooth_none cfg account h hi hm hrow).2.1, UserDb.find?_addContent,
      if_neg (by simp [hne])]
  | some r =>
    rw [(smooth_some cfg account h hi hm hrow).2.1, UserDb.find?_updateDataBase,
      if_neg (by simp [hne])]

/-- The row of a code that the look-up does not find: new, or as it was. -/
theorem smooth_own_none (h : s.whetherCb = false) (hi : i.Smooth) (hm : i.mode ≠ .init)
    (hrow : known s i.deviInfo.dmId = none) :
    (iterate cfg account s i).user.find? i.deviInfo.dmId =
      if s.user.find? i.deviInfo.dmId = none then
        some (UserDb.row (s.turn i).dm.clearRemainingInfo.updateCnt)
      else s.user.find? i.deviInfo.dmId := by
  obtain ⟨hdm, huser, _⟩ := smooth_none cfg account h hi hm hrow
  rw [huser, UserDb.find?_addContent, smooth_dm_id h hi hm, hdm]
  simp

/-- The row of a code that the look-up finds. -/
theorem smooth_own_some (h : s.whetherCb = false) (hi : i.Smooth) (hm : i.mode ≠ .init)
    {r : UserRow} (hrow : known s i.deviInfo.dmId = some r) :
    (iterate cfg account s i).user.find? i.deviInfo.dmId =
      some (UserDb.setColumns (iterate cfg account s i).dm r) := by
  rw [(smooth_some cfg account h hi hm hrow).2.1, UserDb.find?_updateDataBase, smooth_dm_id h hi hm,
    if_pos ⟨rfl, rfl⟩, (known_some hrow).1]
  rfl

/-! ## Clean iterations

A clean iteration is a smooth one of a nonzero code outside INIT. -/

omit [Doubles] in
theorem Sighting.Clean.smooth (hi : i.Clean) : i.Smooth where
  steady := ⟨hi.fixed.mode1, hi.fixed.mode2, hi.fixed.mode3, hi.fixed.mode4⟩
  lookup := hi.lookup
  fit := hi.fit
  user := hi.user
  self := hi.self

omit [Doubles] in
theorem clean_known (hi : i.Clean) : known s i.deviInfo.dmId = s.user.find? i.deviInfo.dmId :=
  if_neg hi.id

/-- The row that a clean iteration logs. -/
theorem clean_ori (h : s.whetherCb = false) (hi : i.Clean) :
    (iterate cfg account s i).ori =
      snapshot cfg i.mode (s.turn i).ori (s.user.find? i.deviInfo.dmId) := by
  rw [smooth_ori h hi.smooth hi.fixed.real, clean_known hi]

theorem clean_self (h : s.whetherCb = false) (hi : i.Clean) :
    (iterate cfg account s i).self =
      SelfDb.addContent true cfg.maxRowSelfDb s.self (iterate cfg account s i).ori :=
  smooth_self h hi.smooth hi.fixed.real

variable (cfg account) in
/-- A new code. -/
theorem clean_none (h : s.whetherCb = false) (hi : i.Clean)
    (hrow : s.user.find? i.deviInfo.dmId = none) :
    (iterate cfg account s i).user.find? i.deviInfo.dmId =
        some (UserDb.row (s.turn i).dm.clearRemainingInfo.updateCnt) ∧
      (iterate cfg account s i).events = [.lookup i.mode (s.turn i).dm, .diag 1] := by
  have hknown := (clean_known hi).trans hrow
  refine ⟨?_, (smooth_none cfg account h hi.smooth hi.fixed.real hknown).2.2⟩
  rw [smooth_own_none h hi.smooth hi.fixed.real hknown, if_pos hrow]

variable (cfg account) in
/-- A known code. -/
theorem clean_some (h : s.whetherCb = false) (hi : i.Clean) {r : UserRow}
    (hrow : s.user.find? i.deviInfo.dmId = some r) :
    (iterate cfg account s i).user.find? i.deviInfo.dmId =
        some (UserDb.setColumns (rewritten cfg (i.env i.mode) i.mode r (s.turn i).ori
          (iterate cfg account s i).self) r) ∧
      (iterate cfg account s i).events = .lookup i.mode (s.turn i).dm ::
        shown cfg account i.body.deviInfo (i.env i.mode) i.mode (s.turn i) r
          (iterate cfg account s i).self := by
  have hknown := (clean_known hi).trans hrow
  obtain ⟨hdm, _, hev⟩ := smooth_some cfg account h hi.smooth
    hi.fixed.real hknown
  refine ⟨?_, hev⟩
  rw [smooth_own_some h hi.smooth hi.fixed.real hknown, hdm]

/-! ## Counts -/

/-- The counts that occur. Past `2 ^ 31` one is stored that comes back as 1. -/
def CntRange (n : ℕ) : Prop := 1 ≤ n ∧ n ≤ 2 ^ 31 ∨ n = 2 ^ 64 - 2 ^ 31 + 1

section

omit [Doubles]

theorem cntRange_succ {n : ℕ} (h : CntRange n) :
    CntRange (readCounter n + 1).toNat ∧ (readCounter n + 1).toNat ≠ 1 := by
  have hmax : (readCounter (2 ^ 31) + 1).toNat = 2 ^ 64 - 2 ^ 31 + 1 := by decide
  have hwrap : (readCounter (2 ^ 64 - 2 ^ 31 + 1) + 1).toNat = 2 := by decide
  unfold CntRange at h ⊢
  rcases h with ⟨hpos, hle⟩ | rfl
  · rcases Nat.lt_or_eq_of_le hle with hlt | rfl
    · rw [readCounter_succ hlt]
      omega
    · rw [hmax]
      omega
  · rw [hwrap]
    omega

theorem storedCnt_range (n : ℕ) : CntRange (storedCnt (n + 1)) := by
  induction n with
  | zero => exact .inl ⟨le_rfl, by decide⟩
  | succ n ih => exact (cntRange_succ ih).1

/-- Only the first sighting is counted as 1. -/
theorem storedCnt_ne_one {n : ℕ} (h : 2 ≤ n) : storedCnt n ≠ 1 := by
  obtain ⟨m, rfl⟩ := Nat.exists_eq_add_of_le' h
  exact (cntRange_succ (storedCnt_range m)).2

/-- Up to `2 ^ 31` the count is the number of sightings. -/
theorem storedCnt_of_le {n : ℕ} (h : n ≤ 2 ^ 31) : storedCnt n = n := by
  induction n with
  | zero => rfl
  | succ n ih =>
    rw [storedCnt, ih (by omega), readCounter_succ (by omega)]

theorem met_snoc (id : UInt32) (l : List Act) (a : Act) :
    met id (l ++ [a]) = met id l + if a.meets id = true then 1 else 0 := by
  simp [met, List.countP_append, List.countP_singleton]

theorem meets_sighting {id : UInt32} :
    (Act.sighting i).meets id = true ↔ i.mode ≠ .init ∧ i.deviInfo.dmId = id := by
  simp [Act.meets]

theorem countAt_eq_none {id : UInt32} {n : ℕ} : countAt id n = none ↔ n = 0 := by
  unfold countAt
  split <;> simp_all

/-- The count of a found row. -/
theorem known_cnt {id : UInt32} {n : ℕ} (hn : countOf s id = countAt id n) {r : UserRow}
    (h : known s id = some r) : r.dmCnt = storedCnt n := by
  rw [countOf, (known_some h).1, countAt, if_neg (known_ne_zero h)] at hn
  split at hn
  · cases hn
  · exact Option.some.inj hn

end

/-- One more sighting of a code. -/
theorem countOf_own (h : s.whetherCb = false) (hi : i.Smooth) (hm : i.mode ≠ .init) {n : ℕ}
    (hn : countOf s i.deviInfo.dmId = countAt i.deviInfo.dmId n) :
    countOf (iterate cfg account s i).toMain i.deviInfo.dmId =
      countAt i.deviInfo.dmId (n + 1) := by
  cases hrow : known s i.deviInfo.dmId with
  | none =>
    simp only [countOf] at hn ⊢
    rw [smooth_own_none h hi hm hrow]
    by_cases hnone : s.user.find? i.deviInfo.dmId = none
    · have hzero : n = 0 := countAt_eq_none.mp (by rw [← hn, hnone]; rfl)
      have hone : storedCnt 1 = 1 := rfl
      rw [if_pos hnone, hzero, countAt, if_neg (by decide), zero_add, hone, ite_self]
      rfl
    · -- the look-up misses a row that is there: the id is 0
      have hid : i.deviInfo.dmId = 0 := by
        by_contra hne
        exact hnone ((if_neg hne).symm.trans hrow)
      have hne : n ≠ 0 := by
        intro hzero
        rw [countAt_eq_none.mpr hzero, Option.map_eq_none_iff] at hn
        exact hnone hn
      rw [if_neg hnone, hn, countAt, countAt, if_neg hne, if_neg (Nat.succ_ne_zero n), if_pos hid,
        if_pos hid]
  | some r =>
    rw [countOf, smooth_own_some h hi hm hrow, countAt, if_neg (Nat.succ_ne_zero n),
      if_neg (known_ne_zero hrow)]
    simp only [Option.map_some, UserDb.setColumns, (smooth_some cfg account h hi hm hrow).1,
      rewritten_cnt, known_cnt hn hrow, storedCnt]

/-- The operator changes no count. -/
theorem countOf_toggle (id' : UInt32) (b : Bool) (id : UInt32) :
    countOf (act cfg account s (.toggle id' b)) id = countOf s id := by
  simp only [countOf, act, UserDb.find?_setEnable]
  split
  · cases s.user.find? id <;> rfl
  · rfl

variable (cfg account) in
/-- The count of a code over a smooth run. -/
theorem countOf_run {l : List Act} (hl : ∀ a ∈ l, a.Smooth) (id : UInt32) :
    countOf (runMain cfg account l) id = countAt id (met id l) := by
  induction l using List.reverseRecOn with
  | nil => rfl
  | append_singleton l a ih =>
    have ih := ih fun b hb => hl b (List.mem_append_left _ hb)
    have hflag := runMain_whetherCb cfg account l
    rw [runMain_snoc, met_snoc]
    cases a with
    | toggle id' b => exact (countOf_toggle id' b id).trans ih
    | sighting i =>
      have hi : i.Smooth := hl (.sighting i) (by simp)
      by_cases hmeets : (Act.sighting i).meets id = true
      · obtain ⟨hm, rfl⟩ := meets_sighting.mp hmeets
        rw [if_pos hmeets]
        exact countOf_own hflag hi hm ih
      · rw [if_neg hmeets, add_zero, ← ih]
        by_cases hm : i.mode = .init
        · simp only [act, (smooth_idle cfg account hi hm).1]
        · have hid : id ≠ i.deviInfo.dmId := fun h => hmeets (meets_sighting.mpr ⟨hm, h.symm⟩)
          simp only [act, countOf, smooth_other cfg account hflag hi hm hid]

/-! ## The log -/

variable (cfg account) in
/-- The row that is logged has the id of the package and the pose of the snapshot. -/
theorem smooth_row (h : s.whetherCb = false) (hi : i.Smooth) (hm : i.mode ≠ .init) :
    (SelfDb.row (iterate cfg account s i).ori).dmId = i.deviInfo.dmId ∧
      (SelfDb.row (iterate cfg account s i).ori).pose = (observed (s, i)).printed := by
  rw [smooth_ori h hi hm]
  obtain ⟨hid, hpose⟩ := snapshot_frame cfg i.mode (s.turn i).ori
    (known s i.deviInfo.dmId)
  exact ⟨hid.trans ((hi.fixed hm).turn_id s), congrArg DmPose.printed hpose⟩

variable (cfg account) in
/-- The row that is logged is one of the code of the package. -/
theorem smooth_rowsOf (h : s.whetherCb = false) (hi : i.Smooth) (hm : i.mode ≠ .init)
    (id : UInt32) (rows : List SelfRow) :
    SelfDb.rowsOf id (rows ++ [SelfDb.row (iterate cfg account s i).ori]) =
      SelfDb.rowsOf id rows ++
        if i.deviInfo.dmId = id then [SelfDb.row (iterate cfg account s i).ori] else [] := by
  have hid := (smooth_row cfg account h hi hm).1
  by_cases hsame : i.deviInfo.dmId = id <;>
    simp [SelfDb.rowsOf, List.filter_append, hid, hsame]

variable (cfg account) in
/-- There are no more logged rows of a code than sightings of it. -/
theorem log_le_met {l : List Act} (hl : ∀ a ∈ l, a.Smooth) (id : UInt32) :
    (SelfDb.rowsOf id (runMain cfg account l).self.values).length ≤ met id l := by
  induction l using List.reverseRecOn with
  | nil => exact le_rfl
  | append_singleton l a ih =>
    have ih := ih fun b hb => hl b (List.mem_append_left _ hb)
    have hflag := runMain_whetherCb cfg account l
    rw [runMain_snoc, met_snoc]
    generalize runMain cfg account l = s at ih hflag ⊢
    cases a with
    | toggle id' b => exact ih
    | sighting i =>
      have hi : i.Smooth := hl (.sighting i) (by simp)
      simp only [act]
      by_cases hm : i.mode = .init
      · rw [(smooth_idle cfg account hi hm).1]
        exact ih.trans (Nat.le_add_right _ _)
      · have hrows : (SelfDb.rowsOf id (s.self.values ++
            [SelfDb.row (iterate cfg account s i).ori])).length ≤
            met id l + if (Act.sighting i).meets id = true then 1 else 0 := by
          rw [smooth_rowsOf cfg account hflag hi hm, List.length_append]
          by_cases hsame : i.deviInfo.dmId = id
          · rw [if_pos hsame, if_pos (meets_sighting.mpr ⟨hm, hsame⟩)]
            exact Nat.add_le_add_right ih 1
          · rw [if_neg hsame]
            exact ih.trans (Nat.le_add_right _ _)
        rw [smooth_self hflag hi hm, SelfDb.values_addContent, if_neg (by decide)]
        split
        · exact ((List.tail_sublist _).filter _).length_le.trans hrows
        · exact hrows

/-- The pose that a fit stores, when the code was met `k` times before: what `fitted`
makes of the logged poses, unless the code was met so often that its count wrapped. -/
theorem smooth_fit (h : s.whetherCb = false) (hi : i.Smooth) (hm : i.mode ≠ .init)
    {r : UserRow} (hrow : known s i.deviInfo.dmId = some r) (hr : Reaches cfg i.mode r) {k : ℕ}
    (hcnt : r.dmCnt = storedCnt k)
    (hlog : (SelfDb.rowsOf i.deviInfo.dmId (iterate cfg account s i).self.values).length ≤ k + 1)
    (hscan : (i.env i.mode).scan.Stable ∨ Doubles.Unordered ∧ k < 2 ^ 31) :
    (iterate cfg account s i).dm.pose = SelfDb.fitted (cfg.repeatNum i.mode)
      ((SelfDb.rowsOf i.deviInfo.dmId (iterate cfg account s i).self.values).map (·.pose)) := by
  have hid : (counted r).setRecommend.id = i.deviInfo.dmId := (known_some hrow).2
  rw [(smooth_some cfg account h hi hm hrow).1, EffectLemmas.rewritten_reaches hr, hi.fit]
  rw [SelfDb.fitPose_fitted, hid]
  rw [hid]
  rcases hscan with hstable | ⟨hadd, hlt⟩
  · exact .inl hstable
  · refine .inr ⟨hadd, ?_⟩
    rw [← hr.2, counted_cnt, hcnt, storedCnt_of_le hlt.le, readCounter_succ hlt]
    exact hlog

end

open scoped Exact

theorem exSighting_smooth (m : Mode) (id : UInt32) (p : DmPose ℚ) : (exSighting m id p).Smooth := by
  refine ⟨⟨rfl, rfl, rfl, rfl⟩, ?_, ?_, ?_, ?_⟩ <;> cases m <;> rfl

end QrAddon
