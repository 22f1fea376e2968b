import QrAddon.Smooth

/-!
# The log of one code

The user row of a code is a function of the code's own sightings: `CodeState` is a machine
that sees nothing else, and `known_run` says that the look-ups of a run are its look-ups.
The logged rows are not. On the way of a known code the logged copy of the `DM` keeps the
columns that the previous iteration left, whichever code that was about.

Results:
1. `log_run`: the log of a code, row by row.
2. `log_isolated_iff`: two runs that a code cannot tell apart log the same rows for it
   exactly when the `DM`s that they left in front of its known sightings agree in the
   columns that are logged from them.
3. `log_leaks`: one code, with and without another in between.
-/

namespace QrAddon

open LifecycleLemmas EffectLemmas

section

variable [Doubles]

/-- A sighting as its code sees it: where, in which mode, and the flag at the look-up, if
that finds a row. -/
structure Seen where
  pose : DmPose ℚ
  mode : Mode
  enable : Option Bool
deriving DecidableEq

def seenBy (v : Main × Sighting) : Seen :=
  ⟨observed v, v.2.mode, (known v.1 v.2.deviInfo.dmId).map (·.enable)⟩

/-- The sighting in a step, if it is one of the code `id` outside INIT. -/
def meeting? (id : UInt32) (v : Main × Act) : Option (Main × Sighting) :=
  match v.2 with
  | .sighting i => if i.mode ≠ .init ∧ i.deviInfo.dmId = id then some (v.1, i) else none
  | .toggle _ _ => none

/-- The number of sightings that are logged. -/
def logged (l : List Act) : ℕ :=
  l.countP fun a => match a with
    | .sighting i => i.mode ≠ .init
    | .toggle _ _ => false

section

variable (cfg : Config ℚ) (account : Account)

/-- The sightings of one code in a run, each with the state it finds. -/
def meetings (id : UInt32) (l : List Act) : List (Main × Sighting) :=
  (stepsMain cfg account l).filterMap (meeting? id)

/-- The row that a sighting logs. -/
def written (v : Main × Sighting) : SelfRow := SelfDb.row (iterate cfg account v.1 v.2).ori

/-- If the look-up finds a row, the `DM`s that the two states left from their previous
iterations agree in the columns that the branch logs from them. -/
def SameLeftover (v v' : Main × Sighting) : Prop :=
  ∀ r ∈ known v.1 v.2.deviInfo.dmId,
    v.1.dm.cnt = v'.1.dm.cnt ∧ v.1.dm.sloppyCnt = v'.1.dm.sloppyCnt ∧
      v.1.dm.enable = v'.1.dm.enable ∧
      ((Reaches cfg v.2.mode r ∨ r.enable = true ∧ v.2.mode = .recording) ∨
        v.1.dm.recommend = v'.1.dm.recommend) ∧
      (Far cfg r (v.1.turn v.2).dm ∨ v.1.dm.haveSloppy = v'.1.dm.haveSloppy)

instance (v v' : Main × Sighting) : Decidable (SameLeftover cfg v v') :=
  inferInstanceAs (Decidable (∀ r ∈ known v.1 v.2.deviInfo.dmId, _ ∧ _ ∧ _ ∧ (_ ∨ _) ∧ (_ ∨ _)))

end

/-! ## The machine of one code -/

/-- The row of a code, up to its flag, and the poses in its log. -/
structure CodeState where
  row : Option UserRow
  log : List (DmPose ℚ)

def CodeState.start : CodeState := ⟨none, []⟩

/-- The row that a look-up returns. The flag is the operator's. -/
def CodeState.looked (c : CodeState) (x : Seen) : Option UserRow :=
  x.enable.bind fun b => c.row.map fun r => { r with enable := b }

/-- A found row after a sighting. -/
def CodeState.rewrite (cfg : Config ℚ) (id : UInt32) (log : List (DmPose ℚ)) (x : Seen)
    (r : UserRow) : UserRow where
  dmId := r.dmId
  pose :=
    (if Reaches cfg x.mode r then SelfDb.fitted (cfg.repeatNum x.mode) log
      else r.pose.read).printed
  dmCnt := (readCounter r.dmCnt + 1).toNat
  sloppyCnt :=
    (readCounter r.sloppyCnt + if Far cfg r { id := id, pose := x.pose } then 1 else 0).toNat
  recommend := r.recommend ∨ Reaches cfg x.mode r ∨ r.enable = true ∧ x.mode = .recording
  enable := r.enable

/-- One sighting. -/
def codeStep (cfg : Config ℚ) (id : UInt32) (c : CodeState) (x : Seen) : CodeState :=
  let log := c.log ++ [x.pose.printed]
  match c.looked x with
  | none => ⟨some ⟨id, x.pose.printed, 1, 0, false, false⟩, log⟩
  | some r => ⟨some (CodeState.rewrite cfg id log x r), log⟩

/-- What the machine knows of a state: the row up to its flag, the count, and the log. -/
structure CodeState.Describes (id : UInt32) (n : ℕ) (c : CodeState) (s : Main) : Prop where
  row : id ≠ 0 → c.row.map (fun r => { r with enable := false }) =
    (s.user.find? id).map fun r => { r with enable := false }
  cnt : countOf s id = countAt id n
  log : c.log = (SelfDb.rowsOf id s.self.values).map (·.pose)
  length : c.log.length = n

/-- What a run says about one code. -/
structure CodeLedger (cfg : Config ℚ) (account : Account) (id : UInt32) (l : List Act) :
    Prop where
  describes : (Run.exec (codeStep cfg id) CodeState.start
    ((meetings cfg account id l).map seenBy)).Describes id (met id l) (runMain cfg account l)
  size : (runMain cfg account l).self.values.length = logged l
  log : SelfDb.rowsOf id (runMain cfg account l).self.values =
    (meetings cfg account id l).map (written cfg account)
  looked : (meetings cfg account id l).map (fun v => known v.1 v.2.deviInfo.dmId) =
    (Run.visits (codeStep cfg id) CodeState.start
      ((meetings cfg account id l).map seenBy)).map fun w => w.1.looked w.2

namespace IsolationLemmas

variable {cfg : Config ℚ} {account : Account} {id : UInt32} {n : ℕ} {c : CodeState} {s : Main}
  {i : Sighting}

/-- The machine looks up what the table holds. -/
theorem looked_eq (hc : c.Describes i.deviInfo.dmId n s) :
    c.looked (seenBy (s, i)) = known s i.deviInfo.dmId := by
  unfold CodeState.looked seenBy
  by_cases h0 : i.deviInfo.dmId = 0
  · simp [known, h0]
  · have hrow := hc.row h0
    rw [known, if_neg h0]
    cases hfind : s.user.find? i.deviInfo.dmId with
    | none => rfl
    | some r =>
      rw [hfind] at hrow
      obtain ⟨r', hr', heq⟩ := Option.map_eq_some_iff.mp hrow
      rw [hr']
      simp only [Option.map_some, Option.bind_some, Option.some.injEq]
      obtain ⟨id1, p1, c1, s1, rec1, e1⟩ := r
      obtain ⟨id2, p2, c2, s2, rec2, e2⟩ := r'
      simp only [UserRow.mk.injEq] at heq ⊢
      tauto

theorem describes_toggle (hc : c.Describes id n s) (id' : UInt32) (b : Bool) :
    c.Describes id n (act cfg account s (.toggle id' b)) where
  row h0 := by
    rw [hc.row h0]
    simp only [act, UserDb.find?_setEnable]
    split
    · cases s.user.find? id <;> rfl
    · rfl
  cnt := (countOf_toggle id' b id).trans hc.cnt
  log := hc.log
  length := hc.length

/-- Without eviction, a sighting adds its row to the log. -/
theorem smooth_values (h : s.whetherCb = false) (hi : i.Smooth) (hm : i.mode ≠ .init)
    (hcap : s.self.values.length < cfg.maxRowSelfDb.toNat) :
    (iterate cfg account s i).self.values = s.self.values ++ [written cfg account (s, i)] := by
  rw [smooth_self h hi hm, SelfDb.values_addContent, if_neg (by decide),
    if_neg (not_le.mpr hcap)]
  rfl

theorem rowsOf_own (h : s.whetherCb = false) (hi : i.Smooth) (hm : i.mode ≠ .init)
    (hcap : s.self.values.length < cfg.maxRowSelfDb.toNat) :
    SelfDb.rowsOf i.deviInfo.dmId (iterate cfg account s i).self.values =
      SelfDb.rowsOf i.deviInfo.dmId s.self.values ++ [written cfg account (s, i)] := by
  rw [smooth_values h hi hm hcap, written, smooth_rowsOf cfg account h hi hm, if_pos rfl]

theorem rowsOf_other (h : s.whetherCb = false) (hi : i.Smooth) (hm : i.mode ≠ .init)
    (hcap : s.self.values.length < cfg.maxRowSelfDb.toNat) (hid : i.deviInfo.dmId ≠ id) :
    SelfDb.rowsOf id (iterate cfg account s i).self.values = SelfDb.rowsOf id s.self.values := by
  rw [smooth_values h hi hm hcap, written, smooth_rowsOf cfg account h hi hm, if_neg hid,
    List.append_nil]

/-- A found row after a sighting of its code. -/
theorem setColumns_eq (h : s.whetherCb = false) (hi : i.Smooth) (hm : i.mode ≠ .init)
    (hcap : s.self.values.length < cfg.maxRowSelfDb.toNat)
    (hc : c.Describes i.deviInfo.dmId n s) {r : UserRow}
    (hrow : known s i.deviInfo.dmId = some r)
    (hscan : (i.env i.mode).scan.Stable ∨ Doubles.Unordered ∧ n < 2 ^ 31) :
    UserDb.setColumns (iterate cfg account s i).dm r =
      CodeState.rewrite cfg i.deviInfo.dmId (c.log ++ [(seenBy (s, i)).pose.printed])
        (seenBy (s, i)) r := by
  obtain ⟨hdm, _, _⟩ := smooth_some cfg account h hi hm hrow
  have hlog : (SelfDb.rowsOf i.deviInfo.dmId (iterate cfg account s i).self.values).map (·.pose) =
      c.log ++ [(seenBy (s, i)).pose.printed] := by
    rw [rowsOf_own h hi hm hcap, List.map_append, ← hc.log, List.map_singleton, written,
      (smooth_row cfg account h hi hm).2]
    rfl
  have hlen : (SelfDb.rowsOf i.deviInfo.dmId (iterate cfg account s i).self.values).length ≤
      n + 1 := by
    have := congrArg List.length hlog
    simp only [List.length_map, List.length_append, List.length_singleton, hc.length] at this
    exact this.le
  have hpose : (iterate cfg account s i).dm.pose =
      if Reaches cfg i.mode r then
        SelfDb.fitted (cfg.repeatNum i.mode) (c.log ++ [(seenBy (s, i)).pose.printed])
      else r.pose.read := by
    split
    · next hr => rw [smooth_fit h hi hm hrow hr (known_cnt hc.cnt hrow) hlen hscan, hlog]
    · next hr => rw [hdm, rewritten_pose hr]
  have hrec : (iterate cfg account s i).dm.recommend =
      decide (r.recommend = true ∨ Reaches cfg i.mode r ∨
        r.enable = true ∧ i.mode = .recording) := by
    rw [Bool.eq_iff_iff, decide_eq_true_iff, hdm]
    exact rewritten_recommend
  unfold UserDb.setColumns CodeState.rewrite
  rw [hpose, hrec, hdm, rewritten_cnt, rewritten_sloppyCnt, rewritten_enable]
  rfl

/-- A sighting of the code. -/
theorem describes_own (h : s.whetherCb = false) (hi : i.Smooth) (hm : i.mode ≠ .init)
    (hcap : s.self.values.length < cfg.maxRowSelfDb.toNat)
    (hc : c.Describes i.deviInfo.dmId n s)
    (hscan : (i.env i.mode).scan.Stable ∨ Doubles.Unordered ∧ n < 2 ^ 31) :
    (codeStep cfg i.deviInfo.dmId c (seenBy (s, i))).Describes i.deviInfo.dmId (n + 1)
      (iterate cfg account s i).toMain := by
  have hlog : (codeStep cfg i.deviInfo.dmId c (seenBy (s, i))).log =
      c.log ++ [(seenBy (s, i)).pose.printed] := by
    unfold codeStep
    cases c.looked (seenBy (s, i)) <;> rfl
  refine ⟨?_, countOf_own h hi hm hc.cnt, ?_, ?_⟩
  · intro h0
    unfold codeStep
    rw [looked_eq hc]
    cases hrow : known s i.deviInfo.dmId with
    | none =>
      have hnone : s.user.find? i.deviInfo.dmId = none := by
        rw [known, if_neg h0] at hrow
        exact hrow
      have hid : (s.turn i).dm.id = i.deviInfo.dmId := (hi.fixed hm).turn_id s
      rw [smooth_own_none h hi hm hrow, if_pos hnone, ← hid]
      rfl
    | some r =>
      rw [smooth_own_some h hi hm hrow, setColumns_eq h hi hm hcap hc hrow hscan]
  · rw [hlog, rowsOf_own h hi hm hcap, List.map_append, ← hc.log, List.map_singleton, written,
      (smooth_row cfg account h hi hm).2]
    rfl
  · rw [hlog, List.length_append, hc.length]
    rfl

/-- A sighting of another code, or in INIT. -/
theorem describes_other (h : s.whetherCb = false) (hi : i.Smooth)
    (hcap : i.mode ≠ .init → s.self.values.length < cfg.maxRowSelfDb.toNat)
    (hother : ¬ (i.mode ≠ .init ∧ i.deviInfo.dmId = id)) (hc : c.Describes id n s) :
    c.Describes id n (iterate cfg account s i).toMain := by
  by_cases hm : i.mode = .init
  · rw [(smooth_idle cfg account hi hm).1]
    exact hc
  · have hid : i.deviInfo.dmId ≠ id := fun hid => hother ⟨hm, hid⟩
    have hfind := smooth_other cfg account h hi hm hid.symm
    refine ⟨?_, ?_, ?_, hc.length⟩
    · intro h0
      rw [hc.row h0, hfind]
    · rw [← hc.cnt]
      simp only [countOf, hfind]
    · rw [rowsOf_other h hi hm (hcap hm) hid]
      exact hc.log

theorem meetings_snoc (id : UInt32) (l : List Act) (a : Act) :
    meetings cfg account id (l ++ [a]) = meetings cfg account id l ++
      (meeting? id (runMain cfg account l, a)).toList := by
  have hlast : [(runMain cfg account l, a)].filterMap (meeting? id) =
      (meeting? id (runMain cfg account l, a)).toList := by
    cases hv : meeting? id (runMain cfg account l, a) <;> simp [hv]
  rw [← hlast]
  simp [meetings, stepsMain, runMain, List.filterMap_append]

omit [Doubles] in
theorem logged_snoc (l : List Act) (a : Act) : logged (l ++ [a]) = logged l + logged [a] := by
  simp [logged, List.countP_append]

omit [Doubles] in
theorem logged_sighting : logged [.sighting i] = if i.mode ≠ .init then 1 else 0 := by
  simp [logged, List.countP_singleton]

theorem codeLedger_nil : CodeLedger cfg account id [] where
  describes := ⟨fun _ => rfl, rfl, rfl, rfl⟩
  size := rfl
  log := rfl
  looked := rfl

theorem codeLedger_toggle {l : List Act} (hl : CodeLedger cfg account id l) (id' : UInt32)
    (b : Bool) : CodeLedger cfg account id (l ++ [.toggle id' b]) := by
  have hsame : meetings cfg account id (l ++ [.toggle id' b]) = meetings cfg account id l := by
    rw [meetings_snoc]
    simp [meeting?]
  have hmet : met id (l ++ [.toggle id' b]) = met id l := met_snoc id l _
  refine ⟨?_, ?_, ?_, ?_⟩
  · rw [hsame, hmet, runMain_snoc]
    exact describes_toggle hl.describes id' b
  · rw [runMain_snoc, logged_snoc]
    exact hl.size
  · rw [hsame, runMain_snoc]
    exact hl.log
  · rw [hsame]
    exact hl.looked

theorem codeLedger_own {l : List Act} (hl : CodeLedger cfg account i.deviInfo.dmId l)
    (hi : i.Smooth) (hm : i.mode ≠ .init) (hcap : logged l < cfg.maxRowSelfDb.toNat)
    (hscan : (i.env i.mode).scan.Stable ∨ Doubles.Unordered ∧ met i.deviInfo.dmId l < 2 ^ 31) :
    CodeLedger cfg account i.deviInfo.dmId (l ++ [.sighting i]) := by
  have hflag := runMain_whetherCb cfg account l
  have hcap' : (runMain cfg account l).self.values.length < cfg.maxRowSelfDb.toNat := by
    rw [hl.size]
    exact hcap
  have hmeet : meetings cfg account i.deviInfo.dmId (l ++ [.sighting i]) =
      meetings cfg account i.deviInfo.dmId l ++ [(runMain cfg account l, i)] := by
    rw [meetings_snoc]
    simp [meeting?, hm]
  have hmet : met i.deviInfo.dmId (l ++ [.sighting i]) = met i.deviInfo.dmId l + 1 := by
    rw [met_snoc, if_pos (meets_sighting.mpr ⟨hm, rfl⟩)]
  refine ⟨?_, ?_, ?_, ?_⟩
  · rw [hmeet, hmet, runMain_snoc, List.map_append, List.map_singleton, Run.exec_snoc]
    exact describes_own hflag hi hm hcap' hl.describes hscan
  · rw [runMain_snoc, logged_snoc, logged_sighting, if_pos hm, ← hl.size]
    simp only [act, smooth_values hflag hi hm hcap', List.length_append, List.length_singleton]
  · rw [hmeet, runMain_snoc, List.map_append, List.map_singleton, ← hl.log]
    exact rowsOf_own hflag hi hm hcap'
  · rw [hmeet, List.map_append, List.map_singleton, List.map_append, List.map_singleton,
      Run.visits_snoc, List.map_append, List.map_singleton, ← hl.looked, looked_eq hl.describes]

theorem codeLedger_other {l : List Act} (hl : CodeLedger cfg account id l) (hi : i.Smooth)
    (hother : ¬ (i.mode ≠ .init ∧ i.deviInfo.dmId = id))
    (hcap : logged (l ++ [.sighting i]) ≤ cfg.maxRowSelfDb.toNat) :
    CodeLedger cfg account id (l ++ [.sighting i]) := by
  have hflag := runMain_whetherCb cfg account l
  have hsame : meetings cfg account id (l ++ [.sighting i]) = meetings cfg account id l := by
    rw [meetings_snoc]
    simp only [meeting?, if_neg hother, Option.toList_none, List.append_nil]
  have hmet : met id (l ++ [.sighting i]) = met id l := by
    rw [met_snoc, if_neg (fun h => hother (meets_sighting.mp h)), add_zero]
  rw [logged_snoc, logged_sighting] at hcap
  have hcap' : i.mode ≠ .init →
      (runMain cfg account l).self.values.length < cfg.maxRowSelfDb.toNat := by
    intro hm
    rw [if_pos hm] at hcap
    rw [hl.size]
    exact hcap
  refine ⟨?_, ?_, ?_, ?_⟩
  · rw [hsame, hmet, runMain_snoc]
    exact describes_other hflag hi hcap' hother hl.describes
  · rw [runMain_snoc, logged_snoc, logged_sighting, ← hl.size]
    by_cases hm : i.mode = .init
    · simp only [act, (smooth_idle cfg account hi hm).1, hm, ne_eq, not_true, if_false, add_zero]
    · simp only [act, smooth_values hflag hi hm (hcap' hm), List.length_append,
        List.length_singleton, hm, ne_eq, not_false_eq_true, if_true]
  · rw [hsame, runMain_snoc, ← hl.log]
    by_cases hm : i.mode = .init
    · simp only [act, (smooth_idle cfg account hi hm).1]
    · exact rowsOf_other hflag hi hm (hcap' hm) fun hid => hother ⟨hm, hid⟩
  · rw [hsame]
    exact hl.looked

end IsolationLemmas

open IsolationLemmas

variable {cfg : Config ℚ} {account : Account} {id : UInt32}

variable (cfg account id) in
/-- The run lemma of the ledger. -/
theorem codeLedger_run {l : List Act} (hl : ∀ a ∈ l, a.Smooth)
    (hcap : logged l ≤ cfg.maxRowSelfDb.toNat)
    (hscan : (∀ a ∈ l, a.Ordered) ∨ Doubles.Unordered ∧ met id l < 2 ^ 31) :
    CodeLedger cfg account id l := by
  induction l using List.reverseRecOn with
  | nil => exact codeLedger_nil
  | append_singleton l a ih =>
    have hmet := met_snoc id l a
    have hpre : CodeLedger cfg account id l := by
      apply ih
      · exact fun b hb => hl b (List.mem_append_left _ hb)
      · rw [logged_snoc] at hcap
        omega
      · exact hscan.imp (fun h b hb => h b (List.mem_append_left _ hb))
          fun h => ⟨h.1, by have := h.2; omega⟩
    cases a with
    | toggle id' b => exact codeLedger_toggle hpre id' b
    | sighting i =>
      have hi : i.Smooth := hl (.sighting i) (by simp)
      by_cases hown : i.mode ≠ .init ∧ i.deviInfo.dmId = id
      · obtain ⟨hm, rfl⟩ := hown
        rw [logged_snoc, logged_sighting, if_pos hm] at hcap
        refine codeLedger_own hpre hi hm (by omega) ?_
        exact hscan.imp (fun h => h (.sighting i) (by simp)) fun h => ⟨h.1, by have := h.2; omega⟩
      · exact codeLedger_other hpre hi hown hcap

theorem mem_meetings {l : List Act} (hl : ∀ a ∈ l, a.Smooth) {v : Main × Sighting}
    (hv : v ∈ meetings cfg account id l) :
    v.1.whetherCb = false ∧ v.2.Smooth ∧ v.2.mode ≠ .init ∧ v.2.deviInfo.dmId = id := by
  obtain ⟨⟨s, a⟩, hmem, hmeet⟩ := List.mem_filterMap.mp hv
  cases a with
  | toggle id' b => cases hmeet
  | sighting i =>
    simp only [meeting?] at hmeet
    split at hmeet
    · next h =>
      obtain rfl := Option.some.inj hmeet
      have hin : Act.sighting i ∈ l := by
        have hinputs : (stepsMain cfg account l).map Prod.snd = l := Run.visits_inputs _ _
        rw [← hinputs]
        exact List.mem_map_of_mem (f := Prod.snd) hmem
      exact ⟨stepsMain_whetherCb hmem, hl _ hin, h⟩
    · cases hmeet

omit [Doubles] in
/-- Two flags that one occasion sets are equal exactly when it does, or they were before. -/
theorem flags_eq_iff {occasion : Prop} {b b' c c' : Bool} (h : c = true ↔ occasion ∨ b = true)
    (h' : c' = true ↔ occasion ∨ b' = true) : c = c' ↔ occasion ∨ b = b' := by
  by_cases ho : occasion <;> cases b <;> cases b' <;> simp_all

/-- The logged columns of two snapshots of one found row. -/
theorem row_snapshot_eq_iff {mode : Mode} {r : UserRow} {o o' : DmInfo ℚ} (hid : o.id = o'.id)
    (hpose : o.pose = o'.pose) :
    SelfDb.row (snapshot cfg mode o (some r)) = SelfDb.row (snapshot cfg mode o' (some r)) ↔
      o.cnt = o'.cnt ∧ o.sloppyCnt = o'.sloppyCnt ∧ o.enable = o'.enable ∧
        ((Reaches cfg mode r ∨ r.enable = true ∧ mode = .recording) ∨
          o.recommend = o'.recommend) ∧
        (Far cfg r o ∨ o.haveSloppy = o'.haveSloppy) := by
  have hfar : Far cfg r o' ↔ Far cfg r o := by
    unfold Far planarDistance
    rw [hpose]
  have hcnt : (if mode = .recording then o.cnt else o.cnt + 1) =
      (if mode = .recording then o'.cnt else o'.cnt + 1) ↔ o.cnt = o'.cnt := by
    split
    · rfl
    · exact add_left_inj 1
  have hrec : (snapshot cfg mode o (some r)).recommend =
      (snapshot cfg mode o' (some r)).recommend ↔
      (Reaches cfg mode r ∨ r.enable = true ∧ mode = .recording) ∨
        o.recommend = o'.recommend := flags_eq_iff snapshot_recommend snapshot_recommend
  have hflag : (snapshot cfg mode o (some r)).haveSloppy =
      (snapshot cfg mode o' (some r)).haveSloppy ↔
      Far cfg r o ∨ o.haveSloppy = o'.haveSloppy :=
    flags_eq_iff snapshot_haveSloppy (snapshot_haveSloppy.trans (or_congr_left hfar))
  obtain ⟨hid1, hpose1⟩ := snapshot_frame cfg mode o (some r)
  obtain ⟨hid2, hpose2⟩ := snapshot_frame cfg mode o' (some r)
  simp only [SelfDb.row, SelfRow.mk.injEq, hid1, hid2, hpose1, hpose2, hid, hpose, true_and,
    UInt64.toNat_inj, snapshot_cnt, snapshot_sloppyCnt, snapshot_enable, hfar, add_left_inj, hcnt,
    hrec, hflag]
  exact and_congr_right' (and_congr_right' and_left_comm)

variable (cfg account) in
/-- Two sightings that their code cannot tell apart. -/
theorem written_eq_iff {v v' : Main × Sighting} (h : v.1.whetherCb = false)
    (h' : v'.1.whetherCb = false) (hi : v.2.Smooth) (hi' : v'.2.Smooth) (hm : v.2.mode ≠ .init)
    (hid : v'.2.deviInfo.dmId = v.2.deviInfo.dmId)
    (hknown : known v'.1 v'.2.deviInfo.dmId = known v.1 v.2.deviInfo.dmId)
    (hseen : seenBy v' = seenBy v) :
    written cfg account v = written cfg account v' ↔ SameLeftover cfg v v' := by
  have hmode : v'.2.mode = v.2.mode := congrArg Seen.mode hseen
  have hm' : v'.2.mode ≠ .init := by rw [hmode]; exact hm
  have hpose : (v.1.turn v.2).dm.pose = (v'.1.turn v'.2).dm.pose :=
    (congrArg Seen.pose hseen).symm
  have hids : (v.1.turn v.2).dm.id = (v'.1.turn v'.2).dm.id := by
    rw [(hi.fixed hm).turn_id, (hi'.fixed hm').turn_id, hid]
  have hframe := v.1.turn_frame v.2
  have hframe' := v'.1.turn_frame v'.2
  unfold written SameLeftover
  rw [smooth_ori h hi hm, smooth_ori h' hi' hm', hmode, hknown]
  cases hrow : known v.1 v.2.deviInfo.dmId with
  | none =>
    refine iff_of_true ?_ nofun
    simp only [snapshot, Main.turn_ori]
    rw [hframe, hframe', hids, hpose]
    split <;> rfl
  | some r =>
    simp only [Option.mem_def, Option.some.injEq, forall_eq']
    rw [Main.turn_ori, Main.turn_ori, row_snapshot_eq_iff hids hpose, hframe, hframe']

/-- Two runs that the code `id` cannot tell apart, without failures and eviction, with one
mode in each iteration: they log the same rows for it, in all columns, exactly when at
each of its sightings that find a row the `DM`s left from the previous iterations agree in
the columns that are logged from them. (Rows that SQLite may visit in any order matter
only to sums that are rounded, and to counts beyond `2 ^ 31`.) -/
theorem log_isolated_iff {l l' : List Act} (hl : ∀ a ∈ l, a.Smooth) (hl' : ∀ a ∈ l', a.Smooth)
    (hcap : logged l ≤ cfg.maxRowSelfDb.toNat) (hcap' : logged l' ≤ cfg.maxRowSelfDb.toNat)
    (hscan : (∀ a ∈ l, a.Ordered) ∨ Doubles.Unordered ∧ met id l < 2 ^ 31)
    (hscan' : (∀ a ∈ l', a.Ordered) ∨ Doubles.Unordered ∧ met id l' < 2 ^ 31)
    (hseen : (meetings cfg account id l).map seenBy = (meetings cfg account id l').map seenBy) :
    SelfDb.rowsOf id (runMain cfg account l).self.values =
        SelfDb.rowsOf id (runMain cfg account l').self.values ↔
      List.Forall₂ (SameLeftover cfg) (meetings cfg account id l)
        (meetings cfg account id l') := by
  have hledger := codeLedger_run cfg account id hl hcap hscan
  have hledger' := codeLedger_run cfg account id hl' hcap' hscan'
  have hlooked : (meetings cfg account id l).map (fun v => known v.1 v.2.deviInfo.dmId) =
      (meetings cfg account id l').map fun v => known v.1 v.2.deviInfo.dmId := by
    rw [hledger.looked, hledger'.looked, hseen]
  rw [hledger.log, hledger'.log]
  rw [← List.forall₂_eq_eq_eq, List.forall₂_map_left_iff, List.forall₂_map_right_iff]
    at hseen hlooked ⊢
  rw [List.forall₂_iff_zip] at hseen hlooked ⊢
  rw [List.forall₂_iff_zip]
  refine and_congr_right fun hlen => ?_
  constructor
  all_goals
    intro h v v' hv
    obtain ⟨hmem, hmem'⟩ := List.of_mem_zip hv
    obtain ⟨hf, hi, hm, hid⟩ := mem_meetings hl hmem
    obtain ⟨hf', hi', _, hid'⟩ := mem_meetings hl' hmem'
    have hiff := written_eq_iff cfg account hf hf' hi hi' hm
      (hid'.trans hid.symm) (hlooked.2 hv).symm (hseen.2 hv).symm
  · exact hiff.mp (h hv)
  · exact hiff.mpr (h hv)

end

open scoped Exact

/-- The code 7 is recorded twice. -/
def exAlone : List Act :=
  [.sighting (exSighting .recording 7 0), .sighting (exSighting .recording 7 0)]

/-- The same with the code 9 in between, which is recorded twice as well. -/
def exAmong : List Act :=
  [.sighting (exSighting .recording 7 0), .sighting (exSighting .recording 9 0),
    .sighting (exSighting .recording 9 0), .sighting (exSighting .recording 7 0)]

/-- The same with the code 9 in between, once. -/
def exBetween : List Act :=
  [.sighting (exSighting .recording 7 0), .sighting (exSighting .recording 9 0),
    .sighting (exSighting .recording 7 0)]

theorem exAlone_smooth : ∀ a ∈ exAlone, a.Smooth := by
  intro a ha
  simp only [exAlone, List.mem_cons, List.not_mem_nil, or_false] at ha
  rcases ha with rfl | rfl <;> exact exSighting_smooth _ _ _

/-- A new code in between leaves the count 1 behind, like the code itself. -/
theorem log_isolated_exBetween :
    SelfDb.rowsOf 7 (runMain exConfig exAccount exAlone).self.values =
      SelfDb.rowsOf 7 (runMain exConfig exAccount exBetween).self.values := by
  have hsmooth : ∀ a ∈ exBetween, a.Smooth := by
    intro a ha
    simp only [exBetween, List.mem_cons, List.not_mem_nil, or_false] at ha
    rcases ha with rfl | rfl | rfl <;> exact exSighting_smooth _ _ _
  exact (log_isolated_iff exAlone_smooth hsmooth (by decide) (by decide)
    (.inr ⟨Exact.unordered, by decide⟩) (.inr ⟨Exact.unordered, by decide⟩)
    (by decide +kernel)).mpr (by decide +kernel)

/-- With two sightings of the code 9 in between, the second row of the code 7 has the
count 2 where it has the count 1 without them. -/
theorem log_leaks :
    (∀ a ∈ exAlone, a.Smooth) ∧ (∀ a ∈ exAmong, a.Smooth) ∧
      (meetings exConfig exAccount 7 exAlone).map seenBy =
        (meetings exConfig exAccount 7 exAmong).map seenBy ∧
      (SelfDb.rowsOf 7 (runMain exConfig exAccount exAlone).self.values).map (·.dmCnt) = [1, 1] ∧
      (SelfDb.rowsOf 7 (runMain exConfig exAccount exAmong).self.values).map (·.dmCnt) = [1, 2] ∧
      SelfDb.rowsOf 7 (runMain exConfig exAccount exAlone).self.values ≠
        SelfDb.rowsOf 7 (runMain exConfig exAccount exAmong).self.values := by
  refine ⟨exAlone_smooth, ?_, ?_, ?_, ?_, ?_⟩
  · intro a ha
    simp only [exAmong, List.mem_cons, List.not_mem_nil, or_false] at ha
    rcases ha with rfl | rfl | rfl | rfl <;> exact exSighting_smooth _ _ _
  all_goals decide +kernel

end QrAddon
