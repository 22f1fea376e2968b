import QrAddon.Loop

/-!
# The lifecycle of a code

Over a run in which every statement succeeds and nothing is evicted, the two
databases are functions of the history of sightings: the user table has one row
for every sighted code and counts its sightings, the self table logs their poses
in order, and the pose that is recommended at the repeat number is the mean of
the logged ones, up to the rounding of its sums and its quotient.

`Ledger` is the invariant, `ledger_act` its step and `ledger_run` its run lemma;
`lifecycle` reads the result off it.
-/

namespace QrAddon

section

variable [Doubles]

/-- The mode of an iteration, as its first read sees it. -/
def Sighting.mode (i : Sighting) : Mode := i.trig.mode1

/-- A sighting of a nonzero code in RECORDING or LOCALIZATION, in a mode that does
not change, with every statement of its branch succeeding. -/
structure Sighting.Clean (i : Sighting) : Prop where
  fixed : i.Fixed i.mode
  id : i.deviInfo.dmId ≠ 0
  lookup : (i.env i.mode).lookup.rc = .ok
  fit : (i.env i.mode).fitOk = true
  user : (i.env i.mode).userOk = true
  self : (i.env i.mode).selfOk = true

/-- The operator may do anything, sightings are clean. -/
def Act.Clean : Act → Prop
  | .sighting i => i.Clean
  | .toggle _ _ => True

/-- The sighting in a step, if it is one of the code `id`. -/
def Act.sightingOf? (id : UInt32) : Act → Option Sighting
  | .sighting i => if i.deviInfo.dmId = id then some i else none
  | .toggle _ _ => none

def Act.isSighting : Act → Bool
  | .sighting _ => true
  | .toggle _ _ => false

/-- The number of sightings of a run. -/
def total (l : List Act) : ℕ := l.countP Act.isSighting

/-- The number of sightings of one code in a run. -/
def seen (id : UInt32) (l : List Act) : ℕ := l.countP fun a => (a.sightingOf? id).isSome

section

variable (cfg : Config ℚ) (account : Account)

/-- The sightings of one code in a run, each with the state it finds. -/
def sightingsOf (id : UInt32) (l : List Act) : List (Main × Sighting) :=
  (stepsMain cfg account l).filterMap fun v => (v.2.sightingOf? id).map fun i => (v.1, i)

/-- The pose at which a sighting sees its code: what `dmTrigger` puts into the `DM`. -/
def observed (v : Main × Sighting) : DmPose ℚ := (v.1.turn v.2).dm.pose

/-- The sighting finds the row enabled and lies further than `locErrThreshold` from
the stored position, by the distance that doubles give. -/
def deviates (v : Main × Sighting) : Bool :=
  match v.1.user.find? v.2.deviInfo.dmId with
  | some r => r.enable &&
      decide ((planarDistance (UserDb.loaded r) (v.1.turn v.2).dm).Exceeds cfg.locErrThreshold)
  | none => false

/-- What the databases say about the run `l`. -/
structure Ledger (l : List Act) (s : Main) : Prop where
  flag : s.whetherCb = false
  known : ∀ id, s.user.find? id = none ↔ seen id l = 0
  cnt : ∀ id r, s.user.find? id = some r → r.dmCnt = seen id l
  sloppy : ∀ id r, s.user.find? id = some r →
    r.sloppyCnt = (sightingsOf cfg account id l).countP (deviates cfg)
  log : ∀ id, (SelfDb.rowsOf id s.self.values).map (·.pose) =
    (sightingsOf cfg account id l).map fun v => (observed v).printed
  size : s.self.values.length = total l

end

namespace LifecycleLemmas

variable {cfg : Config ℚ} {account : Account}

section

omit [Doubles]

theorem total_sighting (l : List Act) (i : Sighting) :
    total (l ++ [.sighting i]) = total l + 1 := by
  simp [total, List.countP_append, Act.isSighting]

theorem total_toggle (l : List Act) (id : UInt32) (b : Bool) :
    total (l ++ [.toggle id b]) = total l := by
  simp [total, List.countP_append, Act.isSighting]

theorem seen_sighting (id : UInt32) (l : List Act) (i : Sighting) :
    seen id (l ++ [.sighting i]) = seen id l + if i.deviInfo.dmId = id then 1 else 0 := by
  by_cases h : i.deviInfo.dmId = id <;> simp [seen, List.countP_append, Act.sightingOf?, h]

theorem seen_toggle (id id' : UInt32) (l : List Act) (b : Bool) :
    seen id (l ++ [.toggle id' b]) = seen id l := by
  simp [seen, List.countP_append, Act.sightingOf?]

end

theorem sightingsOf_sighting (id : UInt32) (l : List Act) (i : Sighting) :
    sightingsOf cfg account id (l ++ [.sighting i]) = sightingsOf cfg account id l ++
      if i.deviInfo.dmId = id then [(runMain cfg account l, i)] else [] := by
  unfold sightingsOf stepsMain
  rw [Run.visits_snoc, List.filterMap_append]
  by_cases h : i.deviInfo.dmId = id <;>
    simp [Act.sightingOf?, h, runMain]

theorem sightingsOf_toggle (id id' : UInt32) (l : List Act) (b : Bool) :
    sightingsOf cfg account id (l ++ [.toggle id' b]) = sightingsOf cfg account id l := by
  unfold sightingsOf stepsMain
  rw [Run.visits_snoc, List.filterMap_append]
  simp [Act.sightingOf?]

variable (cfg account) in
/-- There are as many sightings of a code with their states as without. -/
theorem length_sightingsOf (id : UInt32) (l : List Act) :
    (sightingsOf cfg account id l).length = seen id l := by
  unfold sightingsOf seen stepsMain
  rw [List.length_filterMap_eq_countP]
  have hinputs : (Run.visits (act cfg account) Main.start l).map Prod.snd = l :=
    Run.visits_inputs _ _
  conv_rhs => rw [← hinputs]
  rw [List.countP_map]
  congr 1
  funext v
  simp

omit [Doubles] in
theorem seen_le_total (id : UInt32) (l : List Act) : seen id l ≤ total l := by
  apply List.countP_mono_left
  intro a _ h
  cases a with
  | sighting i => rfl
  | toggle id' b => simp [Act.sightingOf?] at h

theorem runMain_snoc (l : List Act) (a : Act) :
    runMain cfg account (l ++ [a]) = act cfg account (runMain cfg account l) a :=
  Run.exec_snoc _ l a

/-! ### One clean iteration -/

section

variable {s : Main} {i : Sighting}

variable (cfg account) in
theorem clean_step (h : s.whetherCb = false) (hi : i.Clean) :
    BranchStep cfg account i.body.deviInfo (i.env i.mode) i.mode (s.turn i)
      (iterate cfg account s i) := iterate_fixed cfg account h hi.fixed

theorem clean_lookedUp (hi : i.Clean) :
    UserDb.lookedUp (s.turn i).user (i.env i.mode).lookup (s.turn i).dm.id =
      s.user.find? i.deviInfo.dmId := by
  rw [hi.fixed.turn_id]
  exact UserDb.lookedUp_ok hi.lookup hi.id

variable (cfg account) in
/-- Below the cap, a clean iteration logs its own code at the observed pose. -/
theorem clean_log (h : s.whetherCb = false) (hi : i.Clean)
    (hcap : s.self.values.length < cfg.maxRowSelfDb.toNat) :
    ∃ row : SelfRow, row.dmId = i.deviInfo.dmId ∧ row.pose = (observed (s, i)).printed ∧
      (iterate cfg account s i).self.values = s.self.values ++ [row] := by
  have hlog := (clean_step cfg account h hi).logged
  refine ⟨SelfDb.row (iterate cfg account s i).ori, ?_, ?_, ?_⟩
  · exact hlog.id.trans (hi.fixed.turn_id s)
  · exact congrArg DmPose.printed hlog.pose
  · have hnot : ¬ cfg.maxRowSelfDb.toNat ≤ s.self.values.length := not_le.mpr hcap
    rw [hlog.self, SelfDb.values_addContent, hi.self, Main.turn_self, if_neg (by decide),
      if_neg hnot]

variable (cfg account) in
/-- A new code gets a row with the count 1. -/
theorem clean_new (h : s.whetherCb = false) (hi : i.Clean)
    (hrow : s.user.find? i.deviInfo.dmId = none) :
    ∃ r', (iterate cfg account s i).user.find? i.deviInfo.dmId = some r' ∧ r'.dmCnt = 1 ∧
      r'.sloppyCnt = 0 := by
  have hid := (clean_step cfg account h hi).dm_id
  rw [hi.fixed.turn_id] at hid
  cases clean_step cfg account h hi with
  | unknown _ hdm huser hlog hev =>
    refine ⟨UserDb.row (iterate cfg account s i).dm, ?_, ?_, ?_⟩
    · rw [huser, UserDb.find?_addContent, hid]
      simp [hi.user, hrow]
    · rw [hdm]
      rfl
    · rw [hdm]
      rfl
  | disabled r hr | recommended r hr | near r hr | far r hr =>
    rw [clean_lookedUp hi, hrow] at hr
    cases hr

/-- No other code's row changes. -/
theorem clean_other (h : s.whetherCb = false) (hi : i.Clean) {id : UInt32}
    (hid : i.deviInfo.dmId ≠ id) :
    (iterate cfg account s i).user.find? id = s.user.find? id := by
  apply (clean_step cfg account h hi).user_other
  rw [hi.fixed.turn_id]
  exact hid.symm

/-- For a known code, `deviates` is the test of the branch. -/
theorem deviates_known {r : UserRow} (hrow : s.user.find? i.deviInfo.dmId = some r) :
    deviates cfg (s, i) = true ↔ r.enable = true ∧
      (planarDistance (counted r) (s.turn i).ori).Exceeds cfg.locErrThreshold := by
  unfold deviates
  simp only [hrow, Bool.and_eq_true, decide_eq_true_eq]
  rfl

theorem deviates_new (hrow : s.user.find? i.deviInfo.dmId = none) :
    deviates cfg (s, i) = false := by
  unfold deviates
  simp only [hrow]

variable (cfg account) in
/-- A known code keeps its row, counted up once, and once more as a deviation
exactly when it deviates. -/
theorem clean_known (h : s.whetherCb = false) (hi : i.Clean) {r : UserRow}
    (hrow : s.user.find? i.deviInfo.dmId = some r) (hcnt : r.dmCnt < 2 ^ 31)
    (hsloppy : r.sloppyCnt < 2 ^ 31) :
    ∃ r', (iterate cfg account s i).user.find? i.deviInfo.dmId = some r' ∧
      r'.dmCnt = r.dmCnt + 1 ∧ r'.enable = r.enable ∧
      r'.sloppyCnt = r.sloppyCnt + (if deviates cfg (s, i) then 1 else 0) ∧
      r'.pose = (iterate cfg account s i).dm.pose.printed := by
  have hb := clean_step cfg account h hi
  have hr := (clean_lookedUp (s := s) hi).trans hrow
  have hid : (iterate cfg account s i).dm.id = i.deviInfo.dmId := by
    rw [hb.dm_id, hi.fixed.turn_id]
  obtain ⟨hen, hc, hs⟩ := hb.found hr
  obtain ⟨hno, _⟩ | ⟨_, _, _, huser⟩ := hb.user_cases
  · rw [hr] at hno
    cases hno
  refine ⟨UserDb.setColumns (iterate cfg account s i).dm r, ?_, ?_, hen, ?_, rfl⟩
  · rw [huser, UserDb.find?_updateDataBase, hid]
    simp [hi.user, hrow]
  · simp only [UserDb.setColumns]
    rw [hc, readCounter_succ hcnt]
  · simp only [UserDb.setColumns]
    rw [hs]
    by_cases hd : deviates cfg (s, i) = true
    · rw [if_pos ((deviates_known hrow).mp hd), if_pos hd, readCounter_succ hsloppy]
    · rw [if_neg (mt (deviates_known hrow).mpr hd), if_neg hd, add_zero,
        readCounter_toNat hsloppy, add_zero]

variable (cfg account) in
/-- At the repeat number of its mode, a disabled code gets the mean of its logged
poses, provided that the log holds as many as were counted. -/
theorem clean_recommended (h : s.whetherCb = false) (hi : i.Clean) {r : UserRow}
    (hrow : s.user.find? i.deviInfo.dmId = some r) (hoff : r.enable = false)
    (hcnt : r.dmCnt < 2 ^ 31) (hn : r.dmCnt + 1 = (cfg.repeatNum i.mode).toNat)
    (hlog : (SelfDb.rowsOf i.deviInfo.dmId (iterate cfg account s i).self.values).length =
      (cfg.repeatNum i.mode).toNat) :
    (iterate cfg account s i).dm.pose.Averages
      ((SelfDb.rowsOf i.deviInfo.dmId (iterate cfg account s i).self.values).map
        fun row => row.pose.read) := by
  have hb := clean_step cfg account h hi
  have hr := (clean_lookedUp (s := s) hi).trans hrow
  have hrid : r.dmId = i.deviInfo.dmId := KeyedTable.key_of_find? hrow
  have hid : (counted r).setRecommend.id = i.deviInfo.dmId := hrid
  have hdm := hb.found_fit hr hoff (by rw [counted_cnt, readCounter_succ hcnt, hn])
  rw [hdm, hi.fit, SelfDb.fitPose_mean (by rw [SelfDb.length_fitRows, hid, hlog, min_self]), hid]
  refine DoublesLemmas.averages_of_perm ((SelfDb.fitRows_perm _ hlog).map _) ?_ ?_
  · rw [List.length_map, hlog]
    omega
  · rw [List.length_map, hlog]
    exact (cfg.repeatNum i.mode).toNat_lt

end

/-! ### The ledger -/

theorem ledger_nil : Ledger cfg account [] Main.start where
  flag := rfl
  known _ := ⟨fun _ => rfl, fun _ => rfl⟩
  cnt _ _ h := nomatch h
  sloppy _ _ h := nomatch h
  log _ := rfl
  size := rfl

/-- The operator changes flags only. -/
theorem ledger_toggle {l : List Act} (hl : Ledger cfg account l (runMain cfg account l))
    (id : UInt32) (b : Bool) :
    Ledger cfg account (l ++ [.toggle id b]) (runMain cfg account (l ++ [.toggle id b])) := by
  rw [runMain_snoc]
  have hfind (id' : UInt32) (r : UserRow)
      (hr : (act cfg account (runMain cfg account l) (.toggle id b)).user.find? id' = some r) :
      ∃ r', (runMain cfg account l).user.find? id' = some r' ∧ r.dmCnt = r'.dmCnt ∧
        r.sloppyCnt = r'.sloppyCnt := by
    simp only [act, UserDb.find?_setEnable] at hr
    split at hr
    · obtain ⟨r', hr', rfl⟩ := Option.map_eq_some_iff.mp hr
      exact ⟨r', hr', rfl, rfl⟩
    · exact ⟨r, hr, rfl, rfl⟩
  refine ⟨hl.flag, ?_, ?_, ?_, ?_, ?_⟩
  · intro id'
    rw [seen_toggle, ← hl.known id']
    simp only [act, UserDb.find?_setEnable]
    split <;> simp
  · intro id' r hr
    obtain ⟨r', hr', hc, _⟩ := hfind id' r hr
    rw [hc, seen_toggle, hl.cnt id' r' hr']
  · intro id' r hr
    obtain ⟨r', hr', _, hs⟩ := hfind id' r hr
    rw [hs, sightingsOf_toggle, hl.sloppy id' r' hr']
  · intro id'
    rw [sightingsOf_toggle]
    exact hl.log id'
  · rw [total_toggle]
    exact hl.size

/-- A count of the ledger is at most the number of sightings. -/
theorem ledger_le {l : List Act} (hl : Ledger cfg account l (runMain cfg account l))
    {id : UInt32} {r : UserRow} (hr : (runMain cfg account l).user.find? id = some r) :
    r.dmCnt ≤ total l ∧ r.sloppyCnt ≤ total l := by
  have hseen := seen_le_total id l
  have hcount := List.countP_le_length (p := deviates cfg) (l := sightingsOf cfg account id l)
  rw [length_sightingsOf] at hcount
  have hc := hl.cnt id r hr
  have hs := hl.sloppy id r hr
  omega

/-- The own row after a clean sighting: counted up from what the ledger says. -/
theorem ledger_own {l : List Act} (hl : Ledger cfg account l (runMain cfg account l))
    {i : Sighting} (hi : i.Clean) (hlt : total l < 2 ^ 31) :
    ∃ r', (iterate cfg account (runMain cfg account l) i).user.find? i.deviInfo.dmId = some r' ∧
      r'.dmCnt = seen i.deviInfo.dmId l + 1 ∧
      r'.sloppyCnt = (sightingsOf cfg account i.deviInfo.dmId l).countP (deviates cfg) +
        if deviates cfg (runMain cfg account l, i) then 1 else 0 := by
  cases hrow : (runMain cfg account l).user.find? i.deviInfo.dmId with
  | none =>
    obtain ⟨r', hr', hc, hs⟩ := clean_new cfg account hl.flag hi hrow
    have hzero := (hl.known _).mp hrow
    have hnil := List.eq_nil_of_length_eq_zero
      ((length_sightingsOf cfg account i.deviInfo.dmId l).trans hzero)
    refine ⟨r', hr', ?_, ?_⟩
    · rw [hc, hzero]
    · rw [hs, hnil, deviates_new hrow]
      rfl
  | some r =>
    obtain ⟨hc, hs⟩ := ledger_le hl hrow
    obtain ⟨r', hr', hc', _, hs', _⟩ := clean_known cfg account hl.flag hi
      hrow (by omega) (by omega)
    refine ⟨r', hr', ?_, ?_⟩
    · rw [hc', hl.cnt _ _ hrow]
    · rw [hs', hl.sloppy _ _ hrow]

theorem ledger_sighting {l : List Act} (hl : Ledger cfg account l (runMain cfg account l))
    {i : Sighting} (hi : i.Clean) (hcap : total l < cfg.maxRowSelfDb.toNat)
    (hlt : total l < 2 ^ 31) :
    Ledger cfg account (l ++ [.sighting i]) (runMain cfg account (l ++ [.sighting i])) := by
  rw [runMain_snoc]
  obtain ⟨r', hr', hc, hs⟩ := ledger_own hl hi hlt
  obtain ⟨row, hid, hpose, hself⟩ := clean_log cfg account hl.flag hi
    (by rw [hl.size]; exact hcap)
  refine ⟨iterate_whetherCb hl.flag, ?_, ?_, ?_, ?_, ?_⟩
  · intro id
    rw [seen_sighting]
    by_cases h : i.deviInfo.dmId = id
    · subst h
      simp [act, hr']
    · rw [if_neg h, add_zero, ← hl.known id, ← clean_other hl.flag hi h]
      rfl
  · intro id r hr
    rw [seen_sighting]
    by_cases h : i.deviInfo.dmId = id
    · subst h
      obtain rfl : r' = r := Option.some.inj (hr'.symm.trans hr)
      simpa using hc
    · rw [if_neg h, add_zero]
      exact hl.cnt id r ((clean_other hl.flag hi h).symm.trans hr)
  · intro id r hr
    rw [sightingsOf_sighting]
    by_cases h : i.deviInfo.dmId = id
    · subst h
      obtain rfl : r' = r := Option.some.inj (hr'.symm.trans hr)
      rw [if_pos rfl, List.countP_append, List.countP_singleton]
      exact hs
    · rw [if_neg h, List.append_nil]
      exact hl.sloppy id r ((clean_other hl.flag hi h).symm.trans hr)
  · intro id
    show (SelfDb.rowsOf id (iterate cfg account (runMain cfg account l) i).self.values).map
      (·.pose) = _
    rw [hself, sightingsOf_sighting]
    by_cases h : i.deviInfo.dmId = id
    · simp [SelfDb.rowsOf, hid, h, hpose, ← hl.log id]
    · simp [SelfDb.rowsOf, hid, h, ← hl.log id]
  · show (iterate cfg account (runMain cfg account l) i).self.values.length = _
    rw [hself, List.length_append, hl.size, total_sighting]
    rfl

/-- A code has one row if it was sighted, and none otherwise. -/
theorem ledger_rows {l : List Act} (hl : Ledger cfg account l (runMain cfg account l))
    (id : UInt32) : ((runMain cfg account l).user.rows.filter fun r => r.dmId = id).length =
      if 0 < seen id l then 1 else 0 := by
  rw [KeyedTable.count_rows]
  have hknown := hl.known id
  cases hrow : (runMain cfg account l).user.find? id with
  | none => simp [hknown.mp hrow]
  | some r =>
    have hpos : 0 < seen id l := by
      apply Nat.pos_of_ne_zero
      intro h0
      rw [hknown.mpr h0] at hrow
      cases hrow
    simp [hpos]

/-- A disabled code that a sighting brings to the repeat number gets the mean of its log. -/
theorem ledger_recommended {l : List Act} (hl : Ledger cfg account l (runMain cfg account l))
    {i : Sighting} (hi : i.Clean) (hlt : total l < 2 ^ 31) {r : UserRow}
    (hr : (iterate cfg account (runMain cfg account l) i).user.find? i.deviInfo.dmId = some r)
    (hoff : r.enable = false) (hn : r.dmCnt = (cfg.repeatNum i.mode).toNat) (htwo : 2 ≤ r.dmCnt)
    (hlen : (SelfDb.rowsOf i.deviInfo.dmId
      (iterate cfg account (runMain cfg account l) i).self.values).length = r.dmCnt) :
    ∃ p : DmPose ℚ, p.Averages ((SelfDb.rowsOf i.deviInfo.dmId
      (iterate cfg account (runMain cfg account l) i).self.values).map fun row => row.pose.read) ∧
      r.pose = p.printed := by
  -- the count is at least two, so this was not the first sighting
  obtain ⟨r0, hr0⟩ : ∃ r0, (runMain cfg account l).user.find? i.deviInfo.dmId = some r0 := by
    apply Option.ne_none_iff_exists'.mp
    intro h0
    obtain ⟨r', hr', hc, _⟩ := clean_new cfg account hl.flag hi h0
    obtain rfl : r' = r := Option.some.inj (hr'.symm.trans hr)
    omega
  obtain ⟨hle, hsle⟩ := ledger_le hl hr0
  obtain ⟨r', hr', hc, hen, _, hpose⟩ := clean_known cfg account hl.flag hi hr0 (by omega)
    (by omega)
  obtain rfl : r' = r := Option.some.inj (hr'.symm.trans hr)
  exact ⟨_, clean_recommended cfg account hl.flag hi hr0 (hen.symm.trans hoff) (by omega)
    (by omega) (hlen.trans hn), hpose⟩

end LifecycleLemmas

open LifecycleLemmas

variable (cfg : Config ℚ) (account : Account)

/-- The step lemma of the ledger. -/
theorem ledger_act {l : List Act} {a : Act} (hl : Ledger cfg account l (runMain cfg account l))
    (ha : a.Clean) (hcap : total (l ++ [a]) ≤ cfg.maxRowSelfDb.toNat)
    (hlt : total (l ++ [a]) < 2 ^ 31) :
    Ledger cfg account (l ++ [a]) (runMain cfg account (l ++ [a])) := by
  cases a with
  | sighting i =>
    rw [total_sighting] at hcap hlt
    exact ledger_sighting hl ha (by omega) (by omega)
  | toggle id b => exact ledger_toggle hl id b

/-- The ledger holds after every clean run that fits into the self table. -/
theorem ledger_run {l : List Act} (hclean : ∀ a ∈ l, a.Clean)
    (hcap : total l ≤ cfg.maxRowSelfDb.toNat) (hlt : total l < 2 ^ 31) :
    Ledger cfg account l (runMain cfg account l) := by
  induction l using List.reverseRecOn with
  | nil => exact ledger_nil
  | append_singleton l a ih =>
    have hle : total l ≤ total (l ++ [a]) := by simp [total, List.countP_append]
    refine ledger_act cfg account (ih ?_ (by omega) (by omega)) ?_ hcap hlt
    · intro b hb
      exact hclean b (List.mem_append_left _ hb)
    · exact hclean a (by simp)

/-- The lifecycle of a code. After a clean run of at most `maxRowSelfDb` sightings,
a code has one row in the user table if it was sighted and none otherwise; its
count is the number of its sightings and of its logged rows, its deviations are
counted exactly, and its log is the list of the poses that were observed. When
the last sighting of the run brings a disabled code to the repeat number `N ≥ 2`
of its mode, the stored pose is the mean of its `N` logged poses: six decimals of
what doubles have for it. -/
theorem lifecycle {l : List Act} (hclean : ∀ a ∈ l, a.Clean)
    (hcap : total l ≤ cfg.maxRowSelfDb.toNat) (hlt : total l < 2 ^ 31) (id : UInt32) :
    ((runMain cfg account l).user.rows.filter fun r => r.dmId = id).length =
        (if 0 < seen id l then 1 else 0) ∧
      (SelfDb.rowsOf id (runMain cfg account l).self.values).map (·.pose) =
        (sightingsOf cfg account id l).map (fun v => (observed v).printed) ∧
      ∀ r ∈ (runMain cfg account l).user.rows, r.dmId = id →
        r.dmCnt = seen id l ∧
        r.dmCnt = (SelfDb.rowsOf id (runMain cfg account l).self.values).length ∧
        r.sloppyCnt = (sightingsOf cfg account id l).countP (deviates cfg) ∧
        ∀ pre i, l = pre ++ [.sighting i] → i.deviInfo.dmId = id → r.enable = false →
          r.dmCnt = (cfg.repeatNum i.mode).toNat → 2 ≤ r.dmCnt →
          ∃ p : DmPose ℚ, p.Averages ((SelfDb.rowsOf id (runMain cfg account l).self.values).map
            fun row => row.pose.read) ∧ r.pose = p.printed := by
  have hl := ledger_run cfg account hclean hcap hlt
  have hlen : (SelfDb.rowsOf id (runMain cfg account l).self.values).length = seen id l := by
    have := congrArg List.length (hl.log id)
    simpa [length_sightingsOf] using this
  refine ⟨ledger_rows hl id, hl.log id, ?_⟩
  intro r hmem hrid
  have hr := KeyedTable.find?_eq_some.mpr ⟨hmem, hrid⟩
  have hc := hl.cnt id r hr
  refine ⟨hc, hc.trans hlen.symm, hl.sloppy id r hr, ?_⟩
  rintro pre i rfl rfl hoff hn htwo
  rw [total_sighting] at hcap hlt
  have hpre : Ledger cfg account pre (runMain cfg account pre) :=
    ledger_run cfg account (fun a ha => hclean a (List.mem_append_left _ ha)) (by omega)
      (by omega)
  have hi : i.Clean := hclean (.sighting i) (by simp)
  have hlog := hlen.trans hc.symm
  rw [runMain_snoc] at hr hlog ⊢
  exact ledger_recommended hpre hi (by omega) hr hoff hn htwo hlog

end

open scoped Exact

theorem exSighting_clean {m : Mode} (hm : m ≠ .init) {id : UInt32} (hid : id ≠ 0)
    (p : DmPose ℚ) : (exSighting m id p).Clean where
  fixed := exSighting_fixed hm id p
  id := hid
  lookup := by cases m <;> rfl
  fit := by cases m <;> rfl
  user := by cases m <;> rfl
  self := by cases m <;> rfl

/-- The code 7, recorded twice. -/
def exTwice : List Act :=
  [.sighting (exSighting .recording 7 ⟨1, 2, 0⟩), .sighting (exSighting .recording 7 ⟨3, 2, 0⟩)]

/-- The second recording brings the code to the repeat number 2 of `exConfig`. -/
theorem lifecycle_exTwice :
    ((runMain exConfig exAccount exTwice).user.rows.filter fun r => r.dmId = 7).length = 1 ∧
      ∀ r ∈ (runMain exConfig exAccount exTwice).user.rows, r.dmId = 7 →
        r.dmCnt = 2 ∧ r.enable = false ∧ ∃ p : DmPose ℚ, p.Averages
          ((SelfDb.rowsOf 7 (runMain exConfig exAccount exTwice).self.values).map
            fun row => row.pose.read) ∧ r.pose = p.printed := by
  have hclean : ∀ a ∈ exTwice, a.Clean := by
    intro a ha
    rcases List.mem_pair.mp ha with rfl | rfl <;> exact exSighting_clean (by decide) (by decide) _
  obtain ⟨hone, _, hrows⟩ := lifecycle exConfig exAccount hclean
    (by decide) (by decide) 7
  refine ⟨hone, ?_⟩
  intro r hr hid
  have hoff : r.enable = false :=
    (by decide +kernel : ∀ r ∈ (runMain exConfig exAccount exTwice).user.rows, r.enable = false)
      r hr
  obtain ⟨hc, _, _, hpose⟩ := hrows r hr hid
  have htwo : r.dmCnt = 2 := hc
  exact ⟨htwo, hoff, hpose [_] _ rfl rfl hoff (by rw [htwo]; rfl) htwo.ge⟩

end QrAddon
