import QrAddon.Loop

/-!
# The mode changes inside an iteration

`listenMode` writes `*modePtr` without the mutex, so the two reads of `dmTrigger`
and the two of the loop body may return four different modes. `dmTrigger` chains
its tests with `else if` and forms at most one sighting. The body tests twice, and
with a change in between it runs both branches, the wrong one, or one although
`dmTrigger` read nothing.

Results:
1. `OneMode`: what an iteration in one mode does.
2. `oneMode_iff`: an iteration is one exactly when every branch that runs has the
   mode in which `dmTrigger` obtained a pose (`ModeAgrees`), and the count of a row
   that is rewritten survives its trip through `atoi` (`CounterFits`).
3. `flip_counts_twice`, `late_recording`: two sequences of reads that break it.
-/

namespace QrAddon

section

variable [Doubles]

def Event.lookup? : Event → Option (Mode × DmInfo ℚ)
  | .lookup m dm => some (m, dm)
  | .login _ | .addObservation _ | .setSeed _ | .diag _ | .fit _ => none

/-- The look-ups of an iteration, each with its branch and the `DM` it asks for. -/
def lookups (l : List Event) : List (Mode × DmInfo ℚ) := l.filterMap Event.lookup?

section

variable (cfg : Config ℚ) (account : Account)

/-- The iteration `i` in the state `s` works in one mode. -/
structure OneMode (s : Main) (i : Sighting) : Prop where
  /-- At most one sighting is processed. -/
  single : (lookups (iterate cfg account s i).events).length ≤ 1
  /-- A branch runs only on the pose that `dmTrigger` obtained from its interface. -/
  sourced : ∀ m dm, (m, dm) ∈ lookups (iterate cfg account s i).events →
    i.trig.source = m ∧ dm.id = i.deviInfo.dmId ∧
      ∃ p, i.trig.obtained = some p ∧ dm.pose = p.plus i.deviInfo.pose
  /-- No other code's row changes. -/
  other : ∀ id, id ≠ i.deviInfo.dmId →
    (iterate cfg account s i).user.find? id = s.user.find? id
  /-- The count grows by at most one. -/
  count : ∀ r', (iterate cfg account s i).user.find? i.deviInfo.dmId = some r' →
    r'.dmCnt ≤ (s.user.find? i.deviInfo.dmId).elim 0 (·.dmCnt) + 1
  /-- At most one row of the package's code is logged. -/
  log : (iterate cfg account s i).self = s.self ∨ ∃ row : SelfRow, row.dmId = i.deviInfo.dmId ∧
    (iterate cfg account s i).self = SelfDb.keepRowsSize cfg.maxRowSelfDb (s.self.insert row)
  /-- A package that arrives in INIT changes neither database. -/
  quiet : i.trig.source = .init →
    (iterate cfg account s i).user = s.user ∧ (iterate cfg account s i).self = s.self

end

/-- The body runs the branch of the mode `m`. -/
def Sighting.Uses (i : Sighting) (m : Mode) : Prop :=
  m = .recording ∧ i.body.mode3 = .recording ∨ m = .localization ∧ i.body.mode4 = .localization

/-- Every branch that runs has the mode in which `dmTrigger` obtained a pose. -/
def ModeAgrees (i : Sighting) : Prop :=
  ∀ m, i.Uses m → i.trig.source = m ∧ i.trig.obtained.isSome

/-- A row that a branch finds and rewrites has a count that `atoi` reads back: one
more than what it reads is at most one more than what is stored. -/
def CounterFits (s : Main) (i : Sighting) : Prop :=
  ∀ m, i.Uses m → (i.env m).userOk = true → ∀ r,
    UserDb.lookedUp s.user (i.env m).lookup i.deviInfo.dmId = some r →
    (readCounter r.dmCnt + 1).toNat ≤ r.dmCnt + 1

namespace ModeRaceLemmas

variable {cfg : Config ℚ} {account : Account} {s : Main} {i : Sighting}

theorem requestOf_lookup? (cfg : Config ℚ) (d : CustomerPackage ℚ) (env : BranchEnv)
    (t : Turn) (mode : Mode) (dm : DmInfo ℚ) (rpcId : UInt64) :
    (requestOf cfg d env t mode dm rpcId).lookup? = none := by
  unfold requestOf
  split <;> rfl

/-- A branch looks up exactly once, the code that it was given. -/
theorem branch_lookups {d : CustomerPackage ℚ} {env : BranchEnv} {mode : Mode} {t t' : Turn}
    (h : BranchStep cfg account d env mode t t') :
    lookups t'.events = lookups t.events ++ [(mode, t.dm)] := by
  cases h with
  | unknown _ _ _ _ hev | disabled _ _ _ _ _ _ _ hev | recommended _ _ _ _ _ _ _ hev
  | near _ _ _ _ _ _ _ hev | far _ _ _ _ _ _ _ hev =>
    rw [hev]
    simp only [lookups, List.filterMap_append, List.filterMap_cons, requestOf_lookup?]
    rfl

variable (cfg account) in
/-- A branch that runs leaves its look-up in the events. -/
theorem uses_lookup (h : s.whetherCb = false) {m : Mode} (hm : i.Uses m) :
    ∃ dm, (m, dm) ∈ lookups (iterate cfg account s i).events := by
  obtain ⟨t, _, h3, h4⟩ := iterate_cases cfg account (i := i) h
  rcases hm with ⟨rfl, hm⟩ | ⟨rfl, hm⟩
  · obtain ⟨_, h3⟩ := h3.resolve_right fun h => h.1 hm
    refine ⟨(s.turn i).dm, ?_⟩
    rcases h4 with ⟨_, h4⟩ | ⟨_, h4⟩
    · rw [branch_lookups h4, branch_lookups h3]
      simp
    · rw [h4, branch_lookups h3]
      simp
  · obtain ⟨_, h4⟩ := h4.resolve_right fun h => h.1 hm
    refine ⟨t.dm, ?_⟩
    rw [branch_lookups h4]
    simp

/-- In one mode, every branch that runs agrees with `dmTrigger`. -/
theorem modeAgrees_of_oneMode (h : s.whetherCb = false) (ho : OneMode cfg account s i) :
    ModeAgrees i := by
  intro m hm
  obtain ⟨dm, hdm⟩ := uses_lookup cfg account h hm
  obtain ⟨hsource, _, p, hp, _⟩ := ho.sourced m dm hdm
  exact ⟨hsource, by rw [hp]; rfl⟩

variable (cfg account) in
/-- With agreeing modes, an iteration runs no branch, or exactly one. -/
theorem iterate_agrees (h : s.whetherCb = false) (ha : ModeAgrees i) :
    (iterate cfg account s i = s.turn i ∧ ∀ m, ¬ i.Uses m) ∨
    ∃ m, i.Uses m ∧
      BranchStep cfg account i.body.deviInfo (i.env m) m (s.turn i) (iterate cfg account s i) := by
  obtain ⟨t, _, h3, h4⟩ := iterate_cases cfg account (i := i) h
  rcases h3 with ⟨hm3, h3⟩ | ⟨hm3, rfl⟩
  · right
    have hrec : i.Uses .recording := .inl ⟨rfl, hm3⟩
    refine ⟨.recording, hrec, ?_⟩
    rcases h4 with ⟨hm4, _⟩ | ⟨_, h4⟩
    · -- both branches cannot have the mode of the one source
      have h1 := (ha .recording hrec).1
      have h2 := (ha .localization (.inr ⟨rfl, hm4⟩)).1
      rw [h1] at h2
      cases h2
    · rw [h4]
      exact h3
  · rcases h4 with ⟨hm4, h4⟩ | ⟨hm4, h4⟩
    · exact .inr ⟨.localization, .inr ⟨rfl, hm4⟩, h4⟩
    · refine .inl ⟨h4, ?_⟩
      rintro m (⟨_, hm⟩ | ⟨_, hm⟩)
      · exact hm3 hm
      · exact hm4 hm

omit [Doubles] in
theorem uses_ne_init {m : Mode} (h : i.Uses m) : m ≠ .init := by
  rintro rfl
  rcases h with ⟨h, _⟩ | ⟨h, _⟩ <;> cases h

/-- What a branch leaves in the row of its code. -/
theorem branch_count {d : CustomerPackage ℚ} {env : BranchEnv} {mode : Mode} {t t' : Turn}
    (h : BranchStep cfg account d env mode t t') {r' : UserRow}
    (hr' : t'.user.find? t.dm.id = some r') :
    t.user.find? t.dm.id = some r' ∨
    (t.user.find? t.dm.id = none ∧ r'.dmCnt = 1) ∨
    ∃ r, UserDb.lookedUp t.user env.lookup t.dm.id = some r ∧ env.userOk = true ∧
      r'.dmCnt = (readCounter r.dmCnt + 1).toNat := by
  rcases h.user_cases with ⟨_, hcnt, huser⟩ | ⟨r, hrow, hcnt, huser⟩
  · rw [huser, UserDb.find?_addContent, h.dm_id] at hr'
    split at hr'
    · next hnew =>
      obtain rfl := Option.some.inj hr'
      refine .inr (.inl ⟨hnew.2.1, ?_⟩)
      simp [UserDb.row, hcnt]
    · exact .inl hr'
  · rw [huser, UserDb.find?_updateDataBase, h.dm_id] at hr'
    split at hr'
    · next hok =>
      obtain ⟨r0, _, rfl⟩ := Option.map_eq_some_iff.mp hr'
      refine .inr (.inr ⟨r, hrow, hok.1, ?_⟩)
      simp [UserDb.setColumns, hcnt]
    · exact .inl hr'

/-- A branch whose look-up and update succeed stores the count plus one. -/
theorem branch_stores {d : CustomerPackage ℚ} {env : BranchEnv} {mode : Mode} {t t' : Turn}
    (h : BranchStep cfg account d env mode t t') (hok : env.userOk = true) {r : UserRow}
    (hr : UserDb.lookedUp t.user env.lookup t.dm.id = some r) :
    ∃ r', t'.user.find? t.dm.id = some r' ∧ r'.dmCnt = (readCounter r.dmCnt + 1).toNat := by
  rcases h.user_cases with ⟨hno, _⟩ | ⟨r0, hrow, hcnt, huser⟩
  · rw [hr] at hno
    cases hno
  · obtain rfl : r0 = r := Option.some.inj (hrow.symm.trans hr)
    refine ⟨UserDb.setColumns t'.dm r0, ?_, ?_⟩
    · rw [huser, UserDb.find?_updateDataBase, h.dm_id]
      simp [hok, (UserDb.lookedUp_some hr).1]
    · simp [UserDb.setColumns, hcnt]

/-- No branch: the iteration changes neither database. -/
theorem oneMode_idle (h : iterate cfg account s i = s.turn i) : OneMode cfg account s i := by
  refine ⟨?_, ?_, ?_, ?_, ?_, ?_⟩
  · rw [h]
    simp [lookups]
  · intro m dm hdm
    rw [h] at hdm
    simp [lookups] at hdm
  · intro id _
    rw [h]
    rfl
  · intro r' hr'
    rw [h, Main.turn_user] at hr'
    simp [hr']
  · left
    rw [h]
    rfl
  · intro _
    rw [h]
    exact ⟨rfl, rfl⟩

/-- One branch, in the mode of the source. -/
theorem oneMode_branch {m : Mode} (hm : i.Uses m) (hsource : i.trig.source = m)
    (hsome : i.trig.obtained.isSome) (hfits : CounterFits s i)
    (hb : BranchStep cfg account i.body.deviInfo (i.env m) m (s.turn i)
      (iterate cfg account s i)) : OneMode cfg account s i := by
  have hinit : i.trig.source ≠ .init := by
    rw [hsource]
    exact uses_ne_init hm
  have hid := s.turn_id hinit
  have hlook := branch_lookups hb
  refine ⟨?_, ?_, ?_, ?_, ?_, fun h => absurd h hinit⟩
  · rw [hlook]
    simp [lookups]
  · intro m' dm hdm
    rw [hlook] at hdm
    obtain ⟨rfl, rfl⟩ : m' = m ∧ dm = (s.turn i).dm := by simpa [lookups] using hdm
    obtain ⟨p, hp⟩ := Option.isSome_iff_exists.mp hsome
    exact ⟨hsource, hid, p, hp, Main.trigger_pose _ hp _⟩
  · intro id hne
    apply hb.user_other
    rw [hid]
    exact hne
  · intro r' hr'
    rw [← hid] at hr' ⊢
    rcases branch_count hb hr' with hsame | ⟨_, hone⟩ | ⟨r, hr, hok, hcnt⟩
    · rw [Main.turn_user] at hsame
      simp [hsame]
    · omega
    · have hfind := (UserDb.lookedUp_some hr).1
      rw [Main.turn_user] at hfind
      rw [hid] at hr
      rw [hfind, hcnt]
      exact hfits m hm hok r hr
  · have hlog := hb.logged
    rw [hlog.self]
    unfold SelfDb.addContent
    split
    · exact .inr ⟨_, hlog.id.trans hid, rfl⟩
    · exact .inl rfl

end ModeRaceLemmas

open ModeRaceLemmas

variable {cfg : Config ℚ} {account : Account}

/-- In every state that a run reaches, for every package and every sequence of
modes read: the iteration works in one mode exactly when the branches that run
agree with `dmTrigger` and the count that is rewritten can be read back. -/
theorem oneMode_iff (l : List Act) (i : Sighting) :
    OneMode cfg account (runMain cfg account l) i ↔
      ModeAgrees i ∧ CounterFits (runMain cfg account l) i := by
  generalize hs : runMain cfg account l = s
  have hflag : s.whetherCb = false := hs ▸ runMain_whetherCb cfg account l
  constructor
  · intro h
    have hagrees := modeAgrees_of_oneMode hflag h
    refine ⟨hagrees, ?_⟩
    intro m hm hok r hr
    rcases iterate_agrees cfg account hflag hagrees with
      ⟨_, hno⟩ | ⟨m', hm', hb⟩
    · exact absurd hm (hno m)
    · -- the branch that runs is the one of `m`
      obtain rfl : m' = m := (hagrees m' hm').1.symm.trans (hagrees m hm).1
      have hid := s.turn_id (i := i) (by rw [(hagrees m' hm').1]; exact uses_ne_init hm')
      rw [← hid] at hr
      obtain ⟨r', hr', hcnt⟩ := branch_stores hb hok hr
      rw [hid] at hr hr'
      have hcount := h.count r' hr'
      rw [(UserDb.lookedUp_some hr).1, hcnt] at hcount
      exact hcount
  · rintro ⟨hagrees, hfits⟩
    rcases iterate_agrees cfg account hflag hagrees with
      ⟨hidle, _⟩ | ⟨m, hm, hb⟩
    · exact oneMode_idle hidle
    · obtain ⟨hsource, hsome⟩ := hagrees m hm
      exact oneMode_branch hm hsource hsome hfits hb

omit [Doubles] in
/-- Below `2 ^ 31` every count fits. -/
theorem counterFits_of_lt {s : Main} {i : Sighting}
    (h : ∀ r ∈ s.user.rows, r.dmCnt < 2 ^ 31) : CounterFits s i := by
  intro m _ _ r hr
  have hmem := (KeyedTable.find?_eq_some.mp (UserDb.lookedUp_some hr).1).1
  rw [readCounter_succ (h r hmem)]

end

open ModeRaceLemmas

open scoped Exact

/-- RECORDING, until the last read of the iteration sees LOCALIZATION. -/
def exFlip : Sighting :=
  { exSighting .recording 7 ⟨1, 2, 0⟩ with
    body := ⟨.recording, .localization, exPackage 7, exEnv, exEnv⟩ }

/-- Both branches run: the new code is inserted by one and counted again by the
other, and one sighting is logged twice. -/
theorem flip_counts_twice :
    ((iterate exConfig exAccount (runMain exConfig exAccount []) exFlip).user.rows.map
        (·.dmCnt) = [2] ∧
      (iterate exConfig exAccount (runMain exConfig exAccount []) exFlip).self.values.length = 2) ∧
    ¬ OneMode exConfig exAccount (runMain exConfig exAccount []) exFlip := by
  refine ⟨by decide +kernel, ?_⟩
  intro h
  have hfind : ((iterate exConfig exAccount (runMain exConfig exAccount []) exFlip).user.find?
      7).map (·.dmCnt) = some 2 := by decide +kernel
  obtain ⟨r', hr', hcnt⟩ := Option.map_eq_some_iff.mp hfind
  have hle := h.count r' hr'
  rw [hcnt] at hle
  exact absurd hle (by decide)

/-- INIT while `dmTrigger` reads, RECORDING afterwards. -/
def exLate : Sighting :=
  ⟨exPackage 7, ⟨.init, .init, .complete 0, .failed⟩,
    ⟨.recording, .recording, exPackage 7, exEnv, exEnv⟩⟩

/-- After a sighting of the code 5, the late switch counts the code 5 again,
although the package is one of the code 7. -/
theorem late_recording :
    let s := runMain exConfig exAccount [.sighting (exSighting .recording 5 ⟨1, 2, 0⟩)]
    (iterate exConfig exAccount s exLate).user.rows.map (fun r => (r.dmId, r.dmCnt)) = [(5, 2)] ∧
      ¬ OneMode exConfig exAccount s exLate := by
  refine ⟨by decide +kernel, ?_⟩
  intro h
  have hagrees := modeAgrees_of_oneMode (runMain_whetherCb exConfig exAccount _) h
  exact absurd (hagrees .recording (.inl ⟨rfl, rfl⟩)).2 (by decide)

end QrAddon
