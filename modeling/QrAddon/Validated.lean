import QrAddon.Loop

/-!
# What an iteration keeps of the user table

An iteration rewrites whole rows through decimal text, and up to two branches do so one
after the other. Still it touches one row, it never changes an `enable` flag, and a pose
that has at most six decimals and fewer than 15 digits comes back as it was unless
`fitPose` moves it, which it does only to a row that is not enabled.

`Keeps` says this of two tables, `keeps_branch` of a branch; `Keeps.trans` puts the two
branches of an iteration together.
-/

namespace QrAddon

section

variable [Doubles]

/-- From the table `t` to `u`, only the row of the code `id` may change. An existing row
keeps its flag, and its pose too if it is enabled and its pose survives the text; a new
row is not enabled. -/
structure Keeps (id : UInt32) (t u : UserTable) : Prop where
  other : ∀ id', id' ≠ id → u.find? id' = t.find? id'
  found : ∀ r, t.find? id = some r → ∃ r', u.find? id = some r' ∧ r'.enable = r.enable ∧
    (r.enable = true → r.pose.Decimal → r'.pose = r.pose)
  new : t.find? id = none → ∀ r', u.find? id = some r' → r'.enable = false

namespace Keeps

variable {id : UInt32} {t u w : UserTable}

theorem refl (id : UInt32) (t : UserTable) : Keeps id t t where
  other _ _ := rfl
  found r hr := ⟨r, hr, rfl, fun _ _ => rfl⟩
  new hnone r hr := by
    rw [hnone] at hr
    cases hr

theorem trans (h : Keeps id t u) (h' : Keeps id u w) : Keeps id t w where
  other id' hne := (h'.other id' hne).trans (h.other id' hne)
  found r hr := by
    obtain ⟨r', hr', hen, hpose⟩ := h.found r hr
    obtain ⟨r'', hr'', hen', hpose'⟩ := h'.found r' hr'
    refine ⟨r'', hr'', hen'.trans hen, ?_⟩
    intro hon hdec
    have hsame := hpose hon hdec
    rw [hpose' (hen.trans hon) (by rw [hsame]; exact hdec), hsame]
  new hnone r'' hr'' := by
    cases hu : u.find? id with
    | none => exact h'.new hu r'' hr''
    | some r' =>
      obtain ⟨r, hr, hen, _⟩ := h'.found r' hu
      obtain rfl : r'' = r := Option.some.inj (hr''.symm.trans hr)
      exact hen.trans (h.new hnone r' hu)

end Keeps

variable {cfg : Config ℚ} {account : Account}

/-- A branch keeps what `Keeps` says. -/
theorem keeps_branch {deviInfo : CustomerPackage ℚ} {env : BranchEnv} {mode : Mode} {t t' : Turn}
    (h : BranchStep cfg account deviInfo env mode t t') : Keeps t.dm.id t.user t'.user := by
  have hown := h.user_own
  refine ⟨fun id' hne => h.user_other hne, ?_, ?_⟩
  · intro r hr
    rcases hown with hsame | ⟨hnone, _⟩ | ⟨r', hlook, hr', hset⟩
    · exact ⟨r, hsame.trans hr, rfl, fun _ _ => rfl⟩
    · rw [hnone] at hr
      cases hr
    · obtain rfl : r' = r := Option.some.inj (hr'.symm.trans hr)
      refine ⟨_, hset, (h.found hlook).1, ?_⟩
      intro hon hdec
      simp only [UserDb.setColumns, (h.found_keeps hlook).1 hon]
      exact hdec.printed_read
  · intro hnone r' hr'
    rcases hown with hsame | ⟨_, hnew⟩ | ⟨r, _, hr, _⟩
    · rw [hsame, hnone] at hr'
      cases hr'
    · obtain rfl : UserDb.row t.dm.clearRemainingInfo.updateCnt = r' :=
        Option.some.inj (hnew.symm.trans hr')
      rfl
    · rw [hnone] at hr
      cases hr

variable (cfg account) in
/-- An iteration keeps the user table, up to the row of the code that is in the `DM`. -/
theorem keeps_iterate {s : Main} (h : s.whetherCb = false) (i : Sighting) :
    Keeps (s.turn i).dm.id s.user (iterate cfg account s i).user := by
  have hbody : (iterate cfg account s i).dm.id = (s.turn i).dm.id ∧
      Keeps (s.turn i).dm.id s.user (iterate cfg account s i).user := by
    apply loopBody_invariant (s := s.trigger i.trig i.deviInfo)
      (P := fun t : Turn => t.dm.id = (s.turn i).dm.id ∧ Keeps (s.turn i).dm.id s.user t.user) h
    · exact ⟨rfl, .refl _ _⟩
    · rintro env mode t t' hb ⟨hid, hkeeps⟩
      refine ⟨hb.dm_id.trans hid, hkeeps.trans ?_⟩
      rw [← hid]
      exact keeps_branch hb
  exact hbody.2

variable (cfg account) in
/-- A validated pose is never touched. From every reachable state whose stored poses
survive the text, and for every iteration, there is a code outside of which the user
table stays as it is; if the code has a row, the row keeps its id and its flag, and its
pose too if it is enabled; if it has none, it is not inserted enabled. -/
theorem validated_pose_kept (l : List Act)
    (hpose : ∀ r ∈ (runMain cfg account l).user.rows, r.pose.Decimal) (i : Sighting) :
    ∃ id, (∀ id', id' ≠ id → (iterate cfg account (runMain cfg account l) i).user.find? id' =
        (runMain cfg account l).user.find? id') ∧
      (∀ r, (runMain cfg account l).user.find? id = some r →
        ∃ r', (iterate cfg account (runMain cfg account l) i).user.find? id = some r' ∧
          r'.dmId = r.dmId ∧ r'.enable = r.enable ∧ (r.enable = true → r'.pose = r.pose)) ∧
      ((runMain cfg account l).user.find? id = none →
        ∀ r', (iterate cfg account (runMain cfg account l) i).user.find? id = some r' →
          r'.enable = false) := by
  have hkeeps := keeps_iterate cfg account (runMain_whetherCb cfg account l) i
  refine ⟨_, hkeeps.other, ?_, hkeeps.new⟩
  intro r hr
  obtain ⟨r', hr', hen, hsame⟩ := hkeeps.found r hr
  refine ⟨r', hr', ?_, hen, ?_⟩
  · rw [KeyedTable.key_of_find? hr, KeyedTable.key_of_find? hr']
  · intro hon
    exact hsame hon (hpose r (KeyedTable.find?_eq_some.mp hr).1)

end

open scoped Exact

/-- Code 7, recorded at a pose with two decimals and enabled. -/
def exValid : List Act :=
  [.sighting (exSighting .recording 7 ⟨5 / 4, -2, 0⟩), .toggle 7 true]

/-- A second recording far away, in a mode that flips on the way, so that both branches
run. -/
def exFlipFar : Sighting :=
  { exSighting .recording 7 ⟨9, 9, 0⟩ with
    body := ⟨.recording, .localization, exPackage 7, exEnv, exEnv⟩ }

theorem validated_pose_exValid :
    ∃ r, (iterate exConfig exAccount (runMain exConfig exAccount exValid) exFlipFar).user.find? 7 =
      some r ∧ r.enable = true ∧ r.pose = ⟨5 / 4, -2, 0⟩ := by
  have hrows : (runMain exConfig exAccount exValid).user.rows =
      [⟨7, ⟨5 / 4, -2, 0⟩, 1, 0, false, true⟩] := by decide +kernel
  have hrow : (runMain exConfig exAccount exValid).user.find? 7 =
      some ⟨7, ⟨5 / 4, -2, 0⟩, 1, 0, false, true⟩ := by decide +kernel
  have hdec : ∀ r ∈ (runMain exConfig exAccount exValid).user.rows, r.pose.Decimal := by
    intro r hr
    rw [hrows, List.mem_singleton] at hr
    subst hr
    exact ⟨Exact.decimal ⟨⟨1250000, by norm_num⟩, 125, -2, by norm_num, by norm_num⟩,
      Exact.decimal ⟨⟨-2000000, by norm_num⟩, -2, 0, by norm_num, by norm_num⟩,
      Exact.decimal ⟨⟨0, by norm_num⟩, 0, 0, by norm_num, by norm_num⟩⟩
  obtain ⟨id, hother, hfound, _⟩ := validated_pose_kept exConfig exAccount exValid hdec exFlipFar
  by_cases hid : 7 = id
  · subst hid
    obtain ⟨r, hr, _, hen, hpose⟩ := hfound _ hrow
    exact ⟨r, hr, hen, hpose rfl⟩
  · exact ⟨_, (hother 7 hid).trans hrow, rfl, rfl⟩

end QrAddon
