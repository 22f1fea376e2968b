import QrAddon.Restart
import QrAddon.Renaming

/-!
# A start between two packages

A kill between two packages loses the variables of `main` and nothing else. The next
sighting still carries the counters and flags of the last `DM` into its snapshot, and its
id of a request goes on from the last one. Whether the tables and the diagnostic words
depend on them is asked here: `Phase` adds starts to the acts of a run, and `Alike`
compares the machine that was started again with the one that was not.

Result: `starts_invisible`, they do not, if every sighting reads one mode throughout and gets
its pose from a complete message, and the fits visit the rows in order. Only the columns of the
log differ that copy the snapshot's counters and flags.
-/

namespace QrAddon

open LifecycleLemmas EffectLemmas RenamingLemmas

section

variable [Doubles]

/-- A step of a run, or a stop behind it and the next start. -/
inductive Phase
  | act (a : Act)
  | start

def Phase.act? : Phase → Option Act
  | .act a => some a
  | .start => none

/-- A sighting in one mode whose pose came in a complete message. Its statements may
fail. -/
structure Sighting.Told (i : Sighting) : Prop where
  steady : i.Steady i.mode
  obtained : i.mode ≠ .init → i.trig.obtained.isSome
  scan : (i.env i.mode).scan.Stable

/-- The operator may do anything. -/
def Act.Told : Act → Prop
  | .sighting i => i.Told
  | .toggle _ _ => True

/-- The log without the columns that copy the snapshot's counters and flags. -/
def sighted (t : SelfTable) : List (ℕ × UInt32 × DmPose ℚ) :=
  t.rows.map fun r => (r.1, r.2.dmId, r.2.pose)

section

variable (cfg : Config ℚ) (account : Account)

def phase (s : Main) : Phase → Main
  | .act a => act cfg account s a
  | .start => s.restarted

def runPhases (l : List Phase) : Main := Run.exec (phase cfg account) Main.start l

/-- The diagnostic words of a run with starts. -/
def phaseWords (l : List Phase) : List UInt32 :=
  (Run.visits (phase cfg account) Main.start l).flatMap fun v =>
    match v.2 with
    | .act a => (eventsOf cfg account (v.1, a)).filterMap Event.diag?
    | .start => []

end

/-- Two states between packages that later sightings cannot tell apart. -/
structure Alike (s s' : Main) : Prop where
  flag : s.whetherCb = false
  flag' : s'.whetherCb = false
  user : s.user = s'.user
  self : sighted s.self = sighted s'.self

namespace ResumeLemmas

variable {cfg : Config ℚ} {account : Account} {s s' : Main} {i : Sighting}

/-! ### The log -/

section

variable {t t' : SelfTable}

section

omit [Doubles]

theorem sighted_rowids (h : sighted t = sighted t') : t.rowids = t'.rowids := by
  have hmap := congrArg (List.map Prod.fst) h
  simpa [sighted, RowidTable.rowids, Function.comp_def] using hmap

theorem sighted_length (h : sighted t = sighted t') : t.rows.length = t'.rows.length := by
  have hlen := congrArg List.length h
  simpa [sighted] using hlen

/-- The poses of a code do not depend on the other columns. -/
theorem sighted_poses (h : sighted t = sighted t') (id : UInt32) :
    (SelfDb.rowsOf id t.values).map (·.pose) = (SelfDb.rowsOf id t'.values).map (·.pose) := by
  have hposes (t : SelfTable) : (SelfDb.rowsOf id t.values).map (·.pose) =
      ((sighted t).filter fun r => r.2.1 = id).map fun r => r.2.2 := by
    simp [sighted, SelfDb.rowsOf, RowidTable.values, List.filter_map, Function.comp_def]
  rw [hposes, hposes, h]

theorem sighted_insert (h : sighted t = sighted t') {r r' : SelfRow} (hid : r.dmId = r'.dmId)
    (hpose : r.pose = r'.pose) : sighted (t.insert r) = sighted (t'.insert r') := by
  have hnext : t.nextRowid = t'.nextRowid := by
    unfold RowidTable.nextRowid
    rw [sighted_rowids h]
  have h : t.rows.map (fun r => (r.1, r.2.dmId, r.2.pose)) =
      t'.rows.map fun r => (r.1, r.2.dmId, r.2.pose) := h
  simp [sighted, RowidTable.insert, h, hnext, hid, hpose]

theorem sighted_delete (h : sighted t = sighted t') (k : ℕ) :
    sighted (t.delete k) = sighted (t'.delete k) := by
  have hdelete (t : SelfTable) : sighted (t.delete k) = (sighted t).filter fun r => r.1 ≠ k := by
    simp [sighted, RowidTable.delete, List.filter_map, Function.comp_def]
  rw [hdelete, hdelete, h]

end

/-- A log statement keeps two logs alike. -/
theorem sighted_addContent (h : sighted t = sighted t') (ok : Bool) (cap : UInt32)
    {d d' : DmInfo ℚ} (hid : d.id = d'.id) (hpose : d.pose = d'.pose) :
    sighted (SelfDb.addContent ok cap t d) = sighted (SelfDb.addContent ok cap t' d') := by
  have hrows : sighted (t.insert (SelfDb.row d)) = sighted (t'.insert (SelfDb.row d')) :=
    sighted_insert h hid (congrArg DmPose.printed hpose)
  cases ok with
  | false => exact h
  | true =>
    simp only [SelfDb.addContent, if_true, SelfDb.keepRowsSize, SelfDb.oldestRowids,
      sighted_rowids hrows, sighted_length hrows]
    split
    · split
      · exact sighted_delete hrows _
      · exact hrows
    · exact hrows

/-- So a fit that visits the rows of a code in their order stores the same pose. -/
theorem sighted_fitPose (h : sighted t = sighted t') (ok : Bool) {scan : ScanOrder}
    (hscan : scan.Stable) (n : UInt16) (d : DmInfo ℚ) :
    (SelfDb.fitPose ok scan t n d).1 = (SelfDb.fitPose ok scan t' n d).1 := by
  cases ok with
  | false => rfl
  | true =>
    have hpose : (SelfDb.fitPose true scan t n d).1.pose =
        (SelfDb.fitPose true scan t' n d).1.pose := by
      rw [SelfDb.fitPose_fitted (.inl hscan), SelfDb.fitPose_fitted (.inl hscan),
        sighted_poses h]
    rw [SelfDb.fitPose_dm, SelfDb.fitPose_dm] at hpose ⊢
    simp only at hpose
    rw [hpose]

end

/-! ### One iteration -/

/-- The turn is about the code of the package, at the pose of the message. -/
theorem turn_told (hi : i.Told) (hm : i.mode ≠ .init) (s s' : Main) :
    (s.turn i).dm.id = (s'.turn i).dm.id ∧ (s.turn i).dm.pose = (s'.turn i).dm.pose := by
  obtain ⟨p, hp⟩ := Option.isSome_iff_exists.mp (hi.obtained hm)
  have hfixed := hi.steady.fixed hm
  refine ⟨(hfixed.turn_id s).trans (hfixed.turn_id s').symm, ?_⟩
  have hturn (s : Main) : (s.turn i).dm.pose = p.plus i.deviInfo.pose := s.trigger_pose hp _
  rw [hturn, hturn]

omit [Doubles] in
theorem cleared_eq {d d' : DmInfo ℚ} (hid : d.id = d'.id) (hpose : d.pose = d'.pose) :
    d.clearRemainingInfo = d'.clearRemainingInfo := by
  obtain ⟨id, pose, _, _, _, _, _⟩ := d
  obtain ⟨id', pose', _, _, _, _, _⟩ := d'
  simp only at hid hpose
  subst hid hpose
  rfl

theorem far_pose {r : UserRow} {o o' : DmInfo ℚ} (h : o.pose = o'.pose) :
    Far cfg r o ↔ Far cfg r o' := by
  unfold Far planarDistance
  rw [h]

variable (cfg) in
/-- The row that is written back depends on the pose of the snapshot only. -/
theorem rewritten_alike {t t' : SelfTable} (h : sighted t = sighted t') {env : BranchEnv}
    (hscan : env.scan.Stable) (mode : Mode) (r : UserRow) {o o' : DmInfo ℚ}
    (hpose : o.pose = o'.pose) :
    rewritten cfg env mode r o t = rewritten cfg env mode r o' t' := by
  unfold rewritten
  rw [sighted_fitPose h env.fitOk hscan]
  by_cases hfar : Far cfg r o
  · rw [if_pos hfar, if_pos ((far_pose hpose).mp hfar)]
  · rw [if_neg hfar, if_neg (mt (far_pose hpose).mpr hfar)]

variable (account) in
/-- A sighting keeps two states alike and sends the same words from both. -/
theorem iterate_alike (h : Alike s s') (hi : i.Told) :
    Alike (iterate cfg account s i).toMain (iterate cfg account s' i).toMain ∧
      (iterate cfg account s i).events.filterMap Event.diag? =
        (iterate cfg account s' i).events.filterMap Event.diag? := by
  by_cases hm : i.mode = .init
  · have hsteady := hi.steady
    rw [hm] at hsteady
    obtain ⟨hs, hev⟩ := iterate_idle cfg account (s := s) hsteady
    obtain ⟨hs', hev'⟩ := iterate_idle cfg account (s := s') hsteady
    rw [hs, hs', hev, hev']
    exact ⟨h, rfl⟩
  · have hfixed := hi.steady.fixed hm
    obtain ⟨hid, hpose⟩ := turn_told hi hm s s'
    rw [iterate_effect cfg account h.flag hfixed, iterate_effect cfg account h.flag' hfixed]
    generalize ht : s.turn i = t at hid hpose ⊢
    generalize ht' : s'.turn i = t' at hid hpose ⊢
    have huser : t.user = t'.user := by
      rw [← ht, ← ht']
      exact h.user
    have hself : sighted t.self = sighted t'.self := by
      rw [← ht, ← ht']
      exact h.self
    have hflag : t.whetherCb = false ∧ t'.whetherCb = false := by
      rw [← ht, ← ht']
      exact ⟨h.flag, h.flag'⟩
    have hori : t.ori = t.dm ∧ t'.ori = t'.dm := by
      rw [← ht, ← ht']
      exact ⟨rfl, rfl⟩
    have hempty : t.events = [] ∧ t'.events = [] := by
      rw [← ht, ← ht']
      exact ⟨rfl, rfl⟩
    -- the snapshots agree in what the log keeps of them
    have hsnapshot (row : Option UserRow) :
        (snapshot cfg i.mode t.ori row).id = (snapshot cfg i.mode t'.ori row).id ∧
          (snapshot cfg i.mode t.ori row).pose = (snapshot cfg i.mode t'.ori row).pose := by
      obtain ⟨h1, h2⟩ := snapshot_frame cfg i.mode t.ori row
      obtain ⟨h1', h2'⟩ := snapshot_frame cfg i.mode t'.ori row
      rw [h1, h2, h1', h2', hori.1, hori.2]
      exact ⟨hid, hpose⟩
    have hlog (row : Option UserRow) := sighted_addContent hself (i.env i.mode).selfOk
      cfg.maxRowSelfDb (hsnapshot row).1 (hsnapshot row).2
    have hlook : UserDb.lookedUp t.user (i.env i.mode).lookup t.dm.id =
        UserDb.lookedUp t'.user (i.env i.mode).lookup t'.dm.id := by rw [huser, hid]
    cases hrow : UserDb.lookedUp t.user (i.env i.mode).lookup t.dm.id with
    | none =>
      rw [effect_none hrow, effect_none (hlook.symm.trans hrow), huser, cleared_eq hid hpose,
        hempty.1, hempty.2]
      exact ⟨⟨hflag.1, hflag.2, rfl, hlog none⟩, rfl⟩
    | some r =>
      have horiPose : t.ori.pose = t'.ori.pose := by
        rw [hori.1, hori.2]
        exact hpose
      have hfar : Far cfg r t.ori ↔ Far cfg r t'.ori := far_pose horiPose
      have hdm := rewritten_alike cfg (hlog (some r)) hi.scan i.mode r horiPose
      rw [effect_some hrow, effect_some (hlook.symm.trans hrow), huser, hempty.1, hempty.2]
      refine ⟨⟨hflag.1, hflag.2, ?_, hlog (some r)⟩, ?_⟩
      · simp only
        rw [hdm]
      · have hlookup : ∀ d, (Event.lookup i.mode d).diag? = none := fun _ => rfl
        simp only [List.nil_append, List.filterMap_cons, hlookup, shown_diag, hfar]

end ResumeLemmas

open ResumeLemmas

variable (cfg : Config ℚ) (account : Account)

/-- The program may be stopped and started again between any two packages: the user table,
the codes and poses in the log and the diagnostic words are those of the run that was not
interrupted. Statements may fail and the operator may do anything; every sighting reads one mode
throughout and, outside INIT, has its pose from a complete message, and a fit visits the rows of
a code in order. -/
theorem starts_invisible {l : List Phase} (htold : ∀ a ∈ l.filterMap Phase.act?, a.Told) :
    (runPhases cfg account l).user = (runMain cfg account (l.filterMap Phase.act?)).user ∧
      sighted (runPhases cfg account l).self =
        sighted (runMain cfg account (l.filterMap Phase.act?)).self ∧
      phaseWords cfg account l = diagWords cfg account (l.filterMap Phase.act?) := by
  suffices hrun : Alike (runPhases cfg account l) (runMain cfg account (l.filterMap Phase.act?)) ∧
      phaseWords cfg account l = diagWords cfg account (l.filterMap Phase.act?) from
    ⟨hrun.1.user, hrun.1.self, hrun.2⟩
  induction l using List.reverseRecOn with
  | nil => exact ⟨⟨rfl, rfl, rfl, rfl⟩, rfl⟩
  | append_singleton l p ih =>
    have hphases : runPhases cfg account (l ++ [p]) =
        phase cfg account (runPhases cfg account l) p := Run.exec_snoc _ l p
    rw [List.filterMap_append] at htold
    obtain ⟨halike, hwords⟩ := ih fun a ha => htold a (List.mem_append_left _ ha)
    rw [hphases, List.filterMap_append]
    cases p with
    | start =>
      have hnone : phaseWords cfg account (l ++ [.start]) = phaseWords cfg account l := by
        simp [phaseWords]
      rw [hnone]
      simp only [List.filterMap_cons_none (f := Phase.act?) (a := .start) rfl, List.filterMap_nil,
        List.append_nil]
      exact ⟨⟨rfl, halike.flag', halike.user, halike.self⟩, hwords⟩
    | act a =>
      have hone : phaseWords cfg account (l ++ [.act a]) = phaseWords cfg account l ++
          (eventsOf cfg account (runPhases cfg account l, a)).filterMap Event.diag? := by
        simp [phaseWords, runPhases]
      have hacts : [Phase.act a].filterMap Phase.act? = [a] := rfl
      rw [hone, hacts, runMain_snoc, diagWords_snoc, hwords]
      cases a with
      | toggle id enable =>
        refine ⟨⟨halike.flag, halike.flag', ?_, halike.self⟩, rfl⟩
        exact congrArg (fun t => UserDb.setEnable t id enable) halike.user
      | sighting i =>
        have hi : i.Told := htold (.sighting i) (by simp [Phase.act?])
        obtain ⟨hnext, hev⟩ := iterate_alike account halike hi
        exact ⟨hnext, congrArg (diagWords cfg account (l.filterMap Phase.act?) ++ ·) hev⟩

end

open scoped Exact

/-- Code 7 is recorded, the program stopped and started, the code enabled and seen three
metres off. -/
def exResumed : List Phase :=
  [.act (.sighting (exSighting .recording 7 0)), .start, .act (.toggle 7 true),
    .act (.sighting (exSighting .recording 7 ⟨3, 0, 0⟩)), .start]

theorem exSighting_told {m : Mode} (hm : m ≠ .init) (id : UInt32) (p : DmPose ℚ) :
    (exSighting m id p).Told where
  steady := ⟨rfl, rfl, rfl, rfl⟩
  obtained _ := by
    cases m with
    | recording | localization => rfl
    | init => exact absurd rfl hm
  scan := by cases m <;> exact ScanOrder.byRowid_stable

theorem exResumed_told : ∀ a ∈ exResumed.filterMap Phase.act?, a.Told := by
  intro a ha
  simp only [exResumed, Phase.act?, List.filterMap_cons, List.filterMap_nil, List.mem_cons,
    List.not_mem_nil, or_false] at ha
  rcases ha with rfl | rfl | rfl
  · exact exSighting_told (by decide) _ _
  · exact trivial
  · exact exSighting_told (by decide) _ _

theorem starts_invisible_exResumed :
    (runPhases exConfig exAccount exResumed).user =
        (runMain exConfig exAccount (exResumed.filterMap Phase.act?)).user ∧
      sighted (runPhases exConfig exAccount exResumed).self =
        sighted (runMain exConfig exAccount (exResumed.filterMap Phase.act?)).self ∧
      phaseWords exConfig exAccount exResumed =
        diagWords exConfig exAccount (exResumed.filterMap Phase.act?) :=
  starts_invisible exConfig exAccount exResumed_told

end QrAddon
