import QrAddon.Smooth

/-!
# Renaming the codes

No branch looks at the id of a code but through the key of the user table, the filter of
the fit query and one test: `retrieveUsrDb` takes the id 0 for an untouched record. A run
on renamed codes is the renamed run as long as no look-up of an existing row meets that
test on one side only.

Results:
1. `renamed_step`: one iteration, with the look-ups on both sides in accord.
2. `renaming_iff`: the final tables and the diagnostic words of two runs are those of a
   renaming exactly when the renaming keeps 0, or moves it and the two codes concerned are
   met at most once.
3. `zero_frozen`: the code 1, renamed to 0.
-/

namespace QrAddon

open LifecycleLemmas EffectLemmas

section

variable [Doubles]

def UserRow.rename (ρ : UInt32 → UInt32) (r : UserRow) : UserRow := { r with dmId := ρ r.dmId }

def SelfRow.rename (ρ : UInt32 → UInt32) (r : SelfRow) : SelfRow := { r with dmId := ρ r.dmId }

def DmInfo.rename (ρ : UInt32 → UInt32) (d : DmInfo ℚ) : DmInfo ℚ := { d with id := ρ d.id }

/-- The same sighting of the renamed code. -/
structure Sighting.Renames (ρ : UInt32 → UInt32) (i i' : Sighting) : Prop where
  deviInfo : i'.deviInfo = { i.deviInfo with dmId := ρ i.deviInfo.dmId }
  trig : i'.trig = i.trig

inductive Act.Renames (ρ : UInt32 → UInt32) : Act → Act → Prop
  | sighting {i i' : Sighting} (h : i.Renames ρ i') : Act.Renames ρ (.sighting i) (.sighting i')
  | toggle (id : UInt32) (b : Bool) : Act.Renames ρ (.toggle id b) (.toggle (ρ id) b)

def Event.diag? : Event → Option UInt32
  | .diag word => some word
  | .lookup _ _ | .login _ | .addObservation _ | .setSeed _ | .fit _ => none

/-- The diagnostic words that a run sends. -/
def diagWords (cfg : Config ℚ) (account : Account) (l : List Act) : List UInt32 :=
  (stepsMain cfg account l).flatMap fun v => (eventsOf cfg account v).filterMap Event.diag?

/-- The renaming keeps 0, or neither the code 0 nor the code that becomes 0 is met twice. -/
def ZeroRare (ρ : UInt32 → UInt32) (l : List Act) : Prop :=
  ρ 0 = 0 ∨ ∀ id, id = 0 ∨ ρ id = 0 → met id l ≤ 1

/-- The tables of `s'` are those of `s` renamed, and the `DM`s differ in the id only. -/
structure Renamed (ρ : UInt32 → UInt32) (s s' : Main) : Prop where
  user : s.user.MapsTo (UserRow.rename ρ) s'.user
  self : s.self.MapsTo (SelfRow.rename ρ) s'.self
  dm : s'.dm = { s.dm with id := s'.dm.id }

namespace RenamingLemmas

variable {ρ : UInt32 → UInt32} {cfg : Config ℚ} {account : Account} {s s' : Main}
  {i i' : Sighting}

omit [Doubles] in
theorem renames_mode (h : i.Renames ρ i') : i'.mode = i.mode := congrArg TriggerIn.mode1 h.trig

/-! ### What does not look at the id -/

omit [Doubles] in
theorem dmTrigger_rename {R : Type} [Add R] {i : TriggerIn R} (hi : i.source ≠ .init)
    {d d' : CustomerPackage R} (hd : d' = { d with dmId := d'.dmId }) (t t' : Triggered R)
    (ht : t'.dm = { t.dm with id := t'.dm.id }) :
    (dmTrigger i d' t').dm = { (dmTrigger i d t).dm with id := d'.dmId } := by
  have hshift (p : DmPose R) : p.shift d' = p.shift d := by rw [hd]; rfl
  unfold TriggerIn.source at hi
  unfold dmTrigger
  by_cases h1 : i.mode1 = .recording
  · simp only [h1, if_true, hshift]
    rw [ht]
  · by_cases h2 : i.mode2 = .localization
    · cases i.locRead with
      | message state p =>
        simp only [h1, h2, if_true, if_false, hshift]
        rw [ht]
      | failed =>
        simp only [h1, h2, if_true, if_false, hshift]
        rw [ht]
    · simp [h1, h2] at hi

variable (ρ) in
theorem far_rename (r : UserRow) (ori : DmInfo ℚ) :
    Far cfg (r.rename ρ) (ori.rename ρ) ↔ Far cfg r ori := Iff.rfl

variable (ρ) in
theorem reaches_rename (mode : Mode) (r : UserRow) :
    Reaches cfg mode (r.rename ρ) ↔ Reaches cfg mode r := Iff.rfl

theorem snapshot_rename (mode : Mode) (ori : DmInfo ℚ) (row : Option UserRow) :
    snapshot cfg mode (ori.rename ρ) (row.map (UserRow.rename ρ)) =
      (snapshot cfg mode ori row).rename ρ := by
  cases row with
  | none =>
    simp only [snapshot, Option.map_none]
    split <;> rfl
  | some r =>
    simp only [snapshot, Option.map_some, far_rename, reaches_rename]
    have henable : (r.rename ρ).enable = r.enable := rfl
    rw [henable]
    split_ifs <;> rfl

/-- Up to its pose, the rewritten row does not look at the id. -/
theorem rewritten_rename (env env' : BranchEnv) (mode : Mode) (r : UserRow) (ori : DmInfo ℚ)
    (self self' : SelfTable)
    (hpose : (rewritten cfg env' mode (r.rename ρ) (ori.rename ρ) self').pose =
      (rewritten cfg env mode r ori self).pose) :
    rewritten cfg env' mode (r.rename ρ) (ori.rename ρ) self' =
      (rewritten cfg env mode r ori self).rename ρ := by
  by_cases hfar : Far cfg r ori
  · rw [rewritten_far hfar, rewritten_far ((far_rename ρ r ori).mpr hfar)]
    cases mode <;> rfl
  · have hfar' := mt (far_rename ρ r ori).mp hfar
    by_cases hon : r.enable = true
    · rw [rewritten_near hfar hon, rewritten_near hfar' hon]
      cases mode <;> rfl
    · have hoff : r.enable = false := by simpa using hon
      by_cases hr : Reaches cfg mode r
      · have hr' := (reaches_rename ρ mode r).mpr hr
        rw [rewritten_reaches hr, rewritten_reaches hr', SelfDb.fitPose_dm,
          SelfDb.fitPose_dm] at hpose ⊢
        simp only at hpose
        simp only [DmInfo.rename, hpose]
        rfl
      · rw [rewritten_off hr hoff, rewritten_off (mt (reaches_rename ρ mode r).mp hr) hoff]
        rfl

/-! ### One iteration -/

theorem turn_rename (hs : Renamed ρ s s') (hi : i.Renames ρ i') (hi1 : i.Smooth)
    (hm : i.mode ≠ .init) : (s'.turn i').dm = (s.turn i).dm.rename ρ := by
  have hid : (s.turn i).dm.id = i.deviInfo.dmId := (hi1.fixed hm).turn_id s
  have hsource : i.trig.source ≠ .init := by
    rw [(hi1.fixed hm).source]
    exact hm
  have hdevi : i'.deviInfo = { i.deviInfo with dmId := i'.deviInfo.dmId } := by rw [hi.deviInfo]
  have hdm := @dmTrigger_rename ℚ Doubles.toAdd _ hsource _ _ hdevi
    ⟨s.dm, s.locStat, s.rokitPose⟩ ⟨s'.dm, s'.locStat, s'.rokitPose⟩ hs.dm
  have hturn : (s'.turn i').dm = { (s.turn i).dm with id := i'.deviInfo.dmId } := by
    unfold Main.turn Main.trigger
    rw [hi.trig]
    exact hdm
  rw [hturn, hi.deviInfo, DmInfo.rename, hid]

omit [Doubles] in
theorem keepRowsSize_rename (cap : UInt32) {t t' : SelfTable}
    (h : t.MapsTo (SelfRow.rename ρ) t') :
    (SelfDb.keepRowsSize cap t).MapsTo (SelfRow.rename ρ) (SelfDb.keepRowsSize cap t') := by
  have hlen : t'.rows.length = t.rows.length := by
    rw [RowidTable.rows_length, RowidTable.rows_length, h.values, List.length_map]
  have hold : SelfDb.oldestRowids t' = SelfDb.oldestRowids t := by
    unfold SelfDb.oldestRowids
    rw [h.rowids]
  unfold SelfDb.keepRowsSize
  rw [hlen, hold]
  split
  · split
    · exact h.delete _
    · exact h
  · exact h

theorem updateDataBase_rename (hρ : Function.Injective ρ) {t t' : UserTable}
    (h : t.MapsTo (UserRow.rename ρ) t') (dm : DmInfo ℚ) :
    (UserDb.updateDataBase true t dm).MapsTo (UserRow.rename ρ)
      (UserDb.updateDataBase true t' (dm.rename ρ)) := by
  have hcomm : ∀ r : UserRow, UserDb.setColumns (dm.rename ρ) (r.rename ρ) =
      (UserDb.setColumns dm r).rename ρ := fun _ => rfl
  simp only [UserDb.updateDataBase, if_true]
  exact h.modify (fun _ => rfl) hρ dm.id _ _ hcomm

omit [Doubles] in
/-- The rows of a code, renamed. -/
theorem rowsOf_rename (hρ : Function.Injective ρ) {t t' : SelfTable}
    (h : t.MapsTo (SelfRow.rename ρ) t') (id : UInt32) :
    SelfDb.rowsOf (ρ id) t'.values = (SelfDb.rowsOf id t.values).map (SelfRow.rename ρ) := by
  unfold SelfDb.rowsOf
  rw [h.values, List.filter_map]
  congr 2
  funext r
  simp only [Function.comp_apply, SelfRow.rename, hρ.eq_iff]

theorem shown_diag (d : CustomerPackage ℚ) (env : BranchEnv) (mode : Mode) (t : Turn)
    (r : UserRow) (self : SelfTable) :
    (shown cfg account d env mode t r self).filterMap Event.diag? =
      if Far cfg r t.ori then [4] else [] := by
  have hlogin : ∀ q, (Event.login q).diag? = none := fun _ => rfl
  have hdiag : ∀ w, (Event.diag w).diag? = some w := fun _ => rfl
  have hfit : ∀ c, (Event.fit c).diag? = none := fun _ => rfl
  have hrequest : ∀ dm n, (requestOf cfg d env t mode dm n).diag? = none := by
    intro dm n
    unfold requestOf
    split <;> rfl
  unfold shown
  by_cases hon : r.enable = true
  · by_cases hfar : Far cfg r t.ori <;> simp [hon, hfar, hlogin, hdiag, hrequest]
  · by_cases hr : Reaches cfg mode r <;>
      simp [hon, hr, hfit, not_far_of_off (Bool.eq_false_iff.mpr hon)]

end RenamingLemmas

open RenamingLemmas

section

variable {ρ : UInt32 → UInt32} {cfg : Config ℚ} {account : Account} {s s' : Main}
  {i i' : Sighting}

/-- The snapshot that is logged is renamed. -/
theorem ori_rename (h : s.whetherCb = false) (h' : s'.whetherCb = false) (hs : Renamed ρ s s')
    (hi : i.Renames ρ i') (hi1 : i.Smooth) (hi2 : i'.Smooth) (hm : i.mode ≠ .init)
    (hrow : known s' i'.deviInfo.dmId = (known s i.deviInfo.dmId).map (UserRow.rename ρ)) :
    (iterate cfg account s' i').ori = (iterate cfg account s i).ori.rename ρ := by
  have hm' := renames_mode hi
  rw [smooth_ori h hi1 hm, smooth_ori h' hi2 (by rw [hm']; exact hm), hm', hrow,
    ← snapshot_rename]
  exact congrArg (fun d => snapshot cfg i.mode d _) (turn_rename hs hi hi1 hm)

/-- So is the `DM`, if a fit of a found row ends with the same pose. -/
theorem dm_rename (h : s.whetherCb = false) (h' : s'.whetherCb = false) (hs : Renamed ρ s s')
    (hi : i.Renames ρ i') (hi1 : i.Smooth) (hi2 : i'.Smooth) (hm : i.mode ≠ .init)
    (hrow : known s' i'.deviInfo.dmId = (known s i.deviInfo.dmId).map (UserRow.rename ρ))
    (hfit : ∀ r, known s i.deviInfo.dmId = some r → Reaches cfg i.mode r →
      (iterate cfg account s' i').dm.pose = (iterate cfg account s i).dm.pose) :
    (iterate cfg account s' i').dm = (iterate cfg account s i).dm.rename ρ := by
  have hm' := renames_mode hi
  have hm2 : i'.mode ≠ .init := by rw [hm']; exact hm
  have hturn := turn_rename hs hi hi1 hm
  cases hknown : known s i.deviInfo.dmId with
  | none =>
    rw [hknown] at hrow
    rw [(smooth_none cfg account h hi1 hm hknown).1, (smooth_none cfg account h' hi2 hm2 hrow).1,
      hturn]
    rfl
  | some r =>
    rw [hknown] at hrow
    obtain ⟨hdm, _⟩ := smooth_some cfg account h hi1 hm hknown
    obtain ⟨hdm', _⟩ := smooth_some cfg account h' hi2 hm2 hrow
    have hpose : (iterate cfg account s' i').dm.pose = (iterate cfg account s i).dm.pose := by
      by_cases hr : Reaches cfg i.mode r
      · exact hfit r hknown hr
      · rw [hdm, hdm', hm', rewritten_pose hr,
          rewritten_pose (mt (reaches_rename ρ i.mode r).mp hr)]
        rfl
    have hori : (s'.turn i').ori = (s.turn i).ori.rename ρ := hturn
    rw [hdm, hdm', hm', hori] at hpose ⊢
    exact rewritten_rename _ _ _ _ _ _ _ hpose

/-- An iteration on the renamed code, from the renamed tables: if its look-up returns the
renamed row, and a fit the same pose, it leaves the renamed tables and sends the same
words. -/
theorem renamed_step (hρ : Function.Injective ρ) (h : s.whetherCb = false)
    (h' : s'.whetherCb = false) (hs : Renamed ρ s s') (hi : i.Renames ρ i') (hi1 : i.Smooth)
    (hi2 : i'.Smooth) (hm : i.mode ≠ .init)
    (hrow : known s' i'.deviInfo.dmId = (known s i.deviInfo.dmId).map (UserRow.rename ρ))
    (hfit : ∀ r, known s i.deviInfo.dmId = some r → Reaches cfg i.mode r →
      (iterate cfg account s i).self.MapsTo (SelfRow.rename ρ) (iterate cfg account s' i').self →
        (iterate cfg account s' i').dm.pose = (iterate cfg account s i).dm.pose) :
    Renamed ρ (iterate cfg account s i).toMain (iterate cfg account s' i').toMain ∧
      (iterate cfg account s' i').events.filterMap Event.diag? =
        (iterate cfg account s i).events.filterMap Event.diag? := by
  have hm' := renames_mode hi
  have hm2 : i'.mode ≠ .init := by rw [hm']; exact hm
  have hself : (iterate cfg account s i).self.MapsTo (SelfRow.rename ρ)
      (iterate cfg account s' i').self := by
    rw [smooth_self h hi1 hm, smooth_self h' hi2 hm2,
      ori_rename h h' hs hi hi1 hi2 hm hrow]
    exact keepRowsSize_rename _ (hs.self.insert (SelfDb.row (iterate cfg account s i).ori))
  have hdm : (iterate cfg account s' i').dm = (iterate cfg account s i).dm.rename ρ :=
    dm_rename h h' hs hi hi1 hi2 hm hrow fun r hr hreach => hfit r hr hreach hself
  cases hknown : known s i.deviInfo.dmId with
  | none =>
    have hknown' : known s' i'.deviInfo.dmId = none := by rw [hrow, hknown]; rfl
    obtain ⟨_, huser, hev⟩ := smooth_none cfg account h hi1 hm hknown
    obtain ⟨_, huser', hev'⟩ := smooth_none cfg account h' hi2 hm2 hknown'
    refine ⟨⟨?_, hself, ?_⟩, ?_⟩
    · rw [huser, huser', hdm]
      exact hs.user.insert (fun _ => rfl) hρ (UserDb.row (iterate cfg account s i).dm)
    · rw [hdm]
      rfl
    · rw [hev, hev']
      rfl
  | some r =>
    have hknown' : known s' i'.deviInfo.dmId = some (r.rename ρ) := by rw [hrow, hknown]; rfl
    obtain ⟨_, huser, hev⟩ := smooth_some cfg account h hi1 hm hknown
    obtain ⟨_, huser', hev'⟩ := smooth_some cfg account h' hi2 hm2 hknown'
    refine ⟨⟨?_, hself, ?_⟩, ?_⟩
    · rw [huser, huser', hdm]
      exact updateDataBase_rename hρ hs.user _
    · rw [hdm]
      rfl
    · rw [hev, hev', hm']
      have hlookup : ∀ dm, (Event.lookup i.mode dm).diag? = none := fun _ => rfl
      have hori' : (s'.turn i').ori = (s.turn i).ori.rename ρ := turn_rename hs hi hi1 hm
      simp only [List.filterMap_cons, hlookup, shown_diag, hori', far_rename]

end

namespace RenamingLemmas

variable {ρ : UInt32 → UInt32} {cfg : Config ℚ} {account : Account} {s s' : Main}
  {i : Sighting}

/-! ### Whole runs -/

theorem diagWords_snoc (l : List Act) (a : Act) :
    diagWords cfg account (l ++ [a]) = diagWords cfg account l ++
      (eventsOf cfg account (runMain cfg account l, a)).filterMap Event.diag? := by
  simp [diagWords, stepsMain, runMain, List.flatMap_append]

theorem toggle_rename (hρ : Function.Injective ρ) (hs : Renamed ρ s s') (id : UInt32) (b : Bool) :
    Renamed ρ (act cfg account s (.toggle id b)) (act cfg account s' (.toggle (ρ id) b)) where
  user := by
    simp only [act, UserDb.setEnable]
    refine hs.user.modify (fun _ => rfl) hρ id ?_ ?_ ?_
    all_goals exact fun _ => rfl
  self := hs.self
  dm := hs.dm

omit [Doubles] in
/-- Corresponding steps meet corresponding codes. -/
theorem meets_rename (hρ : Function.Injective ρ) {a a' : Act} (h : a.Renames ρ a')
    (id : UInt32) : a'.meets (ρ id) = a.meets id := by
  cases h with
  | toggle id' b => rfl
  | @sighting i i' h =>
    simp only [Act.meets, renames_mode h, h.deviInfo, hρ.eq_iff]

omit [Doubles] in
theorem met_rename (hρ : Function.Injective ρ) {l l' : List Act}
    (h : List.Forall₂ (Act.Renames ρ) l l') (id : UInt32) : met (ρ id) l' = met id l := by
  apply Run.forall₂_snoc_induction (P := fun l l' => met (ρ id) l' = met id l) rfl _ h
  intro l l' a a' _ ha ih
  rw [met_snoc, met_snoc, ih, meets_rename hρ ha]

omit [Doubles] in
/-- The look-ups agree if neither side takes the id for an untouched record, or there is
no row yet. -/
theorem known_rename (hρ : Function.Injective ρ) (hs : Renamed ρ s s') {id : UInt32}
    (h : s.user.find? id = none ∨ (id = 0 ↔ ρ id = 0)) :
    known s' (ρ id) = (known s id).map (UserRow.rename ρ) := by
  have hfind : s'.user.find? (ρ id) = (s.user.find? id).map (UserRow.rename ρ) :=
    hs.user.find? (fun _ => rfl) hρ id
  unfold known
  rw [hfind]
  rcases h with hnone | hiff
  · simp [hnone]
  · by_cases h0 : id = 0
    · rw [if_pos h0, if_pos (hiff.mp h0)]
      rfl
    · rw [if_neg h0, if_neg (mt hiff.mpr h0)]

/-- So they agree in a run in which the two special codes are rare. -/
theorem known_rename_run (hρ : Function.Injective ρ) {l : List Act} (hl : ∀ a ∈ l, a.Smooth)
    (hm : i.mode ≠ .init) (hzero : ZeroRare ρ (l ++ [.sighting i]))
    (hs : Renamed ρ (runMain cfg account l) s') :
    known s' (ρ i.deviInfo.dmId) =
      (known (runMain cfg account l) i.deviInfo.dmId).map (UserRow.rename ρ) := by
  apply known_rename hρ hs
  by_cases hspecial : i.deviInfo.dmId = 0 ∨ ρ i.deviInfo.dmId = 0
  · rcases hzero with h0 | hrare
    · right
      rw [← h0, hρ.eq_iff, h0]
    · left
      have hle := hrare _ hspecial
      rw [met_snoc, if_pos (meets_sighting.mpr ⟨hm, rfl⟩)] at hle
      have hcount := countOf_run cfg account hl i.deviInfo.dmId
      rw [countAt_eq_none.mpr (by omega)] at hcount
      exact Option.map_eq_none_iff.mp hcount
  · right
    rw [not_or] at hspecial
    exact ⟨fun h => absurd h hspecial.1, fun h => absurd h hspecial.2⟩

end RenamingLemmas

section

variable {ρ : UInt32 → UInt32} {cfg : Config ℚ} {account : Account}

/-- The step of the run lemma: a sighting of a code that is not 0 on one side only, or of
one that was not met before. -/
theorem renamed_sighting (hρ : Function.Injective ρ) {l l' : List Act} {i i' : Sighting}
    (hl : ∀ a ∈ l ++ [.sighting i], a.Smooth) (hi : i.Renames ρ i') (hi2 : i'.Smooth)
    (hscan : (i.env i.mode).scan.Stable ∧ (i'.env i'.mode).scan.Stable ∨
      Doubles.Unordered ∧ l.length < 2 ^ 31)
    (hzero : ZeroRare ρ (l ++ [.sighting i]))
    (hs : Renamed ρ (runMain cfg account l) (runMain cfg account l')) :
    Renamed ρ (iterate cfg account (runMain cfg account l) i).toMain
        (iterate cfg account (runMain cfg account l') i').toMain ∧
      (iterate cfg account (runMain cfg account l') i').events.filterMap Event.diag? =
        (iterate cfg account (runMain cfg account l) i).events.filterMap Event.diag? := by
  have hpre : ∀ a ∈ l, a.Smooth := fun a ha => hl a (List.mem_append_left _ ha)
  have hi1 : i.Smooth := hl (.sighting i) (by simp)
  have hm' := renames_mode hi
  have hid' : i'.deviInfo.dmId = ρ i.deviInfo.dmId := by rw [hi.deviInfo]
  by_cases hm : i.mode = .init
  · obtain ⟨hmain, hev⟩ := smooth_idle cfg account
      (s := runMain cfg account l) hi1 hm
    obtain ⟨hmain', hev'⟩ := smooth_idle cfg account
      (s := runMain cfg account l') hi2 (hm'.trans hm)
    rw [hmain, hmain', hev, hev']
    exact ⟨hs, rfl⟩
  have hlen : met i.deviInfo.dmId l ≤ l.length := List.countP_le_length
  have hknown := known_rename_run hρ hpre hm hzero hs
  rw [← hid'] at hknown
  have hflag := runMain_whetherCb cfg account l
  have hflag' := runMain_whetherCb cfg account l'
  refine renamed_step hρ hflag hflag' hs hi hi1 hi2 hm hknown ?_
  intro r hrow hr hself
  have hcnt := known_cnt (countOf_run cfg account hpre i.deviInfo.dmId) hrow
  have hlog := log_le_met cfg account hl i.deviInfo.dmId
  rw [runMain_snoc, met_snoc, if_pos (meets_sighting.mpr ⟨hm, rfl⟩)] at hlog
  have hrows := rowsOf_rename hρ hself i.deviInfo.dmId
  have hrow' : known (runMain cfg account l') i'.deviInfo.dmId = some (r.rename ρ) := by
    rw [hknown, hrow]
    rfl
  rw [smooth_fit hflag hi1 hm hrow hr hcnt hlog
      (hscan.imp And.left fun h => ⟨h.1, by have := h.2; omega⟩),
    smooth_fit hflag' hi2 (by rw [hm']; exact hm) hrow'
      (by rw [hm']; exact hr) hcnt (by rw [hid', hrows, List.length_map]; exact hlog)
      (hscan.imp And.right fun h => ⟨h.1, by have := h.2; omega⟩), hm', hid', hrows, List.map_map]
  rfl

variable (cfg account) in
/-- The run lemma. -/
theorem renamed_run (hρ : Function.Injective ρ) {l l' : List Act}
    (hren : List.Forall₂ (Act.Renames ρ) l l') (hl : ∀ a ∈ l, a.Smooth) (hl' : ∀ a ∈ l', a.Smooth)
    (hscan : ((∀ a ∈ l, a.Ordered) ∧ ∀ a ∈ l', a.Ordered) ∨
      Doubles.Unordered ∧ l.length < 2 ^ 31)
    (hzero : ZeroRare ρ l) :
    Renamed ρ (runMain cfg account l) (runMain cfg account l') ∧
      diagWords cfg account l' = diagWords cfg account l := by
  refine Run.forall₂_snoc_induction (P := fun l l' => (∀ a ∈ l, a.Smooth) → (∀ a ∈ l', a.Smooth) →
    (((∀ a ∈ l, a.Ordered) ∧ ∀ a ∈ l', a.Ordered) ∨ Doubles.Unordered ∧ l.length < 2 ^ 31) →
    ZeroRare ρ l →
    Renamed ρ (runMain cfg account l) (runMain cfg account l') ∧
      diagWords cfg account l' = diagWords cfg account l) ?_ ?_ hren hl hl' hscan hzero
  · exact fun _ _ _ _ => ⟨⟨rfl, rfl, rfl⟩, rfl⟩
  · intro l l' a a' _ ha ih hl hl' hscan hzero
    obtain ⟨hs, hwords⟩ := ih (fun b hb => hl b (List.mem_append_left _ hb))
      (fun b hb => hl' b (List.mem_append_left _ hb))
      (hscan.imp (fun h => ⟨fun b hb => h.1 b (List.mem_append_left _ hb),
        fun b hb => h.2 b (List.mem_append_left _ hb)⟩) fun h => ⟨h.1, by
          have hlen := h.2
          rw [List.length_append] at hlen
          omega⟩)
      (hzero.imp id fun h id hid => by
        have hle := h id hid
        rw [met_snoc] at hle
        omega)
    rw [runMain_snoc, runMain_snoc, diagWords_snoc, diagWords_snoc, hwords]
    cases ha with
    | toggle id b => exact ⟨toggle_rename hρ hs id b, rfl⟩
    | @sighting i i' hi =>
      have hscan' : (i.env i.mode).scan.Stable ∧ (i'.env i'.mode).scan.Stable ∨
          Doubles.Unordered ∧ l.length < 2 ^ 31 := by
        refine hscan.imp (fun h => ⟨?_, ?_⟩) fun h => ⟨h.1, ?_⟩
        · exact h.1 (.sighting i) (by simp)
        · exact h.2 (.sighting i') (by simp)
        · have hlen := h.2
          rw [List.length_append] at hlen
          omega
      obtain ⟨hstep, hev⟩ := renamed_sighting hρ hl hi (hl' (.sighting i') (by simp)) hscan'
        hzero hs
      exact ⟨hstep, congrArg _ hev⟩

variable (cfg account) in
/-- For every injective renaming of the ids and two runs of corresponding sightings and
updates of the operator, without failures and with one mode in each iteration: the final
tables and the diagnostic words of the second run are those of the first, renamed, exactly
when the renaming keeps 0 or the two codes that it takes from or to 0 are met at most once
each. (Rows that SQLite may visit in any order matter only to sums that are rounded, and to
counts beyond `2 ^ 31`.) -/
theorem renaming_iff (hρ : Function.Injective ρ) {l l' : List Act}
    (hren : List.Forall₂ (Act.Renames ρ) l l') (hl : ∀ a ∈ l, a.Smooth) (hl' : ∀ a ∈ l', a.Smooth)
    (hscan : ((∀ a ∈ l, a.Ordered) ∧ ∀ a ∈ l', a.Ordered) ∨
      Doubles.Unordered ∧ l.length < 2 ^ 31) :
    ((runMain cfg account l').user.rows =
          (runMain cfg account l).user.rows.map (UserRow.rename ρ) ∧
        (runMain cfg account l').self.rows =
          (runMain cfg account l).self.rows.map (Prod.map id (SelfRow.rename ρ)) ∧
        diagWords cfg account l' = diagWords cfg account l) ↔ ZeroRare ρ l := by
  constructor
  · rintro ⟨huser, _, _⟩
    by_contra hzero
    simp only [ZeroRare, not_or, not_forall, not_le] at hzero
    obtain ⟨h0, id, hid, htwo⟩ := hzero
    have huser : (runMain cfg account l).user.MapsTo (UserRow.rename ρ)
      (runMain cfg account l').user := huser
    -- the counts of the two rows are equal, and only the one of the id 0 is 1
    have hcount : countAt (ρ id) (met id l) = countAt id (met id l) := by
      have hrow := congrArg (Option.map (·.dmCnt)) (huser.find? (fun _ => rfl) hρ id)
      rw [Option.map_map] at hrow
      rw [← met_rename hρ hren, ← countOf_run cfg account hl', met_rename hρ hren,
        ← countOf_run cfg account hl]
      exact hrow
    have hne := storedCnt_ne_one htwo
    have hpos : met id l ≠ 0 := by omega
    unfold countAt at hcount
    rw [if_neg hpos, if_neg hpos, Option.some.injEq] at hcount
    rcases hid with rfl | hid
    · rw [if_neg h0, if_pos rfl] at hcount
      exact hne hcount
    · have hid0 : id ≠ 0 := by
        rintro rfl
        exact h0 hid
      rw [if_pos hid, if_neg hid0] at hcount
      exact hne hcount.symm
  · intro hzero
    obtain ⟨hs, hwords⟩ := renamed_run cfg account hρ hren hl hl' hscan hzero
    exact ⟨hs.user, hs.self, hwords⟩

end

/-! ## Two small renamings -/

/-- The ids `a` and `b` change places. -/
def swapId (a b : UInt32) : UInt32 → UInt32 := Equiv.swap a b

end

open scoped Exact

/-- The code `id`, recorded twice at the origin. -/
def exPair (id : UInt32) : List Act :=
  [.sighting (exSighting .recording id 0), .sighting (exSighting .recording id 0)]

theorem exPair_smooth (id : UInt32) : ∀ a ∈ exPair id, a.Smooth := by
  intro a ha
  rcases List.mem_pair.mp ha with rfl | rfl <;> exact exSighting_smooth _ _ _

theorem exPair_renames (ρ : UInt32 → UInt32) (id : UInt32) :
    List.Forall₂ (Act.Renames ρ) (exPair id) (exPair (ρ id)) :=
  .cons (.sighting ⟨rfl, rfl⟩) (.cons (.sighting ⟨rfl, rfl⟩) .nil)

/-- The code 7 as the code 9. -/
theorem renaming_exPair :
    (runMain exConfig exAccount (exPair 9)).user.rows =
      (runMain exConfig exAccount (exPair 7)).user.rows.map (UserRow.rename (swapId 7 9)) := by
  have h := (renaming_iff exConfig exAccount (Equiv.injective (Equiv.swap 7 9))
    (exPair_renames (swapId 7 9) 7) (exPair_smooth 7) (exPair_smooth _)
    (.inr ⟨Exact.unordered, by decide⟩)).mpr (.inl (by decide))
  exact h.1

/-- The code 1 as the code 0: its second recording is not counted, it is announced as
new once more, and it is never recommended. -/
theorem zero_frozen :
    Function.Injective (swapId 1 0) ∧
      List.Forall₂ (Act.Renames (swapId 1 0)) (exPair 1) (exPair 0) ∧
      (∀ a ∈ exPair 1, a.Smooth) ∧ (∀ a ∈ exPair 0, a.Smooth) ∧
      (runMain exConfig exAccount (exPair 0)).user.rows ≠
        (runMain exConfig exAccount (exPair 1)).user.rows.map (UserRow.rename (swapId 1 0)) ∧
      (runMain exConfig exAccount (exPair 1)).user.find? 1 = some ⟨1, 0, 2, 0, true, false⟩ ∧
      (runMain exConfig exAccount (exPair 0)).user.find? 0 = some ⟨0, 0, 1, 0, false, false⟩ ∧
      diagWords exConfig exAccount (exPair 1) = [1] ∧
      diagWords exConfig exAccount (exPair 0) = [1, 1] := by
  refine ⟨Equiv.injective _, exPair_renames (swapId 1 0) 1, exPair_smooth 1, exPair_smooth 0,
    ?_, ?_, ?_, ?_, ?_⟩ <;> decide +kernel

end QrAddon
