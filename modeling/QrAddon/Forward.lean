import QrAddon.Loop

/-!
# The user table moves forward

Whatever fails and however the mode flips, an iteration runs at most two branches, and a
branch inserts a row that counts 1 or rewrites a row from the look-up that just found it.
So a row stays, its counters grow by at most one in each branch, and below `2 ^ 31` none
of them wraps.

`Counted b` is the invariant, with a bound `b` on the counts that grows by two in each
iteration; `forward_run` reads the steps off it.
-/

namespace QrAddon

/-- Every row has a count between 1 and `b`, and at most as many deviations. -/
def Counted (b : ℕ) (t : UserTable) : Prop :=
  ∀ id r, t.find? id = some r → r.sloppyCnt ≤ r.dmCnt ∧ 1 ≤ r.dmCnt ∧ r.dmCnt ≤ b

/-- The row `r'` may follow `r`. -/
structure UserRow.Precedes (r r' : UserRow) : Prop where
  id : r'.dmId = r.dmId
  dmCnt : r.dmCnt ≤ r'.dmCnt
  sloppyCnt : r.sloppyCnt ≤ r'.sloppyCnt
  recommend : r.recommend = true → r'.recommend = true

/-- The table `u` may follow `t`: no row is gone, no id has two rows, and the counts are
as they should be. -/
structure Forward (t u : UserTable) : Prop where
  keeps : ∀ r ∈ t.rows, ∃ r' ∈ u.rows, r.Precedes r'
  nodup : (u.rows.map UserRow.dmId).Nodup
  counts : ∀ r ∈ u.rows, r.sloppyCnt ≤ r.dmCnt ∧ 1 ≤ r.dmCnt

namespace ForwardLemmas

theorem precedes_refl (r : UserRow) : r.Precedes r := ⟨rfl, le_rfl, le_rfl, id⟩

theorem precedes_trans {r r' r'' : UserRow} (h : r.Precedes r') (h' : r'.Precedes r'') :
    r.Precedes r'' where
  id := h'.id.trans h.id
  dmCnt := h.dmCnt.trans h'.dmCnt
  sloppyCnt := h.sloppyCnt.trans h'.sloppyCnt
  recommend := h'.recommend ∘ h.recommend

/-- No row is gone, in terms of look-ups. -/
def Grows (t u : UserTable) : Prop :=
  ∀ id r, t.find? id = some r → ∃ r', u.find? id = some r' ∧ r.Precedes r'

theorem grows_refl (t : UserTable) : Grows t t := fun _ r hr => ⟨r, hr, precedes_refl r⟩

theorem grows_trans {t u w : UserTable} (h : Grows t u) (h' : Grows u w) : Grows t w := by
  intro id r hr
  obtain ⟨r', hr', hle⟩ := h id r hr
  obtain ⟨r'', hr'', hle'⟩ := h' id r' hr'
  exact ⟨r'', hr'', precedes_trans hle hle'⟩

theorem forward_of_grows {t u : UserTable} {b : ℕ} (h : Grows t u) (hu : Counted b u) :
    Forward t u where
  keeps r hr := by
    obtain ⟨r', hr', hle⟩ := h r.dmId r (KeyedTable.find?_eq_some.mpr ⟨hr, rfl⟩)
    exact ⟨r', (KeyedTable.find?_eq_some.mp hr').1, hle⟩
  nodup := u.nodup
  counts r hr := by
    obtain ⟨hs, hc, _⟩ := hu r.dmId r (KeyedTable.find?_eq_some.mpr ⟨hr, rfl⟩)
    exact ⟨hs, hc⟩

theorem counted_mono {b b' : ℕ} {t : UserTable} (h : Counted b t) (hb : b ≤ b') :
    Counted b' t := by
  intro id r hr
  obtain ⟨hs, hc, hle⟩ := h id r hr
  exact ⟨hs, hc, hle.trans hb⟩

variable [Doubles] {cfg : Config ℚ} {account : Account}

section

variable {deviInfo : CustomerPackage ℚ} {env : BranchEnv} {mode : Mode} {t t' : Turn}

/-- A row that a branch writes over follows the one that was there, one count up. -/
theorem branch_rewrites {b : ℕ} (h : BranchStep cfg account deviInfo env mode t t')
    (ht : Counted b t.user) (hb : b < 2 ^ 31) {r : UserRow}
    (hlook : UserDb.lookedUp t.user env.lookup t.dm.id = some r) :
    r.Precedes (UserDb.setColumns t'.dm r) ∧
      (UserDb.setColumns t'.dm r).sloppyCnt ≤ (UserDb.setColumns t'.dm r).dmCnt ∧
      (UserDb.setColumns t'.dm r).dmCnt = r.dmCnt + 1 := by
  obtain ⟨hs, hc, hle⟩ := ht _ r (UserDb.lookedUp_some hlook).1
  obtain ⟨_, hcnt, hsloppy⟩ := h.found hlook
  have hcnt' : t'.dm.cnt.toNat = r.dmCnt + 1 := by
    rw [hcnt, readCounter_succ (by omega)]
  have hsloppy' : t'.dm.sloppyCnt.toNat = r.sloppyCnt ∨
      t'.dm.sloppyCnt.toNat = r.sloppyCnt + 1 := by
    rw [hsloppy]
    split
    · exact .inr (readCounter_succ (by omega))
    · rw [add_zero]
      exact .inl (readCounter_toNat (by omega))
  refine ⟨⟨rfl, ?_, ?_, (h.found_keeps hlook).2⟩, ?_, hcnt'⟩
  · simp only [UserDb.setColumns]
    omega
  · simp only [UserDb.setColumns]
    omega
  · simp only [UserDb.setColumns]
    omega

/-- A branch moves the table forward. -/
theorem branch_forward {b : ℕ} (h : BranchStep cfg account deviInfo env mode t t')
    (ht : Counted b t.user) (hb : b < 2 ^ 31) :
    Counted (b + 1) t'.user ∧ Grows t.user t'.user := by
  have hmono := counted_mono ht (Nat.le_succ b)
  rcases h.user_own with hsame | ⟨hnone, hnew⟩ | ⟨r, hlook, hr, hset⟩
  · have hall : ∀ id, t'.user.find? id = t.user.find? id := by
      intro id
      by_cases hid : id = t.dm.id
      · rw [hid, hsame]
      · exact h.user_other hid
    refine ⟨fun id r' hr' => hmono id r' ((hall id).symm.trans hr'), fun id r' hr' => ?_⟩
    exact ⟨r', (hall id).trans hr', precedes_refl r'⟩
  · have hone : (UserDb.row t.dm.clearRemainingInfo.updateCnt).dmCnt = 1 := rfl
    have hzero : (UserDb.row t.dm.clearRemainingInfo.updateCnt).sloppyCnt = 0 := rfl
    constructor
    · intro id r' hr'
      by_cases hid : id = t.dm.id
      · subst hid
        obtain rfl := Option.some.inj (hnew.symm.trans hr')
        omega
      · exact hmono id r' ((h.user_other hid).symm.trans hr')
    · intro id r' hr'
      by_cases hid : id = t.dm.id
      · rw [hid, hnone] at hr'
        cases hr'
      · exact ⟨r', (h.user_other hid).trans hr', precedes_refl r'⟩
  · obtain ⟨hprec, hsloppy, hcnt⟩ := branch_rewrites h ht hb hlook
    have hbound := (ht _ r hr).2.2
    constructor
    · intro id r' hr'
      by_cases hid : id = t.dm.id
      · subst hid
        obtain rfl := Option.some.inj (hset.symm.trans hr')
        exact ⟨hsloppy, by omega, by omega⟩
      · exact hmono id r' ((h.user_other hid).symm.trans hr')
    · intro id r' hr'
      by_cases hid : id = t.dm.id
      · subst hid
        obtain rfl : r = r' := Option.some.inj (hr.symm.trans hr')
        exact ⟨_, hset, hprec⟩
      · exact ⟨r', (h.user_other hid).trans hr', precedes_refl r'⟩

end

variable (cfg account) in
/-- So does an iteration, with its at most two branches. -/
theorem iterate_forward {b : ℕ} {s : Main} (h : s.whetherCb = false) (i : Sighting)
    (hs : Counted b s.user) (hb : b + 1 < 2 ^ 31) :
    Counted (b + 2) (iterate cfg account s i).user ∧
      Grows s.user (iterate cfg account s i).user := by
  obtain ⟨t, _, h3, h4⟩ := iterate_cases cfg account (i := i) h
  have ht : Counted (b + 1) t.user ∧ Grows s.user t.user := by
    rcases h3 with ⟨_, h3⟩ | ⟨_, rfl⟩
    · exact branch_forward h3 hs (by omega)
    · exact ⟨counted_mono hs (Nat.le_succ b), grows_refl _⟩
  rcases h4 with ⟨_, h4⟩ | ⟨_, h4⟩
  · obtain ⟨hcounted, hgrows⟩ := branch_forward h4 ht.1 hb
    exact ⟨hcounted, grows_trans ht.2 hgrows⟩
  · rw [h4]
    exact ⟨counted_mono ht.1 (Nat.le_succ _), ht.2⟩

end ForwardLemmas

open ForwardLemmas

section

variable [Doubles] (cfg : Config ℚ) (account : Account)

/-- The loop without an operator. -/
def sight (s : Main) (i : Sighting) : Main := (iterate cfg account s i).toMain

/-- The counts after a run of `l.length` iterations. -/
theorem counted_run {s : Main} (huser : s.user.rows = []) (hflag : s.whetherCb = false)
    {l : List Sighting} (hlen : l.length < 2 ^ 30) :
    (Run.exec (sight cfg account) s l).whetherCb = false ∧
      Counted (2 * l.length) (Run.exec (sight cfg account) s l).user := by
  induction l using List.reverseRecOn with
  | nil =>
    refine ⟨hflag, fun id r hr => ?_⟩
    have hmem := (KeyedTable.find?_eq_some.mp hr).1
    rw [Run.exec_nil, huser] at hmem
    cases hmem
  | append_singleton l i ih =>
    rw [List.length_append, List.length_singleton] at hlen ⊢
    obtain ⟨hcb, hcounted⟩ := ih (by omega)
    rw [Run.exec_snoc]
    refine ⟨iterate_whetherCb hcb, ?_⟩
    have hstep := (iterate_forward cfg account hcb i hcounted (by omega)).1
    exact counted_mono hstep (by omega)

/-- The user table only moves forward, in every one of fewer than `2 ^ 30` iterations
from an empty user table. The sightings are arbitrary: the ids, the modes read and the
ends of the statements. -/
theorem forward_run {s : Main} (huser : s.user.rows = []) (hflag : s.whetherCb = false)
    {l : List Sighting} (hlen : l.length < 2 ^ 30) :
    ∀ v ∈ Run.visits (sight cfg account) s l,
      Forward v.1.user (sight cfg account v.1 v.2).user := by
  intro v hv
  obtain ⟨pre, post, hl, hpre⟩ := Run.mem_visits hv
  have hlen' : pre.length + 1 ≤ l.length := by
    rw [hl]
    simp
  obtain ⟨hcb, hcounted⟩ := counted_run cfg account huser hflag (l := pre) (by omega)
  rw [← hpre] at hcb hcounted
  obtain ⟨hnext, hgrows⟩ := iterate_forward cfg account hcb v.2 hcounted
    (by omega)
  exact forward_of_grows hgrows hnext

end

open scoped Exact

/-- A code with the id 0, a flipping mode and a look-up that fails. -/
def exRough : List Sighting :=
  [exSighting .recording 0 0,
    { exSighting .recording 0 0 with
      body := ⟨.recording, .localization, exPackage 0, exEnv, exEnv⟩ },
    { exSighting .recording 7 0 with
      body := ⟨.recording, .localization, exPackage 7,
        { exEnv with lookup := ⟨.errorAfterCallback, 5⟩ }, exEnv⟩ }]

theorem forward_exRough :
    (Run.visits (sight exConfig exAccount) Main.start exRough).length = 3 ∧
      ∀ v ∈ Run.visits (sight exConfig exAccount) Main.start exRough,
        Forward v.1.user (sight exConfig exAccount v.1 v.2).user :=
  ⟨rfl, forward_run exConfig exAccount rfl rfl (by decide)⟩

end QrAddon
