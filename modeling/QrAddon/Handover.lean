import QrAddon.Loop
import QrAddon.Lib.Mailbox

/-!
# The receiver and the main loop under one mutex

The receiver publishes a package and notifies in one critical section. The main
loop has two: from waking up inside `wait` to the end of `dmTrigger`, and the loop
body, which reads `*deviInfo` again. Between them, and between the body and the
next `wait`, the mutex is free.

A step of `Sys` is a critical section of one thread, or an input outside of all of
them; the slot and the condition variable are those of `Mailbox`.

Results:
1. `handover_iff`: no sighting is lost or handled twice exactly when every package
   that is published finds the main loop inside `wait`.
2. `posted_provenance`: the code id and the deviation of an observation are those
   of the publications that the model's counters name.
3. `onePackage_iff`: an observation comes from one package exactly when `dmTrigger`
   formed a sighting from it and nothing is published before the body runs.
4. `sections_iterate`: two sections with nothing published in between are one
   iteration of `QrAddon.MainLoop`.
5. `gap_package_lost`, `mixed_observation`: two schedules that break 1 and 3.
-/

namespace QrAddon

open Mailbox (Pc)

section

variable [Doubles]

/-- What the next critical section of the main loop reads, apart from the slot. -/
structure SectionIn where
  trig : TriggerIn ℚ
  mode3 : Mode
  mode4 : Mode
  envRec : BranchEnv
  envLoc : BranchEnv

/-- A step: `recv` returned a package, `recv` returned 0 and the receiver accepts
again, the operator's update between two sections of the main loop, or the main loop's next
critical section. -/
inductive Move
  | receive (p : CustomerPackage ℚ)
  | reconnect
  | toggle (id : UInt32) (enable : Bool)
  | main (j : SectionIn)

/-- Both threads. The last four fields are history: what was published and taken,
how much had been published when the current iteration took its package, and when
the `DM` got its id and pose. -/
structure Sys where
  main : Main
  pc : Pc
  idRecord : UInt32
  deviInfo : CustomerPackage ℚ
  published : List (CustomerPackage ℚ)
  taken : List (CustomerPackage ℚ)
  takenAt : ℕ
  dmFrom : ℕ

def Sys.start : Sys where
  main := Main.start
  pc := .entering
  idRecord := 4294967295
  deviInfo := ⟨0, 0, 0, 0⟩
  published := []
  taken := []
  takenAt := 0
  dmFrom := 0

/-- The inputs of the loop body: `*deviInfo` is read when the body runs. -/
def Sys.bodyIn (s : Sys) (j : SectionIn) : BodyIn :=
  ⟨j.mode3, j.mode4, s.deviInfo, j.envRec, j.envLoc⟩

section

variable (cfg : Config ℚ) (account : Account)

/-- A critical section of the main loop. -/
def mainSection (s : Sys) (j : SectionIn) : Sys :=
  match s.pc with
  | .entering => { s with pc := .waiting }
  | .waiting => s
  | .notified => { s with
      main := s.main.trigger j.trig s.deviInfo
      pc := .between
      taken := s.taken ++ [s.deviInfo]
      takenAt := s.published.length
      dmFrom := if j.trig.source = .init then s.dmFrom else s.published.length }
  | .between => { s with
      main := (loopBody cfg account (s.bodyIn j) s.main).toMain
      pc := .entering }

def sysStep (s : Sys) : Move → Sys
  | .receive p =>
    if p.dmId ≠ s.idRecord then
      { s with
        pc := s.pc.notify
        idRecord := p.dmId
        deviInfo := p.published
        published := s.published ++ [p.published] }
    else s
  | .reconnect => { s with idRecord := 4294967295 }
  | .toggle id enable => { s with main := act cfg account s.main (.toggle id enable) }
  | .main j => mainSection cfg account s j

/-- The state after a schedule. -/
def runSys (l : List Move) : Sys := Run.exec (sysStep cfg account) Sys.start l

end

/-- `dmTrigger` and the loop body in a row are the iteration of the main loop that
takes the package in the slot. -/
theorem sections_iterate (cfg : Config ℚ) (account : Account) {s : Sys} (h : s.pc = .notified)
    (i j : SectionIn) :
    (mainSection cfg account (mainSection cfg account s i) j).main =
      (iterate cfg account s.main ⟨s.deviInfo, i.trig, s.bodyIn j⟩).toMain := by
  simp only [mainSection, h]
  rfl

/-- The step publishes: its package passes the id filter. -/
def Publishes (v : Sys × Move) : Prop := ∃ p, v.2 = .receive p ∧ p.dmId ≠ v.1.idRecord

/-! ## No sighting lost or handled twice -/

/-- The mailbox inside the system. -/
def Sys.mailbox (s : Sys) : Mailbox.State (CustomerPackage ℚ) :=
  ⟨s.pc, s.deviInfo, s.published, s.taken⟩

/-- Every published package was taken by exactly one iteration, in the order of
publication, or the main loop is woken up and about to take it. -/
def Sys.HandedOver (s : Sys) : Prop :=
  s.published = s.taken ++ if s.pc = .notified then [s.deviInfo] else []

instance (s : Sys) : Decidable s.HandedOver := inferInstanceAs (Decidable (_ = _))

/-- What a step does to the mailbox. -/
def mailboxLabel (s : Sys) : Move → Option (Mailbox.Label (CustomerPackage ℚ))
  | .receive p => if p.dmId ≠ s.idRecord then some (.publish p.published) else none
  | .reconnect => none
  | .toggle _ _ => none
  | .main _ => some .consumer

namespace HandoverLemmas

variable {cfg : Config ℚ} {account : Account}

variable (cfg account) in
/-- A step of the system is a step of its mailbox, or leaves it alone. -/
theorem sysStep_mailbox (s : Sys) (e : Move) : (sysStep cfg account s e).mailbox =
    (mailboxLabel s e).elim s.mailbox (Mailbox.step s.mailbox) := by
  cases e with
  | receive p =>
    by_cases h : p.dmId = s.idRecord
    · simp [sysStep, mailboxLabel, h]
    · simp only [sysStep, mailboxLabel, ne_eq, h, not_false_eq_true, if_true]
      rfl
  | reconnect => rfl
  | toggle id enable => rfl
  | main j =>
    obtain ⟨main, pc, idRecord, deviInfo, published, taken, takenAt, dmFrom⟩ := s
    cases pc <;> rfl

omit [Doubles] in
theorem mailboxLabel_publish {s : Sys} {e : Move} :
    (∃ p, mailboxLabel s e = some (.publish p)) ↔ Publishes (s, e) := by
  cases e with
  | receive p => by_cases h : p.dmId = s.idRecord <;> simp [mailboxLabel, Publishes, h]
  | reconnect => simp [mailboxLabel, Publishes]
  | toggle id enable => simp [mailboxLabel, Publishes]
  | main j => simp [mailboxLabel, Publishes]

end HandoverLemmas

open HandoverLemmas

/-- Under every schedule: no published package is lost or handled twice exactly when
every package that is published finds the main loop inside `wait`. -/
theorem handover_iff (cfg : Config ℚ) (account : Account) (l : List Move) :
    (runSys cfg account l).HandedOver ↔
      ∀ v ∈ Run.visits (sysStep cfg account) Sys.start l, Publishes v → v.1.pc = .waiting := by
  refine (Mailbox.delivered_iff (sysStep_mailbox cfg account) (s := Sys.start) rfl l).trans ?_
  constructor
  · intro h v hv hp
    obtain ⟨p, hp⟩ := mailboxLabel_publish.mpr hp
    exact h v hv p hp
  · intro h v hv p hp
    exact h v hv (mailboxLabel_publish.mp ⟨p, hp⟩)

end

open scoped Exact

/-- The main loop in mode `m`, ROKIT reporting the pose `p`. -/
def exSection (m : Mode) (p : DmPose ℚ) : SectionIn :=
  ⟨⟨m, m, .complete p, .message 0 p⟩, m, m, exEnv, exEnv⟩

/-- The code 7 arrives inside `wait`, the code 9 after `dmTrigger` has returned. -/
def exGap : List Move :=
  let j := exSection .recording ⟨1, 2, 0⟩
  [.main j, .receive ⟨7, 1, 0, 0⟩, .main j, .receive ⟨9, 5, 0, 0⟩, .main j, .main j]

/-- The code 9 is published and never taken: the main loop is back inside `wait`, and
the receiver will not publish the same code again. -/
theorem gap_package_lost :
    let s := runSys exConfig exAccount exGap
    s.pc = .waiting ∧ s.idRecord = 9 ∧ s.published.map (·.dmId) = [7, 9] ∧
      s.taken.map (·.dmId) = [7] ∧ ¬ s.HandedOver := by
  decide +kernel

/-! ## One observation, one package -/

section

variable [Doubles]

/-- A request that the loop body posts, with the numbers of the publications that
its iteration took, that its code id and its deviation come from. -/
structure Observation where
  request : AddObservation ℚ
  takenAt : ℕ
  codeFrom : ℕ
  deviationFrom : ℕ

/-- Code id and deviation come from the package that the iteration took. -/
def Observation.OnePackage (o : Observation) : Prop :=
  o.codeFrom = o.takenAt ∧ o.deviationFrom = o.takenAt

instance (o : Observation) : Decidable o.OnePackage := inferInstanceAs (Decidable (_ ∧ _))

def Event.addObservation? : Event → Option (AddObservation ℚ)
  | .addObservation r => some r
  | .lookup _ _ | .login _ | .setSeed _ | .diag _ | .fit _ => none

omit [Doubles] in
theorem Event.addObservation?_eq_some {e : Event} {r : AddObservation ℚ} :
    e.addObservation? = some r ↔ e = .addObservation r := by
  cases e <;> simp [Event.addObservation?]

/-- The observations that the next critical section of the main loop posts. -/
def posted (cfg : Config ℚ) (account : Account) (s : Sys) (j : SectionIn) : List Observation :=
  if s.pc = .between then
    ((loopBody cfg account (s.bodyIn j) s.main).events.filterMap Event.addObservation?).map
      fun r => ⟨r, s.takenAt, s.dmFrom, s.published.length⟩
  else []

/-- Not a step of the main loop. -/
def Move.OffMain : Move → Prop
  | .main _ => False
  | _ => True

/-- The history fields mean what they say: the slot holds the last publication, and
the `DM`'s id is that of the publication `dmFrom` (0: none yet). -/
structure Provenance (s : Sys) : Prop where
  flag : s.main.whetherCb = false
  slot : s.published ≠ [] → s.published.getLast? = some s.deviInfo
  code : s.dmFrom = 0 ∧ s.main.dm.id = 0 ∨
    0 < s.dmFrom ∧ ∃ p, s.published[s.dmFrom - 1]? = some p ∧ s.main.dm.id = p.dmId
  bound : s.dmFrom ≤ s.published.length
  fresh : s.pc = .notified → s.dmFrom < s.published.length
  nonempty : s.pc = .notified ∨ s.pc = .between → s.published ≠ []

namespace HandoverLemmas

variable {cfg : Config ℚ} {account : Account}

/-- An observation carries the id of the `DM` and the deviation of the package that
the body is given, and the code is known. -/
theorem branch_observation {d : CustomerPackage ℚ} {env : BranchEnv} {mode : Mode} {t t' : Turn}
    (h : BranchStep cfg account d env mode t t') {r : AddObservation ℚ}
    (hr : .addObservation r ∈ t'.events) :
    .addObservation r ∈ t.events ∨
      r.sensorName = idText t.dm.id ∧ r.sensorLandmark = d.pose ∧ t.dm.id ≠ 0 := by
  have hrequest {row : UserRow} (hrow : UserDb.lookedUp t.user env.lookup t.dm.id = some row)
      {rpcId : UInt64} (hr : .addObservation r = requestOf cfg d env t mode (counted row) rpcId) :
      r.sensorName = idText t.dm.id ∧ r.sensorLandmark = d.pose ∧ t.dm.id ≠ 0 := by
    unfold requestOf at hr
    split at hr
    · obtain rfl := Event.addObservation.inj hr
      refine ⟨congrArg idText (UserDb.lookedUp_some hrow).2, rfl, ?_⟩
      intro h0
      rw [h0] at hrow
      simp [UserDb.lookedUp] at hrow
    · cases hr
  cases h with
  | unknown hrow hdm huser hlog hev | disabled row hrow hoff hcnt hdm huser hlog hev
  | recommended row hrow hoff hcnt hdm huser hlog hev =>
    left
    simpa [hev] using hr
  | near row hrow hon hnear hdm huser hlog hev | far row hrow hon hfar hdm huser hlog hev =>
    rw [hev] at hr
    rcases List.mem_append.mp hr with hr | hr
    · exact .inl hr
    · simp only [List.mem_cons, reduceCtorEq, List.not_mem_nil, or_false, false_or] at hr
      exact .inr (hrequest hrow hr)

theorem body_observation {s : Main} (h : s.whetherCb = false) {b : BodyIn} {r : AddObservation ℚ}
    (hr : .addObservation r ∈ (loopBody cfg account b s).events) :
    r.sensorName = idText s.dm.id ∧ r.sensorLandmark = b.deviInfo.pose ∧ s.dm.id ≠ 0 := by
  have hbody : (loopBody cfg account b s).dm.id = s.dm.id ∧
      ∀ r, .addObservation r ∈ (loopBody cfg account b s).events →
        r.sensorName = idText s.dm.id ∧ r.sensorLandmark = b.deviInfo.pose ∧ s.dm.id ≠ 0 := by
    apply loopBody_invariant (P := fun t => t.dm.id = s.dm.id ∧ ∀ r, .addObservation r ∈ t.events →
      r.sensorName = idText s.dm.id ∧ r.sensorLandmark = b.deviInfo.pose ∧ s.dm.id ≠ 0) h
    · exact ⟨rfl, fun _ => nofun⟩
    · rintro env mode t t' hb ⟨hid, ht⟩
      refine ⟨hb.dm_id.trans hid, ?_⟩
      intro r hr
      rcases branch_observation hb hr with hr | hr
      · exact ht r hr
      · rw [hid] at hr
        exact hr
  exact hbody.2 r hr

theorem provenance_receive {s : Sys} (h : Provenance s) (p : CustomerPackage ℚ) :
    Provenance (sysStep cfg account s (.receive p)) := by
  by_cases hp : p.dmId = s.idRecord
  · simpa [sysStep, hp] using h
  · have hstep : sysStep cfg account s (.receive p) = { s with
        pc := s.pc.notify
        idRecord := p.dmId
        deviInfo := p.published
        published := s.published ++ [p.published] } := by simp [sysStep, hp]
    rw [hstep]
    refine ⟨h.flag, fun _ => List.getLast?_concat, ?_, ?_, ?_, fun _ => by simp⟩
    · rcases h.code with h0 | ⟨hpos, q, hq, hid⟩
      · exact .inl h0
      · refine .inr ⟨hpos, q, ?_, hid⟩
        have hlt : s.dmFrom - 1 < s.published.length := (List.getElem?_eq_some_iff.mp hq).1
        simpa [List.getElem?_append_left hlt] using hq
    · simpa using Nat.le_succ_of_le h.bound
    · intro _
      simpa using Nat.lt_succ_of_le h.bound

theorem provenance_main {s : Sys} (h : Provenance s) (j : SectionIn) :
    Provenance (mainSection cfg account s j) := by
  unfold mainSection
  cases hpc : s.pc with
  | entering => exact ⟨h.flag, h.slot, h.code, h.bound, nofun, by simp⟩
  | waiting => exact h
  | between =>
    refine ⟨loopBody_whetherCb h.flag, h.slot, ?_, h.bound, nofun, by simp⟩
    simp only
    rw [loopBody_dm_id h.flag]
    exact h.code
  | notified =>
    have hne := h.nonempty (.inl hpc)
    have hpos : 0 < s.published.length := List.length_pos_of_ne_nil hne
    refine ⟨h.flag, h.slot, ?_, ?_, nofun, fun _ => hne⟩
    · by_cases hinit : j.trig.source = .init
      · simp only [hinit, if_true, s.main.trigger_init hinit]
        exact h.code
      · simp only [hinit, if_false]
        refine .inr ⟨hpos, s.deviInfo, ?_, s.main.trigger_id hinit _⟩
        rw [← List.getLast?_eq_getElem?]
        exact h.slot hne
    · simp only
      split
      · exact h.bound
      · exact le_rfl

theorem provenance_step {s : Sys} (h : Provenance s) (e : Move) :
    Provenance (sysStep cfg account s e) := by
  cases e with
  | receive p => exact provenance_receive h p
  | reconnect => exact ⟨h.flag, h.slot, h.code, h.bound, h.fresh, h.nonempty⟩
  | toggle id enable => exact ⟨h.flag, h.slot, h.code, h.bound, h.fresh, h.nonempty⟩
  | main j => exact provenance_main h j

variable (cfg account) in
theorem provenance_run (l : List Move) : Provenance (runSys cfg account l) := by
  refine Run.exec_invariant (P := Provenance) ?_ fun v _ h => provenance_step h v.2
  exact ⟨rfl, fun h => absurd rfl h, .inl ⟨rfl, rfl⟩, le_rfl, nofun, by simp [Sys.start]⟩

variable (cfg account) in
/-- A step off the main loop leaves the iteration alone, and publishes at most once. -/
theorem offMain_step (s : Sys) {e : Move} (he : e.OffMain) :
    (sysStep cfg account s e).takenAt = s.takenAt ∧ (sysStep cfg account s e).dmFrom = s.dmFrom ∧
      (Publishes (s, e) ∧
          (sysStep cfg account s e).published.length = s.published.length + 1 ∨
        ¬ Publishes (s, e) ∧
          (sysStep cfg account s e).published.length = s.published.length) := by
  cases e with
  | receive p => by_cases h : p.dmId = s.idRecord <;> simp [sysStep, Publishes, h]
  | reconnect => simp [sysStep, Publishes]
  | toggle id enable => simp [sysStep, Publishes]
  | main j => exact he.elim

variable (cfg account) in
/-- Steps off the main loop: the iteration is left alone, and the number of
publications stays what it is exactly when none of them publishes. -/
theorem offMain_exec {w : List Move} (hw : ∀ e ∈ w, e.OffMain) (s : Sys) :
    (Run.exec (sysStep cfg account) s w).takenAt = s.takenAt ∧
      (Run.exec (sysStep cfg account) s w).dmFrom = s.dmFrom ∧
      s.published.length ≤ (Run.exec (sysStep cfg account) s w).published.length ∧
      ((Run.exec (sysStep cfg account) s w).published.length = s.published.length ↔
        ∀ v ∈ Run.visits (sysStep cfg account) s w, ¬ Publishes v) := by
  induction w generalizing s with
  | nil => simp
  | cons e w ih =>
    obtain ⟨htaken, hdm, hpub⟩ := offMain_step cfg account s (hw e (by simp))
    obtain ⟨ht, hd, hle, hiff⟩ := ih (fun e' he' => hw e' (by simp [he']))
      (sysStep cfg account s e)
    rw [htaken] at ht
    rw [hdm] at hd
    refine ⟨ht, hd, ?_⟩
    simp only [Run.exec_cons, Run.visits_cons, List.forall_mem_cons]
    rcases hpub with ⟨hp, hlen⟩ | ⟨hp, hlen⟩
    · refine ⟨by omega, ?_⟩
      constructor
      · intro h
        omega
      · intro h
        exact absurd hp h.1
    · rw [hlen] at hle hiff
      exact ⟨hle, by rw [hiff]; exact ⟨fun h => ⟨hp, h⟩, fun h => h.2⟩⟩

/-- Off the main loop, nothing leads into the gap between the two sections. -/
theorem between_offMain {s : Sys} {e : Move} (he : e.OffMain)
    (h : (sysStep cfg account s e).pc = .between) : s.pc = .between := by
  cases e with
  | receive p =>
    simp only [sysStep] at h
    split at h
    · cases hpc : s.pc <;> simp_all [Pc.notify]
    · exact h
  | reconnect => exact h
  | toggle id enable => exact h
  | main j => exact he.elim

theorem between_main {s : Sys} {j : SectionIn}
    (h : (sysStep cfg account s (.main j)).pc = .between) : s.pc = .notified := by
  simp only [sysStep, mainSection] at h
  split at h
  · cases h
  · next hpc => exact absurd (hpc.symm.trans h) nofun
  · next hpc => exact hpc
  · cases h

/-- A schedule that ends in the gap ends with a `dmTrigger` that was woken, followed
by steps off the main loop. -/
theorem between_split {l : List Move} (h : (runSys cfg account l).pc = .between) :
    ∃ pre i w, l = pre ++ .main i :: w ∧ (runSys cfg account pre).pc = .notified ∧
      ∀ e ∈ w, e.OffMain := by
  induction l using List.reverseRecOn with
  | nil => cases h
  | append_singleton l e ih =>
    rw [runSys, Run.exec_snoc] at h
    by_cases he : e.OffMain
    · obtain ⟨pre, i, w, rfl, hpre, hw⟩ := ih (between_offMain he h)
      refine ⟨pre, i, w ++ [e], by simp, hpre, ?_⟩
      intro e' he'
      rcases List.mem_append.mp he' with he' | he'
      · exact hw e' he'
      · rw [List.mem_singleton.mp he']
        exact he
    · cases e with
      | main j => exact ⟨l, j, [], rfl, between_main h, by simp⟩
      | receive p => exact absurd trivial he
      | reconnect => exact absurd trivial he
      | toggle id enable => exact absurd trivial he

end HandoverLemmas

open HandoverLemmas

/-- An observation in full: its code id is the id of the publication `codeFrom`, its
deviation that of the publication `deviationFrom`. -/
theorem posted_provenance (cfg : Config ℚ) (account : Account) (l : List Move) (j : SectionIn)
    {o : Observation} (ho : o ∈ posted cfg account (runSys cfg account l) j) :
    (∃ p, (runSys cfg account l).published[o.codeFrom - 1]? = some p ∧
        o.request.sensorName = idText p.dmId) ∧
      ∃ p, (runSys cfg account l).published[o.deviationFrom - 1]? = some p ∧
        o.request.sensorLandmark = p.pose := by
  have hprov := provenance_run cfg account l
  unfold posted at ho
  split at ho
  · next hpc =>
    obtain ⟨r, hr, rfl⟩ := List.mem_map.mp ho
    obtain ⟨e, he, her⟩ := List.mem_filterMap.mp hr
    obtain rfl : e = .addObservation r := Event.addObservation?_eq_some.mp her
    obtain ⟨hname, hland, hid⟩ := body_observation hprov.flag he
    refine ⟨?_, _, ?_, hland⟩
    · obtain ⟨_, h0⟩ | ⟨_, p, hp, hdm⟩ := hprov.code
      · exact absurd h0 hid
      · exact ⟨p, hp, by rw [hname, hdm]⟩
    · rw [← List.getLast?_eq_getElem?]
      exact hprov.slot (hprov.nonempty (.inr hpc))
  · cases ho

/-- Under every schedule, whenever the loop body is about to run: the iteration's
`dmTrigger` was woken at some point, and an observation that the body posts comes
from the one package that this `dmTrigger` took exactly when it formed a sighting
and nothing has been published since. -/
theorem onePackage_iff (cfg : Config ℚ) (account : Account) {l : List Move}
    (h : (runSys cfg account l).pc = .between) (j : SectionIn) :
    ∃ pre i w, l = pre ++ .main i :: w ∧ (runSys cfg account pre).pc = .notified ∧
      (∀ e ∈ w, e.OffMain) ∧
      ∀ o ∈ posted cfg account (runSys cfg account l) j, (o.OnePackage ↔
        i.trig.source ≠ .init ∧
          ∀ v ∈ Run.visits (sysStep cfg account) (runSys cfg account (pre ++ [.main i])) w,
            ¬ Publishes v) := by
  obtain ⟨pre, i, w, rfl, hpre, hw⟩ := between_split h
  refine ⟨pre, i, w, rfl, hpre, hw, ?_⟩
  have hfresh := (provenance_run cfg account pre).fresh hpre
  have hsplit : runSys cfg account (pre ++ .main i :: w) =
      Run.exec (sysStep cfg account) (runSys cfg account (pre ++ [.main i])) w := by
    simp [runSys, Run.exec_append]
  have htrigger : runSys cfg account (pre ++ [.main i]) =
      mainSection cfg account (runSys cfg account pre) i := Run.exec_snoc _ pre _
  obtain ⟨htaken, hdm, _, hlen⟩ := offMain_exec cfg account hw
    (runSys cfg account (pre ++ [.main i]))
  intro o ho
  unfold posted at ho
  rw [if_pos h] at ho
  obtain ⟨r, _, rfl⟩ := List.mem_map.mp ho
  unfold Observation.OnePackage
  simp only
  rw [hsplit, htaken, hdm, ← hlen, htrigger]
  simp only [mainSection, hpre]
  by_cases hinit : i.trig.source = .init
  · simp only [hinit, if_true, ne_eq, not_true, false_and, iff_false, not_and]
    intro heq
    omega
  · simp only [hinit, if_false, ne_eq, not_false_eq_true, true_and]

end

open scoped Exact

/-- The code 7 is recorded and enabled; then it is seen again after a reconnect. -/
def exAgain : List Move :=
  let j := exSection .recording ⟨1, 2, 0⟩
  [.main j, .receive ⟨7, 1, 0, 0⟩, .main j, .main j, .toggle 7 true, .main j, .reconnect,
    .receive ⟨7, 1, 0, 0⟩, .main j]

theorem onePackage_exAgain :
    (posted exConfig exAccount (runSys exConfig exAccount exAgain)
        (exSection .recording 0)).length = 1 ∧
      ∃ pre i w, exAgain = pre ++ .main i :: w ∧
        (runSys exConfig exAccount pre).pc = .notified ∧ (∀ e ∈ w, e.OffMain) ∧
        ∀ o ∈ posted exConfig exAccount (runSys exConfig exAccount exAgain)
          (exSection .recording 0), (o.OnePackage ↔ i.trig.source ≠ .init ∧
            ∀ v ∈ Run.visits (sysStep exConfig exAccount)
              (runSys exConfig exAccount (pre ++ [.main i])) w, ¬ Publishes v) :=
  ⟨by decide +kernel, onePackage_iff exConfig exAccount (by decide +kernel) _⟩

/-- The code 9 arrives before the body runs: the observation of the code 7, which was
seen at a deviation of 1, is posted with the deviation 5 of the code 9. -/
theorem mixed_observation :
    ∃ o ∈ posted exConfig exAccount
        (runSys exConfig exAccount (exAgain ++ [.receive ⟨9, 5, 0, 0⟩])) (exSection .recording 0),
      o.request.sensorName = "7" ∧ o.request.sensorLandmark = ⟨-5, 0, 0⟩ ∧ ¬ o.OnePackage := by
  decide +kernel

end QrAddon
