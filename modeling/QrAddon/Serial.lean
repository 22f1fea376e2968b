import QrAddon.Handover
import QrAddon.Connections
import QrAddon.Lifecycle

/-!
# The threads, one iteration after the other

An iteration of the main loop is two critical sections, and the receiver and the operator
get in between. `history` reads the iterations off a schedule: each with the package that
`dmTrigger` took and what its sections read, and the operator's updates in their order. An
update inside a section, which no mutex keeps out, is not a step here; `QrAddon.Interference`
has those.

Results:
1. `history_main`: under every schedule of the sections and of updates between them, the main
   loop is where the sequential loop of `QrAddon.Loop` is after the history, except that a
   `dmTrigger` may have run.
2. `changes_counted`: from the bytes of the connections to the databases. If main waits
   whenever a package is published and every iteration is clean, the count of a code is
   the number of times that the code changed into view.
-/

namespace QrAddon

/-! ## The history of a schedule -/

section

variable [Doubles]

/-- The completed iterations with the operator's updates, and what an iteration took whose
body has not run. -/
structure History where
  acts : List Act
  opened : Option (CustomerPackage ℚ × TriggerIn ℚ)

/-- A step adds to the history what it completes. -/
def History.record (h : History) (v : Sys × Move) : History :=
  match v.2 with
  | .toggle id enable => { h with acts := h.acts ++ [.toggle id enable] }
  | .main j =>
    match v.1.pc with
    | .notified => { h with opened := some (v.1.deviInfo, j.trig) }
    | .between =>
      ⟨h.acts ++ h.opened.toList.map fun o => .sighting ⟨o.1, o.2, v.1.bodyIn j⟩, none⟩
    | .entering | .waiting => h
  | .receive _ | .reconnect => h

def history (cfg : Config ℚ) (account : Account) (l : List Move) : History :=
  (Run.visits (sysStep cfg account) Sys.start l).foldl History.record ⟨[], none⟩

/-- The package of an iteration. -/
def Act.package? : Act → Option (CustomerPackage ℚ)
  | .sighting i => some i.deviInfo
  | .toggle _ _ => none

/-- The operator's part of a run. -/
def Act.toggle? : Act → Option (UInt32 × Bool)
  | .sighting _ => none
  | .toggle id enable => some (id, enable)

def Move.toggle? : Move → Option (UInt32 × Bool)
  | .toggle id enable => some (id, enable)
  | .receive _ | .reconnect | .main _ => none

/-- The sequential state, and the `dmTrigger` of an open iteration behind it. -/
def History.state (cfg : Config ℚ) (account : Account) (h : History) : Main :=
  h.opened.elim (runMain cfg account h.acts) fun o => (runMain cfg account h.acts).trigger o.2 o.1

namespace SerialLemmas

variable {cfg : Config ℚ} {account : Account}

/-- What the history says about the threads. -/
structure Serial (cfg : Config ℚ) (account : Account) (s : Sys) (h : History) : Prop where
  main : s.main = h.state cfg account
  opened : h.opened ≠ none ↔ s.pc = .between
  taken : s.taken = h.acts.filterMap Act.package? ++ h.opened.toList.map Prod.fst

/-- The operator's update does not see whether a `dmTrigger` has run. -/
theorem state_toggle (h : History) (id : UInt32) (enable : Bool) :
    ({ h with acts := h.acts ++ [.toggle id enable] } : History).state cfg account =
      act cfg account (h.state cfg account) (.toggle id enable) := by
  obtain ⟨acts, opened⟩ := h
  cases opened with
  | none => exact Run.exec_snoc _ _ _
  | some o =>
    show (runMain cfg account (acts ++ [.toggle id enable])).trigger o.2 o.1 = _
    rw [LifecycleLemmas.runMain_snoc]
    rfl

theorem serial_main {s : Sys} {h : History} (hs : Serial cfg account s h) (j : SectionIn) :
    Serial cfg account (mainSection cfg account s j) (h.record (s, .main j)) := by
  obtain ⟨hmain, hopened, htaken⟩ := hs
  cases hpc : s.pc with
  | entering | waiting =>
    rw [hpc] at hopened
    simp only [mainSection, History.record, hpc]
    refine ⟨hmain, ?_, htaken⟩
    simpa [hpc] using hopened
  | notified =>
    have hnone : h.opened = none := by
      by_contra hne
      rw [hopened.mp hne] at hpc
      cases hpc
    simp only [mainSection, History.record, hpc]
    refine ⟨?_, by simp, ?_⟩
    · show s.main.trigger j.trig s.deviInfo = (runMain cfg account h.acts).trigger _ _
      rw [hmain, History.state, hnone]
      rfl
    · rw [htaken, hnone]
      simp
  | between =>
    obtain ⟨o, ho⟩ := Option.ne_none_iff_exists'.mp (hopened.mpr hpc)
    simp only [mainSection, History.record, hpc]
    refine ⟨?_, by simp, ?_⟩
    · -- the two sections of the open iteration make it up
      rw [ho]
      show _ = runMain cfg account (h.acts ++ [.sighting ⟨o.1, o.2, s.bodyIn j⟩])
      rw [LifecycleLemmas.runMain_snoc, hmain, History.state, ho]
      rfl
    · rw [htaken, ho]
      simp [Act.package?]

theorem serial_step {s : Sys} {h : History} (hs : Serial cfg account s h) (e : Move) :
    Serial cfg account (sysStep cfg account s e) (h.record (s, e)) := by
  cases e with
  | main j => exact serial_main hs j
  | reconnect => exact ⟨hs.main, hs.opened, hs.taken⟩
  | toggle id enable =>
    refine ⟨?_, hs.opened, ?_⟩
    · show act cfg account s.main (.toggle id enable) = _
      rw [hs.main]
      exact (state_toggle h id enable).symm
    · show s.taken = _
      rw [hs.taken]
      simp [History.record, Act.package?]
  | receive p =>
    by_cases hp : p.dmId = s.idRecord
    · simpa [sysStep, hp, History.record] using hs
    · have hpc : s.pc.notify = .between ↔ s.pc = .between := by
        cases s.pc <;> simp [Mailbox.Pc.notify]
      simp only [sysStep, ne_eq, hp, not_false_eq_true, if_true, History.record]
      exact ⟨hs.main, hs.opened.trans hpc.symm, hs.taken⟩

theorem history_snoc (l : List Move) (e : Move) : history cfg account (l ++ [e]) =
    (history cfg account l).record (runSys cfg account l, e) := by
  rw [history, Run.visits_snoc, List.foldl_append]
  rfl

variable (cfg account) in
theorem serial_run (l : List Move) :
    Serial cfg account (runSys cfg account l) (history cfg account l) := by
  induction l using List.reverseRecOn with
  | nil => exact ⟨rfl, by simp [history, runSys, Sys.start], rfl⟩
  | append_singleton l e ih =>
    rw [history_snoc, runSys, Run.exec_snoc]
    exact serial_step ih e

omit [Doubles] in
theorem record_toggles (h : History) (v : Sys × Move) :
    (h.record v).acts.filterMap Act.toggle? =
      h.acts.filterMap Act.toggle? ++ v.2.toggle?.toList := by
  obtain ⟨s, e⟩ := v
  cases e with
  | receive p | reconnect => simp [History.record, Move.toggle?]
  | toggle id enable => simp [History.record, Move.toggle?, Act.toggle?]
  | main j =>
    cases hpc : s.pc <;> cases ho : h.opened <;>
      simp [History.record, hpc, ho, Move.toggle?, Act.toggle?]

end SerialLemmas

open SerialLemmas

/-- Under every schedule of the receiver's and the main loop's sections, with the operator's
updates between them: the variables of the main loop are those of the sequential loop after the
iterations in the history, up to the `dmTrigger` of an open one. An iteration is open between
the two sections and at no other time. The iterations are those of the packages that were
taken, in order, and the operator's updates in between are his updates in order. -/
theorem history_main (cfg : Config ℚ) (account : Account) (l : List Move) :
    let s := runSys cfg account l
    let h := history cfg account l
    s.main = h.state cfg account ∧ (h.opened ≠ none ↔ s.pc = .between) ∧
      s.taken = h.acts.filterMap Act.package? ++ h.opened.toList.map Prod.fst ∧
      h.acts.filterMap Act.toggle? = l.filterMap Move.toggle? := by
  intro s h
  obtain ⟨hmain, hopened, htaken⟩ := serial_run cfg account l
  refine ⟨hmain, hopened, htaken, ?_⟩
  show (history cfg account l).acts.filterMap Act.toggle? = _
  induction l using List.reverseRecOn with
  | nil => rfl
  | append_singleton l e ih =>
    obtain ⟨hmain, hopened, htaken⟩ := serial_run cfg account l
    rw [history_snoc, record_toggles, ih hmain hopened htaken, List.filterMap_append]
    cases he : e.toggle? <;> simp [he]

/-! ## Conditions that can be run -/

instance (i : Sighting) (m : Mode) : Decidable (i.Fixed m) :=
  decidable_of_iff (m ≠ .init ∧ i.trig.mode1 = m ∧ i.trig.mode2 = m ∧ i.body.mode3 = m ∧
    i.body.mode4 = m)
    ⟨fun ⟨h, h1, h2, h3, h4⟩ => ⟨h, h1, h2, h3, h4⟩,
      fun h => ⟨h.real, h.mode1, h.mode2, h.mode3, h.mode4⟩⟩

instance (i : Sighting) : Decidable i.Clean :=
  decidable_of_iff (i.Fixed i.mode ∧ i.deviInfo.dmId ≠ 0 ∧ (i.env i.mode).lookup.rc = .ok ∧
    (i.env i.mode).fitOk = true ∧ (i.env i.mode).userOk = true ∧ (i.env i.mode).selfOk = true)
    ⟨fun ⟨h, h1, h2, h3, h4, h5⟩ => ⟨h, h1, h2, h3, h4, h5⟩,
      fun h => ⟨h.fixed, h.id, h.lookup, h.fit, h.user, h.self⟩⟩

instance : (a : Act) → Decidable a.Clean
  | .sighting i => inferInstanceAs (Decidable i.Clean)
  | .toggle _ _ => .isTrue trivial

instance (s : Sys) : (e : Move) → Decidable (Publishes (s, e))
  | .receive p => decidable_of_iff (p.dmId ≠ s.idRecord)
      ⟨fun h => ⟨p, rfl, h⟩, fun ⟨_, h, hne⟩ => by cases h; exact hne⟩
  | .reconnect => .isFalse fun ⟨_, h, _⟩ => by cases h
  | .toggle _ _ => .isFalse fun ⟨_, h, _⟩ => by cases h
  | .main _ => .isFalse fun ⟨_, h, _⟩ => by cases h

instance (v : Sys × Move) : Decidable (Publishes v) :=
  inferInstanceAs (Decidable (Publishes (v.1, v.2)))

/-! ## From the bytes to the databases -/

/-- What happens next: the call that the receiver waits in returns, the operator updates, or the
main loop runs a section. -/
inductive Input
  | returned (i : RecIn)
  | toggle (id : UInt32) (enable : Bool)
  | main (j : SectionIn)

def Input.returned? : Input → Option RecIn
  | .returned i => some i
  | .toggle _ _ | .main _ => none

section

variable (ofBits : UInt64 → ℚ)

/-- The receiver behind an input. -/
def Input.receiver (r : Receiver ℚ) : Input → Receiver ℚ
  | .returned i => recCustomerPack ofBits r i
  | .toggle _ _ | .main _ => r

/-- The steps of the threads that an input amounts to. -/
def Input.moves (r : Receiver ℚ) : Input → List Move
  | .returned i => QrAddon.moves ofBits r i
  | .toggle id enable => [.toggle id enable]
  | .main j => [.main j]

/-- The schedule that a sequence of inputs makes. -/
def schedule : Receiver ℚ → List Input → List Move
  | _, [] => []
  | r, i :: l => i.moves ofBits r ++ schedule (i.receiver ofBits r) l

/-- The codes that came into view, connection by connection. -/
def inView (ended : List Connection) (last : Option Connection) : List (CustomerPackage ℚ) :=
  (ended ++ last.toList).flatMap (Connection.changed ofBits)

end

namespace SerialLemmas

variable {cfg : Config ℚ} {account : Account}

variable (cfg account) in
theorem input_agree (ofBits : UInt64 → ℚ) {r : Receiver ℚ} {s : Sys} (h : Agree r s) (i : Input) :
    Agree (i.receiver ofBits r) (Run.exec (sysStep cfg account) s (i.moves ofBits r)) := by
  cases i with
  | returned i => exact receiver_moves cfg account ofBits h i
  | toggle id enable => exact h
  | main j =>
    show Agree r (mainSection cfg account s j)
    unfold mainSection
    cases s.pc <;> exact h

variable (cfg account) in
/-- The receiver and the threads agree all along, and the receiver sees its returns only. -/
theorem schedule_agree (ofBits : UInt64 → ℚ) {r : Receiver ℚ} {s : Sys} (h : Agree r s)
    (l : List Input) :
    Agree (Run.exec (recCustomerPack ofBits) r (l.filterMap Input.returned?))
      (Run.exec (sysStep cfg account) s (schedule ofBits r l)) := by
  induction l generalizing r s with
  | nil => exact h
  | cons i l ih =>
    have hnext := ih (input_agree cfg account ofBits h i)
    rw [schedule, Run.exec_append]
    cases i with
    | returned i => exact hnext
    | toggle id enable | main j => exact hnext

variable (cfg account) in
/-- What main has published to it is what the connections make of the changes of code. -/
theorem published_inView (ofBits : UInt64 → ℚ) {l : List Input} {ended : List Connection}
    {last : Option Connection} (hl : l.filterMap Input.returned? = traffic ended last)
    (hfirst : ∀ c ∈ ended ++ last.toList,
      (c.packages ofBits).head?.map CustomerPackage.dmId ≠ some 4294967295) :
    (runSys cfg account (schedule ofBits (Receiver.start ℚ) l)).published =
      inView ofBits ended last := by
  have hagree := schedule_agree cfg account ofBits
    (r := Receiver.start ℚ) (s := Sys.start) ⟨rfl, rfl⟩ l
  rw [hl] at hagree
  have hpub := hagree.2
  rw [ConnectionLemmas.published_traffic] at hpub
  rw [runSys, ← hpub, inView]
  apply List.flatMap_congr
  intro c hc
  exact (ConnectionLemmas.announced_eq_changed_iff ofBits c).mpr (hfirst c hc)

/-- Between two iterations, and with main in `wait` at every publication, the packages of
the history are the published ones. -/
theorem packages_published {l : List Move}
    (hready : ∀ v ∈ Run.visits (sysStep cfg account) Sys.start l, Publishes v → v.1.pc = .waiting)
    (hidle : (runSys cfg account l).pc = .entering ∨ (runSys cfg account l).pc = .waiting) :
    (history cfg account l).acts.filterMap Act.package? = (runSys cfg account l).published := by
  have hover := (Mailbox.delivered_iff (HandoverLemmas.sysStep_mailbox cfg account)
    (s := Sys.start) rfl l).mpr fun v hv p hp =>
      hready v hv (HandoverLemmas.mailboxLabel_publish.mp ⟨p, hp⟩)
  have hserial := serial_run cfg account l
  have hnot : (runSys cfg account l).pc ≠ .notified ∧ (runSys cfg account l).pc ≠ .between := by
    rcases hidle with h | h <;> simp [h]
  have hpending : (runSys cfg account l).mailbox.pending = [] :=
    Mailbox.pending_of_ne hnot.1
  have hclosed : (history cfg account l).opened = none := by
    by_contra hne
    exact hnot.2 (hserial.opened.mp hne)
  have htaken := hserial.taken
  rw [hclosed, Option.toList_none, List.map_nil, List.append_nil] at htaken
  have hover : (runSys cfg account l).published =
      (runSys cfg account l).taken ++ (runSys cfg account l).mailbox.pending := hover
  rw [← htaken, hover, hpending, List.append_nil]

omit [Doubles] in
theorem seen_packages (id : UInt32) (l : List Act) :
    seen id l = (l.filterMap Act.package?).countP fun p => p.dmId = id := by
  induction l with
  | nil => rfl
  | cons a l ih =>
    unfold seen at ih ⊢
    rw [List.countP_cons, ih]
    cases a with
    | toggle id' enable => rfl
    | sighting i => by_cases h : i.deviInfo.dmId = id <;> simp [Act.package?, Act.sightingOf?, h]

omit [Doubles] in
theorem total_packages (l : List Act) : total l = (l.filterMap Act.package?).length := by
  induction l with
  | nil => rfl
  | cons a l ih =>
    unfold total at ih ⊢
    rw [List.countP_cons, ih]
    cases a <;> rfl

end SerialLemmas

/-- From the bytes to the databases. The receiver's calls return what connections bring
that carry whole packages, with errors in between, none of them starting with the code
4294967295; the operator updates between the sections of the main loop. If every publication
finds main inside `wait`, every iteration is clean and the changes of code, fewer than
`2 ^ 31`, fit into the self table, then between two iterations the count of every code, and
the number of its rows in the self table, is the number of times that it came into view. -/
theorem changes_counted (cfg : Config ℚ) (account : Account) (ofBits : UInt64 → ℚ)
    {l : List Input} {ended : List Connection} {last : Option Connection}
    (hl : l.filterMap Input.returned? = traffic ended last)
    (hfirst : ∀ c ∈ ended ++ last.toList,
      (c.packages ofBits).head?.map CustomerPackage.dmId ≠ some 4294967295)
    (hready : ∀ v ∈ Run.visits (sysStep cfg account) Sys.start
      (schedule ofBits (Receiver.start ℚ) l), Publishes v → v.1.pc = .waiting)
    (hidle : (runSys cfg account (schedule ofBits (Receiver.start ℚ) l)).pc = .entering ∨
      (runSys cfg account (schedule ofBits (Receiver.start ℚ) l)).pc = .waiting)
    (hclean : ∀ a ∈ (history cfg account (schedule ofBits (Receiver.start ℚ) l)).acts, a.Clean)
    (hcap : (inView ofBits ended last).length ≤ cfg.maxRowSelfDb.toNat)
    (hlt : (inView ofBits ended last).length < 2 ^ 31) (id : UInt32) :
    let s := (runSys cfg account (schedule ofBits (Receiver.start ℚ) l)).main
    let n := (inView ofBits ended last).countP fun p => p.dmId = id
    (s.user.find? id).elim 0 (·.dmCnt) = n ∧
      (SelfDb.rowsOf id s.self.values).length = n := by
  intro s n
  have hpub := published_inView cfg account ofBits hl hfirst
  have hpackages := packages_published hready hidle
  rw [hpub] at hpackages
  have hserial := serial_run cfg account (schedule ofBits (Receiver.start ℚ) l)
  have hclosed : (history cfg account (schedule ofBits (Receiver.start ℚ) l)).opened = none := by
    by_contra hne
    have hpc := hserial.opened.mp hne
    rcases hidle with h | h <;> rw [h] at hpc <;> cases hpc
  have hmain : s = runMain cfg account
      (history cfg account (schedule ofBits (Receiver.start ℚ) l)).acts := by
    show (runSys cfg account (schedule ofBits (Receiver.start ℚ) l)).main = _
    rw [hserial.main, History.state, hclosed]
    rfl
  have hledger := ledger_run cfg account hclean (by rw [total_packages, hpackages]; exact hcap)
    (by rw [total_packages, hpackages]; exact hlt)
  rw [← hmain] at hledger
  have hseen : seen id (history cfg account (schedule ofBits (Receiver.start ℚ) l)).acts = n := by
    rw [seen_packages, hpackages]
  constructor
  · cases hrow : s.user.find? id with
    | none => exact (((hledger.known id).mp hrow).symm.trans hseen)
    | some r => exact (hledger.cnt id r hrow).trans hseen
  · have hlog := congrArg List.length (hledger.log id)
    rw [List.length_map, List.length_map, LifecycleLemmas.length_sightingsOf] at hlog
    exact hlog.trans hseen

end

open scoped Exact

/-- The code 7 comes into view, stays there, and comes into view again on the next
connection. -/
def exView : List Input :=
  let j := exSection .recording ⟨1, 2, 0⟩
  let record := .returned (.received (.bytes exRecord.toList))
  [.main j, .returned (.accepted 5), record, .main j, .main j, .main j, record,
    .returned endOfStream, .returned (.accepted 6), record, .main j, .main j]

def exConnections : List Connection × Option Connection :=
  ([⟨5, [some exRecord, some exRecord]⟩], some ⟨6, [some exRecord]⟩)

theorem changes_counted_exView :
    let s := (runSys exConfig exAccount (schedule finiteDouble (Receiver.start ℚ) exView)).main
    (s.user.find? 7).elim 0 (·.dmCnt) = 2 ∧ (SelfDb.rowsOf 7 s.self.values).length = 2 := by
  have hview : (inView finiteDouble exConnections.1 exConnections.2).length = 2 := by decide
  have hseven : (inView finiteDouble exConnections.1 exConnections.2).countP
      (fun p => p.dmId = 7) = 2 := by decide
  have h := @changes_counted _ exConfig exAccount finiteDouble exView exConnections.1
    exConnections.2 rfl (by decide) (by decide)
    (by decide) (by decide)
    (by rw [hview]; decide) (by rw [hview]; decide) 7
  rw [hseven] at h
  exact h

end QrAddon
