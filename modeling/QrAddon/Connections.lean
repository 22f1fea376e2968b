import QrAddon.Receiver
import QrAddon.Lib.Changes

/-!
# The receiver over its connections

`recCustomerPack` sets `idRecord` to `UINT32_MAX` when `accept` returns and compares
every package with it. `accept`'s result is not checked, and no descriptor is closed:
an end of stream leads back to `accept`, an error of `recv` to the next `recv`.

Results:
1. `repeats_iff`: every connection's first package and its changes of code are
   published, and nothing else, exactly when no connection starts with the code
   `UINT32_MAX`.
2. `sentinel_dropped`: a connection whose first package has that code.
3. `survives_iff`: at most one client descriptor is open and `recv` is called with a
   descriptor only, exactly when the first `accept` succeeds and no other one returns.
4. `reconnect_leaks`: one reconnect, and one `accept` that fails.
-/

namespace QrAddon

open ReceiverLemmas

/-! ## Repeats -/

/-- A connection: what `accept` returned for it, and the results of `recv` up to its end,
each a whole package or an error. -/
structure Connection where
  fd : ℤ
  received : List (Option (Vector UInt8 32))

def endOfStream : RecIn := .received (.bytes [])

namespace Connection

def recvResult : Option (Vector UInt8 32) → RecIn
  | some v => .received (.bytes v.toList)
  | none => .received .error

/-- The returns of the receiver's calls while the connection is open. -/
def returns (c : Connection) : List RecIn := .accepted c.fd :: c.received.map recvResult

variable {R : Type} [Ring R] (ofBits : UInt64 → R)

/-- The packages of the connection, in order. -/
def packages (c : Connection) : List (CustomerPackage R) :=
  c.received.reduceOption.map (CustomerPackage.decode ofBits)

/-- The first package and every package with another code than the one before it, with
the deviations negated. -/
def changed (c : Connection) : List (CustomerPackage R) :=
  (Changes.changes CustomerPackage.dmId (c.packages ofBits)).map
    fun p => ⟨p.dmId, -p.deviationX, -p.deviationY, -p.deviationA⟩

end Connection

/-- The returns for connections that the peer ended, and then for one that is still open,
if there is one. -/
def traffic (ended : List Connection) (last : Option Connection) : List RecIn :=
  (ended.flatMap fun c => c.returns ++ [endOfStream]) ++ last.elim [] Connection.returns

namespace ConnectionLemmas

variable {R : Type} [Ring R] (ofBits : UInt64 → R)

/-- What the receiver makes of a connection. -/
def announced (c : Connection) : List (CustomerPackage R) :=
  (Changes.suppress CustomerPackage.dmId 4294967295 (c.packages ofBits)).map
    CustomerPackage.published

theorem announced_eq_changed_iff (c : Connection) :
    announced ofBits c = c.changed ofBits ↔
      (c.packages ofBits).head?.map CustomerPackage.dmId ≠ some 4294967295 := by
  have hpub : CustomerPackage.published (R := R) =
      fun p => ⟨p.dmId, -p.deviationX, -p.deviationY, -p.deviationA⟩ :=
    funext CustomerPackage.published_eq
  rw [announced, hpub]
  exact Changes.suppress_eq_changes_iff _ _

theorem recCustomerPack_accepted {s : Receiver R} (hs : s.pc = .accepting) (fd : ℤ) :
    recCustomerPack ofBits s (.accepted fd) =
      { s with
        pc := .receiving
        sockFd := fd
        openFds := if 0 ≤ fd then s.openFds ++ [fd] else s.openFds
        idRecord := 4294967295 } := by
  simp [recCustomerPack, hs]

theorem recCustomerPack_package {s : Receiver R} (hs : s.pc = .receiving)
    (v : Vector UInt8 32) :
    recCustomerPack ofBits s (.received (.bytes v.toList)) = comparePackage ofBits s v := by
  have hv := recvInto_toList v
  have hlen : v.toList.length = 32 := v.length_toList
  obtain ⟨a, b, hab⟩ : ∃ a b, v.toList = a :: b := by
    cases h : v.toList with
    | nil => simp [h] at hlen
    | cons a b => exact ⟨a, b, rfl⟩
  rw [hab] at hv ⊢
  simp only [recCustomerPack, hs, hv]

/-- On an open connection, errors change nothing, and the packages go through the
suppression that starts from `idRecord`. -/
theorem exec_received {s : Receiver R} (hs : s.pc = .receiving)
    (received : List (Option (Vector UInt8 32))) :
    let s' := Run.exec (recCustomerPack ofBits) s (received.map Connection.recvResult)
    s'.pc = .receiving ∧ s'.published = s.published ++
      (Changes.suppress CustomerPackage.dmId s.idRecord
        (received.reduceOption.map (CustomerPackage.decode ofBits))).map
          CustomerPackage.published := by
  induction received generalizing s with
  | nil => exact ⟨hs, (List.append_nil _).symm⟩
  | cons r received ih =>
    cases r with
    | none =>
      have herror : recCustomerPack ofBits s (Connection.recvResult none) = s := by
        simp [recCustomerPack, Connection.recvResult, hs]
      simpa only [List.map_cons, Run.exec_cons, herror, List.reduceOption_cons_of_none] using
        ih hs
    | some v =>
      have hstep : recCustomerPack ofBits s (Connection.recvResult (some v)) =
          comparePackage ofBits s v := recCustomerPack_package ofBits hs v
      obtain ⟨hpc, hpub⟩ := ih ((comparePackage_pc ofBits s v).trans hs)
      simp only [List.map_cons, Run.exec_cons, hstep, List.reduceOption_cons_of_some,
        Changes.suppress]
      refine ⟨hpc, ?_⟩
      rw [hpub]
      by_cases hid : (CustomerPackage.decode ofBits v).dmId = s.idRecord
      · simp [comparePackage, hid]
      · simp [comparePackage, hid]

theorem exec_returns {s : Receiver R} (hs : s.pc = .accepting) (c : Connection) :
    let s' := Run.exec (recCustomerPack ofBits) s c.returns
    s'.pc = .receiving ∧ s'.published = s.published ++ announced ofBits c := by
  simp only [Connection.returns, Run.exec_cons, recCustomerPack_accepted ofBits hs]
  exact exec_received ofBits rfl c.received

theorem exec_endOfStream {s : Receiver R} (hs : s.pc = .receiving) :
    recCustomerPack ofBits s endOfStream = { s with pc := .accepting } := by
  simp [recCustomerPack, endOfStream, hs]

theorem exec_ended {s : Receiver R} (hs : s.pc = .accepting) (ended : List Connection) :
    let s' := Run.exec (recCustomerPack ofBits) s
      (ended.flatMap fun c => c.returns ++ [endOfStream])
    s'.pc = .accepting ∧ s'.published = s.published ++ ended.flatMap (announced ofBits) := by
  induction ended generalizing s with
  | nil => exact ⟨hs, (List.append_nil _).symm⟩
  | cons c ended ih =>
    obtain ⟨hpc, hpub⟩ := exec_returns ofBits hs c
    simp only [List.flatMap_cons, Run.exec_append, Run.exec_cons, Run.exec_nil,
      exec_endOfStream ofBits hpc]
    obtain ⟨hpc', hpub'⟩ := ih
      (s := { Run.exec (recCustomerPack ofBits) s c.returns with pc := .accepting }) rfl
    exact ⟨hpc', by rw [hpub', hpub, List.append_assoc]⟩

/-- What the receiver publishes in a run over connections. -/
theorem published_traffic (ended : List Connection) (last : Option Connection) :
    (Run.exec (recCustomerPack ofBits) (Receiver.start R) (traffic ended last)).published =
      (ended ++ last.toList).flatMap (announced ofBits) := by
  obtain ⟨hpc, hpub⟩ := exec_ended ofBits (s := Receiver.start R) rfl ended
  rw [traffic, Run.exec_append, List.flatMap_append]
  cases last with
  | none => exact hpub.trans (List.append_nil _).symm
  | some c =>
    have hlast := (exec_returns ofBits hpc c).2
    simp only [Option.elim_some, Option.toList_some, List.flatMap_singleton]
    rw [hlast, hpub]
    rfl

end ConnectionLemmas

open ConnectionLemmas

/-- For every sequence of whole packages over any number of connections, with errors of
`recv` in between: the receiver publishes on each connection its first package and its
changes of code, and no other, exactly when on no connection the first package has the
code 4294967295. -/
theorem repeats_iff {R : Type} [Ring R] (ofBits : UInt64 → R) (ended : List Connection)
    (last : Option Connection) :
    (Run.exec (recCustomerPack ofBits) (Receiver.start R) (traffic ended last)).published =
        (ended ++ last.toList).flatMap (Connection.changed ofBits) ↔
      ∀ c ∈ ended ++ last.toList,
        (c.packages ofBits).head?.map CustomerPackage.dmId ≠ some 4294967295 := by
  have hle (c : Connection) : (announced ofBits c).length ≤ (c.changed ofBits).length := by
    simpa only [announced, Connection.changed, List.length_map] using
      Changes.suppress_length_le _ _ _
  rw [published_traffic, Changes.flatMap_eq_iff fun c _ => hle c]
  exact forall₂_congr fun c _ => announced_eq_changed_iff ofBits c

/-- A connection that starts with the code 4294967295 and goes on with the code 7. -/
def exSentinel : Connection :=
  ⟨5, [some ⟨#[0xFF, 0xFF, 0xFF, 0xFF, 0, 0, 0, 0, 0, 0, 0, 0, 0, 0, 0xF0, 0x3F, 0, 0, 0, 0, 0, 0,
    0, 0, 0, 0, 0, 0, 0, 0, 0, 0], rfl⟩, none, some exRecord]⟩

/-- The first package counts as a repeat, although there was none before it. -/
theorem sentinel_dropped :
    let s := Run.exec (recCustomerPack finiteDouble) (Receiver.start ℚ)
      (traffic [] (some exSentinel))
    s.published.map (·.dmId) = [7] ∧
      (exSentinel.changed finiteDouble).map (·.dmId) = [4294967295, 7] ∧
      s.published ≠ [exSentinel].flatMap (Connection.changed finiteDouble) := by
  decide +kernel

/-! ## Reconnects -/

/-- At most one client descriptor is open, and the `recv` that the receiver is in has a
descriptor. -/
structure Receiver.Sound {R : Type} (s : Receiver R) : Prop where
  oneClient : s.openFds.length ≤ 1
  descriptor : s.pc = .receiving → 0 ≤ s.sockFd

/-- The receiver loses its connection: `accept` fails, or `recv` meets the end. -/
def Receiver.Loses {R : Type} (s : Receiver R) (i : RecIn) : Prop :=
  (s.pc = .accepting ∧ ∃ fd < 0, i = .accepted fd) ∨ (s.pc = .receiving ∧ i = endOfStream)

section

variable {R : Type} [Ring R] (ofBits : UInt64 → R)

/-- In every state of the run the descriptors are in order, and a lost connection leads
back to `accept`. -/
def Survives (l : List RecIn) : Prop :=
  (∀ pre, pre <+: l → (Run.exec (recCustomerPack ofBits) (Receiver.start R) pre).Sound) ∧
    ∀ v ∈ Run.visits (recCustomerPack ofBits) (Receiver.start R) l, v.1.Loses v.2 →
      (recCustomerPack ofBits v.1 v.2).pc = .accepting

end

/-- An `accept` that returns now succeeds, and none has returned a descriptor before. -/
def Receiver.FirstAccept {R : Type} (s : Receiver R) (i : RecIn) : Prop :=
  ∀ fd, s.pc = .accepting → i = .accepted fd → 0 ≤ fd ∧ s.openFds = []

namespace ConnectionLemmas

variable {R : Type} [Ring R] (ofBits : UInt64 → R)

theorem comparePackage_fds (s : Receiver R) (v : Vector UInt8 32) :
    (comparePackage ofBits s v).openFds = s.openFds ∧
      (comparePackage ofBits s v).sockFd = s.sockFd := by
  simp only [comparePackage]
  split <;> exact ⟨rfl, rfl⟩

/-- Only `accept` touches the descriptors. -/
theorem recCustomerPack_received {s : Receiver R} (r : ByteStream.Piece UInt8) :
    let s' := recCustomerPack ofBits s (.received r)
    s'.openFds = s.openFds ∧ s'.sockFd = s.sockFd ∧
      (s'.pc = .receiving → s.pc = .receiving) := by
  cases hpc : s.pc with
  | accepting => simp [recCustomerPack, hpc]
  | receiving =>
    cases r with
    | error => simp [recCustomerPack, hpc]
    | bytes b =>
      cases b with
      | nil => simp [recCustomerPack, hpc]
      | cons a b => simp [recCustomerPack, hpc, comparePackage_fds]

theorem sound_step {s : Receiver R} (hs : s.Sound) {i : RecIn} (hi : s.FirstAccept i) :
    (recCustomerPack ofBits s i).Sound := by
  cases i with
  | received r =>
    obtain ⟨hfds, hfd, hpc⟩ := recCustomerPack_received ofBits (s := s) r
    refine ⟨hfds ▸ hs.oneClient, ?_⟩
    intro h
    rw [hfd]
    exact hs.descriptor (hpc h)
  | accepted fd =>
    cases hpc : s.pc with
    | accepting =>
      obtain ⟨hfd, hopen⟩ := hi fd hpc rfl
      rw [recCustomerPack_accepted ofBits hpc]
      exact ⟨by simp [hopen, hfd], fun _ => hfd⟩
    | receiving =>
      have hsame : recCustomerPack ofBits s (.accepted fd) = s := by simp [recCustomerPack, hpc]
      rwa [hsame]

end ConnectionLemmas

/-- For every sequence of results of `accept` and `recv`: at every point at most one
client descriptor is open, `recv` is called with a descriptor only, and a lost connection
leads back to `accept`, exactly when every `accept` that returns is the first one and
succeeds. -/
theorem survives_iff {R : Type} [Ring R] (ofBits : UInt64 → R) (l : List RecIn) :
    Survives ofBits l ↔
      ∀ v ∈ Run.visits (recCustomerPack ofBits) (Receiver.start R) l, v.1.FirstAccept v.2 := by
  constructor
  · rintro ⟨hsound, _⟩ v hv fd hpc hi
    obtain ⟨pre, post, hl, hs⟩ := Run.mem_visits hv
    -- the state behind the return of `accept`
    have hnext := hsound (pre ++ [v.2]) ⟨post, by rw [hl]; simp⟩
    rw [Run.exec_snoc, ← hs, hi, recCustomerPack_accepted ofBits hpc] at hnext
    have hfd : 0 ≤ fd := hnext.descriptor rfl
    have hone := hnext.oneClient
    simp only [if_pos hfd, List.length_append, List.length_singleton] at hone
    exact ⟨hfd, List.eq_nil_of_length_eq_zero (by omega)⟩
  · intro h
    constructor
    · rintro pre ⟨post, rfl⟩
      rw [Run.visits_append] at h
      apply Run.exec_invariant (P := Receiver.Sound)
      · exact ⟨Nat.zero_le _, nofun⟩
      · intro v hv hs
        exact sound_step ofBits hs (h v (List.mem_append_left _ hv))
    · rintro v hv (⟨hpc, fd, hneg, hi⟩ | ⟨hpc, hi⟩)
      · exact absurd (h v hv fd hpc hi).1 (not_le.mpr hneg)
      · rw [hi, exec_endOfStream ofBits hpc]

/-- The peer reconnects once, and both descriptors are open. In the other run `accept`
fails, and its result goes to `recv`. -/
theorem reconnect_leaks :
    let leaked := [.accepted 5, endOfStream, .accepted 6]
    let failed := [.accepted (-1)]
    (Run.exec (recCustomerPack finiteDouble) (Receiver.start ℚ) leaked).openFds = [5, 6] ∧
      (Run.exec (recCustomerPack finiteDouble) (Receiver.start ℚ) failed).pc = .receiving ∧
      (Run.exec (recCustomerPack finiteDouble) (Receiver.start ℚ) failed).sockFd = -1 ∧
      ¬ Survives finiteDouble leaked ∧ ¬ Survives finiteDouble failed := by
  refine ⟨by decide +kernel, by decide +kernel, by decide +kernel, ?_, ?_⟩
  · rintro ⟨hsound, _⟩
    exact absurd (hsound _ List.prefix_rfl).oneClient (by decide +kernel)
  · rintro ⟨hsound, _⟩
    exact absurd ((hsound _ List.prefix_rfl).descriptor (by decide +kernel)) (by decide +kernel)

end QrAddon
