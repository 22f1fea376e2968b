import Mathlib

/-!
# How the client connects

`BinaryInterfaceClient::Connect` goes over the resolved addresses, up to 101 times. For
each it makes a socket and connects it; a failed `connect` closes the socket. The result
code, the error and the handle keep their values across the addresses and the passes.
Behind the loops the connected socket gets an option, and when that fails the constructor
throws, so that nobody closes the socket.

Results:
1. `connectLoop_spec`: how the loops end, for every sequence of outcomes.
2. `connect_settled_iff`: `Connect` makes at most 101 passes, returns with the one
   connected socket or throws without one, exactly when `setsockopt` succeeds or no
   attempt that it makes gets a connection.
3. `setsockopt_leaks`: a connected socket whose option fails.
-/

namespace QrAddon

namespace BinaryInterfaceClient

/-- The outcome for one address: `socket` fails, or it returns a descriptor and `connect`
fails or succeeds. `connect` leaves `errno`. -/
inductive Attempt
  | noSocket
  | refused (fd : ℕ) (errno : ℤ)
  | connected (fd : ℕ) (errno : ℤ)
deriving DecidableEq, Repr

/-- An open socket that `Connect` made. -/
structure Socket where
  fd : ℕ
  connected : Bool
deriving DecidableEq, Repr

/-- The variables of `Connect` and its open sockets. The last two fields count: the
attempts so far, which select the next outcome, and the passes over the addresses. -/
structure Connecting where
  rc : ℤ
  error : ℤ
  handle : ℤ
  sockets : List Socket
  attempts : ℕ
  passes : ℕ
deriving DecidableEq, Repr

def retryAttempts : ℕ := 100

/-- `ETIMEDOUT`, `ENETUNREACH` and `ECONNREFUSED`. -/
def retryErrors : List ℤ := [110, 101, 111]

/-- `close(Handle)`. -/
def Connecting.close (s : Connecting) : Connecting :=
  { s with sockets := s.sockets.filter fun k => (k.fd : ℤ) ≠ s.handle }

/-- The body of the `for` loop, and whether it reaches the `break`. -/
def tryAddress (a : Attempt) (s : Connecting) : Connecting × Bool :=
  let s := { s with attempts := s.attempts + 1 }
  match a with
  -- `continue`: the result code and the error stay those of an earlier attempt
  | .noSocket => ({ s with handle := -1 }, false)
  | .refused fd errno =>
    let s := { s with handle := fd, sockets := s.sockets ++ [Socket.mk fd false] }
    let s := { s with rc := -1, error := errno }
    ({ s.close with handle := -1 }, false)
  | .connected fd errno =>
    let s := { s with handle := fd, sockets := s.sockets ++ [Socket.mk fd true] }
    ({ s with rc := 0, error := errno }, true)

section

variable {Addr : Type} (attempt : ℕ → Attempt)

def forAddresses : List Addr → Connecting → Connecting
  | [], s => s
  | _ :: walk, s =>
    let r := tryAddress (attempt s.attempts) s
    if r.2 then r.1 else forAddresses walk r.1

/-- The `do` loop from `Index` on. -/
def connectLoop (res : List Addr) (index : ℕ) (s : Connecting) : Connecting :=
  let s := forAddresses attempt res { s with passes := s.passes + 1 }
  if s.rc < 0 ∧ s.error ∈ retryErrors ∧ index < retryAttempts then
    connectLoop res (index + 1) s
  else s
termination_by retryAttempts - index

/-- What `getaddrinfo` gives, with `errno` behind it. -/
inductive Resolution (Addr : Type)
  | failed (errno : ℤ)
  | resolved (res : List Addr) (errno : ℤ)

/-- How `Connect` ends: the text that it throws, if it does, `Handle`, the sockets that are
open and the passes it made. -/
structure Connected where
  thrown : Option String
  handle : ℤ
  sockets : List Socket
  passes : ℕ
deriving DecidableEq, Repr

/-- `Connect`, with the result of `setsockopt` on the connected socket. -/
def Connect (strerror : ℤ → String) (resolution : Resolution Addr) (setsockopt : ℤ) :
    Connected :=
  match resolution with
  | .failed errno =>
    ⟨some ("BinaryInterfaceClient::Connect: Error resolving the given address and port as " ++
      "stream-socket. Errno: " ++ toString errno ++ ": " ++ strerror errno), -1, [], 0⟩
  | .resolved res errno =>
    let s := connectLoop attempt res 0 ⟨0, errno, -1, [], 0, 0⟩
    if s.handle = -1 then
      ⟨some ("BinaryInterfaceClient::Connect: Error during connection. Last errno was: " ++
        toString s.error ++ ": " ++ strerror s.error), s.handle, s.sockets, s.passes⟩
    else if setsockopt < 0 then
      ⟨some "BinaryInterfaceClient::Connect: Error during setsockopt: TCP_NODELAY",
        s.handle, s.sockets, s.passes⟩
    else ⟨none, s.handle, s.sockets, s.passes⟩

end

/-! ## Which sequences of outcomes connect -/

section

variable (attempt : ℕ → Attempt)

def Attempt.Connects : Attempt → Prop
  | .connected _ _ => True
  | _ => False

/-- The error of the last `connect` among the first attempts. -/
def lastError : ℕ → Option ℤ
  | 0 => none
  | m + 1 =>
    match attempt m with
    | .refused _ errno => some errno
    | _ => lastError m

/-- The attempt `k` is the first to connect. -/
def FirstConnects (k : ℕ) : Prop := (attempt k).Connects ∧ ∀ i < k, ¬ (attempt i).Connects

/-- After the pass with this index the last error is one to try again for. -/
def TriedAgain (len index : ℕ) : Prop :=
  ∃ e ∈ retryErrors, lastError attempt ((index + 1) * len) = some e

/-- Over `len` addresses, some attempt connects, in one of the first 101 passes and with
every pass before its own tried again. -/
def Reached (len : ℕ) : Prop :=
  ∃ k, FirstConnects attempt k ∧ k / len ≤ retryAttempts ∧
    ∀ index < k / len, TriedAgain attempt len index

end

namespace ConnectLemmas

variable {Addr : Type} {attempt : ℕ → Attempt}

/-- After `m` attempts, none of which connected. -/
structure NotYet (attempt : ℕ → Attempt) (m : ℕ) (s : Connecting) : Prop where
  attempts : s.attempts = m
  none : ∀ i < m, ¬ (attempt i).Connects
  handle : s.handle = -1
  sockets : s.sockets = []
  rc : s.rc = if (lastError attempt m).isSome then -1 else 0
  error : ∀ e, lastError attempt m = some e → s.error = e

/-- Connected: one socket, which is `Handle`. -/
def Up (s : Connecting) : Prop :=
  s.rc = 0 ∧ ∃ fd : ℕ, s.handle = fd ∧ s.sockets = [⟨fd, true⟩]

theorem tryAddress_notYet {m : ℕ} {s : Connecting} (h : NotYet attempt m s)
    (ha : ¬ (attempt m).Connects) :
    (tryAddress (attempt m) s).2 = false ∧ NotYet attempt (m + 1) (tryAddress (attempt m) s).1 := by
  have hnone : ∀ i < m + 1, ¬ (attempt i).Connects := by
    intro i hi
    rcases Nat.lt_succ_iff_lt_or_eq.mp hi with hlt | rfl
    · exact h.none i hlt
    · exact ha
  cases ho : attempt m with
  | noSocket =>
    have hlast : lastError attempt (m + 1) = lastError attempt m := by rw [lastError, ho]
    refine ⟨rfl, ⟨congrArg (· + 1) h.attempts, hnone, rfl, h.sockets, ?_, ?_⟩⟩
    · rw [hlast]
      exact h.rc
    · rw [hlast]
      exact h.error
  | refused fd errno =>
    have hlast : lastError attempt (m + 1) = some errno := by rw [lastError, ho]
    refine ⟨rfl, ⟨congrArg (· + 1) h.attempts, hnone, rfl, ?_, ?_, ?_⟩⟩
    · simp [tryAddress, Connecting.close, h.sockets]
    · rw [hlast]
      rfl
    · intro e he
      rw [hlast] at he
      exact Option.some.inj he
  | connected fd errno =>
    rw [ho] at ha
    exact absurd trivial ha

theorem tryAddress_up {m : ℕ} {s : Connecting} (h : NotYet attempt m s)
    (ha : (attempt m).Connects) :
    (tryAddress (attempt m) s).2 = true ∧ Up (tryAddress (attempt m) s).1 := by
  cases ho : attempt m with
  | noSocket | refused _ _ =>
    rw [ho] at ha
    exact ha.elim
  | connected fd errno => exact ⟨rfl, rfl, fd, rfl, by simp [tryAddress, h.sockets]⟩

theorem tryAddress_passes (a : Attempt) (s : Connecting) :
    (tryAddress a s).1.passes = s.passes := by
  cases a <;> rfl

theorem forAddresses_passes (res : List Addr) (s : Connecting) :
    (forAddresses attempt res s).passes = s.passes := by
  induction res generalizing s with
  | nil => rfl
  | cons a walk ih =>
    simp only [forAddresses]
    split
    · exact tryAddress_passes _ _
    · exact (ih _).trans (tryAddress_passes _ _)

/-- A pass over the addresses: the first attempt that connects ends it. -/
theorem forAddresses_spec (res : List Addr) {m : ℕ} {s : Connecting} (h : NotYet attempt m s) :
    NotYet attempt (m + res.length) (forAddresses attempt res s) ∨
      Up (forAddresses attempt res s) ∧
        ∃ k, m ≤ k ∧ k < m + res.length ∧ FirstConnects attempt k := by
  induction res generalizing m s with
  | nil => exact .inl h
  | cons a walk ih =>
    simp only [forAddresses, h.attempts]
    by_cases ha : (attempt m).Connects
    · obtain ⟨hdone, hup⟩ := tryAddress_up h ha
      simp only [hdone, if_true]
      exact .inr ⟨hup, m, le_rfl, by simp, ha, h.none⟩
    · obtain ⟨hdone, hnext⟩ := tryAddress_notYet h ha
      simp only [hdone, Bool.false_eq_true, if_false, List.length_cons]
      have hlen : m + (walk.length + 1) = m + 1 + walk.length := by omega
      rw [hlen]
      rcases ih hnext with hn | ⟨hup, k, hk, hk', hfirst⟩
      · exact .inl hn
      · exact .inr ⟨hup, k, by omega, hk', hfirst⟩

/-- What ends the loops without a connection: every attempt of the passes made failed, and
the last pass is not tried again or was the last one allowed. -/
theorem not_reached {len index : ℕ} (hlen : 0 < len) {s : Connecting}
    (h : NotYet attempt ((index + 1) * len) s)
    (hstop : ¬ (s.rc < 0 ∧ s.error ∈ retryErrors ∧ index < retryAttempts)) :
    ¬ Reached attempt len := by
  rintro ⟨k, ⟨hk, _⟩, hle, hagain⟩
  have hbehind : (index + 1) * len ≤ k := by
    by_contra hlt
    exact h.none k (not_le.mp hlt) hk
  have hpass : index + 1 ≤ k / len := (Nat.le_div_iff_mul_le hlen).mpr hbehind
  obtain ⟨e, he, hlast⟩ := hagain index (by omega)
  refine hstop ⟨?_, ?_, by omega⟩
  · rw [h.rc, hlast]
    exact neg_one_lt_zero
  · rw [h.error e hlast]
    exact he

/-- A pass with a connection reaches it. -/
theorem reached_of_pass {len index k : ℕ} (hindex : index ≤ retryAttempts)
    (hk : index * len ≤ k) (hk' : k < (index + 1) * len) (hfirst : FirstConnects attempt k)
    (hagain : ∀ i < index, TriedAgain attempt len i) : Reached attempt len := by
  have hdiv : k / len = index := Nat.div_eq_of_lt_le hk hk'
  exact ⟨k, hfirst, hdiv.le.trans hindex, fun i hi => hagain i (hdiv ▸ hi)⟩

end ConnectLemmas

open ConnectLemmas

/-- The loops from a pass on, whose predecessors were all tried again without success: at
most the passes up to the 101st are made. They end connected, exactly when the outcomes
reach a connection, or without a socket. -/
theorem connectLoop_spec {Addr : Type} (attempt : ℕ → Attempt) {res : List Addr} (hres : res ≠ [])
    {index : ℕ} (hindex : index ≤ retryAttempts) {s : Connecting}
    (h : NotYet attempt (index * res.length) s) (hpasses : s.passes = index)
    (hagain : ∀ i < index, TriedAgain attempt res.length i) :
    (connectLoop attempt res index s).passes ≤ retryAttempts + 1 ∧
      (Up (connectLoop attempt res index s) ∧ Reached attempt res.length ∨
        (connectLoop attempt res index s).handle = -1 ∧
          (connectLoop attempt res index s).sockets = [] ∧ ¬ Reached attempt res.length) := by
  have hlen : 0 < res.length := List.length_pos_iff.mpr hres
  -- the induction is on the passes that are left
  induction hleft : retryAttempts - index using Nat.strong_induction_on generalizing index s with
  | _ n ih =>
    have hpass := forAddresses_spec res (s := { s with passes := s.passes + 1 })
      ⟨h.attempts, h.none, h.handle, h.sockets, h.rc, h.error⟩
    have hcount : (forAddresses attempt res { s with passes := s.passes + 1 }).passes =
        index + 1 := by
      rw [forAddresses_passes, hpasses]
    rw [connectLoop]
    generalize forAddresses attempt res { s with passes := s.passes + 1 } = s' at hpass hcount
    rw [← Nat.succ_mul] at hpass
    rcases hpass with hnot | ⟨hup, k, hk, hk', hfirst⟩
    · split
      · next hcond =>
        obtain ⟨hrc, herror, hlt⟩ := hcond
        have hsome : (lastError attempt ((index + 1) * res.length)).isSome := by
          by_contra hnone
          rw [hnot.rc, if_neg hnone] at hrc
          exact absurd hrc (lt_irrefl 0)
        obtain ⟨e, he⟩ := Option.isSome_iff_exists.mp hsome
        refine ih (retryAttempts - (index + 1)) (by omega) hlt hnot hcount ?_ rfl
        intro i hi
        rcases Nat.lt_succ_iff_lt_or_eq.mp hi with hlt | rfl
        · exact hagain i hlt
        · exact ⟨e, hnot.error e he ▸ herror, he⟩
      · next hstop =>
        exact ⟨by omega, .inr ⟨hnot.handle, hnot.sockets, not_reached hlen hnot hstop⟩⟩
    · have hend : ¬ (s'.rc < 0 ∧ s'.error ∈ retryErrors ∧ index < retryAttempts) := by
        rintro ⟨hrc, _⟩
        rw [hup.1] at hrc
        exact lt_irrefl 0 hrc
      rw [if_neg hend]
      exact ⟨by omega, .inl ⟨hup, reached_of_pass hindex hk hk' hfirst hagain⟩⟩

/-- `Connect` made at most 101 passes; if it returned, exactly one socket is open, it is
connected and it is `Handle`; if it threw, no socket is open. -/
structure Connected.Settled (r : Connected) : Prop where
  passes : r.passes ≤ 101
  returned : r.thrown = none → ∃ fd : ℕ, r.handle = fd ∧ r.sockets = [⟨fd, true⟩]
  thrown : r.thrown ≠ none → r.sockets = []

/-- For every nonempty list of addresses and every sequence of outcomes of `socket`,
`connect` and `setsockopt`: `Connect` makes at most 101 passes, returns with the one
connected socket as `Handle` or throws without an open socket, exactly when `setsockopt`
succeeds or the outcomes reach no connection. -/
theorem connect_settled_iff {Addr : Type} (attempt : ℕ → Attempt) (strerror : ℤ → String)
    {res : List Addr} (hres : res ≠ []) (errno setsockopt : ℤ) :
    (Connect attempt strerror (.resolved res errno) setsockopt).Settled ↔
      0 ≤ setsockopt ∨ ¬ Reached attempt res.length := by
  have hstart : NotYet attempt (0 * res.length) ⟨0, errno, -1, [], 0, 0⟩ := by
    rw [Nat.zero_mul]
    exact ⟨rfl, nofun, rfl, rfl, rfl, nofun⟩
  have hloop := connectLoop_spec attempt hres (Nat.zero_le _) hstart rfl nofun
  simp only [Connect]
  generalize connectLoop attempt res 0 ⟨0, errno, -1, [], 0, 0⟩ = s at hloop
  obtain ⟨hpasses, ⟨⟨_, fd, hfd, hsockets⟩, hreached⟩ | ⟨hhandle, hsockets, hnot⟩⟩ := hloop
  · have hopen : s.handle ≠ -1 := by omega
    rw [if_neg hopen]
    by_cases hopt : setsockopt < 0
    · -- the connected socket stays open
      rw [if_pos hopt]
      constructor
      · intro h
        have hnone := h.thrown nofun
        rw [hsockets] at hnone
        cases hnone
      · rintro (h | h)
        · exact absurd hopt (not_lt.mpr h)
        · exact absurd hreached h
    · rw [if_neg hopt]
      constructor
      · intro _
        exact .inl (not_lt.mp hopt)
      · intro _
        exact ⟨hpasses, fun _ => ⟨fd, hfd, hsockets⟩, fun h => absurd rfl h⟩
  · rw [if_pos hhandle]
    constructor
    · intro _
      exact .inr hnot
    · intro _
      exact ⟨hpasses, nofun, fun _ => hsockets⟩

/-- ROKIT listens from the second attempt on. -/
def exLate : ℕ → Attempt := fun i => if i = 0 then .refused 3 111 else .connected 3 0

theorem connect_exLate :
    (Connect exLate toString (.resolved ["::1"] 0) 0).Settled :=
  (connect_settled_iff exLate toString (List.cons_ne_nil "::1" []) 0 0).mpr (.inl le_rfl)

/-- The only address connects, and `setsockopt` fails: `Connect` throws with the socket
open. -/
theorem setsockopt_leaks :
    let r := Connect (fun _ => .connected 3 0) toString (.resolved ["::1"] 0) (-1)
    r.thrown = some "BinaryInterfaceClient::Connect: Error during setsockopt: TCP_NODELAY" ∧
      r.sockets = [⟨3, true⟩] ∧ ¬ r.Settled := by
  have hloop : connectLoop (fun _ => .connected 3 0) ["::1"] 0 ⟨0, 0, -1, [], 0, 0⟩ =
      ⟨0, 0, 3, [⟨3, true⟩], 1, 1⟩ := by
    rw [connectLoop]
    rfl
  have hrun : Connect (fun _ => .connected 3 0) toString (.resolved ["::1"] 0) (-1) =
      ⟨some "BinaryInterfaceClient::Connect: Error during setsockopt: TCP_NODELAY", 3,
        [⟨3, true⟩], 1⟩ := by
    simp only [Connect, hloop]
    rfl
  rw [hrun]
  refine ⟨rfl, rfl, ?_⟩
  intro h
  exact absurd (h.thrown nofun) (List.cons_ne_nil _ _)

end BinaryInterfaceClient

end QrAddon
