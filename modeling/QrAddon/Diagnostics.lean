import QrAddon.Wire
import QrAddon.ReadLoops
import QrAddon.Renaming

/-!
# The diagnostic socket

A thread of its own accepts clients on port 9081 and stores each result of `accept` in
`diagSockFd`; it closes none. Main sends a word of four bytes over `diagSockFd` when it is
positive. There is no lock: a result may be stored between main's test and its `send`, and
a word may be sent between the return of `accept` and the store.

Results:
1. `received_block`: under every interleaving, a client receives exactly what is sent
   between the store of its descriptor and the next one, which are the words of main in
   order, none of them for another client.
2. `words_counted`: over a clean run, a word 1 is sent for every row of the user table and
   a word 4 for every deviation counted in it, and no other word.
3. `client_counts`: what a client that was there in time reads off its stream.
-/

namespace QrAddon

/-! ## The two threads -/

/-- A `uint32_t` in memory, least significant byte first. -/
def leBytes (w : UInt32) : List UInt8 :=
  [w.toUInt8, (w >>> 8).toUInt8, (w >>> 16).toUInt8, (w >>> 24).toUInt8]

/-- A connection that `accept` returned, and the bytes sent over it. -/
structure DiagClient where
  fd : ℤ
  received : List UInt8
deriving DecidableEq, Repr

/-- `diagSockFd`, the connections and the log. `tmpSockFd` is a result of `accept` that is
not stored yet, `sending` the word of a call of `sendDiagMessage` that has passed its test. -/
structure DiagSocket where
  diagSockFd : ℤ
  tmpSockFd : Option ℤ
  clients : List DiagClient
  sending : Option UInt32
  log : List String
deriving DecidableEq, Repr

def DiagSocket.start : DiagSocket := ⟨0, none, [], none, []⟩

/-- `accept` returns, its result is stored, main tests `diagSockFd` for a word, or main reads it
once more and sends. Over a connection that the client has left, the `send` returns -1: SIGPIPE
is ignored. -/
inductive DiagIn
  | accepted (tmpSockFd : ℤ)
  | stored
  | test (qrDiagnostics : UInt32)
  | sent (sendrc : ℤ)
deriving DecidableEq, Repr

/-- What goes over the descriptor of that number. -/
def DiagClient.receive (fd : ℤ) (b : List UInt8) (c : DiagClient) : DiagClient :=
  if c.fd = fd then { c with received := c.received ++ b } else c

/-- One step. The `send` takes the first `sendrc` bytes of the word. A step that its thread has
not come to does nothing. -/
def diagStep (s : DiagSocket) : DiagIn → DiagSocket
  | .accepted tmpSockFd =>
    match s.tmpSockFd with
    | none =>
      { s with
        tmpSockFd := some tmpSockFd
        clients := if 0 ≤ tmpSockFd then s.clients ++ [⟨tmpSockFd, []⟩] else s.clients }
    | some _ => s
  | .stored =>
    match s.tmpSockFd with
    | none => s
    | some tmpSockFd =>
      { s with
        diagSockFd := tmpSockFd
        tmpSockFd := none
        log := if tmpSockFd < 0 then s.log ++ ["diagnotics accept except"] else s.log }
  | .test qrDiagnostics =>
    match s.sending with
    | none => if 0 < s.diagSockFd then { s with sending := some qrDiagnostics } else s
    | some _ => s
  | .sent sendrc =>
    match s.sending with
    | none => s
    | some w =>
      { s with
        clients := s.clients.map
          (DiagClient.receive s.diagSockFd ((leBytes w).take sendrc.toNat))
        sending := none
        log := if sendrc = -1 then s.log ++ ["socket send message error!"] else s.log }

/-- The bytes of the client with that descriptor. -/
def DiagSocket.received (s : DiagSocket) (fd : ℤ) : Option (List UInt8) :=
  (s.clients.find? fun c => c.fd = fd).map DiagClient.received

/-- The descriptor of a client that `accept` returns with this step. -/
def opened? (v : DiagSocket × DiagIn) : Option ℤ :=
  match v.2, v.1.tmpSockFd with
  | .accepted fd, none => if 0 ≤ fd then some fd else none
  | _, _ => none

/-- The clients of a run. -/
def opened (s : DiagSocket) (l : List DiagIn) : List ℤ :=
  (Run.visits diagStep s l).filterMap opened?

/-- `accept` returns no descriptor that is open, and none is ever closed. -/
def Distinct (l : List DiagIn) : Prop := (opened .start l).Nodup

instance (l : List DiagIn) : Decidable (Distinct l) := inferInstanceAs (Decidable (List.Nodup _))

/-- A result of `accept` is stored. -/
def Stores (v : DiagSocket × DiagIn) : Prop := v.2 = .stored ∧ v.1.tmpSockFd ≠ none

instance (v : DiagSocket × DiagIn) : Decidable (Stores v) :=
  inferInstanceAs (Decidable (_ ∧ _))

/-- The word of a call that main begins with this step. -/
def begun? (v : DiagSocket × DiagIn) : Option UInt32 :=
  match v.2, v.1.sending with
  | .test w, none => some w
  | _, _ => none

/-- The word that a `send` takes over, with its result. -/
def sent? (v : DiagSocket × DiagIn) : Option (UInt32 × ℤ) :=
  match v.2, v.1.sending with
  | .sent sendrc, some w => some (w, sendrc)
  | _, _ => none

/-- The words that main calls `sendDiagMessage` with. -/
def begun (s : DiagSocket) (l : List DiagIn) : List UInt32 :=
  (Run.visits diagStep s l).filterMap begun?

/-- The words that are sent. -/
def sends (s : DiagSocket) (l : List DiagIn) : List (UInt32 × ℤ) :=
  (Run.visits diagStep s l).filterMap sent?

/-- The bytes that reach the peer. -/
def sentBytes (l : List (UInt32 × ℤ)) : List UInt8 :=
  l.flatMap fun w => (leBytes w.1).take w.2.toNat

namespace DiagnosticsLemmas

theorem readUInt32_leBytes (w : UInt32) : readUInt32 (leBytes w) = w := by
  apply UInt32.toNat_inj.mp
  have hlt := w.toNat_lt
  simp only [readUInt32, leBytes, leNat, UInt32.toNat_ofNat', UInt32.toNat_toUInt8,
    UInt32.toNat_shiftRight, Nat.shiftRight_eq_div_pow, UInt32.reduceToNat, Nat.reduceMod,
    Nat.reducePow]
  omega

variable {s : DiagSocket} {i : DiagIn} {fd : ℤ} {b : List UInt8}

/-! ### One step -/

theorem map_receive_fd (fd : ℤ) (b : List UInt8) (l : List DiagClient) :
    (l.map (DiagClient.receive fd b)).map DiagClient.fd = l.map DiagClient.fd := by
  rw [List.map_map]
  apply List.map_congr_left
  intro c _
  simp only [Function.comp_apply, DiagClient.receive]
  split <;> rfl

theorem step_fds (s : DiagSocket) (i : DiagIn) : (diagStep s i).clients.map DiagClient.fd =
    s.clients.map DiagClient.fd ++ (opened? (s, i)).toList := by
  cases i with
  | accepted fd =>
    cases htmp : s.tmpSockFd <;> by_cases hfd : 0 ≤ fd <;> simp [diagStep, opened?, htmp, hfd]
  | stored => cases htmp : s.tmpSockFd <;> simp [diagStep, opened?, htmp]
  | test w =>
    cases hs : s.sending <;> by_cases hfd : 0 < s.diagSockFd <;>
      simp [diagStep, opened?, hs, hfd]
  | sent rc =>
    cases hs : s.sending with
    | none => simp [diagStep, opened?, hs]
    | some w =>
      simp only [diagStep, opened?, hs, map_receive_fd, Option.toList_none, List.append_nil]

/-- Only a store changes `diagSockFd`. -/
theorem step_diagSockFd (h : ¬ Stores (s, i)) : (diagStep s i).diagSockFd = s.diagSockFd := by
  cases i with
  | accepted fd => cases htmp : s.tmpSockFd <;> simp [diagStep, htmp]
  | stored =>
    have htmp : s.tmpSockFd = none := by
      by_contra hne
      exact h ⟨rfl, hne⟩
    simp [diagStep, htmp]
  | test w => cases hs : s.sending <;> by_cases hfd : 0 < s.diagSockFd <;> simp [diagStep, hs, hfd]
  | sent rc => cases hs : s.sending <;> simp [diagStep, hs]

theorem step_stored {tmpSockFd : ℤ} (h : s.tmpSockFd = some tmpSockFd) :
    (diagStep s .stored).diagSockFd = tmpSockFd ∧ (diagStep s .stored).tmpSockFd = none ∧
      (diagStep s .stored).clients = s.clients ∧ (diagStep s .stored).sending = s.sending := by
  simp [diagStep, h]

/-- The result of `accept` that waits to be stored. -/
theorem step_tmpSockFd (hfd : 0 ≤ fd) (h : s.tmpSockFd ≠ some fd) (hi : opened? (s, i) ≠ some fd) :
    (diagStep s i).tmpSockFd ≠ some fd := by
  cases i with
  | accepted fd' =>
    cases htmp : s.tmpSockFd with
    | none =>
      have hne : fd' ≠ fd := by
        rintro rfl
        simp [opened?, htmp, hfd] at hi
      simpa [diagStep, htmp] using hne
    | some _ => simpa [diagStep, htmp] using h
  | stored => cases htmp : s.tmpSockFd <;> simp [diagStep, htmp]
  | test w =>
    cases hs : s.sending <;> by_cases hpos : 0 < s.diagSockFd <;>
      simpa [diagStep, hs, hpos] using h
  | sent rc => cases hs : s.sending <;> simpa [diagStep, hs] using h

/-- A client receives what is sent while its descriptor is `diagSockFd`. -/
theorem step_received (h : s.received fd = some b) : (diagStep s i).received fd =
    some (b ++ if s.diagSockFd = fd then sentBytes (sent? (s, i)).toList else []) := by
  cases i with
  | accepted fd' =>
    cases htmp : s.tmpSockFd with
    | none =>
      obtain ⟨c, hc, _⟩ := Option.map_eq_some_iff.mp h
      have hkept : (diagStep s (.accepted fd')).received fd = s.received fd := by
        simp only [DiagSocket.received, diagStep, htmp]
        split
        · rw [List.find?_append, hc, Option.some_or]
        · rfl
      simp [hkept, h, sent?, sentBytes]
    | some _ => simpa [diagStep, htmp, sent?, sentBytes] using h
  | stored =>
    cases htmp : s.tmpSockFd <;>
      simpa [diagStep, htmp, sent?, sentBytes, DiagSocket.received] using h
  | test w =>
    cases hs : s.sending <;> by_cases hpos : 0 < s.diagSockFd <;>
      simpa [diagStep, hs, hpos, sent?, sentBytes, DiagSocket.received] using h
  | sent rc =>
    cases hs : s.sending with
    | none => simpa [diagStep, hs, sent?, sentBytes] using h
    | some w =>
      obtain ⟨c, hc, hb⟩ := Option.map_eq_some_iff.mp h
      have hcfd : c.fd = fd := by simpa using List.find?_some hc
      have hpred : ((fun c : DiagClient => decide (c.fd = fd)) ∘
          DiagClient.receive s.diagSockFd ((leBytes w).take rc.toNat)) =
          fun c => decide (c.fd = fd) := by
        funext c
        simp only [Function.comp_apply, DiagClient.receive]
        split <;> rfl
      simp only [DiagSocket.received, diagStep, hs, List.find?_map, hpred, hc, Option.map_some,
        DiagClient.receive, sent?, Option.toList_some]
      by_cases hsock : s.diagSockFd = fd
      · simp [hsock, hcfd, hb, sentBytes]
      · simp [hsock, hcfd, hb, Ne.symm hsock]

theorem received_isSome_iff : s.received fd ≠ none ↔ fd ∈ s.clients.map DiagClient.fd := by
  simp [DiagSocket.received]

/-! ### Before a descriptor is stored -/

/-- `diagSockFd` is that of a client, unless there was none yet or the last `accept` failed. A
client whose descriptor waits to be stored has received nothing. -/
structure Sound (s : DiagSocket) : Prop where
  current : s.diagSockFd = 0 ∧ s.sending = none ∨ s.diagSockFd < 0 ∨
    s.diagSockFd ∈ s.clients.map DiagClient.fd
  waiting : ∀ fd ∈ s.tmpSockFd, 0 ≤ fd → s.received fd = some [] ∧
    (s.diagSockFd = fd → s.sending = none ∧ s.diagSockFd = 0)

/-- Before a client was stored main begins no `send`. -/
theorem step_idle (hidle : s.sending = none) (hzero : s.diagSockFd = 0) :
    (diagStep s i).sending = none := by
  cases i with
  | accepted fd => cases htmp : s.tmpSockFd <;> simpa [diagStep, htmp] using hidle
  | stored => cases htmp : s.tmpSockFd <;> simpa [diagStep, htmp] using hidle
  | test w => simp [diagStep, hidle, hzero]
  | sent rc => simp [diagStep, hidle]

/-- `accept` returns a descriptor that is not open. -/
theorem step_opened (h : opened? (s, i) = some fd) (hnone : s.received fd = none) :
    0 ≤ fd ∧ (diagStep s i).received fd = some [] ∧ (diagStep s i).tmpSockFd = some fd := by
  cases i with
  | accepted fd' =>
    cases htmp : s.tmpSockFd with
    | some _ => simp [opened?, htmp] at h
    | none =>
      by_cases hfd : 0 ≤ fd'
      · obtain rfl : fd' = fd := by simpa [opened?, htmp, hfd] using h
        have hfind : (s.clients.find? fun c => c.fd = fd') = none :=
          Option.map_eq_none_iff.mp hnone
        refine ⟨hfd, ?_, by simp [diagStep, htmp]⟩
        simp [DiagSocket.received, diagStep, htmp, hfd, hfind]
      · simp [opened?, htmp, hfd] at h
  | stored | test w | sent rc => simp [opened?] at h

theorem sound_stored (h : Sound s) (hstore : Stores (s, i)) : Sound (diagStep s i) := by
  obtain ⟨hi, htmp⟩ := hstore
  obtain rfl : i = .stored := hi
  obtain ⟨tmpSockFd, htmp⟩ := Option.ne_none_iff_exists'.mp htmp
  obtain ⟨hsock, hnone, hclients, _⟩ := step_stored htmp
  refine ⟨.inr ?_, by simp [hnone]⟩
  rw [hsock, hclients]
  by_cases hneg : tmpSockFd < 0
  · exact .inl hneg
  · have hrec := (h.waiting tmpSockFd htmp (not_lt.mp hneg)).1
    exact .inr (received_isSome_iff.mp (by simp [hrec]))

/-- A step, if `accept` returns no descriptor that is open. -/
theorem sound_step (h : Sound s) (hfresh : ∀ fd ∈ opened? (s, i), s.received fd = none) :
    Sound (diagStep s i) := by
  by_cases hstore : Stores (s, i)
  · exact sound_stored h hstore
  have hsock := step_diagSockFd hstore
  constructor
  · rw [hsock, step_fds]
    rcases h.current with ⟨hzero, hidle⟩ | hneg | hmem
    · exact .inl ⟨hzero, step_idle hidle hzero⟩
    · exact .inr (.inl hneg)
    · exact .inr (.inr (List.mem_append_left _ hmem))
  · intro fd hfd hpos
    rw [hsock]
    by_cases hopen : opened? (s, i) = some fd
    · have hnone := hfresh fd hopen
      refine ⟨(step_opened hopen hnone).2.1, fun hsame => ?_⟩
      rcases h.current with ⟨hzero, hidle⟩ | hneg | hmem
      · exact ⟨step_idle hidle hzero, hzero⟩
      · omega
      · rw [hsame] at hmem
        exact absurd hnone (received_isSome_iff.mpr hmem)
    · have htmp : s.tmpSockFd = some fd := by
        by_contra hne
        exact step_tmpSockFd hpos hne hopen hfd
      obtain ⟨hrec, hwait⟩ := h.waiting fd htmp hpos
      refine ⟨?_, fun hsame => ⟨step_idle (hwait hsame).1 (hwait hsame).2, (hwait hsame).2⟩⟩
      rw [step_received hrec]
      split
      · next hsame =>
        have hidle := (hwait hsame).1
        cases i <;> simp [sent?, sentBytes, hidle]
      · rfl

/-! ### Runs -/

theorem opened_append (s : DiagSocket) (l m : List DiagIn) :
    opened s (l ++ m) = opened s l ++ opened (Run.exec diagStep s l) m := by
  rw [opened, Run.visits_append, List.filterMap_append]
  rfl

theorem opened_cons (s : DiagSocket) (i : DiagIn) (l : List DiagIn) :
    opened s (i :: l) = (opened? (s, i)).toList ++ opened (diagStep s i) l := by
  rw [opened, Run.visits_cons, List.filterMap_cons]
  cases opened? (s, i) <;> rfl

/-- The clients are those that `accept` returned, in order. -/
theorem exec_fds (s : DiagSocket) (l : List DiagIn) :
    (Run.exec diagStep s l).clients.map DiagClient.fd =
      s.clients.map DiagClient.fd ++ opened s l := by
  induction l generalizing s with
  | nil => simp [opened]
  | cons i l ih => rw [Run.exec_cons, ih, step_fds, List.append_assoc, opened_cons]

/-- The run lemma. -/
theorem sound_exec {l : List DiagIn} (hl : Distinct l) : Sound (Run.exec diagStep .start l) := by
  induction l using List.reverseRecOn with
  | nil => exact ⟨.inl ⟨rfl, rfl⟩, nofun⟩
  | append_singleton l i ih =>
    unfold Distinct at hl
    rw [opened_append] at hl
    obtain ⟨hl, _, hdis⟩ := List.nodup_append.mp hl
    rw [Run.exec_snoc]
    refine sound_step (ih hl) fun fd hfd => ?_
    by_contra hne
    have hmem := received_isSome_iff.mp hne
    rw [exec_fds] at hmem
    have hnew : fd ∈ opened (Run.exec diagStep .start l) [i] := by
      simpa [opened] using hfd
    exact hdis fd (by simpa [DiagSocket.start] using hmem) fd hnew rfl

/-- While its descriptor is `diagSockFd`, a client receives what is sent. -/
theorem exec_block (hsock : s.diagSockFd = fd) (hrec : s.received fd = some b) {l : List DiagIn}
    (hl : ∀ v ∈ Run.visits diagStep s l, ¬ Stores v) :
    (Run.exec diagStep s l).diagSockFd = fd ∧
      (Run.exec diagStep s l).received fd = some (b ++ sentBytes (sends s l)) := by
  induction l generalizing s b with
  | nil => simp [hsock, hrec, sends, sentBytes]
  | cons i l ih =>
    have hstore : ¬ Stores (s, i) := hl _ List.mem_cons_self
    have hnext := step_received (i := i) hrec
    rw [if_pos hsock] at hnext
    obtain ⟨hsock', hrec'⟩ := ih ((step_diagSockFd hstore).trans hsock) hnext
      fun v hv => hl v (List.mem_cons_of_mem _ hv)
    rw [Run.exec_cons, hrec', hsock', List.append_assoc]
    refine ⟨rfl, ?_⟩
    cases hsent : sent? (s, i) <;> simp [sends, sentBytes, hsent]

/-- A client whose descriptor is not, and does not become, `diagSockFd` receives nothing. -/
theorem exec_elsewhere (hfd : 0 ≤ fd) (hsock : s.diagSockFd ≠ fd) (htmp : s.tmpSockFd ≠ some fd)
    (hrec : s.received fd = some b) {l : List DiagIn} (hl : fd ∉ opened s l) :
    (Run.exec diagStep s l).received fd = some b := by
  induction l generalizing s with
  | nil => exact hrec
  | cons i l ih =>
    rw [opened_cons, List.mem_append, not_or, Option.mem_toList] at hl
    rw [Run.exec_cons]
    refine ih ?_ (step_tmpSockFd hfd htmp hl.1) ?_ hl.2
    · by_cases hstore : Stores (s, i)
      · obtain ⟨hi, hne⟩ := hstore
        obtain rfl : i = .stored := hi
        obtain ⟨tmpSockFd, hwait⟩ := Option.ne_none_iff_exists'.mp hne
        rw [(step_stored hwait).1]
        rintro rfl
        exact htmp hwait
      · rwa [step_diagSockFd hstore]
    · rw [step_received hrec, if_neg hsock, List.append_nil]

/-- A descriptor that is open does not wait to be stored again. -/
theorem exec_tmpSockFd (hfd : 0 ≤ fd) (htmp : s.tmpSockFd ≠ some fd) {l : List DiagIn}
    (hl : fd ∉ opened s l) : (Run.exec diagStep s l).tmpSockFd ≠ some fd := by
  induction l using List.reverseRecOn with
  | nil => exact htmp
  | append_singleton l i ih =>
    rw [opened_append, List.mem_append, not_or] at hl
    rw [Run.exec_snoc]
    refine step_tmpSockFd hfd (ih hl.1) fun h => hl.2 ?_
    simp [opened, h]

/-- Without a store, main's calls become sends one by one, if there is a client at all. -/
theorem begun_sends {l : List DiagIn} (hl : ∀ v ∈ Run.visits diagStep s l, ¬ Stores v) :
    s.sending.toList ++ (if 0 < s.diagSockFd then begun s l else []) =
      (sends s l).map Prod.fst ++ (Run.exec diagStep s l).sending.toList := by
  induction l generalizing s with
  | nil => simp [begun, sends]
  | cons i l ih =>
    have hsock := step_diagSockFd (hl (s, i) List.mem_cons_self)
    have hrest := ih (s := diagStep s i) fun v hv => hl v (List.mem_cons_of_mem _ hv)
    rw [hsock] at hrest
    cases i with
    | accepted fd =>
      cases hs : s.sending <;> cases htmp : s.tmpSockFd <;>
        simp [begun, sends, begun?, sent?, diagStep, hs, htmp] at hrest ⊢ <;> exact hrest
    | stored =>
      cases hs : s.sending <;> cases htmp : s.tmpSockFd <;>
        simp [begun, sends, begun?, sent?, diagStep, hs, htmp] at hrest ⊢ <;> exact hrest
    | test w =>
      cases hs : s.sending <;> by_cases hfd : 0 < s.diagSockFd <;>
        simp [begun, sends, begun?, sent?, diagStep, hs, hfd] at hrest ⊢ <;> exact hrest
    | sent rc =>
      cases hs : s.sending <;> by_cases hfd : 0 < s.diagSockFd <;>
        simp [begun, sends, begun?, sent?, diagStep, hs, hfd] at hrest ⊢ <;> exact hrest

/-- The client whose descriptor is stored after `pre`: what it receives until the next store. -/
theorem block {pre mid : List DiagIn} (hfd : 0 ≤ fd)
    (hwait : (Run.exec diagStep .start pre).tmpSockFd = some fd)
    (hmid : ∀ v ∈ Run.visits diagStep (Run.exec diagStep .start (pre ++ [.stored])) mid,
      ¬ Stores v) (hdistinct : Distinct pre) :
    let s := Run.exec diagStep .start (pre ++ [.stored])
    (Run.exec diagStep .start (pre ++ .stored :: mid)).diagSockFd = fd ∧
      (Run.exec diagStep .start (pre ++ .stored :: mid)).received fd =
        some (sentBytes (sends s mid)) := by
  intro s
  obtain ⟨hsock, _, hclients, _⟩ := step_stored hwait
  have hempty : s.received fd = some [] := by
    have hrec := ((sound_exec hdistinct).waiting fd hwait hfd).1
    show (Run.exec diagStep .start (pre ++ [.stored])).received fd = _
    rw [Run.exec_snoc, DiagSocket.received, hclients]
    exact hrec
  have hs : s.diagSockFd = fd := by
    show (Run.exec diagStep .start (pre ++ [.stored])).diagSockFd = fd
    rw [Run.exec_snoc, hsock]
  have hsplit : Run.exec diagStep .start (pre ++ .stored :: mid) = Run.exec diagStep s mid := by
    rw [← Run.exec_append, List.append_assoc]
    rfl
  rw [hsplit]
  exact exec_block hs hempty hmid

end DiagnosticsLemmas

open DiagnosticsLemmas

/-- Under every interleaving of the two threads, take a client: its descriptor `fd` is stored
after `pre`, no other one in `mid`, whatever comes in `rest`, which begins with the next store.
It has received what was sent in `mid`, byte by byte. If `fd` is positive these are the words
that main called `sendDiagMessage` with in `mid`, each once and in order, behind a word that
main had tested before, and without one that main has yet to send. -/
theorem received_block {pre mid rest : List DiagIn} {fd : ℤ} (hfd : 0 ≤ fd)
    (hwait : (Run.exec diagStep .start pre).tmpSockFd = some fd)
    (hmid : ∀ v ∈ Run.visits diagStep (Run.exec diagStep .start (pre ++ [.stored])) mid,
      ¬ Stores v)
    (hrest : ∀ i ∈ rest.head?, Stores (Run.exec diagStep .start (pre ++ .stored :: mid), i))
    (hdistinct : Distinct (pre ++ .stored :: mid ++ rest)) :
    let s := Run.exec diagStep .start (pre ++ [.stored])
    (Run.exec diagStep .start (pre ++ .stored :: mid ++ rest)).received fd =
        some (sentBytes (sends s mid)) ∧
      s.sending.toList ++ (if 0 < fd then begun s mid else []) =
        (sends s mid).map Prod.fst ++ (Run.exec diagStep s mid).sending.toList := by
  intro s
  unfold Distinct at hdistinct
  rw [opened_append, opened_append] at hdistinct
  obtain ⟨hpremid, _, hlate⟩ := List.nodup_append.mp hdistinct
  obtain ⟨hpre, _, hmiddle⟩ := List.nodup_append.mp hpremid
  obtain ⟨hsock, hrec⟩ := block hfd hwait hmid hpre
  -- `accept` does not return `fd` once more
  have hopened : fd ∈ opened .start pre := by
    have hempty := ((sound_exec hpre).waiting fd hwait hfd).1
    have hmem := received_isSome_iff.mp (by simp [hempty] :
      (Run.exec diagStep .start pre).received fd ≠ none)
    rw [exec_fds] at hmem
    simpa [DiagSocket.start] using hmem
  have hagain : fd ∉ opened (Run.exec diagStep .start pre) (.stored :: mid) :=
    fun h => hmiddle fd hopened fd h rfl
  have hafter : fd ∉ opened (Run.exec diagStep .start (pre ++ .stored :: mid)) rest :=
    fun h => hlate fd (List.mem_append_left _ hopened) fd h rfl
  refine ⟨?_, ?_⟩
  · rw [Run.exec_append]
    cases rest with
    | nil => exact hrec
    | cons i rest =>
      obtain ⟨hi, hne⟩ := hrest i rfl
      obtain rfl : i = .stored := hi
      obtain ⟨tmpSockFd, hnext⟩ := Option.ne_none_iff_exists'.mp hne
      obtain ⟨hsock', htmp', hclients', _⟩ := step_stored hnext
      have htmp : (Run.exec diagStep .start (pre ++ .stored :: mid)).tmpSockFd ≠ some fd := by
        have hsplit : Run.exec diagStep .start (pre ++ .stored :: mid) =
            Run.exec diagStep (diagStep (Run.exec diagStep .start pre) .stored) mid :=
          Run.exec_append _ _ _
        rw [hsplit]
        refine exec_tmpSockFd hfd (by simp [(step_stored hwait).2.1]) fun h => hagain ?_
        rw [opened_cons]
        exact List.mem_append_right _ h
      have hother : tmpSockFd ≠ fd := by
        rintro rfl
        exact htmp hnext
      rw [Run.exec_cons]
      refine exec_elsewhere hfd (by rwa [hsock']) (by simp [htmp']) ?_ fun h => hafter ?_
      · rw [DiagSocket.received, hclients']
        exact hrec
      · rw [opened_cons]
        exact List.mem_append_right _ h
  · have hsends := begun_sends (s := s) hmid
    have hs : s.diagSockFd = fd := by
      show (Run.exec diagStep .start (pre ++ [.stored])).diagSockFd = fd
      rw [Run.exec_snoc, (step_stored hwait).1]
    rwa [hs] at hsends

/-- Client 6 is accepted while main sends the word 1, and stored between main's test and its
`send`: the word 4 goes to it. -/
theorem received_block_between :
    let s := Run.exec diagStep .start [.accepted 5, .stored]
    (Run.exec diagStep .start [.accepted 5, .stored, .test 1, .accepted 6, .sent 4, .test 4,
        .stored, .sent 4]).received 5 =
        some (sentBytes (sends s [.test 1, .accepted 6, .sent 4, .test 4])) ∧
      [1, 4] = (sends s [.test 1, .accepted 6, .sent 4, .test 4]).map Prod.fst ++ [4] :=
  @received_block [.accepted 5] [.test 1, .accepted 6, .sent 4, .test 4] [.stored, .sent 4] 5
    (by decide) (by decide) (by decide) (by decide) (by decide)

/-! ## The words of the main loop -/

/-- The deviations that the user table counts, over all codes. -/
def sloppySum (t : UserTable) : ℕ := (t.rows.map (·.sloppyCnt)).sum

section

variable [Doubles]

namespace DiagnosticsLemmas

open LifecycleLemmas RenamingLemmas

variable {cfg : Config ℚ} {account : Account} {s : Main} {i : Sighting}

/-- What an iteration adds to the rows and to the deviations, in words. -/
structure Tally (words : List UInt32) (t t' : UserTable) : Prop where
  rows : t'.rows.length = t.rows.length + words.count 1
  sloppy : sloppySum t' = sloppySum t + words.count 4
  words : words = [] ∨ words = [1] ∨ words = [4]

theorem tally_new (h : s.whetherCb = false) (hi : i.Clean)
    (hrow : s.user.find? i.deviInfo.dmId = none) :
    Tally ((iterate cfg account s i).events.filterMap Event.diag?) s.user
      (iterate cfg account s i).user := by
  have hb := clean_step cfg account h hi
  have hid : (iterate cfg account s i).dm.id = i.deviInfo.dmId :=
    hb.dm_id.trans (hi.fixed.turn_id s)
  have hzero : (iterate cfg account s i).dm.sloppyCnt = 0 := by
    cases hb with
    | unknown _ hdm huser hlog hev =>
      rw [hdm]
      rfl
    | disabled r hr | recommended r hr | near r hr | far r hr =>
      rw [clean_lookedUp hi, hrow] at hr
      cases hr
  obtain ⟨_, _, huser⟩ | ⟨r, hr, _⟩ := hb.user_cases
  · have hrows : (iterate cfg account s i).user.rows =
        s.user.rows ++ [UserDb.row (iterate cfg account s i).dm] := by
      rw [huser, hi.user]
      refine KeyedTable.rows_insert ?_
      show s.user.find? (iterate cfg account s i).dm.id = none
      rw [hid]
      exact hrow
    have hwords : (iterate cfg account s i).events.filterMap Event.diag? = [1] := by
      rw [(clean_none cfg account h hi hrow).2]
      rfl
    rw [hwords]
    refine ⟨?_, ?_, .inr (.inl rfl)⟩
    · rw [hrows]
      simp
    · simp [sloppySum, hrows, UserDb.row, hzero]
  · rw [clean_lookedUp hi, hrow] at hr
    cases hr

theorem tally_known (h : s.whetherCb = false) (hi : i.Clean) {r : UserRow}
    (hrow : s.user.find? i.deviInfo.dmId = some r) (hlt : r.sloppyCnt < 2 ^ 31) :
    Tally ((iterate cfg account s i).events.filterMap Event.diag?) s.user
      (iterate cfg account s i).user := by
  have hb := clean_step cfg account h hi
  have hlook := (clean_lookedUp (s := s) hi).trans hrow
  have hid : (iterate cfg account s i).dm.id = i.deviInfo.dmId :=
    hb.dm_id.trans (hi.fixed.turn_id s)
  have hwords : (iterate cfg account s i).events.filterMap Event.diag? =
      if Far cfg r (s.turn i).ori then [4] else [] := by
    rw [(clean_some cfg account h hi hrow).2, List.filterMap_cons_none rfl, shown_diag]
  obtain ⟨hno, _⟩ | ⟨_, _, _, huser⟩ := hb.user_cases
  · rw [hlook] at hno
    cases hno
  have hkey (w : UserRow) :
      (UserDb.setColumns (iterate cfg account s i).dm w).dmId = w.dmId := rfl
  have hmodify : (iterate cfg account s i).user =
      s.user.modify i.deviInfo.dmId (UserDb.setColumns (iterate cfg account s i).dm) hkey := by
    rw [huser, hi.user, ← hid]
    rfl
  -- the new count of the row
  have hsloppy : (UserDb.setColumns (iterate cfg account s i).dm r).sloppyCnt =
      r.sloppyCnt + if Far cfg r (s.turn i).ori then 1 else 0 := by
    have hcnt : (iterate cfg account s i).dm.sloppyCnt =
        readCounter r.sloppyCnt + if Far cfg r (s.turn i).ori then 1 else 0 :=
      (hb.found hlook).2.2
    show (iterate cfg account s i).dm.sloppyCnt.toNat = _
    rw [hcnt]
    by_cases hfar : Far cfg r (s.turn i).ori
    · rw [if_pos hfar, if_pos hfar, readCounter_succ hlt]
    · rw [if_neg hfar, if_neg hfar, add_zero, readCounter_toNat hlt, add_zero]
  rw [hwords]
  refine ⟨?_, ?_, ?_⟩
  · rw [hmodify, KeyedTable.length_modify]
    split <;> simp
  · rw [sloppySum, hmodify, KeyedTable.sum_modify hrow hsloppy, sloppySum]
    split <;> simp
  · split <;> simp

omit [Doubles] in
theorem length_setEnable (t : UserTable) (id : UInt32) (b : Bool) :
    (UserDb.setEnable t id b).rows.length = t.rows.length := by
  unfold UserDb.setEnable
  exact KeyedTable.length_modify _ _ _

omit [Doubles] in
/-- The operator changes no count. -/
theorem sloppySum_toggle (t : UserTable) (id : UInt32) (b : Bool) :
    sloppySum (UserDb.setEnable t id b) = sloppySum t := by
  unfold sloppySum UserDb.setEnable KeyedTable.modify
  rw [List.map_map]
  congr 1
  apply List.map_congr_left
  intro r _
  simp only [Function.comp_apply]
  split <;> rfl

end DiagnosticsLemmas

open DiagnosticsLemmas LifecycleLemmas RenamingLemmas

variable (cfg : Config ℚ) (account : Account)

/-- Over a clean run of fewer than `2 ^ 31` sightings from empty databases: as many words 1
are sent as the user table has rows, as many words 4 as it counts deviations over all
codes, and no other word. -/
theorem words_counted {l : List Act} (hclean : ∀ a ∈ l, a.Clean) (hlt : total l < 2 ^ 31) :
    (diagWords cfg account l).count 1 = (runMain cfg account l).user.rows.length ∧
      (diagWords cfg account l).count 4 = sloppySum (runMain cfg account l).user ∧
      (∀ w ∈ diagWords cfg account l, w = 1 ∨ w = 4) ∧
      (diagWords cfg account l).length ≤ total l := by
  induction l using List.reverseRecOn with
  | nil => exact ⟨rfl, rfl, nofun, le_rfl⟩
  | append_singleton l a ih =>
    have hle : total l ≤ total (l ++ [a]) := by simp [total, List.countP_append]
    obtain ⟨hrows, hsloppy, hwords, hlen⟩ :=
      ih (fun b hb => hclean b (List.mem_append_left _ hb)) (by omega)
    rw [diagWords_snoc, runMain_snoc]
    cases a with
    | toggle id b =>
      rw [total_toggle]
      have hnone : (eventsOf cfg account (runMain cfg account l, .toggle id b)).filterMap
          Event.diag? = [] := rfl
      rw [hnone, List.append_nil]
      exact ⟨hrows.trans (length_setEnable _ id b).symm,
        hsloppy.trans (sloppySum_toggle _ id b).symm, hwords, hlen⟩
    | sighting i =>
      rw [total_sighting] at hlt ⊢
      have hi : i.Clean := hclean (.sighting i) (by simp)
      have hflag := runMain_whetherCb cfg account l
      have htally : Tally ((iterate cfg account (runMain cfg account l) i).events.filterMap
          Event.diag?) (runMain cfg account l).user
          (iterate cfg account (runMain cfg account l) i).user := by
        cases hrow : (runMain cfg account l).user.find? i.deviInfo.dmId with
        | none => exact tally_new hflag hi hrow
        | some r =>
          -- a row counts no more deviations than all of them, and these were sent
          have hweight : r.sloppyCnt ≤ sloppySum (runMain cfg account l).user :=
            KeyedTable.weight_le (w := fun r : UserRow => r.sloppyCnt) hrow
          have hcount := List.count_le_length (a := (4 : UInt32)) (l := diagWords cfg account l)
          exact tally_known hflag hi hrow (by omega)
      have hevents : eventsOf cfg account (runMain cfg account l, .sighting i) =
          (iterate cfg account (runMain cfg account l) i).events := rfl
      rw [hevents, List.count_append, List.count_append, List.length_append]
      refine ⟨?_, ?_, ?_, ?_⟩
      · rw [hrows]
        exact htally.rows.symm
      · rw [hsloppy]
        exact htally.sloppy.symm
      · intro w hw
        rcases List.mem_append.mp hw with hw | hw
        · exact hwords w hw
        · rcases htally.words with h | h | h <;> rw [h] at hw <;> simp_all
      · rcases htally.words with h | h | h <;> rw [h] <;> simp <;> omega

omit [Doubles] in
/-- What a client reads when no word was cut. -/
theorem words_sentBytes {l : List (UInt32 × ℤ)} (hwhole : ∀ w ∈ l, w.2 = 4) :
    (words (sentBytes l)).map readUInt32 = l.map Prod.fst ∧
      (sentBytes l).length = 4 * l.length := by
  induction l with
  | nil => exact ⟨rfl, rfl⟩
  | cons w l ih =>
    obtain ⟨hread, hlen⟩ := ih fun v hv => hwhole v (List.mem_cons_of_mem _ hv)
    have hfour : sentBytes (w :: l) = leBytes w.1 ++ sentBytes l := by
      simp [sentBytes, hwhole w List.mem_cons_self, leBytes]
    have hword : (leBytes w.1).length = 4 := rfl
    rw [hfour]
    constructor
    · rw [ReadLoopLemmas.words_cons (by simp [hword]), List.take_left' hword, List.drop_left' hword,
        List.map_cons, List.map_cons, readUInt32_leBytes, hread]
    · rw [List.length_append, hlen, hword, List.length_cons]
      ring

/-- Main has run `l₀` and is not inside a `send` when the descriptor of a client is stored, and
no other is stored while it runs `l`. Once the words of `l` are sent, all of them whole, what the
client reads off its bytes is what `l` did to the user table: a word 1 for each new row and a
word 4 for each deviation that came to its counts, and no byte more. -/
theorem client_counts {pre mid : List DiagIn} {fd : ℤ} {l₀ l : List Act} (hfd : 0 < fd)
    (hwait : (Run.exec diagStep .start pre).tmpSockFd = some fd)
    (hmid : ∀ v ∈ Run.visits diagStep (Run.exec diagStep .start (pre ++ [.stored])) mid,
      ¬ Stores v)
    (hdistinct : Distinct pre) (hidle : (Run.exec diagStep .start pre).sending = none)
    (hmain : diagWords cfg account l₀ ++
        begun (Run.exec diagStep .start (pre ++ [.stored])) mid =
      diagWords cfg account (l₀ ++ l))
    (hwhole : ∀ w ∈ sends (Run.exec diagStep .start (pre ++ [.stored])) mid, w.2 = 4)
    (hdone : (Run.exec diagStep .start (pre ++ .stored :: mid)).sending = none)
    (hclean : ∀ a ∈ l₀ ++ l, a.Clean) (hlt : total (l₀ ++ l) < 2 ^ 31) :
    ∃ b, (Run.exec diagStep .start (pre ++ .stored :: mid)).received fd = some b ∧
      (runMain cfg account (l₀ ++ l)).user.rows.length =
        (runMain cfg account l₀).user.rows.length + ((words b).map readUInt32).count 1 ∧
      sloppySum (runMain cfg account (l₀ ++ l)).user =
        sloppySum (runMain cfg account l₀).user + ((words b).map readUInt32).count 4 ∧
      (∀ w ∈ (words b).map readUInt32, w = 1 ∨ w = 4) ∧ b.length = 4 * (words b).length := by
  obtain ⟨_, hrec⟩ := block hfd.le hwait hmid hdistinct
  have hsplit : Run.exec diagStep .start (pre ++ .stored :: mid) =
      Run.exec diagStep (Run.exec diagStep .start (pre ++ [.stored])) mid := by
    rw [← Run.exec_append, List.append_assoc]
    rfl
  obtain ⟨hsock, _, _, hsame⟩ := step_stored hwait
  have hsends := begun_sends (s := Run.exec diagStep .start (pre ++ [.stored])) hmid
  have hsending : (Run.exec diagStep .start (pre ++ [.stored])).sending = none := by
    rw [Run.exec_snoc, hsame, hidle]
  have hpos : 0 < (Run.exec diagStep .start (pre ++ [.stored])).diagSockFd := by
    rwa [Run.exec_snoc, hsock]
  rw [← hsplit, hdone, hsending, if_pos hpos] at hsends
  simp only [Option.toList_none, List.nil_append, List.append_nil] at hsends
  obtain ⟨hread, hlen⟩ := words_sentBytes hwhole
  rw [← hsends] at hread
  have hle : total l₀ ≤ total (l₀ ++ l) := by simp [total, List.countP_append]
  obtain ⟨hrows₀, hsloppy₀, _, _⟩ := words_counted cfg account
    (fun a ha => hclean a (List.mem_append_left _ ha)) (hle.trans_lt hlt)
  obtain ⟨hrows, hsloppy, hwords, _⟩ := words_counted cfg account hclean hlt
  rw [← hmain] at hwords
  rw [← hmain, List.count_append] at hrows hsloppy
  refine ⟨_, hrec, ?_, ?_, ?_, ?_⟩
  · rw [hread, ← hrows₀, hrows]
  · rw [hread, ← hsloppy₀, hsloppy]
  · rw [hread]
    exact fun w hw => hwords w (List.mem_append_right _ hw)
  · have hnum := congrArg List.length hread
    rw [List.length_map] at hnum
    rw [hlen, hnum, hsends, List.length_map]

end

open scoped Exact

/-- Code 7 is recorded, before there is a client. -/
def exKnown : List Act := [.sighting (exSighting .recording 7 0)]

/-- It is enabled and seen three metres off; then code 8 is recorded. -/
def exMoved : List Act :=
  [.toggle 7 true, .sighting (exSighting .recording 7 ⟨3, 0, 0⟩),
    .sighting (exSighting .recording 8 0)]

/-- The words of both, before and after the descriptor 5 is stored. The first finds no client. -/
def exWords : List DiagIn × List DiagIn :=
  ([.accepted 5, .test 1], [.test 4, .sent 4, .test 1, .sent 4])

theorem exMoved_clean : ∀ a ∈ exKnown ++ exMoved, a.Clean := by
  intro a ha
  simp only [exKnown, exMoved, List.cons_append, List.nil_append, List.mem_cons,
    List.not_mem_nil, or_false] at ha
  rcases ha with rfl | rfl | rfl | rfl
  · exact exSighting_clean (by decide) (by decide) _
  · exact trivial
  · exact exSighting_clean (by decide) (by decide) _
  · exact exSighting_clean (by decide) (by decide) _

theorem client_counts_exMoved :
    ∃ b, (Run.exec diagStep .start (exWords.1 ++ .stored :: exWords.2)).received 5 = some b ∧
      (runMain exConfig exAccount (exKnown ++ exMoved)).user.rows.length =
        (runMain exConfig exAccount exKnown).user.rows.length +
          ((words b).map readUInt32).count 1 ∧
      sloppySum (runMain exConfig exAccount (exKnown ++ exMoved)).user =
        sloppySum (runMain exConfig exAccount exKnown).user +
          ((words b).map readUInt32).count 4 ∧
      (∀ w ∈ (words b).map readUInt32, w = 1 ∨ w = 4) ∧ b.length = 4 * (words b).length :=
  client_counts exConfig exAccount (by decide) (by decide) (by decide) (by decide) (by decide)
    (by decide +kernel) (by decide) (by decide) exMoved_clean (by decide +kernel)

end QrAddon
