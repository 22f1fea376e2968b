import QrAddon.Wire
import QrAddon.Trigger
import QrAddon.Lib.ByteStream

/-!
# How `dmTrigger` reads a pose

Both modes open a connection and read from it in a loop. RECORDING reads six fields
one after the other, ignores the results of the first three, starts again when a
pose field meets the end of the stream, and takes everything else for success, also
an error. LOCALIZATION reads one packed message, tries again at the end of the
stream and leaves the loop on an error, with the pose of the last sighting.

Results:
1. `read_spec`: what `BinaryInterfaceClient::read` consumes, however it is cut.
2. `recordingLoop_spec`, `localizationLoop_spec`: what the loops consume.
3. `poseRead_iff`: the stored pose is that of one message received completely, and no
   read failed before, exactly when no read of the earlier rounds returned an error
   and every read of the last round completed.
4. `failed_read_stored`: an error on every pose field, and a pose is stored.
-/

namespace QrAddon

open ByteStream (Piece Ev Outcome events)

/-- A connection: the results of the calls of `::read` to come. -/
abbrev Conn := List (Piece UInt8)

/-- The loop of the client. The result is negative, 0 or the size of the target. -/
def BinaryInterfaceClient.read (size : ℕ) (c : Conn) : Option (Outcome UInt8 × Conn) :=
  ByteStream.readFull size [] c

def returnValue : Outcome UInt8 → ℤ
  | .full b => b.length
  | .closed _ => 0
  | .failed _ => -1

def checkReturnValue (returnValue : ℤ) : Bool := if returnValue = 0 then false else true

/-- The bytes of a field after a read: a failed one has overwritten the front. -/
def store (old : List UInt8) : Outcome UInt8 → List UInt8
  | .full b => b
  | .closed left => left ++ old.drop left.length
  | .failed left => left ++ old.drop left.length

/-- The pose fields of the `RecordingVisualizationMessage`; the others are read and not
used. -/
structure RecordingMessage where
  poseX : List UInt8 := List.replicate 8 0
  poseY : List UInt8 := List.replicate 8 0
  poseYaw : List UInt8 := List.replicate 8 0

/-- How a loop ends: its result, the reads of the rounds before the last one and of the
last one, and the rest of the connection. -/
structure PoseReads (α : Type) where
  result : α
  earlier : List (Outcome UInt8)
  last : List (Outcome UInt8)
  rest : Conn

/-- The same after one more round at the front. -/
def PoseReads.after {α : Type} (os : List (Outcome UInt8)) (r : PoseReads α) : PoseReads α :=
  { r with earlier := os ++ r.earlier }

/-! ## The loops -/

/-- One round of the RECORDING loop: whether it reaches the `break`, the message, the
reads it made and the rest of the connection. -/
structure RecordingRound where
  finished : Bool
  msg : RecordingMessage
  reads : List (Outcome UInt8)
  rest : Conn

def recordingRound (msg : RecordingMessage) (c : Conn) : Option RecordingRound := do
  let (timestamp, c) ← BinaryInterfaceClient.read 8 c
  let (visualizationId, c) ← BinaryInterfaceClient.read 8 c
  let (status, c) ← BinaryInterfaceClient.read 4 c
  let (poseX, c) ← BinaryInterfaceClient.read 8 c
  let msg := { msg with poseX := store msg.poseX poseX }
  if checkReturnValue (returnValue poseX) = false then
    return ⟨false, msg, [timestamp, visualizationId, status, poseX], c⟩
  let (poseY, c) ← BinaryInterfaceClient.read 8 c
  let msg := { msg with poseY := store msg.poseY poseY }
  if checkReturnValue (returnValue poseY) = false then
    return ⟨false, msg, [timestamp, visualizationId, status, poseX, poseY], c⟩
  let (poseYaw, c) ← BinaryInterfaceClient.read 8 c
  let msg := { msg with poseYaw := store msg.poseYaw poseYaw }
  if checkReturnValue (returnValue poseYaw) = false then
    return ⟨false, msg, [timestamp, visualizationId, status, poseX, poseY, poseYaw], c⟩
  return ⟨true, msg, [timestamp, visualizationId, status, poseX, poseY, poseYaw], c⟩

/-- The RECORDING loop. A round starts again only with `rv = 0`, so the condition
`rv >= 0` never ends it. -/
def recordingLoop : ℕ → RecordingMessage → Conn → Option (PoseReads RecordingMessage)
  | 0, _, _ => none
  | n + 1, msg, c => do
    let r ← recordingRound msg c
    if r.finished then return ⟨r.msg, [], r.reads, r.rest⟩
    else return (← recordingLoop n r.msg r.rest).after r.reads

section

variable {R : Type} (ofBits : UInt64 → R)

/-- The LOCALIZATION loop. -/
def localizationLoop : ℕ → Conn → Option (PoseReads (LocRead R))
  | 0, _ => none
  | n + 1, c => do
    let (poseMessage, c) ← BinaryInterfaceClient.read 172 c
    match poseMessage with
    | .full b => return ⟨.message (poseMessageState b) (poseMessagePose ofBits b), [],
        [poseMessage], c⟩
    | .closed _ => return (← localizationLoop n c).after [poseMessage]
    | .failed _ => return ⟨.failed, [], [poseMessage], c⟩

/-- The pose in a message. -/
def RecordingMessage.pose (msg : RecordingMessage) : DmPose R where
  x := readDouble ofBits msg.poseX
  y := readDouble ofBits msg.poseY
  yaw := readDouble ofBits msg.poseYaw

/-- What the RECORDING loop hands over: the pose of its message, marked as broken when a
read of the last round did not complete. The code does not see that mark. -/
def recRead (r : PoseReads RecordingMessage) : RecRead R :=
  if r.last.all fun o => match o with | .full _ => true | _ => false then
    .complete (r.result.pose ofBits)
  else .broken (r.result.pose ofBits)

/-- `dmTrigger` on the connection that its mode opens, without one in INIT; `none` while
a read is blocked. The fuel is never used up: a round that starts again has used up a
piece. -/
def dmTriggerOn [Add R] (mode1 mode2 : Mode) (c : Conn) (d : CustomerPackage R)
    (s : Triggered R) : Option (PoseReads (Triggered R)) :=
  if mode1 = .recording then
    (recordingLoop (c.length + 1) {} c).map fun r =>
      ⟨dmTrigger ⟨mode1, mode2, recRead ofBits r, .failed⟩ d s, r.earlier, r.last, r.rest⟩
  else if mode2 = .localization then
    (localizationLoop ofBits (c.length + 1) c).map fun r =>
      ⟨dmTrigger ⟨mode1, mode2, .broken s.dm.pose, r.result⟩ d s, r.earlier, r.last, r.rest⟩
  else some ⟨s, [], [], c⟩

/-! ## Where a stored pose comes from -/

/-- The pose in the fields of a recording message of 44 bytes. -/
def recordingPose (b : List UInt8) : DmPose R where
  x := readDouble ofBits (field b 20 8)
  y := readDouble ofBits (field b 28 8)
  yaw := readDouble ofBits (field b 36 8)

end

variable {R : Type}

/-- The stored pose is the pose of one message plus the deviation: the last `size` bytes
of the connection that were read, without an end or an error between them; and no read
before them returned an error. -/
def FromOneMessage [Add R] (size : ℕ) (pose : List UInt8 → DmPose R) (c : Conn)
    (d : CustomerPackage R) (r : PoseReads (Triggered R)) : Prop :=
  ∃ earlier b, events c = earlier ++ b.map .byte ++ events r.rest ∧ b.length = size ∧
    r.result.dm.pose = (pose b).shift d ∧ .error ∉ earlier

/-- No read of an earlier round returned an error, and every read of the last round
completed. The outcomes are what the connection gives to the loop; they are listed here
in the order in which it asks for them. -/
def PoseReads.Clean {α : Type} (r : PoseReads α) : Prop :=
  (∀ left, .failed left ∉ r.earlier) ∧ ∀ o ∈ r.last, ∃ b, o = .full b

/-! ## Specifications -/

/-- A read of a record consumes exactly the events of its outcome. -/
theorem read_spec {size : ℕ} (hsize : 0 < size) {c c' : Conn} {o : Outcome UInt8}
    (h : BinaryInterfaceClient.read size c = some (o, c')) :
    events c = o.events ++ events c' ∧ o.Fits size := by
  have hdone : ([] : List UInt8).length < size := hsize
  have hev := ByteStream.readFull_events hdone c
  rw [show ByteStream.readFull size [] c = some (o, c') from h] at hev
  simp only [Option.map_some, List.length_nil, Nat.sub_zero, ByteStream.prepend_nil,
    Prod.mk.eta, Option.map_id'] at hev
  exact ByteStream.pull_eq_some.mp hev.symm

/-- What a loop consumes: the reads of its rounds, the last of which are reads of records
of these sizes. -/
structure PoseReads.Spec {α : Type} (sizes : List ℕ) (c : Conn) (r : PoseReads α) : Prop where
  consumed : events c = (r.earlier ++ r.last).flatMap Outcome.events ++ events r.rest
  fits : List.Forall₂ (fun o n => o.Fits n) r.last sizes

/-- The same for one round of the RECORDING loop. A round that reaches the `break` has
read six fields, a round that starts again has used up a piece. -/
structure RecordingRound.Spec (c : Conn) (r : RecordingRound) : Prop where
  consumed : events c = r.reads.flatMap Outcome.events ++ events r.rest
  fits : r.finished = true → List.Forall₂ (fun o n => o.Fits n) r.reads [8, 8, 4, 8, 8, 8]
  msg : r.finished = true → ∀ b₁ b₂ b₃ b₄ b₅ b₆,
    r.reads = [.full b₁, .full b₂, .full b₃, .full b₄, .full b₅, .full b₆] → r.msg = ⟨b₄, b₅, b₆⟩
  shorter : r.finished = false → r.rest.length < c.length

namespace PoseReadLemmas

/-- A read that `checkReturnValue` rejects has met the end of the stream. -/
theorem read_rejected {size : ℕ} (hsize : 0 < size) {c c' : Conn} {o : Outcome UInt8}
    (h : BinaryInterfaceClient.read size c = some (o, c'))
    (hz : checkReturnValue (returnValue o) = false) : c'.length < c.length := by
  refine (ByteStream.readFull_length h).2 ?_
  rintro b rfl
  have hb : b.length = size := (read_spec hsize h).2
  simp [checkReturnValue, returnValue] at hz
  simp [hz] at hb
  omega

theorem recordingRound_spec {msg : RecordingMessage} {c : Conn} {r : RecordingRound}
    (h : recordingRound msg c = some r) : r.Spec c := by
  simp only [recordingRound, Option.bind_eq_bind, Option.bind_eq_some_iff, Prod.exists] at h
  obtain ⟨o₁, c₁, h₁, o₂, c₂, h₂, o₃, c₃, h₃, o₄, c₄, h₄, h⟩ := h
  obtain ⟨e₁, f₁⟩ := read_spec (by decide) h₁
  obtain ⟨e₂, f₂⟩ := read_spec (by decide) h₂
  obtain ⟨e₃, f₃⟩ := read_spec (by decide) h₃
  obtain ⟨e₄, f₄⟩ := read_spec (by decide) h₄
  have l₁ := (ByteStream.readFull_length h₁).1
  have l₂ := (ByteStream.readFull_length h₂).1
  have l₃ := (ByteStream.readFull_length h₃).1
  have l₄ := (ByteStream.readFull_length h₄).1
  split at h
  · next hz =>
    obtain rfl := Option.some.inj h
    have s₄ := read_rejected (by decide) h₄ hz
    exact ⟨by simp [e₁, e₂, e₃, e₄], nofun, nofun, fun _ => by simp only; omega⟩
  · simp only [Option.bind_eq_some_iff, Prod.exists] at h
    obtain ⟨o₅, c₅, h₅, h⟩ := h
    obtain ⟨e₅, f₅⟩ := read_spec (by decide) h₅
    have l₅ := (ByteStream.readFull_length h₅).1
    split at h
    · next hz =>
      obtain rfl := Option.some.inj h
      have s₅ := read_rejected (by decide) h₅ hz
      exact ⟨by simp [e₁, e₂, e₃, e₄, e₅], nofun, nofun, fun _ => by simp only; omega⟩
    · simp only [Option.bind_eq_some_iff, Prod.exists] at h
      obtain ⟨o₆, c₆, h₆, h⟩ := h
      obtain ⟨e₆, f₆⟩ := read_spec (by decide) h₆
      split at h
      · next hz =>
        obtain rfl := Option.some.inj h
        have s₆ := read_rejected (by decide) h₆ hz
        exact ⟨by simp [e₁, e₂, e₃, e₄, e₅, e₆], nofun, nofun, fun _ => by simp only; omega⟩
      · obtain rfl := Option.some.inj h
        refine ⟨by simp [e₁, e₂, e₃, e₄, e₅, e₆], fun _ => ?_, fun _ => ?_, nofun⟩
        · exact .cons f₁ (.cons f₂ (.cons f₃ (.cons f₄ (.cons f₅ (.cons f₆ .nil)))))
        · intro b₁ b₂ b₃ b₄ b₅ b₆ hreads
          simp only [List.cons.injEq] at hreads
          obtain ⟨-, -, -, rfl, rfl, rfl, -⟩ := hreads
          rfl

theorem spec_after {α : Type} {sizes : List ℕ} {os : List (Outcome UInt8)} {c c' : Conn}
    {r : PoseReads α} (hc : events c = os.flatMap Outcome.events ++ events c')
    (h : r.Spec sizes c') : (r.after os).Spec sizes c where
  consumed := by
    rw [hc, h.consumed]
    simp [PoseReads.after]
  fits := h.fits

end PoseReadLemmas

open PoseReadLemmas

/-- With more fuel than pieces, the RECORDING loop does not depend on the fuel. -/
theorem recordingLoop_fuel {n m : ℕ} (msg : RecordingMessage) {c : Conn} (hn : c.length < n)
    (hm : c.length < m) : recordingLoop n msg c = recordingLoop m msg c := by
  induction n generalizing m msg c with
  | zero => omega
  | succ n ih =>
    cases m with
    | zero => omega
    | succ m =>
      simp only [recordingLoop]
      cases hr : recordingRound msg c with
      | none => rfl
      | some r =>
        cases hfin : r.finished with
        | true => simp [hfin]
        | false =>
          have hlt := (recordingRound_spec hr).shorter hfin
          simp [hfin, ih r.msg (c := r.rest) (m := m) (by omega) (by omega)]

theorem localizationLoop_fuel (ofBits : UInt64 → R) {n m : ℕ} {c : Conn} (hn : c.length < n)
    (hm : c.length < m) : localizationLoop ofBits n c = localizationLoop ofBits m c := by
  induction n generalizing m c with
  | zero => omega
  | succ n ih =>
    cases m with
    | zero => omega
    | succ m =>
      simp only [localizationLoop]
      cases hr : BinaryInterfaceClient.read 172 c with
      | none => rfl
      | some r =>
        obtain ⟨o, c'⟩ := r
        cases o with
        | full b => rfl
        | failed left => rfl
        | closed left =>
          have hlt := (ByteStream.readFull_length hr).2 nofun
          simp [ih (c := c') (m := m) (by omega) (by omega)]

theorem recordingLoop_spec {n : ℕ} {msg : RecordingMessage} {c : Conn}
    {r : PoseReads RecordingMessage} (h : recordingLoop n msg c = some r) :
    r.Spec [8, 8, 4, 8, 8, 8] c ∧
      ∀ b₁ b₂ b₃ b₄ b₅ b₆, r.last = [.full b₁, .full b₂, .full b₃, .full b₄, .full b₅, .full b₆] →
        r.result = ⟨b₄, b₅, b₆⟩ := by
  induction n generalizing msg c r with
  | zero => cases h
  | succ n ih =>
    simp only [recordingLoop, Option.bind_eq_bind, Option.bind_eq_some_iff] at h
    obtain ⟨rd, hrd, h⟩ := h
    have hround := recordingRound_spec hrd
    split at h
    · next hf =>
      obtain rfl := Option.some.inj h
      exact ⟨⟨by simpa using hround.consumed, hround.fits hf⟩, hround.msg hf⟩
    · simp only [Option.bind_eq_some_iff] at h
      obtain ⟨r', hr', h⟩ := h
      obtain rfl := Option.some.inj h
      obtain ⟨hspec, hmsg⟩ := ih hr'
      exact ⟨spec_after hround.consumed hspec, hmsg⟩

theorem localizationLoop_spec (ofBits : UInt64 → R) {n : ℕ} {c : Conn}
    {r : PoseReads (LocRead R)} (h : localizationLoop ofBits n c = some r) :
    r.Spec [172] c ∧ ∀ b, r.last = [.full b] →
      r.result = .message (poseMessageState b) (poseMessagePose ofBits b) := by
  induction n generalizing c r with
  | zero => cases h
  | succ n ih =>
    simp only [localizationLoop, Option.bind_eq_bind, Option.bind_eq_some_iff, Prod.exists] at h
    obtain ⟨o, c', hread, h⟩ := h
    obtain ⟨hev, hfit⟩ := read_spec (by decide) hread
    cases o with
    | full b =>
      obtain rfl := Option.some.inj h
      refine ⟨⟨by simpa using hev, .cons hfit .nil⟩, ?_⟩
      intro b' hb'
      obtain rfl : b = b' := by simpa using hb'
      rfl
    | failed left =>
      obtain rfl := Option.some.inj h
      exact ⟨⟨by simpa using hev, .cons hfit .nil⟩, fun b hb => by simp at hb⟩
    | closed left =>
      simp only [Option.bind_eq_some_iff] at h
      obtain ⟨r', hr', h⟩ := h
      obtain rfl := Option.some.inj h
      obtain ⟨hspec, hres⟩ := ih hr'
      exact ⟨spec_after (by simpa using hev) hspec, hres⟩

/-! ## The stored pose -/

namespace PoseReadLemmas

/-- If the last round's reads are reads of the fields of a message, and the pose is that
of the message when they all complete, then the stored pose is that of one message
exactly when the reads are clean. -/
theorem fromOneMessage_iff [Add R] (sizes : List ℕ) {c : Conn} {d : CustomerPackage R}
    {r : PoseReads (Triggered R)} (hspec : r.Spec sizes c)
    {pose : List UInt8 → DmPose R}
    (hpose : (∀ o ∈ r.last, ∃ b, o = .full b) →
      r.result.dm.pose = (pose (r.last.flatMap Outcome.bytes)).shift d) :
    FromOneMessage sizes.sum pose c d r ↔ r.Clean := by
  constructor
  · rintro ⟨earlier, b, hev, hlen, _, hno⟩
    rw [hspec.consumed] at hev
    have heq := List.append_cancel_right hev
    rw [List.flatMap_append] at heq
    refine ⟨?_, ByteStream.outcomes_full hspec.fits hlen.ge heq⟩
    intro left hleft
    have hmem : Ev.error ∈ r.earlier.flatMap Outcome.events ++ r.last.flatMap Outcome.events :=
      List.mem_append_left _
        (List.mem_flatMap.mpr ⟨_, hleft, ByteStream.error_mem_events.mpr ⟨left, rfl⟩⟩)
    rw [heq] at hmem
    rcases List.mem_append.mp hmem with hmem | hmem
    · exact hno hmem
    · obtain ⟨a, _, ha⟩ := List.mem_map.mp hmem
      cases ha
  · rintro ⟨hearlier, hfull⟩
    refine ⟨r.earlier.flatMap Outcome.events, r.last.flatMap Outcome.bytes, ?_,
      ByteStream.length_flatMap_bytes hspec.fits hfull, hpose hfull, ?_⟩
    · rw [hspec.consumed, List.flatMap_append, ByteStream.flatMap_events_full hfull]
    · intro hmem
      obtain ⟨o, ho, hoe⟩ := List.mem_flatMap.mp hmem
      obtain ⟨left, rfl⟩ := ByteStream.error_mem_events.mp hoe
      exact hearlier left ho

theorem field_append (a b c : List UInt8) {off len : ℕ} (ha : a.length = off)
    (hb : b.length = len) : field (a ++ b ++ c) off len = b := by
  unfold field
  rw [List.append_assoc, List.drop_left' ha, List.take_left' hb]

/-- Six fields of these sizes hold the pose of the message at the offsets 20, 28, 36. -/
theorem recordingPose_append (ofBits : UInt64 → R) {b₁ b₂ b₃ b₄ b₅ b₆ : List UInt8}
    (h₁ : b₁.length = 8) (h₂ : b₂.length = 8) (h₃ : b₃.length = 4) (h₄ : b₄.length = 8)
    (h₅ : b₅.length = 8) (h₆ : b₆.length = 8) :
    recordingPose ofBits (b₁ ++ (b₂ ++ (b₃ ++ (b₄ ++ (b₅ ++ b₆))))) =
      RecordingMessage.pose ofBits ⟨b₄, b₅, b₆⟩ := by
  have hx : field (b₁ ++ b₂ ++ b₃ ++ b₄ ++ (b₅ ++ b₆)) 20 8 = b₄ :=
    field_append _ _ _ (by simp [h₁, h₂, h₃]) h₄
  have hy : field (b₁ ++ b₂ ++ b₃ ++ b₄ ++ b₅ ++ b₆) 28 8 = b₅ :=
    field_append _ _ _ (by simp [h₁, h₂, h₃, h₄]) h₅
  have hyaw : field (b₁ ++ b₂ ++ b₃ ++ b₄ ++ b₅ ++ b₆ ++ []) 36 8 = b₆ :=
    field_append _ _ _ (by simp [h₁, h₂, h₃, h₄, h₅]) h₆
  simp only [List.append_assoc, List.append_nil] at hx hy hyaw
  simp only [recordingPose, RecordingMessage.pose, hx, hy, hyaw]

theorem recRead_pose (ofBits : UInt64 → R) (r : PoseReads RecordingMessage) :
    (recRead ofBits r).pose = r.result.pose ofBits := by
  unfold recRead
  split <;> rfl

/-- When the six reads of the last round complete, the loop hands over the pose of the
message that they make up. -/
theorem recRead_full (ofBits : UInt64 → R) {c : Conn} {r : PoseReads RecordingMessage}
    (hspec : r.Spec [8, 8, 4, 8, 8, 8] c)
    (hmsg : ∀ b₁ b₂ b₃ b₄ b₅ b₆,
      r.last = [.full b₁, .full b₂, .full b₃, .full b₄, .full b₅, .full b₆] →
        r.result = ⟨b₄, b₅, b₆⟩)
    (hfull : ∀ o ∈ r.last, ∃ b, o = .full b) :
    (recRead ofBits r).pose = recordingPose ofBits (r.last.flatMap Outcome.bytes) := by
  have hfits := hspec.fits
  simp only [List.forall₂_cons_right_iff, List.forall₂_nil_right_iff] at hfits
  obtain ⟨o₁, _, f₁, ⟨o₂, _, f₂, ⟨o₃, _, f₃, ⟨o₄, _, f₄, ⟨o₅, _, f₅, ⟨o₆, _, f₆, rfl, rfl⟩,
    rfl⟩, rfl⟩, rfl⟩, rfl⟩, hlast⟩ := hfits
  rw [hlast] at hfull
  obtain ⟨b₁, rfl⟩ := hfull o₁ (by simp)
  obtain ⟨b₂, rfl⟩ := hfull o₂ (by simp)
  obtain ⟨b₃, rfl⟩ := hfull o₃ (by simp)
  obtain ⟨b₄, rfl⟩ := hfull o₄ (by simp)
  obtain ⟨b₅, rfl⟩ := hfull o₅ (by simp)
  obtain ⟨b₆, rfl⟩ := hfull o₆ (by simp)
  rw [recRead_pose, hlast, hmsg _ _ _ _ _ _ hlast, ← recordingPose_append ofBits f₁ f₂ f₃ f₄ f₅ f₆]
  simp only [List.flatMap_cons, List.flatMap_nil, Outcome.bytes, List.append_nil]

end PoseReadLemmas

/-- For every sequence of results of `::read`, whenever `dmTrigger` has stored a pose: it
is the pose of one completely received message plus the deviation, with no failed read
before, exactly when no read of the earlier rounds returned an error and every read of
the last round completed. -/
theorem poseRead_iff [Add R] (ofBits : UInt64 → R) (c : Conn) (d : CustomerPackage R)
    (s : Triggered R) :
    (∀ mode2 r, dmTriggerOn ofBits .recording mode2 c d s = some r →
      (FromOneMessage 44 (recordingPose ofBits) c d r ↔ r.Clean)) ∧
    ∀ mode1 r, mode1 ≠ .recording → dmTriggerOn ofBits mode1 .localization c d s = some r →
      (FromOneMessage 172 (poseMessagePose ofBits) c d r ↔ r.Clean) := by
  constructor
  · intro mode2 r h
    obtain ⟨r', hr', rfl⟩ := Option.map_eq_some_iff.mp h
    obtain ⟨hspec, hmsg⟩ := recordingLoop_spec hr'
    refine fromOneMessage_iff [8, 8, 4, 8, 8, 8] ⟨hspec.consumed, hspec.fits⟩ ?_
    intro hfull
    exact congrArg (·.shift d) (recRead_full ofBits hspec hmsg hfull)
  · intro mode1 r hmode h
    unfold dmTriggerOn at h
    rw [if_neg hmode, if_pos rfl] at h
    obtain ⟨r', hr', rfl⟩ := Option.map_eq_some_iff.mp h
    obtain ⟨hspec, hres⟩ := localizationLoop_spec ofBits hr'
    refine fromOneMessage_iff [172] ⟨hspec.consumed, hspec.fits⟩ ?_
    intro hfull
    have hfits := hspec.fits
    simp only [List.forall₂_cons_right_iff, List.forall₂_nil_right_iff] at hfits
    obtain ⟨o, _, _, rfl, hlast⟩ := hfits
    simp only at hfull ⊢
    rw [hlast] at hfull ⊢
    obtain ⟨b, rfl⟩ := hfull o (by simp)
    simp only [hres b hlast, dmTrigger, if_neg hmode, if_true, List.flatMap_cons,
      List.flatMap_nil, Outcome.bytes, List.append_nil]

/-- A recording message at (1, 2, 0), cut after 13 bytes. -/
def exWhole : Conn :=
  [.bytes (List.replicate 13 0),
    .bytes (List.replicate 13 0 ++ [0xF0, 0x3F] ++ List.replicate 7 0 ++ [0x40] ++
      List.replicate 8 0)]

/-- The `DM` still holds the code 7 at (5, 5, 0). -/
def exStale : Triggered ℚ := ⟨{ id := 7, pose := ⟨5, 5, 0⟩ }, 2, { id := 7, pose := ⟨5, 5, 0⟩ }⟩

theorem poseRead_exWhole : ∃ r,
    dmTriggerOn finiteDouble .recording .recording exWhole ⟨9, 1, 0, 0⟩ exStale = some r ∧
      r.result.dm.pose = ⟨2, 2, 0⟩ ∧
      FromOneMessage 44 (recordingPose finiteDouble) exWhole ⟨9, 1, 0, 0⟩ r := by
  obtain ⟨r, hr⟩ := Option.isSome_iff_exists.mp (by decide +kernel :
    (dmTriggerOn finiteDouble .recording .recording exWhole ⟨9, 1, 0, 0⟩ exStale).isSome)
  have hrun : (dmTriggerOn finiteDouble .recording .recording exWhole ⟨9, 1, 0, 0⟩ exStale).map
      (fun r => (r.result.dm.pose, r.earlier, r.last)) = some (⟨2, 2, 0⟩, [],
        [.full (List.replicate 8 0), .full (List.replicate 8 0), .full (List.replicate 4 0),
          .full (List.replicate 6 0 ++ [0xF0, 0x3F]), .full (List.replicate 7 0 ++ [0x40]),
          .full (List.replicate 8 0)]) := by
    decide +kernel
  rw [hr] at hrun
  simp only [Option.map_some, Option.some.injEq, Prod.mk.injEq] at hrun
  obtain ⟨hpose, hearlier, hlast⟩ := hrun
  refine ⟨r, hr, hpose, ((poseRead_iff finiteDouble exWhole ⟨9, 1, 0, 0⟩ exStale).1 _ r hr).mpr ?_⟩
  refine ⟨by simp [hearlier], ?_⟩
  rw [hlast]
  simp

/-- The first three fields arrive, then every read returns an error. -/
def exBroken : Conn := [.bytes (List.replicate 20 0), .error, .error, .error]

/-- The code 9 is stored at its own deviation: the pose fields that were never received
count as a robot at the origin. -/
theorem failed_read_stored : ∃ r,
    dmTriggerOn finiteDouble .recording .recording exBroken ⟨9, 1, 0, 0⟩ exStale = some r ∧
      r.result.dm.id = 9 ∧ r.result.dm.pose = ⟨1, 0, 0⟩ ∧
      ¬ FromOneMessage 44 (recordingPose finiteDouble) exBroken ⟨9, 1, 0, 0⟩ r := by
  obtain ⟨r, hr⟩ := Option.isSome_iff_exists.mp (by decide +kernel :
    (dmTriggerOn finiteDouble .recording .recording exBroken ⟨9, 1, 0, 0⟩ exStale).isSome)
  have hrun : (dmTriggerOn finiteDouble .recording .recording exBroken ⟨9, 1, 0, 0⟩ exStale).map
      (fun r => (r.result.dm.id, r.result.dm.pose)) = some (9, ⟨1, 0, 0⟩) := by
    decide +kernel
  rw [hr] at hrun
  simp only [Option.map_some, Option.some.injEq, Prod.mk.injEq] at hrun
  refine ⟨r, hr, hrun.1, hrun.2, ?_⟩
  rintro ⟨earlier, b, hev, hlen, _⟩
  -- fewer than 44 bytes arrived at all
  have hcount := congrArg List.length hev
  have hshort : (events exBroken).length = 23 := by decide
  simp only [List.length_append, List.length_map] at hcount
  omega

/-- LOCALIZATION, one error: the code 9 is stored at the pose of the code 7, moved by the
new deviation. -/
theorem stale_pose_stored :
    (dmTriggerOn finiteDouble .localization .localization [.error] ⟨9, 1, 0, 0⟩ exStale).map
      (fun r => (r.result.dm.id, r.result.dm.pose)) = some (9, ⟨6, 5, 0⟩) := by
  decide +kernel

end QrAddon
