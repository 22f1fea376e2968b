import QrAddon.PoseRead

/-!
# The three loops that read from ROKIT

`listenMode` reads control mode messages of 4 bytes for as long as no read returns a
negative result; the loops of `dmTrigger` are those of `QrAddon.PoseRead`. All of them
read through `BinaryInterfaceClient::read` and take its result 0, the end of the stream,
for a reason to read on.

Results:
1. `modeOf_eq`: the mode is a field of three bits.
2. `decoded_any_split`: the modes, the state and the poses are the numbers that stand in the
   bytes, however they are cut, and exactly the bytes of a record are used up.
3. `closed_leaves_iff`: on a stream that ends, `listenMode` never leaves its loop, and the
   loops of `dmTrigger` leave theirs exactly when the stream holds a whole message.
4. `half_message`: the loops on a stream that ends inside a message.
-/

namespace QrAddon

open ByteStream (Outcome events ended)
open PoseReadLemmas

/-! ## `listenMode` -/

/-- The tests of `listenMode`, `index` written out. -/
def modeOf (controlModeMessage : UInt32) : Mode :=
  let bit := controlModeMessage.toNat.testBit
  if !bit 17 && bit 16 && !bit 15 then .recording
  else if !bit 11 && bit 10 && !bit 9 then .localization
  else .init

/-- What `listenMode` did: the values it wrote to `*modePtr`, whether it left its loop,
and the rest of the connection. -/
structure Listened where
  modes : List Mode
  left : Bool
  rest : Conn

/-- The loop of `listenMode` for at most `n` calls of `read`. It stops earlier when a read
is blocked, and it leaves the loop when a read fails. -/
def listenMode : ℕ → Conn → Listened
  | 0, c => ⟨[], false, c⟩
  | n + 1, c =>
    match BinaryInterfaceClient.read 4 c with
    | none => ⟨[], false, c⟩
    | some (controlModeMessage, c) =>
      let rv := returnValue controlModeMessage
      let l := if 0 ≤ rv then listenMode n c else ⟨[], true, c⟩
      if 0 < rv then { l with modes := modeOf (readUInt32 controlModeMessage.bytes) :: l.modes }
      else l

/-- Three bits of a number. -/
theorem bits_eq_two (n i : ℕ) :
    (!n.testBit (i + 2) && n.testBit (i + 1) && !n.testBit i) = decide (n / 2 ^ i % 8 = 2) := by
  simp only [Nat.testBit_eq_decide_div_mod_eq, pow_succ, ← Nat.div_div_eq_div_mul]
  generalize n / 2 ^ i = m
  rcases Nat.mod_two_eq_zero_or_one m with h0 | h0 <;>
  rcases Nat.mod_two_eq_zero_or_one (m / 2) with h1 | h1 <;>
  rcases Nat.mod_two_eq_zero_or_one (m / 2 / 2) with h2 | h2 <;>
  simp [h0, h1, h2] <;> omega

/-- RECORDING is the value 2 of the bits 15 to 17, LOCALIZATION that of the bits 9 to
11. -/
theorem modeOf_eq (m : UInt32) : modeOf m =
    if m.toNat / 2 ^ 15 % 8 = 2 then .recording
    else if m.toNat / 2 ^ 9 % 8 = 2 then .localization
    else .init := by
  have h15 := bits_eq_two m.toNat 15
  have h9 := bits_eq_two m.toNat 9
  simp only [modeOf, h15, h9, decide_eq_true_eq]

/-! ## Reading on a stream that ends -/

/-- The complete 4-byte words of a stream. -/
def words (b : List UInt8) : List (List UInt8) :=
  (List.range (b.length / 4)).map fun i => field b (4 * i) 4

/-- A connection over which the peer sends these pieces and that it then closes; the next
`k` reads tell so. -/
def closedConn (pieces : List (List UInt8)) (k : ℕ) : Conn :=
  pieces.map .bytes ++ List.replicate k (.bytes [])

namespace ReadLoopLemmas

theorem field_drop (b : List UInt8) (m off len : ℕ) :
    field (b.drop m) off len = field b (m + off) len := by
  rw [field, field, List.drop_drop]

theorem field_take (b : List UInt8) {n : ℕ} (off len : ℕ) (h : off + len ≤ n) :
    field (b.take n) off len = field b off len := by
  rw [field, field, List.drop_take, List.take_take, min_eq_left (by omega)]

/-- The field behind the first bytes of a stream continues them. -/
theorem take_append_field (b : List UInt8) (off len : ℕ) :
    b.take off ++ field b off len = b.take (off + len) := List.take_add.symm

/-- Four more bytes are one more word in front. -/
theorem words_cons {b : List UInt8} (h : 4 ≤ b.length) :
    words b = b.take 4 :: words (b.drop 4) := by
  obtain ⟨k, hk⟩ : ∃ k, b.length / 4 = k + 1 := ⟨b.length / 4 - 1, by omega⟩
  have hdrop : (b.drop 4).length / 4 = k := by
    rw [List.length_drop]
    omega
  rw [words, words, hk, hdrop, List.range_succ_eq_map, List.map_cons, List.map_map]
  congr 1
  apply List.map_congr_left
  intro i _
  rw [Function.comp_apply, field_drop]
  congr 1
  omega

theorem words_short {b : List UInt8} (h : b.length < 4) : words b = [] := by
  rw [words, Nat.div_eq_of_lt h, List.range_zero, List.map_nil]

/-- A field that the stream holds is read from its place. -/
theorem read_field {c : Conn} {b : List UInt8} {k : ℕ} (off size : ℕ) (hsize : 0 < size)
    (hc : events c = ended (b.drop off) k) (hb : off + size ≤ b.length) :
    ∃ c', BinaryInterfaceClient.read size c = some (.full (field b off size), c') ∧
      events c' = ended (b.drop (off + size)) k := by
  obtain ⟨c', hread, hrest⟩ := ByteStream.readFull_ended hsize hc
    (by rw [List.length_drop]; omega)
  exact ⟨c', hread, by rw [hrest, List.drop_drop]⟩

/-- What a read of a record does to a stream that ends: it takes its bytes, or it takes
what is left and `checkReturnValue` rejects it. -/
def Took (size : ℕ) (b b' : List UInt8) (o : Outcome UInt8) : Prop :=
  (checkReturnValue (returnValue o) = true ∧ b.length = size + b'.length) ∨
    (checkReturnValue (returnValue o) = false ∧ b' = [])

theorem Took.rejected {size : ℕ} {b b' : List UInt8} {o : Outcome UInt8} (h : Took size b b' o)
    (ho : checkReturnValue (returnValue o) = false) : b' = [] := by
  rcases h with ⟨haccepted, _⟩ | ⟨_, hempty⟩
  · rw [ho] at haccepted
    cases haccepted
  · exact hempty

theorem Took.accepted {size : ℕ} {b b' : List UInt8} {o : Outcome UInt8} (h : Took size b b' o)
    (ho : ¬ checkReturnValue (returnValue o) = false) : b.length = size + b'.length := by
  rcases h with ⟨_, hlen⟩ | ⟨hrejected, _⟩
  · exact hlen
  · exact absurd hrejected ho

/-- A read that leaves something has taken its bytes. -/
theorem Took.of_rest {size : ℕ} {b b' : List UInt8} {o : Outcome UInt8} (h : Took size b b' o)
    (hb' : 0 < b'.length) : b.length = size + b'.length := by
  rcases h with ⟨_, hlen⟩ | ⟨_, rfl⟩
  · exact hlen
  · exact absurd hb' (Nat.lt_irrefl 0)

theorem read_ended {c c' : Conn} {o : Outcome UInt8} {b : List UInt8} {k size : ℕ}
    (hsize : 0 < size) (hc : events c = ended b k)
    (h : BinaryInterfaceClient.read size c = some (o, c')) :
    ∃ b' k', events c' = ended b' k' ∧ Took size b b' o := by
  rcases Nat.lt_or_ge b.length size with hlt | hge
  · obtain ⟨rfl, k', _, hrest⟩ := ByteStream.readFull_exhausted hsize hc hlt h
    exact ⟨[], k', hrest, .inr ⟨rfl, rfl⟩⟩
  · obtain ⟨c'', hread, hrest⟩ := ByteStream.readFull_ended hsize hc hge
    obtain ⟨rfl, rfl⟩ := Prod.mk.inj (Option.some.inj (hread.symm.trans h))
    have hlen : (b.take size).length = size := List.length_take_of_le hge
    refine ⟨b.drop size, k, hrest, .inl ⟨?_, ?_⟩⟩
    · simp [checkReturnValue, returnValue, hlen, hsize.ne']
    · rw [List.length_drop]
      omega

end ReadLoopLemmas

open ReadLoopLemmas

/-- `listenMode` on a stream that ends, after at most `n` reads: it has not left its loop,
and it has decoded the words in order. While the stream is open, it has used up these
words and no other bytes. -/
theorem listenMode_ended (n : ℕ) {c : Conn} {b : List UInt8} {k : ℕ}
    (hc : events c = ended b k) :
    (listenMode n c).left = false ∧
      (listenMode n c).modes = ((words b).take n).map (fun w => modeOf (readUInt32 w)) ∧
      (k = 0 → events (listenMode n c).rest = ended (b.drop (4 * min n (b.length / 4))) 0) := by
  induction n generalizing c b k with
  | zero => exact ⟨rfl, by rw [List.take_zero]; rfl, fun hk => by simpa [hk, listenMode] using hc⟩
  | succ n ih =>
    rcases Nat.lt_or_ge b.length 4 with hlt | hge
    · rw [words_short hlt, List.take_nil, List.map_nil, Nat.div_eq_of_lt hlt, listenMode]
      cases hread : BinaryInterfaceClient.read 4 c with
      | none => exact ⟨rfl, rfl, fun hk => by simpa [hk] using hc⟩
      | some r =>
        obtain ⟨o, c'⟩ := r
        obtain ⟨rfl, k', hk', hrest⟩ := ByteStream.readFull_exhausted (by decide) hc hlt hread
        obtain ⟨hleft, hmodes, _⟩ := ih hrest
        rw [words_short (by decide), List.take_nil, List.map_nil] at hmodes
        have hopen : k ≠ 0 := by omega
        simpa [returnValue, hopen] using ⟨hleft, hmodes⟩
    · obtain ⟨c', hread, hrest⟩ := ByteStream.readFull_ended (by decide) hc hge
      obtain ⟨hleft, hmodes, hopen⟩ := ih hrest
      have hlen : (b.take 4).length = 4 := List.length_take_of_le hge
      have hstep : listenMode (n + 1) c =
          { listenMode n c' with
            modes := modeOf (readUInt32 (b.take 4)) :: (listenMode n c').modes } := by
        have hread' : BinaryInterfaceClient.read 4 c = some (.full (b.take 4), c') := hread
        rw [listenMode, hread']
        simp [returnValue, hlen, Outcome.bytes]
      rw [hstep, words_cons hge]
      refine ⟨hleft, by rw [hmodes, List.take_succ_cons, List.map_cons], fun hk => ?_⟩
      have hoff : 4 + 4 * min n ((b.drop 4).length / 4) = 4 * min (n + 1) (b.length / 4) := by
        rw [List.length_drop]
        omega
      rw [hopen hk, List.drop_drop, hoff]

namespace ReadLoopLemmas

/-- A round of the RECORDING loop on a stream that holds a whole message: six fields, one
behind the other. -/
theorem recordingRound_whole (msg : RecordingMessage) {c : Conn} {b : List UInt8} {k : ℕ}
    (hc : events c = ended b k) (hb : 44 ≤ b.length) :
    ∃ c', recordingRound msg c = some ⟨true, ⟨field b 20 8, field b 28 8, field b 36 8⟩,
        [.full (field b 0 8), .full (field b 8 8), .full (field b 16 4), .full (field b 20 8),
          .full (field b 28 8), .full (field b 36 8)], c'⟩ ∧
      events c' = ended (b.drop 44) k := by
  obtain ⟨c₁, h₁, e₁⟩ := read_field 0 8 (by decide) hc (by omega)
  obtain ⟨c₂, h₂, e₂⟩ := read_field 8 8 (by decide) e₁ (by omega)
  obtain ⟨c₃, h₃, e₃⟩ := read_field 16 4 (by decide) e₂ (by omega)
  obtain ⟨c₄, h₄, e₄⟩ := read_field 20 8 (by decide) e₃ (by omega)
  obtain ⟨c₅, h₅, e₅⟩ := read_field 28 8 (by decide) e₄ (by omega)
  obtain ⟨c₆, h₆, e₆⟩ := read_field 36 8 (by decide) e₅ (by omega)
  refine ⟨c₆, ?_, e₆⟩
  have haccepted (off : ℕ) (hoff : off + 8 ≤ b.length) :
      checkReturnValue (returnValue (.full (field b off 8))) = true := by
    have hlen : (field b off 8).length = 8 := by
      rw [field, List.length_take_of_le]
      rw [List.length_drop]
      omega
    simp [returnValue, hlen, checkReturnValue]
  have hx := haccepted 20 (by omega)
  have hy := haccepted 28 (by omega)
  have hyaw := haccepted 36 (by omega)
  simp [recordingRound, h₁, h₂, h₃, h₄, h₅, h₆, store, hx, hy, hyaw]

/-- A round on a stream that holds less than a message starts again, and then there is
nothing left. -/
theorem recordingRound_short {msg : RecordingMessage} {c : Conn} {b : List UInt8} {k : ℕ}
    (hc : events c = ended b k) (hb : b.length < 44) {r : RecordingRound}
    (h : recordingRound msg c = some r) :
    r.finished = false ∧ ∃ k', events r.rest = ended [] k' := by
  simp only [recordingRound, Option.bind_eq_bind, Option.bind_eq_some_iff, Prod.exists] at h
  obtain ⟨o₁, c₁, h₁, o₂, c₂, h₂, o₃, c₃, h₃, o₄, c₄, h₄, h⟩ := h
  obtain ⟨b₁, k₁, e₁, t₁⟩ := read_ended (by decide) hc h₁
  obtain ⟨b₂, k₂, e₂, t₂⟩ := read_ended (by decide) e₁ h₂
  obtain ⟨b₃, k₃, e₃, t₃⟩ := read_ended (by decide) e₂ h₃
  obtain ⟨b₄, k₄, e₄, t₄⟩ := read_ended (by decide) e₃ h₄
  split at h
  · next hx =>
    obtain rfl := Option.some.inj h
    exact ⟨rfl, k₄, t₄.rejected hx ▸ e₄⟩
  · next hx =>
    simp only [Option.bind_eq_some_iff, Prod.exists] at h
    obtain ⟨o₅, c₅, h₅, h⟩ := h
    obtain ⟨b₅, k₅, e₅, t₅⟩ := read_ended (by decide) e₄ h₅
    split at h
    · next hy =>
      obtain rfl := Option.some.inj h
      exact ⟨rfl, k₅, t₅.rejected hy ▸ e₅⟩
    · next hy =>
      simp only [Option.bind_eq_some_iff, Prod.exists] at h
      obtain ⟨o₆, c₆, h₆, h⟩ := h
      obtain ⟨b₆, k₆, e₆, t₆⟩ := read_ended (by decide) e₅ h₆
      split at h
      · next hyaw =>
        obtain rfl := Option.some.inj h
        exact ⟨rfl, k₆, t₆.rejected hyaw ▸ e₆⟩
      · next hyaw =>
        -- the pose fields completed, so the fields before them did
        have l₄ := t₄.accepted hx
        have l₅ := t₅.accepted hy
        have l₆ := t₆.accepted hyaw
        have l₃ := t₃.of_rest (by omega)
        have l₂ := t₂.of_rest (by omega)
        have l₁ := t₁.of_rest (by omega)
        omega

/-- The RECORDING loop does not end on a stream that holds less than a message. -/
theorem recordingLoop_short (n : ℕ) (msg : RecordingMessage) {c : Conn} {b : List UInt8} {k : ℕ}
    (hc : events c = ended b k) (hb : b.length < 44) : recordingLoop n msg c = none := by
  induction n generalizing msg c b k with
  | zero => rfl
  | succ n ih =>
    rw [recordingLoop]
    cases hr : recordingRound msg c with
    | none => rfl
    | some r =>
      obtain ⟨hfin, k', hrest⟩ := recordingRound_short hc hb hr
      simp [hfin, ih r.msg hrest (by decide)]

theorem localizationLoop_short {R : Type} (ofBits : UInt64 → R) (n : ℕ) {c : Conn}
    {b : List UInt8} {k : ℕ} (hc : events c = ended b k) (hb : b.length < 172) :
    localizationLoop ofBits n c = none := by
  induction n generalizing c b k with
  | zero => rfl
  | succ n ih =>
    rw [localizationLoop]
    cases hread : BinaryInterfaceClient.read 172 c with
    | none => rfl
    | some r =>
      obtain ⟨o, c'⟩ := r
      obtain ⟨rfl, k', _, hrest⟩ := ByteStream.readFull_exhausted (by decide) hc hb hread
      simp [ih hrest (by decide)]

/-- The fields of a message are the first bytes of the stream. -/
theorem fields_append (b : List UInt8) :
    field b 0 8 ++ (field b 8 8 ++ (field b 16 4 ++ (field b 20 8 ++
      (field b 28 8 ++ field b 36 8)))) = b.take 44 := by
  rw [← take_append_field b 36 8, ← take_append_field b 28 8, ← take_append_field b 20 8,
    ← take_append_field b 16 4, ← take_append_field b 8 8]
  simp only [List.append_assoc, field, List.drop_zero]

end ReadLoopLemmas

section

variable {R : Type} [Add R] (ofBits : UInt64 → R)

/-- What `dmTrigger` takes from a stream: it reads one record of `size` bytes in one round,
the first ones and no others, and leaves the rest on the connection. -/
structure TakesRecord {α : Type} (size : ℕ) (bytes : List UInt8) (k : ℕ) (r : PoseReads α) :
    Prop where
  oneRound : r.earlier = []
  used : r.last.flatMap Outcome.bytes = bytes.take size
  rest : events r.rest = ended (bytes.drop size) k

/-- RECORDING on a stream of at least 44 bytes. -/
theorem recording_ended (mode2 : Mode) {c : Conn} {b : List UInt8} {k : ℕ}
    (hc : events c = ended b k) (hb : 44 ≤ b.length) (d : CustomerPackage R) (s : Triggered R) :
    ∃ r, dmTriggerOn ofBits .recording mode2 c d s = some r ∧ TakesRecord 44 b k r ∧
      r.result.dm.pose = (recordingPose ofBits b).shift d := by
  obtain ⟨c', hround, hrest⟩ := recordingRound_whole {} hc hb
  let read : PoseReads RecordingMessage :=
    ⟨⟨field b 20 8, field b 28 8, field b 36 8⟩, [],
      [.full (field b 0 8), .full (field b 8 8), .full (field b 16 4), .full (field b 20 8),
        .full (field b 28 8), .full (field b 36 8)], c'⟩
  have hloop : recordingLoop (c.length + 1) {} c = some read := by
    rw [recordingLoop, hround]
    rfl
  refine ⟨⟨dmTrigger ⟨.recording, mode2, recRead ofBits read, .failed⟩ d s, [], read.last, c'⟩,
    ?_, ⟨rfl, ?_, hrest⟩, ?_⟩
  · rw [dmTriggerOn, if_pos rfl, hloop, Option.map_some]
  · simp only [read, List.flatMap_cons, List.flatMap_nil, Outcome.bytes, List.append_nil,
      fields_append]
  · show (recRead ofBits read).pose.shift d = _
    rw [recRead_pose]
    rfl

/-- LOCALIZATION on a stream of at least 172 bytes. -/
theorem localization_ended {mode1 : Mode} (hmode : mode1 ≠ .recording) {c : Conn}
    {b : List UInt8} {k : ℕ} (hc : events c = ended b k) (hb : 172 ≤ b.length)
    (d : CustomerPackage R) (s : Triggered R) :
    ∃ r, dmTriggerOn ofBits mode1 .localization c d s = some r ∧ TakesRecord 172 b k r ∧
      r.result.locStat = poseMessageState b ∧
      r.result.rokitPose.pose = poseMessagePose ofBits b ∧
      r.result.dm.pose = (poseMessagePose ofBits b).shift d := by
  obtain ⟨c', hread, hrest⟩ := ByteStream.readFull_ended (by decide) hc hb
  have hstate : poseMessageState (b.take 172) = poseMessageState b := by
    simp only [poseMessageState, field_take b (n := 172) 24 4 (by decide)]
  have hpose : poseMessagePose ofBits (b.take 172) = poseMessagePose ofBits b := by
    simp only [poseMessagePose, field_take b (n := 172) 28 8 (by decide),
      field_take b (n := 172) 36 8 (by decide),
      field_take b (n := 172) 44 8 (by decide)]
  have hread' : BinaryInterfaceClient.read 172 c = some (.full (b.take 172), c') := hread
  have hloop : localizationLoop ofBits (c.length + 1) c =
      some ⟨.message (poseMessageState b) (poseMessagePose ofBits b), [],
        [.full (b.take 172)], c'⟩ := by
    simp [localizationLoop, hread', hstate, hpose]
  refine ⟨⟨dmTrigger ⟨mode1, .localization, .broken s.dm.pose,
      .message (poseMessageState b) (poseMessagePose ofBits b)⟩ d s, [], [.full (b.take 172)], c'⟩,
    ?_, ⟨rfl, ?_, hrest⟩, ?_⟩
  · rw [dmTriggerOn, if_neg hmode, if_pos rfl, hloop, Option.map_some]
  · simp only [List.flatMap_cons, List.flatMap_nil, Outcome.bytes, List.append_nil]
  · simp [dmTrigger, hmode]

end

/-! ## Every split of a stream -/

/-- The number in the `len` bytes from offset `off` on, least significant byte first. -/
def littleEndian (b : List UInt8) (off len : ℕ) : ℕ :=
  Nat.ofDigits 256 (((b.drop off).take len).map UInt8.toNat)

namespace ReadLoopLemmas

theorem leNat_field (b : List UInt8) (off len : ℕ) : leNat (field b off len) =
    littleEndian b off len := leNat_eq_ofDigits _

theorem readDouble_field {R : Type} (ofBits : UInt64 → R) (b : List UInt8) (off : ℕ) :
    readDouble ofBits (field b off 8) = ofBits (UInt64.ofNat (littleEndian b off 8)) := by
  rw [readDouble, leNat_field]

theorem poseMessageState_eq (b : List UInt8) :
    poseMessageState b = Int.bmod (littleEndian b 24 4) (2 ^ 32) := by
  unfold poseMessageState readInt32
  simp only [leNat_field]

/-- The words of a stream, and the mode in each. -/
theorem map_words (b : List UInt8) (n : ℕ) :
    ((words b).take n).map (fun w => modeOf (readUInt32 w)) =
      (List.range (min n (b.length / 4))).map fun i =>
        if littleEndian b (4 * i) 4 / 2 ^ 15 % 8 = 2 then .recording
        else if littleEndian b (4 * i) 4 / 2 ^ 9 % 8 = 2 then .localization
        else .init := by
  rw [words, ← List.map_take, List.take_range, List.map_map]
  apply List.map_congr_left
  intro i _
  have hlen : (field b (4 * i) 4).length ≤ 4 := List.length_take_le _ _
  have hlt : leNat (field b (4 * i) 4) < 2 ^ 32 := (leNat_lt _).trans_le
    ((Nat.pow_le_pow_right (by decide) hlen).trans (by decide))
  rw [leNat_field] at hlt
  rw [Function.comp_apply, modeOf_eq, readUInt32, leNat_field,
    UInt32.toNat_ofNat_of_lt' hlt]

end ReadLoopLemmas

/-- For every stream of bytes and every cut of it into nonempty results of `::read`: the
values of `*modePtr` are those of the 4-byte words of the stream, in order and one for each,
RECORDING for the value 2 of the bits 15 to 17 and LOCALIZATION for the value 2 of the bits 9 to
11; RECORDING takes its pose from a stream of at least 44 bytes at 20, 28 and 36; and
LOCALIZATION takes state and pose from a stream of at least 172 bytes at 24, 28, 36 and
44. The bytes of the words and of the message are used up, and no others. -/
theorem decoded_any_split {R : Type} [Add R] (ofBits : UInt64 → R) {pieces : List (List UInt8)}
    (hp : ∀ p ∈ pieces, p ≠ []) :
    let c : Conn := pieces.map .bytes
    let bytes := pieces.flatten
    let double (off : ℕ) : R := ofBits (UInt64.ofNat (littleEndian bytes off 8))
    (∀ n, (listenMode n c).modes =
          ((List.range (min n (bytes.length / 4))).map fun i =>
            if littleEndian bytes (4 * i) 4 / 2 ^ 15 % 8 = 2 then .recording
            else if littleEndian bytes (4 * i) 4 / 2 ^ 9 % 8 = 2 then .localization
            else .init) ∧
        (listenMode n c).left = false ∧
        events (listenMode n c).rest = (bytes.drop (4 * min n (bytes.length / 4))).map .byte) ∧
      (44 ≤ bytes.length → ∀ mode2 d s, ∃ r,
        dmTriggerOn ofBits .recording mode2 c d s = some r ∧ TakesRecord 44 bytes 0 r ∧
          r.result.dm.pose = ⟨double 20 + d.deviationX, double 28 + d.deviationY,
            double 36 + d.deviationA⟩) ∧
      (172 ≤ bytes.length → ∀ mode1 d s, mode1 ≠ .recording → ∃ r,
        dmTriggerOn ofBits mode1 .localization c d s = some r ∧ TakesRecord 172 bytes 0 r ∧
          r.result.locStat = Int.bmod (littleEndian bytes 24 4) (2 ^ 32) ∧
          r.result.rokitPose.pose = ⟨double 28, double 36, double 44⟩ ∧
          r.result.dm.pose = ⟨double 28 + d.deviationX, double 36 + d.deviationY,
            double 44 + d.deviationA⟩) := by
  intro c bytes double
  have hc : events (pieces.map .bytes) = ended pieces.flatten 0 := by
    simpa using ByteStream.events_ended hp 0
  refine ⟨fun n => ?_, fun hb mode2 d s => ?_, fun hb mode1 d s hmode => ?_⟩
  · obtain ⟨hleft, hmodes, hrest⟩ := listenMode_ended n hc
    exact ⟨hmodes.trans (map_words bytes n), hleft, by simpa [c, bytes, ended] using hrest rfl⟩
  · obtain ⟨r, hr, htakes, hpose⟩ := recording_ended ofBits mode2 hc hb d s
    refine ⟨r, hr, htakes, ?_⟩
    rw [hpose]
    simp only [recordingPose, DmPose.shift, readDouble_field]
    rfl
  · obtain ⟨r, hr, htakes, hstate, hrokit, hpose⟩ := localization_ended ofBits hmode hc hb d s
    refine ⟨r, hr, htakes, ?_, ?_, ?_⟩
    · exact hstate.trans (poseMessageState_eq bytes)
    · rw [hrokit]
      simp only [poseMessagePose, readDouble_field]
      rfl
    · rw [hpose]
      simp only [poseMessagePose, DmPose.shift, readDouble_field]
      rfl

/-- A control mode message in two pieces. -/
theorem decoded_exSplit :
    (listenMode 2 ([[0, 0], [1, 0]].map .bytes)).modes = [.recording] := by
  have hp : ∀ p ∈ [[0, 0], [(1 : UInt8), 0]], p ≠ [] := by decide
  rw [((decoded_any_split finiteDouble hp).1 2).1]
  decide

/-! ## Streams that end -/

section

variable {R : Type} [Add R] (ofBits : UInt64 → R)

/-- `listenMode` leaves its loop after finitely many reads. -/
def ListenLeaves (pieces : List (List UInt8)) : Prop :=
  ∃ n k, (listenMode n (closedConn pieces k)).left = true

/-- `dmTrigger` leaves the loop of its mode after finitely many reads. -/
def TriggerLeaves (mode1 mode2 : Mode) (d : CustomerPackage R) (s : Triggered R)
    (pieces : List (List UInt8)) : Prop :=
  ∃ k, (dmTriggerOn ofBits mode1 mode2 (closedConn pieces k) d s).isSome

end

namespace ReadLoopLemmas

theorem closedConn_events {pieces : List (List UInt8)} (hp : ∀ p ∈ pieces, p ≠ []) (k : ℕ) :
    events (closedConn pieces k) = ended pieces.flatten k := ByteStream.events_ended hp k

theorem listen_never {pieces : List (List UInt8)} (hp : ∀ p ∈ pieces, p ≠ []) :
    ¬ ListenLeaves pieces := by
  rintro ⟨n, k, hleft⟩
  rw [(listenMode_ended n (closedConn_events hp k)).1] at hleft
  cases hleft

variable {R : Type} [Add R] (ofBits : UInt64 → R) (d : CustomerPackage R) (s : Triggered R)

theorem recording_leaves {pieces : List (List UInt8)} (hp : ∀ p ∈ pieces, p ≠ []) (mode2 : Mode) :
    TriggerLeaves ofBits .recording mode2 d s pieces ↔ 44 ≤ pieces.flatten.length := by
  constructor
  · rintro ⟨k, hsome⟩
    by_contra hb
    have hnone := recordingLoop_short ((closedConn pieces k).length + 1) {}
      (closedConn_events hp k) (not_le.mp hb)
    rw [dmTriggerOn, if_pos rfl, hnone] at hsome
    cases hsome
  · intro hb
    obtain ⟨r, hr, _⟩ := recording_ended ofBits mode2 (closedConn_events hp 0) hb d s
    exact ⟨0, Option.isSome_iff_exists.mpr ⟨r, hr⟩⟩

theorem localization_leaves {pieces : List (List UInt8)} (hp : ∀ p ∈ pieces, p ≠ [])
    {mode1 : Mode} (hmode : mode1 ≠ .recording) :
    TriggerLeaves ofBits mode1 .localization d s pieces ↔ 172 ≤ pieces.flatten.length := by
  constructor
  · rintro ⟨k, hsome⟩
    by_contra hb
    have hnone := localizationLoop_short ofBits ((closedConn pieces k).length + 1)
      (closedConn_events hp k) (not_le.mp hb)
    rw [dmTriggerOn, if_neg hmode, if_pos rfl, hnone] at hsome
    cases hsome
  · intro hb
    obtain ⟨r, hr, _⟩ := localization_ended ofBits hmode (closedConn_events hp 0) hb d s
    exact ⟨0, Option.isSome_iff_exists.mpr ⟨r, hr⟩⟩

end ReadLoopLemmas

/-- For every finite stream, cut in any way and then ended by the peer: the loop of
`listenMode` is never left, that of RECORDING is left exactly when the stream holds a
message of 44 bytes, and that of LOCALIZATION exactly when it holds one of 172. -/
theorem closed_leaves_iff {R : Type} [Add R] (ofBits : UInt64 → R) {pieces : List (List UInt8)}
    (hp : ∀ p ∈ pieces, p ≠ []) :
    (ListenLeaves pieces ↔ False) ∧
      (∀ mode2 d s, TriggerLeaves ofBits .recording mode2 d s pieces ↔
        44 ≤ pieces.flatten.length) ∧
      (∀ mode1 d s, mode1 ≠ .recording →
        (TriggerLeaves ofBits mode1 .localization d s pieces ↔
          172 ≤ pieces.flatten.length)) :=
  ⟨iff_false_intro (listen_never hp), fun mode2 d s => recording_leaves ofBits d s hp mode2,
    fun _ d s hmode => localization_leaves ofBits d s hp hmode⟩

/-- A whole RECORDING message in one piece. -/
theorem leaves_exWhole :
    TriggerLeaves finiteDouble .recording .recording ⟨9, 1, 0, 0⟩ exStale
      [List.replicate 44 0] := by
  have hp : ∀ p ∈ [List.replicate 44 (0 : UInt8)], p ≠ [] := by decide
  exact ((closed_leaves_iff finiteDouble hp).2.1 _ _ _).mpr (by decide)

/-- The peer ends the stream behind 20 bytes, which is five control mode messages and less
than a message with a pose. No loop is left. -/
theorem half_message :
    let pieces := [List.replicate 20 (0 : UInt8)]
    ¬ ListenLeaves pieces ∧
      ¬ TriggerLeaves finiteDouble .recording .recording ⟨9, 1, 0, 0⟩ exStale pieces ∧
      ¬ TriggerLeaves finiteDouble .localization .localization ⟨9, 1, 0, 0⟩ exStale pieces := by
  have hp : ∀ p ∈ [List.replicate 20 (0 : UInt8)], p ≠ [] := by decide
  refine ⟨listen_never hp, ?_, ?_⟩
  · rw [recording_leaves _ _ _ hp]
    decide
  · rw [localization_leaves _ _ _ hp (by decide)]
    decide

end QrAddon
