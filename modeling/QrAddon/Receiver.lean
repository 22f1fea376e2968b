import QrAddon.Wire
import QrAddon.Handover
import QrAddon.Lib.ByteStream

/-!
# The package receiver

`recCustomerPack` after its socket is listening: it accepts a connection, takes the
result of every `recv` for a package, compares the package's id with the last one
of the connection and publishes a change. A step of the machine is the return of
the call that the receiver is waiting in.

Results:
1. `receiver_moves`: what the receiver publishes is what it does to the slot that
   it shares with the main loop.
2. `receiver_framing_iff`: the packages that the receiver compares are the records
   that were sent exactly when every `recv` returns a whole record.
3. `short_recv_shifts`: one short `recv` invents two packages.
-/

namespace QrAddon

open ByteStream (Piece)

/-- The call the receiver is waiting in. -/
inductive ReceiverPc
  | accepting
  | receiving
deriving DecidableEq, Repr

/-- The result of that call. -/
inductive RecIn
  | accepted (fd : ℤ)
  | received (r : Piece UInt8)

/-- The receiver: `sockFd`, the client descriptors that `accept` returned (none is ever
closed), `idRecord`, and the history of the packages it compared and published. -/
structure Receiver (R : Type) where
  pc : ReceiverPc
  sockFd : ℤ
  openFds : List ℤ
  idRecord : UInt32
  compared : List (Vector UInt8 32)
  published : List (CustomerPackage R)

def Receiver.start (R : Type) : Receiver R := ⟨.accepting, 0, [], 4294967295, [], []⟩

/-- `memset` and `recv`: the bytes that came, the rest zero. -/
def recvInto (b : List UInt8) : Vector UInt8 32 :=
  ⟨((b ++ List.replicate 32 0).take 32).toArray, by simp⟩

section

variable {R : Type} [Ring R] (ofBits : UInt64 → R)

/-- The body of the loop for a positive `rc`. -/
def comparePackage (s : Receiver R) (localPackage : Vector UInt8 32) : Receiver R :=
  let p := CustomerPackage.decode ofBits localPackage
  let s := { s with compared := s.compared ++ [localPackage] }
  if p.dmId ≠ s.idRecord then
    { s with idRecord := p.dmId, published := s.published ++ [p.published] }
  else s

def recCustomerPack (s : Receiver R) (i : RecIn) : Receiver R :=
  match s.pc, i with
  | .accepting, .accepted fd =>
    { s with
      pc := .receiving
      sockFd := fd
      openFds := if 0 ≤ fd then s.openFds ++ [fd] else s.openFds
      idRecord := 4294967295 }
  -- an error is logged, and the loop goes on with the same descriptor
  | .receiving, .received .error => s
  | .receiving, .received (.bytes []) => { s with pc := .accepting }
  | .receiving, .received (.bytes (a :: b)) => comparePackage ofBits s (recvInto (a :: b))
  -- not the call the receiver is waiting in
  | .accepting, .received _ => s
  | .receiving, .accepted _ => s

end

/-! ## The receiver as a thread of `Sys` -/

/-- The steps of `Sys` that a return amounts to. -/
def moves (ofBits : UInt64 → ℚ) (s : Receiver ℚ) (i : RecIn) : List Move :=
  match s.pc, i with
  | .accepting, .accepted _ => [.reconnect]
  | .receiving, .received (.bytes (a :: b)) =>
    [.receive (CustomerPackage.decode ofBits (recvInto (a :: b)))]
  | _, _ => []

/-- The receiver and the system agree on the last id and on what was published. -/
def Agree (r : Receiver ℚ) (s : Sys) : Prop :=
  r.idRecord = s.idRecord ∧ r.published = s.published

/-- A return of the receiver's call is its moves in the system. -/
theorem receiver_moves [Doubles] (cfg : Config ℚ) (account : Account) (ofBits : UInt64 → ℚ)
    {r : Receiver ℚ} {s : Sys} (h : Agree r s) (i : RecIn) :
    Agree (recCustomerPack ofBits r i) (Run.exec (sysStep cfg account) s (moves ofBits r i)) := by
  obtain ⟨hid, hpub⟩ := h
  unfold recCustomerPack moves
  cases hpc : r.pc with
  | accepting =>
    cases i with
    | accepted fd => exact ⟨rfl, hpub⟩
    | received p => exact ⟨hid, hpub⟩
  | receiving =>
    cases i with
    | accepted fd => exact ⟨hid, hpub⟩
    | received p =>
      cases p with
      | error => exact ⟨hid, hpub⟩
      | bytes b =>
        cases b with
        | nil => exact ⟨hid, hpub⟩
        | cons a b =>
          simp only [Run.exec_cons, Run.exec_nil, comparePackage, sysStep, hid]
          split
          · exact ⟨rfl, by rw [hpub]⟩
          · exact ⟨rfl, hpub⟩

/-! ## Records and pieces -/

namespace ReceiverLemmas

variable {R : Type} [Ring R] (ofBits : UInt64 → R)

theorem comparePackage_pc (s : Receiver R) (v : Vector UInt8 32) :
    (comparePackage ofBits s v).pc = s.pc := by
  simp only [comparePackage]
  split <;> rfl

theorem comparePackage_compared (s : Receiver R) (v : Vector UInt8 32) :
    (comparePackage ofBits s v).compared = s.compared ++ [v] := by
  simp only [comparePackage]
  split <;> rfl

/-- Every nonempty piece is compared as a package of its own. -/
theorem compared_pieces {s : Receiver R} (hs : s.pc = .receiving) {pieces : List (List UInt8)}
    (hp : ∀ b ∈ pieces, b ≠ []) :
    (Run.exec (recCustomerPack ofBits) s (pieces.map fun b => .received (.bytes b))).compared =
      s.compared ++ pieces.map recvInto := by
  induction pieces generalizing s with
  | nil => simp
  | cons b pieces ih =>
    obtain ⟨a, b', rfl⟩ := List.exists_cons_of_ne_nil (hp b (by simp))
    have hstep : recCustomerPack ofBits s (.received (.bytes (a :: b'))) =
        comparePackage ofBits s (recvInto (a :: b')) := by simp [recCustomerPack, hs]
    rw [List.map_cons, Run.exec_cons, hstep,
      ih ((comparePackage_pc ofBits s _).trans hs) fun b hb => hp b (by simp [hb]),
      comparePackage_compared]
    simp

theorem recvInto_toList (v : Vector UInt8 32) : recvInto v.toList = v := by
  obtain ⟨a, ha⟩ := v
  simp [recvInto, Vector.toList, ha]

end ReceiverLemmas

open ReceiverLemmas

/-- On a connection, with the records cut into nonempty pieces of at most the requested
32 bytes: the packages that the receiver compares are the records exactly when every
piece is a whole record. -/
theorem receiver_framing_iff {R : Type} [Ring R] (ofBits : UInt64 → R) {s : Receiver R}
    (hs : s.pc = .accepting) (fd : ℤ) {records : List (Vector UInt8 32)}
    {pieces : List (List UInt8)} (hp : ∀ b ∈ pieces, b ≠ [] ∧ b.length ≤ 32)
    (hsplit : pieces.flatten = (records.map Vector.toList).flatten) :
    (Run.exec (recCustomerPack ofBits) s
        (.accepted fd :: pieces.map fun b => .received (.bytes b))).compared =
      s.compared ++ records ↔ ∀ b ∈ pieces, b.length = 32 := by
  have haccept : (recCustomerPack ofBits s (.accepted fd)).pc = .receiving ∧
      (recCustomerPack ofBits s (.accepted fd)).compared = s.compared := by
    simp [recCustomerPack, hs]
  rw [Run.exec_cons, compared_pieces ofBits haccept.1 fun b hb => (hp b hb).1, haccept.2,
    List.append_cancel_left_eq]
  have hrecords : ∀ b ∈ records.map Vector.toList, b.length = 32 := by
    intro b hb
    obtain ⟨v, _, rfl⟩ := List.mem_map.mp hb
    exact v.size_toArray
  constructor
  · intro h
    -- as many pieces as records, so no piece can be short
    apply ByteStream.pieces_full fun b hb => (hp b hb).2
    have hcount : records.length = pieces.length := by rw [← h, List.length_map]
    have hsum : ∀ l ∈ (records.map Vector.toList).map List.length, l = 32 := by
      intro l hl
      obtain ⟨b, hb, rfl⟩ := List.mem_map.mp hl
      exact hrecords b hb
    rw [hsplit, List.length_flatten, List.eq_replicate_of_mem hsum, List.sum_replicate]
    simp [hcount, Nat.mul_comm]
  · intro h
    rw [ByteStream.blocks_eq (by decide) h hrecords hsplit, List.map_map]
    conv_rhs => rw [← List.map_id records]
    apply List.map_congr_left
    intro v _
    exact recvInto_toList v

/-- The code 7 at a deviation of 1 in x. -/
def exRecord : Vector UInt8 32 :=
  ⟨#[7, 0, 0, 0, 0, 0, 0, 0, 0, 0, 0, 0, 0, 0, 0xF0, 0x3F, 0, 0, 0, 0, 0, 0, 0, 0, 0, 0, 0, 0, 0,
    0, 0, 0], rfl⟩

theorem receiver_framing_exRecord :
    (Run.exec (recCustomerPack finiteDouble) (Receiver.start ℚ)
        (.accepted 5 :: [exRecord.toList].map fun b => .received (.bytes b))).compared =
      [exRecord] := by
  have hpieces : ∀ b ∈ [exRecord.toList], b ≠ [] ∧ b.length ≤ 32 := by decide
  have hsplit : [exRecord.toList].flatten = ([exRecord].map Vector.toList).flatten := rfl
  exact (receiver_framing_iff finiteDouble (s := Receiver.start ℚ) rfl 5 hpieces hsplit).mpr
    (by decide)

/-- The record comes as 4 and 28 bytes. The receiver publishes the code 7 without a
deviation, and then the code 0, which nobody sent. -/
theorem short_recv_shifts :
    let s := Run.exec (recCustomerPack finiteDouble) (Receiver.start ℚ)
      (.accepted 5 :: [exRecord.toList.take 4, exRecord.toList.drop 4].map
        fun b => .received (.bytes b))
    s.compared ≠ [exRecord] ∧ s.published.map (·.dmId) = [7, 0] ∧
      (s.published.map (·.deviationX)).head? = some 0 := by
  decide +kernel

end QrAddon
