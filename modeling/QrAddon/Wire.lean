import QrAddon.Data

/-!
# Records as bytes

The layouts of the structs that come over sockets, on a little-endian 64-bit host.
What a `double` is worth is a parameter `ofBits`; `finiteDouble` is the one of the
finite doubles.
-/

namespace QrAddon

/-- An unsigned number, least significant byte first. -/
def leNat : List UInt8 → ℕ
  | [] => 0
  | a :: b => a.toNat + 256 * leNat b

theorem leNat_eq_ofDigits (b : List UInt8) : leNat b = Nat.ofDigits 256 (b.map UInt8.toNat) := by
  induction b with
  | nil => rfl
  | cons a b ih =>
    rw [leNat, ih, List.map_cons, Nat.ofDigits_cons]

theorem leNat_lt (b : List UInt8) : leNat b < 256 ^ b.length := by
  rw [leNat_eq_ofDigits, ← List.length_map UInt8.toNat]
  refine Nat.ofDigits_lt_base_pow_length (by decide) ?_
  intro x hx
  obtain ⟨a, _, rfl⟩ := List.mem_map.mp hx
  exact a.toNat_lt

/-- The `len` bytes from offset `off` on. -/
def field (b : List UInt8) (off len : ℕ) : List UInt8 := (b.drop off).take len

def readUInt32 (b : List UInt8) : UInt32 := UInt32.ofNat (leNat b)

def readInt32 (b : List UInt8) : ℤ := Int.bmod (leNat b) (2 ^ 32)

variable {R : Type} (ofBits : UInt64 → R)

def readDouble (b : List UInt8) : R := ofBits (UInt64.ofNat (leNat b))

/-- `CustomerPackage`: the compiler pads `dmId` to 8 bytes. -/
def CustomerPackage.decode (b : Vector UInt8 32) : CustomerPackage R where
  dmId := readUInt32 (field b.toList 0 4)
  deviationX := readDouble ofBits (field b.toList 8 8)
  deviationY := readDouble ofBits (field b.toList 16 8)
  deviationA := readDouble ofBits (field b.toList 24 8)

/-- The pose part of a `PoseMessage`, which is packed. -/
def poseMessagePose (b : List UInt8) : DmPose R where
  x := readDouble ofBits (field b 28 8)
  y := readDouble ofBits (field b 36 8)
  yaw := readDouble ofBits (field b 44 8)

/-- The state of a `PoseMessage`. -/
def poseMessageState (b : List UInt8) : ℤ := readInt32 (field b 24 4)

/-- The value of a finite binary64. -/
def finiteDouble (u : UInt64) : ℚ :=
  let e : ℕ := u.toNat / 2 ^ 52 % 2 ^ 11
  let f : ℚ := (u.toNat % 2 ^ 52 : ℕ)
  (if u.toNat < 2 ^ 63 then 1 else -1) *
    if e = 0 then f / 2 ^ 1074 else (2 ^ 52 + f) * 2 ^ e / 2 ^ 1075

example : finiteDouble 0x3FF8000000000000 = 3 / 2 := by decide +kernel

end QrAddon
