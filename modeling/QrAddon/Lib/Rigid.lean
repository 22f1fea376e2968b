import Mathlib

/-!
# Rigid motions of the plane

A motion turns by `rot` and then moves by `trans`; headings are rotations, so they
have no winding number. The motions are a group under composition. `add` and `sub` are the
sum and the difference taken component by component, which programs that treat a pose
as three numbers use in place of the group; `add_eq_mul_iff` and `sub_relative` say when
they agree with it.
-/

@[ext] structure Rigid where
  trans : ℂ
  rot : Circle

namespace Rigid

noncomputable instance : Mul Rigid := ⟨fun a b => ⟨a.trans + a.rot * b.trans, a.rot * b.rot⟩⟩
noncomputable instance : One Rigid := ⟨⟨0, 1⟩⟩
noncomputable instance : Inv Rigid := ⟨fun a => ⟨-((a.rot⁻¹ : Circle) * a.trans), a.rot⁻¹⟩⟩

@[simp] theorem mul_trans (a b : Rigid) : (a * b).trans = a.trans + a.rot * b.trans := rfl
@[simp] theorem mul_rot (a b : Rigid) : (a * b).rot = a.rot * b.rot := rfl
@[simp] theorem one_trans : (1 : Rigid).trans = 0 := rfl
@[simp] theorem one_rot : (1 : Rigid).rot = 1 := rfl
@[simp] theorem inv_trans (a : Rigid) : a⁻¹.trans = -((a.rot⁻¹ : Circle) * a.trans) := rfl
@[simp] theorem inv_rot (a : Rigid) : a⁻¹.rot = a.rot⁻¹ := rfl

noncomputable instance : Group Rigid :=
  Group.ofLeftAxioms
    (by intro a b c; ext1 <;> simp [mul_assoc, mul_add, add_assoc])
    (by intro a; ext1 <;> simp)
    (by intro a; ext1 <;> simp)

/-- The sum component by component. -/
noncomputable def add (a b : Rigid) : Rigid := ⟨a.trans + b.trans, a.rot * b.rot⟩

/-- The difference component by component. -/
noncomputable def sub (a b : Rigid) : Rigid := ⟨a.trans - b.trans, a.rot * b.rot⁻¹⟩

/-- The sum of two motions is their composition through a third, `c`, exactly when `c`
does not turn and the first motion's turn takes the other two offsets together to the
last one. -/
theorem add_eq_mul_iff (p c s : Rigid) :
    p.add s = p * c * s ↔ c.rot = 1 ∧ s.trans = p.rot * (c.trans + s.trans) := by
  have hrot : p.rot * s.rot = p.rot * c.rot * s.rot ↔ c.rot = 1 := by
    rw [mul_left_inj, left_eq_mul]
  rw [Rigid.ext_iff, and_comm]
  simp only [add, mul_trans, mul_rot, Circle.coe_mul]
  rw [hrot]
  constructor
  · rintro ⟨hc, htrans⟩
    refine ⟨hc, ?_⟩
    rw [hc, Circle.coe_one] at htrans
    linear_combination htrans
  · rintro ⟨hc, htrans⟩
    refine ⟨hc, ?_⟩
    rw [hc, Circle.coe_one]
    linear_combination htrans

/-- Turning back a turned vector. -/
theorem rot_inv_mul_eq_iff (r : Circle) (v w : ℂ) : (r⁻¹ : Circle) * v = w ↔ v = r * w := by
  have hr : (r : ℂ) ≠ 0 := r.coe_ne_zero
  rw [Circle.coe_inv, inv_mul_eq_iff_eq_mul₀ hr]

/-- Seen from `p` through the mounting `c`, the motion `q` is `q⁻¹ * p * c`. Taking this
away from `p` component by component gives `q` back exactly when the mounting does not
turn and the turn of `q` moves the vector from `q` to `p` by the mounting's offset. -/
theorem sub_relative (q p c : Rigid) :
    p.sub (q⁻¹ * p * c) = q ↔
      c.rot = 1 ∧ q.rot * (p.trans - q.trans) = (p.trans - q.trans) + p.rot * c.trans := by
  have htrans : (q⁻¹ * p * c).trans =
      (q.rot⁻¹ : Circle) * (p.trans - q.trans + p.rot * c.trans) := by
    simp only [mul_trans, mul_rot, inv_trans, inv_rot, Circle.coe_mul]
    ring
  have hrot : p.rot * (q⁻¹ * p * c).rot⁻¹ = c.rot⁻¹ * q.rot := by
    simp only [mul_rot, inv_rot, mul_inv_rev, inv_inv]
    rw [mul_comm, mul_assoc, mul_assoc, mul_comm q.rot, inv_mul_cancel_left]
  rw [Rigid.ext_iff, and_comm]
  refine and_congr ?_ ?_
  · rw [sub, hrot]
    exact ⟨fun h => by simpa using h, fun h => by simp [h]⟩
  · rw [sub, htrans]
    have hswap : p.trans - (q.rot⁻¹ : Circle) * (p.trans - q.trans + p.rot * c.trans) = q.trans ↔
        (q.rot⁻¹ : Circle) * (p.trans - q.trans + p.rot * c.trans) = p.trans - q.trans := by
      constructor
      · intro h
        linear_combination -h
      · intro h
        linear_combination -h
    rw [hswap, rot_inv_mul_eq_iff]
    exact eq_comm

end Rigid
