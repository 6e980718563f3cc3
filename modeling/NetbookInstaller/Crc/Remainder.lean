import Mathlib

/-! Cyclic redundancy checks of any width: the shift register that takes in a message bit by
bit holds the remainder of a division of polynomials over the field of two elements. -/
namespace Crc

open Polynomial

variable {w : ℕ}

/-- The shift register takes in a bit at its upper end. -/
def shift (g crc : BitVec w) (b : Bool) : BitVec w :=
  (crc <<< 1) ^^^ (if crc.msb ^^ b then g else 0#w)

def feed (g crc : BitVec w) (bits : List Bool) : BitVec w := bits.foldl (shift g) crc

theorem feed_append (g crc : BitVec w) (bits bits' : List Bool) :
    feed g crc (bits ++ bits') = feed g (feed g crc bits) bits' := List.foldl_append

/-- The coefficient that stands for a bit. -/
def coefficient (b : Bool) : ZMod 2 := if b then 1 else 0

/-- The polynomial of degree below `w` whose coefficients are the bits. -/
noncomputable def ofBits (v : BitVec w) : (ZMod 2)[X] :=
  ∑ i ∈ Finset.range w, C (coefficient (v.getLsbD i)) * X ^ i

/-- The polynomial of a message; the first bit has the highest power. -/
noncomputable def message : List Bool → (ZMod 2)[X]
  | [] => 0
  | b :: bits => C (coefficient b) * X ^ bits.length + message bits

/-- The polynomial that is divided by; its highest power is not among the bits. -/
noncomputable def generator (g : BitVec w) : (ZMod 2)[X] := X ^ w + ofBits g

theorem coefficient_xor (a b : Bool) : coefficient (a ^^ b) = coefficient a + coefficient b := by
  cases a <;> cases b <;> decide

theorem coeff_ofBits (v : BitVec w) (i : ℕ) : (ofBits v).coeff i = coefficient (v.getLsbD i) := by
  simp only [ofBits, finsetSum_coeff, coeff_C_mul_X_pow]
  by_cases hi : i < w
  · rw [Finset.sum_eq_single_of_mem i (Finset.mem_range.mpr hi) fun j _ hj => if_neg hj.symm,
      if_pos rfl]
  · rw [BitVec.getLsbD_of_ge v i (not_lt.mp hi)]
    exact Finset.sum_eq_zero fun j hj => if_neg (by have := Finset.mem_range.mp hj; omega)

theorem degree_ofBits_lt (v : BitVec w) : (ofBits v).degree < w := by
  refine (degree_lt_iff_coeff_zero _ _).mpr fun i hi => ?_
  rw [coeff_ofBits, BitVec.getLsbD_of_ge v i hi]
  rfl

theorem ofBits_xor (u v : BitVec w) : ofBits (u ^^^ v) = ofBits u + ofBits v := by
  ext i
  rw [coeff_add, coeff_ofBits, coeff_ofBits, coeff_ofBits, BitVec.getLsbD_xor, coefficient_xor]

theorem ofBits_zero : ofBits (0#w) = 0 := by
  ext i
  rw [coeff_ofBits, BitVec.getLsbD_zero, coeff_zero]
  rfl

/-- A shift multiplies by `X` and drops the power that leaves the register. -/
theorem X_mul_ofBits (v : BitVec w) :
    X * ofBits v = ofBits (v <<< 1) + C (coefficient v.msb) * X ^ w := by
  ext i
  cases i with
  | zero =>
    rw [coeff_X_mul_zero, coeff_add, coeff_ofBits, coeff_C_mul_X_pow, BitVec.getLsbD_shiftLeft]
    by_cases hw : 0 = w
    · subst hw
      rw [BitVec.of_length_zero (x := v)]
      simp [coefficient]
    · rw [if_neg hw]
      simp [coefficient]
  | succ i =>
    rw [coeff_X_mul, coeff_add, coeff_ofBits, coeff_ofBits, coeff_C_mul_X_pow,
      BitVec.getLsbD_shiftLeft]
    obtain hlt | heq | hgt := lt_trichotomy (i + 1) w
    · rw [if_neg hlt.ne, add_zero]
      simp [hlt]
    · subst heq
      rw [if_pos rfl, BitVec.msb_eq_getLsbD_last]
      simp [coefficient]
    · rw [if_neg hgt.ne', BitVec.getLsbD_of_ge v i (by omega)]
      simp [coefficient, hgt.le]

theorem monic_generator (g : BitVec w) : (generator g).Monic :=
  monic_X_pow_add (degree_ofBits_lt g)

theorem degree_generator (g : BitVec w) : (generator g).degree = w := by
  rw [generator, degree_add_eq_left_of_degree_lt, degree_X_pow]
  rw [degree_X_pow]
  exact degree_ofBits_lt g

/-- One bit: the register is multiplied by `X`, the bit comes in above it, and the generator
goes out if it fits in. -/
theorem ofBits_shift (g crc : BitVec w) (b : Bool) :
    ofBits (shift g crc b) + generator g * C (coefficient (crc.msb ^^ b)) =
      X * ofBits crc + C (coefficient b) * X ^ w := by
  have hsum : ofBits (if crc.msb ^^ b then g else 0#w) =
      ofBits g * C (coefficient (crc.msb ^^ b)) := by
    cases crc.msb ^^ b with
    | false => rw [if_neg Bool.false_ne_true, ofBits_zero, coefficient, if_neg Bool.false_ne_true,
        C_0, mul_zero]
    | true => rw [if_pos rfl, coefficient, if_pos rfl, C_1, mul_one]
  have htwo : ofBits g * C (coefficient (crc.msb ^^ b)) +
      ofBits g * C (coefficient (crc.msb ^^ b)) = 0 := CharTwo.add_self_eq_zero _
  rw [shift, ofBits_xor, hsum, generator, X_mul_ofBits]
  rw [coefficient_xor, C_add] at htwo ⊢
  linear_combination htwo

/-- After a whole message the register holds the remainder of what it held before, moved up by
the length of the message, and of the message above the register. -/
theorem ofBits_feed (g : BitVec w) (bits : List Bool) : ∀ crc : BitVec w,
    ofBits (feed g crc bits) =
      (ofBits crc * X ^ bits.length + message bits * X ^ w) %ₘ generator g := by
  induction bits with
  | nil =>
    intro crc
    rw [feed, List.foldl_nil, message, List.length_nil, pow_zero, mul_one, zero_mul, add_zero]
    refine ((modByMonic_eq_self_iff (monic_generator g)).mpr ?_).symm
    rw [degree_generator]
    exact degree_ofBits_lt crc
  | cons b bits ih =>
    intro crc
    have hshift := ofBits_shift g crc b
    have hsplit : ofBits crc * X ^ (b :: bits).length + message (b :: bits) * X ^ w =
        ofBits (shift g crc b) * X ^ bits.length + message bits * X ^ w +
          generator g * (C (coefficient (crc.msb ^^ b)) * X ^ bits.length) := by
      rw [List.length_cons, message]
      linear_combination (-X ^ bits.length) * hshift
    rw [feed, List.foldl_cons, ← feed, ih, hsplit, add_modByMonic _ (generator g * _),
      self_mul_modByMonic (monic_generator g), add_zero]

end Crc
