import Mathlib.Data.Fin.Basic
import Mathlib.Data.Nat.Bitwise
import Mathlib.Logic.Function.Basic

/-! The key bit vector of the keyboard driver and its table of ADB key codes. -/
namespace Keyboard

/-- The `unsigned int keyCode` of the driver, always seven bits of a scan code. -/
abbrev KeyCode := Fin 128

instance neZeroKeyCodes : NeZero 128 := ⟨by decide⟩

/-- `UInt32 _keyBitVector[KBV_NUNITS]`. -/
abbrev KeyBitVector := Fin 4 → BitVec 32

def KBV_BITS_MASK : ℕ := 31
def KBV_BITS_SHIFT : ℕ := 5

/-- The ADB codes by key code, eight in a line; `0x80` is `DEADKEY`. -/
def PS2ToADBMap : Vector UInt8 0x82 :=
  #v[
    0x80, 0x35, 0x12, 0x13, 0x14, 0x15, 0x17, 0x16,
    0x1a, 0x1c, 0x19, 0x1d, 0x1b, 0x18, 0x33, 0x30,
    0x0c, 0x0d, 0x0e, 0x0f, 0x11, 0x10, 0x20, 0x22,
    0x1f, 0x23, 0x21, 0x1e, 0x24, 0x3b, 0x00, 0x01,
    0x02, 0x03, 0x05, 0x04, 0x26, 0x28, 0x25, 0x29,
    0x27, 0x32, 0x38, 0x2a, 0x06, 0x07, 0x08, 0x09,
    0x0b, 0x2d, 0x2e, 0x2b, 0x2f, 0x2c, 0x3c, 0x43,
    0x3a, 0x31, 0x39, 0x7a, 0x78, 0x63, 0x76, 0x60,
    0x61, 0x62, 0x64, 0x65, 0x6d, 0x47, 0x6b, 0x59,
    0x5b, 0x5c, 0x4e, 0x56, 0x57, 0x58, 0x45, 0x53,
    0x54, 0x55, 0x52, 0x41, 0x80, 0x80, 0x0a, 0x67,
    0x6f, 0x80, 0x80, 0x80, 0x80, 0x80, 0x80, 0x80,
    0x3e, 0x3d, 0x4c, 0x4b, 0x7e, 0x7d, 0x7b, 0x7c,
    0x72, 0x75, 0x74, 0x79, 0x73, 0x77, 0x69, 0x71,
    0x37, 0x36, 0x6e, 0x5e, 0x80, 0x80, 0x80, 0x80,
    0x80, 0x80, 0x80, 0x80, 0x7f, 0x48, 0x49, 0x4a,
    0x00, 0x00]

def KeyCode.adbKeyCode (n : KeyCode) : UInt8 := PS2ToADBMap[n.val]

def unit (n : KeyCode) : Fin 4 :=
  ⟨n.val >>> KBV_BITS_SHIFT, by simp only [KBV_BITS_SHIFT]; omega⟩

def mask (n : KeyCode) : BitVec 32 := 1 <<< (n.val &&& KBV_BITS_MASK)

def kbvKeydown (n : KeyCode) (bits : KeyBitVector) : KeyBitVector :=
  Function.update bits (unit n) (bits (unit n) ||| mask n)

def kbvKeyup (n : KeyCode) (bits : KeyBitVector) : KeyBitVector :=
  Function.update bits (unit n) (bits (unit n) &&& ~~~ mask n)

def kbvIsKeydown (n : KeyCode) (bits : KeyBitVector) : Bool := bits (unit n) &&& mask n != 0

def noKeys : KeyBitVector := fun _ => 0

theorem unit_val (n : KeyCode) : (unit n).val = n.val / 32 := Nat.shiftRight_eq_div_pow n.val 5

theorem mask_eq (n : KeyCode) : mask n = BitVec.twoPow 32 (n.val % 32) := by
  have hmod : n.val &&& KBV_BITS_MASK = n.val % 32 := Nat.and_two_pow_sub_one_eq_mod n.val 5
  rw [mask, hmod]
  rfl

theorem eq_of_unit_of_mod {m n : KeyCode} (hunit : unit m = unit n) (hmod : m.val % 32 = n.val % 32) :
    m = n := by
  have hdiv := congrArg Fin.val hunit
  rw [unit_val, unit_val] at hdiv
  apply Fin.ext
  omega

theorem kbvIsKeydown_eq (n : KeyCode) (bits : KeyBitVector) :
    kbvIsKeydown n bits = (bits (unit n)).getLsbD (n.val % 32) := by
  have hlt : n.val % 32 < 32 := Nat.mod_lt _ (by decide)
  rw [kbvIsKeydown, mask_eq, BitVec.and_twoPow]
  cases h : (bits (unit n)).getLsbD (n.val % 32) with
  | false => rfl
  | true =>
    rw [if_pos rfl, bne_iff_ne]
    intro hzero
    have hbit := congrArg (fun x => x.getLsbD (n.val % 32)) hzero
    simp [hlt] at hbit

theorem mask_getLsbD {m n : KeyCode} (hunit : unit m = unit n) :
    (mask n).getLsbD (m.val % 32) = decide (m = n) := by
  have hiff : n.val % 32 = m.val % 32 ↔ m = n :=
    ⟨fun h => eq_of_unit_of_mod hunit h.symm, fun h => by rw [h]⟩
  have hlt : n.val % 32 < 32 := Nat.mod_lt _ (by decide)
  rw [mask_eq, BitVec.getLsbD_twoPow]
  simp [hiff, hlt]

@[simp] theorem kbvIsKeydown_kbvKeydown (m n : KeyCode) (bits : KeyBitVector) :
    kbvIsKeydown m (kbvKeydown n bits) = (kbvIsKeydown m bits || decide (m = n)) := by
  simp only [kbvIsKeydown_eq, kbvKeydown]
  by_cases hunit : unit m = unit n
  · rw [hunit, Function.update_self, BitVec.getLsbD_or, mask_getLsbD hunit]
  · have hne : m ≠ n := fun h => hunit (congrArg unit h)
    rw [Function.update_of_ne hunit]
    simp [hne]

@[simp] theorem kbvIsKeydown_kbvKeyup (m n : KeyCode) (bits : KeyBitVector) :
    kbvIsKeydown m (kbvKeyup n bits) = (kbvIsKeydown m bits && !decide (m = n)) := by
  have hlt : m.val % 32 < 32 := Nat.mod_lt _ (by decide)
  simp only [kbvIsKeydown_eq, kbvKeyup]
  by_cases hunit : unit m = unit n
  · rw [hunit, Function.update_self, BitVec.getLsbD_and, BitVec.getLsbD_not, mask_getLsbD hunit,
      decide_eq_true hlt, Bool.true_and]
  · have hne : m ≠ n := fun h => hunit (congrArg unit h)
    rw [Function.update_of_ne hunit]
    simp [hne]

@[simp] theorem kbvIsKeydown_noKeys (n : KeyCode) : kbvIsKeydown n noKeys = false := by
  simp [kbvIsKeydown_eq, noKeys]

/-- The key codes number the bits of the vector. -/
theorem keyBitVector_ext {xs ys : KeyBitVector} (h : ∀ n, kbvIsKeydown n xs = kbvIsKeydown n ys) :
    xs = ys := by
  funext i
  apply BitVec.eq_of_getLsbD_eq
  intro j hj
  have hn := h ⟨32 * i.val + j, by omega⟩
  have hunit : unit ⟨32 * i.val + j, by omega⟩ = i := by
    apply Fin.ext
    rw [unit_val]
    show (32 * i.val + j) / 32 = i.val
    omega
  have hmod : (32 * i.val + j) % 32 = j := by omega
  rw [kbvIsKeydown_eq, kbvIsKeydown_eq, hunit, hmod] at hn
  exact hn

/-- A vector in which no key is down is all zero. -/
theorem eq_noKeys {bits : KeyBitVector} (h : ∀ n, kbvIsKeydown n bits = false) : bits = noKeys :=
  keyBitVector_ext fun n => by rw [h, kbvIsKeydown_noKeys]

end Keyboard
