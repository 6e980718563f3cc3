import Mathlib.Data.BitVec
import Mathlib.Logic.Function.Basic

/-! Registers of different widths that several writers share: each writes some of the bits of a
register, and leaves the others as it has read them. -/
namespace Registers

/-- The bits of the mask are taken from the data. -/
def setBits {w : ℕ} (x data mask : BitVec w) : BitVec w := x &&& ~~~mask ||| mask &&& data

variable {w : ℕ} {x y data mask share : BitVec w}

theorem and_congr_of_subset (h : x &&& share = y &&& share) (hmask : mask &&& share = mask) :
    x &&& mask = y &&& mask := by
  rw [← hmask, BitVec.and_comm mask, ← BitVec.and_assoc, h, BitVec.and_assoc]

theorem setBits_and_of_subset (h : share &&& mask = share) :
    setBits x data mask &&& share = data &&& share := by
  rw [setBits]
  ext i hi
  have hbit := congrArg (fun v => v.getLsbD i) h
  simp only [BitVec.getLsbD_eq_getElem hi, BitVec.getElem_and, BitVec.getElem_or,
    BitVec.getElem_not] at hbit ⊢
  grind

theorem setBits_and_of_disjoint (h : share &&& mask = 0) :
    setBits x data mask &&& share = x &&& share := by
  rw [setBits]
  ext i hi
  have hbit := congrArg (fun v => v.getLsbD i) h
  simp only [BitVec.getLsbD_eq_getElem hi, BitVec.getElem_and, BitVec.getElem_or,
    BitVec.getElem_not, BitVec.getElem_zero, BitVec.ofNat_eq_ofNat] at hbit ⊢
  grind

/-- Bits that are put where they were cleared. -/
theorem clear_or_eq_setBits (h : data &&& mask = data) :
    x &&& ~~~mask ||| data = setBits x data mask := by
  rw [setBits, BitVec.and_comm mask, h]

theorem clear_or_and_self (h : data &&& mask = data) :
    (x &&& ~~~mask ||| data) &&& mask = data := by
  rw [clear_or_eq_setBits h, setBits_and_of_subset (BitVec.and_self ..), h]

theorem clear_or_and_of_disjoint (h : data &&& mask = data) (hshare : share &&& mask = 0) :
    (x &&& ~~~mask ||| data) &&& share = x &&& share := by
  rw [clear_or_eq_setBits h, setBits_and_of_disjoint hshare]

theorem clear_and_self : x &&& ~~~mask &&& mask = 0 := by
  rw [BitVec.and_assoc, BitVec.not_and_self]
  exact BitVec.and_zero

theorem clear_and_of_disjoint (h : share &&& mask = 0) : x &&& ~~~mask &&& share = x &&& share := by
  have hset : setBits x (0#w) mask &&& share = x &&& share := setBits_and_of_disjoint h
  rwa [setBits, BitVec.and_zero, BitVec.or_zero] at hset

variable {ρ : Type*} {bits : ρ → ℕ}

/-- The contents of the registers. -/
abbrev File (bits : ρ → ℕ) := (r : ρ) → BitVec (bits r)

variable {file values shares : File bits} {stale : ρ → Prop}

/-- In its share of the bits, a writer finds its values in all registers but the stale ones. -/
def Holds (shares values : File bits) (stale : ρ → Prop) (file : File bits) : Prop :=
  ∀ r, ¬stale r → file r &&& shares r = values r &&& shares r

variable [DecidableEq ρ]

def File.write (file : File bits) (r : ρ) (data mask : BitVec (bits r)) : File bits :=
  Function.update file r (setBits (file r) data mask)

theorem File.write_self (file : File bits) (r : ρ) (data mask : BitVec (bits r)) :
    file.write r data mask r = setBits (file r) data mask := Function.update_self ..

theorem File.write_of_ne {r r' : ρ} (h : r' ≠ r) (file : File bits) (data mask : BitVec (bits r)) :
    file.write r data mask r' = file r' := Function.update_of_ne h ..

/-- A writer that writes its share of a register finds its value there. -/
theorem Holds.write_own (h : Holds shares values stale file) {r : ρ} {mask : BitVec (bits r)}
    (hmask : shares r &&& mask = shares r) {stale' : ρ → Prop}
    (hstale : ∀ r', r' ≠ r → stale r' → stale' r') :
    Holds shares values stale' (file.write r (values r) mask) := by
  intro r' hr'
  by_cases hr : r' = r
  · subst hr
    rw [File.write_self, setBits_and_of_subset hmask]
  · rw [File.write_of_ne hr]
    exact h r' fun hin => hr' (hstale r' hr hin)

/-- A writer does not see the others write to their shares. -/
theorem Holds.write_other (h : Holds shares values stale file) {r : ρ} {mask : BitVec (bits r)}
    (hmask : shares r &&& mask = 0) (data : BitVec (bits r)) :
    Holds shares values stale (file.write r data mask) := by
  intro r' hr'
  by_cases hr : r' = r
  · subst hr
    rw [File.write_self, setBits_and_of_disjoint hmask]
    exact h r' hr'
  · rw [File.write_of_ne hr]
    exact h r' hr'

/-- Neither does it see a whole register written with the bits that it holds. -/
theorem Holds.overwrite (h : Holds shares values stale file) {r : ρ} {word : BitVec (bits r)}
    (hword : ¬stale r → word &&& shares r = file r &&& shares r) :
    Holds shares values stale (Function.update file r word) := by
  intro r' hr'
  by_cases hr : r' = r
  · subst hr
    rw [Function.update_self, hword hr']
    exact h r' hr'
  · rw [Function.update_of_ne hr]
    exact h r' hr'

end Registers
