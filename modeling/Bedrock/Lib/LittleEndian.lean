/-
  Fixed-width little-endian numbers over byte lists.

  `toLE w v` writes `v mod 256^w` in `w` bytes, least significant first; `ofLE` reads any byte list
  back.  The two are inverse in both directions (`ofLE_toLE`, `toLE_ofLE`), which is all a binary
  format with fixed-width fields needs: the value determines the bytes and the bytes the value.
-/
import Mathlib

namespace Lib.LittleEndian

/-- `v` in `w` bytes, least significant byte first. -/
def toLE : Nat → Nat → List UInt8
  | 0, _ => []
  | w + 1, v => UInt8.ofNat (v % 256) :: toLE w (v / 256)

/-- The number a byte list spells, least significant byte first. -/
def ofLE : List UInt8 → Nat
  | [] => 0
  | b :: bs => b.toNat + 256 * ofLE bs

@[simp] theorem length_toLE (w v : Nat) : (toLE w v).length = w := by
  induction w generalizing v with
  | zero => rfl
  | succ w ih => rw [toLE, List.length_cons, ih]

/-- **Reading back what was written**: the value, reduced to the width. -/
theorem ofLE_toLE (w v : Nat) : ofLE (toLE w v) = v % 256 ^ w := by
  induction w generalizing v with
  | zero => simp [toLE, ofLE, Nat.mod_one]
  | succ w ih =>
    have hb : (UInt8.ofNat (v % 256)).toNat = v % 256 := by
      simp
    rw [toLE, ofLE, ih, hb, Nat.pow_succ, Nat.mul_comm (256 ^ w) 256, Nat.mod_mul]

theorem ofLE_toLE_of_lt {w v : Nat} (h : v < 256 ^ w) : ofLE (toLE w v) = v := by
  rw [ofLE_toLE, Nat.mod_eq_of_lt h]

/-- **Writing back what was read**: every byte is forced by the value. -/
theorem toLE_ofLE {w : Nat} {bs : List UInt8} (h : bs.length = w) : toLE w (ofLE bs) = bs := by
  induction bs generalizing w with
  | nil => subst h; rfl
  | cons b bs ih =>
    subst h
    have hb := b.toNat_lt
    have hmod : (b.toNat + 256 * ofLE bs) % 256 = b.toNat := by omega
    have hdiv : (b.toNat + 256 * ofLE bs) / 256 = ofLE bs := by omega
    rw [List.length_cons, ofLE, toLE, hmod, hdiv, ih rfl, UInt8.ofNat_toNat]

/-- Two numbers that fit the width and are written alike are equal. -/
theorem toLE_inj {w v v' : Nat} (hv : v < 256 ^ w) (hv' : v' < 256 ^ w)
    (h : toLE w v = toLE w v') : v = v' := by
  rw [← ofLE_toLE_of_lt hv, h, ofLE_toLE_of_lt hv']

end Lib.LittleEndian
