/-
  `slhwid/core.py`, derivation: the share coordinate of a slot, the check word and the identifier of
  a key, and the threshold rule.

  What is needed of SHA-256 beyond its length (that two keys have different check words, that the
  coordinates of some slots differ) is stated where a result needs it.
-/
import Bedrock.Lib.LittleEndian
import Bedrock.Python.Base64
import Bedrock.Python.Hash
import Bedrock.Slhwid.Field

open Lib.Fallible Lib.LittleEndian Bedrock.Python

namespace Bedrock.Slhwid

/-- Four field elements: a key, or one slot's share of it. -/
abbrev Limbs := Fin 4 → Nat

/-- As for `CodePoint`: the instance the limbs' indices rest on. -/
instance limb_neZero : NeZero 4 := ⟨by decide⟩

/-- Every limb is a reduced field element. -/
def Limbs.Reduced (k : Limbs) : Prop := ∀ i, k i < P

/-- Four comparisons. -/
instance (k : Limbs) : Decidable k.Reduced := inferInstanceAs (Decidable (∀ i, k i < P))

/-- `tuple(f(limb) for limb in range(4))` with a body that may raise. -/
def forLimbs {ε : Type} (f : Fin 4 → Except ε Nat) : Except ε Limbs := do
  let a ← f 0
  let b ← f 1
  let c ← f 2
  let d ← f 3
  return ![a, b, c, d]

/-- Limb by limb: four results are one. -/
theorem forLimbs_ok {ε : Type} {f : Fin 4 → Except ε Nat} {k : Limbs}
    (h : ∀ i, f i = .ok (k i)) : forLimbs f = .ok k := by
  rw [forLimbs, h 0, h 1, h 2, h 3]
  show Except.ok _ = Except.ok _
  congr 1
  funext i
  fin_cases i <;> rfl

theorem forLimbs_eq_ok {ε : Type} {f : Fin 4 → Except ε Nat} {k : Limbs} :
    forLimbs f = .ok k ↔ ∀ i, f i = .ok (k i) := by
  refine ⟨fun h => ?_, forLimbs_ok⟩
  obtain ⟨a, ha, h⟩ := bind_eq_ok.mp h
  obtain ⟨b, hb, h⟩ := bind_eq_ok.mp h
  obtain ⟨c, hc, h⟩ := bind_eq_ok.mp h
  obtain ⟨d, hd, h⟩ := bind_eq_ok.mp h
  obtain rfl := Except.ok.inj h
  intro i
  fin_cases i
  · exact ha
  · exact hb
  · exact hc
  · exact hd

/-! ## Key encodings -/

/-- One `Q` of `struct.pack("<4Q", ...)`. -/
def packQ (v : Nat) : Except Exc Bytes := if v < 2 ^ 64 then .ok (toLE 8 v) else .error .structError

/-- `struct.pack("<4Q", *k)`. -/
def packLimbs (k : Limbs) : Except Exc Bytes := do
  let a ← packQ (k 0)
  let b ← packQ (k 1)
  let c ← packQ (k 2)
  let d ← packQ (k 3)
  return a ++ b ++ c ++ d

/-- The 32 bytes of four limbs that fit. -/
def limbBytes (k : Limbs) : Bytes := toLE 8 (k 0) ++ toLE 8 (k 1) ++ toLE 8 (k 2) ++ toLE 8 (k 3)

@[simp] theorem length_limbBytes (k : Limbs) : (limbBytes k).length = 32 := by simp [limbBytes]

/-- `struct.pack("<Q", v)` returns exactly below 2^64. -/
theorem packQ_eq_ok {v : Nat} {b : Bytes} : packQ v = .ok b ↔ v < 2 ^ 64 ∧ b = toLE 8 v := by
  unfold packQ
  split
  · rename_i h
    exact ⟨fun hb => ⟨h, (Except.ok.inj hb).symm⟩, fun hb => by rw [hb.2]⟩
  · rename_i h
    exact ⟨(fun hb => nomatch hb), fun hb => absurd hb.1 h⟩

/-- The limbs are packed when they fit eight bytes each. -/
theorem packLimbs_eq_ok {k : Limbs} {b : Bytes} :
    packLimbs k = .ok b ↔ (∀ i, k i < 2 ^ 64) ∧ b = limbBytes k := by
  constructor
  · intro h
    obtain ⟨_, ha, h⟩ := bind_eq_ok.mp h
    obtain ⟨_, hb, h⟩ := bind_eq_ok.mp h
    obtain ⟨_, hc, h⟩ := bind_eq_ok.mp h
    obtain ⟨_, hd, h⟩ := bind_eq_ok.mp h
    obtain ⟨ha', rfl⟩ := packQ_eq_ok.mp ha
    obtain ⟨hb', rfl⟩ := packQ_eq_ok.mp hb
    obtain ⟨hc', rfl⟩ := packQ_eq_ok.mp hc
    obtain ⟨hd', rfl⟩ := packQ_eq_ok.mp hd
    refine ⟨fun i => ?_, (Except.ok.inj h).symm⟩
    fin_cases i
    · exact ha'
    · exact hb'
    · exact hc'
    · exact hd'
  · rintro ⟨hk, rfl⟩
    have hpack := fun i => packQ_eq_ok.mpr ⟨hk i, rfl⟩
    rw [packLimbs, hpack 0, hpack 1, hpack 2, hpack 3]
    rfl

theorem Limbs.Reduced.lt_two_pow {k : Limbs} (h : k.Reduced) : ∀ i, k i < 2 ^ 64 := fun i => by
  have hi := h i
  rw [P_eq] at hi
  omega

theorem packLimbs_ok {k : Limbs} (h : k.Reduced) : packLimbs k = .ok (limbBytes k) :=
  packLimbs_eq_ok.mpr ⟨h.lt_two_pow, rfl⟩

/-- `key_bytes`. -/
def keyBytes (k : Limbs) : Except Exc Bytes := packLimbs k

/-! ## Coordinates, check words and identifiers -/

section Hashing

variable [Sha256]

/-- `derive_x`: the slot's coordinate, never `0`. -/
def deriveX (slot value : Str) (salt : Nat) : Except Exc Nat := do
  let head ← [0, salt, 0].mapM byte
  let slotBytes ← encodeAscii slot
  let valueBytes ← encodeUtf8 value
  let digest := sha256 (bytesOf "SL-SS-X1" ++ head ++ slotBytes ++ [0] ++ valueBytes)
  let v := ofLE (digest.take 8) &&& P
  return 1 + v % (P - 1)

/-- A coordinate is a nonzero reduced field element. -/
theorem deriveX_range {slot value : Str} {salt x : Nat} (h : deriveX slot value salt = .ok x) :
    x ≠ 0 ∧ x < P := by
  obtain ⟨_, _, h⟩ := bind_eq_ok.mp h
  obtain ⟨_, _, h⟩ := bind_eq_ok.mp h
  obtain ⟨_, _, h⟩ := bind_eq_ok.mp h
  obtain rfl := Except.ok.inj h
  have hrange : ∀ v : Nat, 1 + v % (P - 1) ≠ 0 ∧ 1 + v % (P - 1) < P := fun v => by
    have hmod := Nat.mod_lt v (show 0 < P - 1 by rw [P_eq]; omega)
    omega
  exact hrange _

/-- `check_word`. -/
def checkWord (k : Limbs) : Except Exc Bytes := do
  let kb ← keyBytes k
  return sha256 ([1] ++ bytesOf "SL-SS-CW1" ++ kb)

/-- `hwid_of`: 43 characters of base64url. -/
def hwidOf (k : Limbs) : Except Exc Str := do
  let kb ← keyBytes k
  return rstripPad (urlsafeB64Encode (sha256 ([2] ++ bytesOf "SL-SS-ID1" ++ kb)))

/-- The check word of a reduced key. -/
def checkWordOf (k : Limbs) : Bytes := sha256 ([1] ++ bytesOf "SL-SS-CW1" ++ limbBytes k)

/-- The identifier of a reduced key. -/
def hwidStr (k : Limbs) : Str :=
  rstripPad (urlsafeB64Encode (sha256 ([2] ++ bytesOf "SL-SS-ID1" ++ limbBytes k)))

theorem checkWord_ok {k : Limbs} (h : k.Reduced) : checkWord k = .ok (checkWordOf k) := by
  rw [checkWord, keyBytes, packLimbs_ok h]; rfl

theorem hwidOf_ok {k : Limbs} (h : k.Reduced) : hwidOf k = .ok (hwidStr k) := by
  rw [hwidOf, keyBytes, packLimbs_ok h]; rfl

@[simp] theorem length_checkWordOf (k : Limbs) : (checkWordOf k).length = 32 := length_sha256 _

/-- "`check_word` does not collide on keys": no other key has the check word of `k`. -/
def NoCheckWordCollision (k : Limbs) : Prop :=
  ∀ k' : Limbs, k'.Reduced → checkWordOf k' = checkWordOf k → k' = k

end Hashing

/-- The bytes determine the limbs. -/
theorem limbBytes_inj {k k' : Limbs} (hk : ∀ i, k i < 2 ^ 64) (hk' : ∀ i, k' i < 2 ^ 64)
    (h : limbBytes k = limbBytes k') : k = k' := by
  have hlen : ∀ a b : Nat, (toLE 8 a).length = (toLE 8 b).length := fun a b => by
    rw [length_toLE, length_toLE]
  have hlimb : ∀ i, toLE 8 (k i) = toLE 8 (k' i) → k i = k' i := fun i hi =>
    toLE_inj (hk i) (hk' i) hi
  obtain ⟨h, h3⟩ := List.append_inj' h (hlen _ _)
  obtain ⟨h, h2⟩ := List.append_inj' h (hlen _ _)
  obtain ⟨h0, h1⟩ := List.append_inj' h (hlen _ _)
  funext i
  fin_cases i
  · exact hlimb 0 h0
  · exact hlimb 1 h1
  · exact hlimb 2 h2
  · exact hlimb 3 h3

/-! ## A hash to run the model with -/

/-- A stand-in that the kernel can evaluate: the check word of a key IS the key, and a slot's
    coordinate is made of the last bytes of its value. -/
def sampleDigest (b : Bytes) : Bytes :=
  ((if b.head? = some 1 then b.drop 10 else b.reverse) ++ List.replicate 32 0).take 32

/-- The sample hash, which is none, but has the length of one. -/
@[reducible] def sampleHash : Sha256 where
  sha256 := sampleDigest
  length_sha256 := fun b => by
    rw [sampleDigest]
    exact List.length_take_of_le (by rw [List.length_append, List.length_replicate]; omega)

/-- Under it no other reduced key has the same check word. -/
theorem sampleHash_noCollision {k : Limbs} (hk : k.Reduced) :
    @NoCheckWordCollision sampleHash k := by
  have hword : ∀ k : Limbs, @checkWordOf sampleHash k = limbBytes k := fun k =>
    List.take_left' (length_limbBytes k)
  intro k' hk' h
  rw [hword, hword] at h
  exact limbBytes_inj hk'.lt_two_pow hk.lt_two_pow h

/-! ## The threshold rule -/

/-- `MINIMUM_FACTORS`. -/
def minimumFactors : Nat := 8

/-- `threshold`: how many of `n` slots, `m` of them mandatory, recover the key. -/
def threshold (n m : Nat) : Except Exc Nat := do
  raiseIf (n < minimumFactors) (.ssError [.lit "slhwid: need at least ", .int minimumFactors,
    .lit " enrolled factor slots, have ", .int n])
  raiseIf (m ≥ n) (.ssError [.lit "slhwid: mandatory slots (", .int m,
    .lit ") must be fewer than total (", .int n, .lit ")"])
  let (num, den) := if n < 8 then (4, 5) else (7, 10)
  let t := (num * n + den - 1) / den
  return max (m + 1) (min t n)

/-- **The rule**: at least eight slots, at least seven tenths of them and more than the mandatory
    ones must survive, and never more than there are. -/
theorem threshold_spec {n m t : Nat} (h : threshold n m = .ok t) :
    8 ≤ n ∧ m < n ∧ m < t ∧ t ≤ n ∧ (7 * n + 9) / 10 ≤ t := by
  obtain ⟨_, hn, h⟩ := bind_eq_ok.mp h
  obtain ⟨_, hm, h⟩ := bind_eq_ok.mp h
  rw [raiseIf_eq_ok, minimumFactors] at hn
  rw [raiseIf_eq_ok] at hm
  rw [if_neg (by omega)] at h
  have ht : max (m + 1) (min ((7 * n + 10 - 1) / 10) n) = t := Except.ok.inj h
  omega

/-- The rule raises only `SsError`. -/
theorem threshold_error {n m : Nat} {e : Exc} (h : threshold n m = .error e) :
    e.isSsError = true := by
  rcases bind_eq_error.mp h with h | ⟨_, _, h⟩
  · rw [raiseIf_eq_error] at h; rw [← h.2]; rfl
  · rcases bind_eq_error.mp h with h | ⟨_, _, h⟩
    · rw [raiseIf_eq_error] at h; rw [← h.2]; rfl
    · cases h

/-- With enough slots the rule applies. -/
theorem threshold_ok {n m : Nat} (hn : 8 ≤ n) (hm : m < n) :
    threshold n m = .ok (max (m + 1) ((7 * n + 9) / 10)) := by
  have h₁ : ¬ n < minimumFactors := by rw [minimumFactors]; omega
  have h₂ : ¬ m ≥ n := by omega
  rw [threshold, raiseIf_neg h₁, ok_bind, raiseIf_neg h₂, ok_bind, if_neg (by omega)]
  show Except.ok _ = Except.ok _
  congr 1
  show max (m + 1) (min ((7 * n + 10 - 1) / 10) n) = _
  omega

end Bedrock.Slhwid
