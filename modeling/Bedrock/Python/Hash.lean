/-
  `hashlib` and `bytes.hex`.

  SHA-256 is a parameter: a function from byte strings to 32-byte strings.  Nothing else is assumed
  of it here; where a result needs more (that two keys have different check words, that the
  coordinates of some slots differ) it says so.
-/
import Bedrock.Python.Str

namespace Bedrock.Python

/-- `hashlib.sha256(b).digest()`. -/
class Sha256 where
  sha256 : Bytes → Bytes
  length_sha256 : ∀ b, (sha256 b).length = 32

export Sha256 (sha256 length_sha256)

/-- The two characters of a byte in lowercase hexadecimal. -/
def hexByte (b : UInt8) : Str :=
  [b.toNat / 16, b.toNat % 16].map fun d => Fin.ofNat _ (if d < 10 then 48 + d else 87 + d)

/-- `b.hex()`, and `hexdigest()` of a digest. -/
def hexStr (b : Bytes) : Str := b.flatMap hexByte

/-- Hexadecimal text is ASCII. -/
theorem canEncode_hexStr (b : Bytes) : CanEncode (hexStr b) := by
  intro c hc
  obtain ⟨x, _, hc⟩ := List.mem_flatMap.mp hc
  obtain ⟨d, hd, rfl⟩ := List.mem_map.mp hc
  have hx := x.toNat_lt
  have hsmall : (if d < 10 then 48 + d else 87 + d) < 0xD800 := by
    have hlt : d < 256 := by
      rcases List.mem_cons.mp hd with rfl | hd
      · omega
      · rw [List.mem_singleton.mp hd]; omega
    split <;> omega
  have hval : (Fin.ofNat 0x110000 (if d < 10 then 48 + d else 87 + d)).val =
      if d < 10 then 48 + d else 87 + d := Nat.mod_eq_of_lt (by omega)
  rw [isSurrogate, hval, Bool.and_eq_false_iff, decide_eq_false_iff_not]
  exact Or.inl (by omega)

/-- Two digits are one byte. -/
theorem hexByte_inj {x y : UInt8} (h : hexByte x = hexByte y) : x = y := by
  have hdigit : ∀ a b : Fin 16, (if a.val < 10 then 48 + a.val else 87 + a.val) =
      (if b.val < 10 then 48 + b.val else 87 + b.val) → a = b := by decide
  have hval : ∀ d, d < 16 → (Fin.ofNat 0x110000 (if d < 10 then 48 + d else 87 + d)).val =
      if d < 10 then 48 + d else 87 + d := fun d hd => Nat.mod_eq_of_lt (by split <;> omega)
  have hinj : ∀ a b, a < 16 → b < 16 → (Fin.ofNat 0x110000 (if a < 10 then 48 + a else 87 + a)) =
      Fin.ofNat 0x110000 (if b < 10 then 48 + b else 87 + b) → a = b := fun a b ha hb heq => by
    have heq := congrArg Fin.val heq
    rw [hval a ha, hval b hb] at heq
    exact Fin.val_eq_of_eq (hdigit ⟨a, ha⟩ ⟨b, hb⟩ heq)
  have hx := x.toNat_lt
  have hy := y.toNat_lt
  obtain ⟨hhigh, htail⟩ := List.cons.inj h
  obtain ⟨hlow, _⟩ := List.cons.inj htail
  have hdiv := hinj _ _ (by omega) (by omega) hhigh
  have hmod := hinj _ _ (by omega) (by omega) hlow
  exact UInt8.toNat_inj.mp (by omega)

/-- The hexadecimal form determines the bytes. -/
theorem hexStr_inj : ∀ {b b' : Bytes}, hexStr b = hexStr b' → b = b' := by
  intro b
  induction b with
  | nil =>
    intro b' h
    cases b' with
    | nil => rfl
    | cons y b' => cases h
  | cons x b ih =>
    intro b' h
    cases b' with
    | nil => cases h
    | cons y b' =>
      obtain ⟨hhead, htail⟩ := List.append_inj (h : hexByte x ++ hexStr b = hexByte y ++ hexStr b') rfl
      rw [hexByte_inj hhead, ih htail]

end Bedrock.Python
