/-
  Codecs that never fail, and what they put into a text.

  1. **`errors="replace"`** — one `U+FFFD` for each byte ASCII has no place for; in UTF-8 one for the bytes
     up to the first that cannot go on, and decoding takes up again at that byte.

  2. **Locale** — the text mode of a subprocess decodes with the locale's codec, strictly: a parameter.

  3. **Surrogates** — none of the codecs makes one, so that what was decoded can be encoded again.
-/
import Bedrock.Python.Text

open Lib.Fallible

namespace Bedrock.Python

/-- `U+FFFD`. -/
def replacement : CodePoint := 0xFFFD

/-- `b.decode("ascii", "replace")`. -/
def decodeAsciiReplace (b : Bytes) : Str :=
  b.map fun x => if x.toNat < 0x80 then Fin.ofNat _ x.toNat else replacement

/-- `b.decode("utf-8", "replace")`. -/
def decodeUtf8Replace : Bytes → Str
  | [] => []
  | b0 :: bs =>
    if b0.toNat < 0x80 then Fin.ofNat _ b0.toNat :: decodeUtf8Replace bs
    -- continuation bytes, overlong leads and leads behind the last code point
    else if b0.toNat < 0xC2 ∨ 0xF4 < b0.toNat then replacement :: decodeUtf8Replace bs
    else
      match bs with
      | [] => [replacement]
      | b1 :: bs₁ =>
        if !isTail (tailLow b0.toNat) (tailHigh b0.toNat) b1 then
          -- the byte behind a broken sequence is read again
          replacement :: decodeUtf8Replace (b1 :: bs₁)
        else if b0.toNat < 0xE0 then
          Fin.ofNat _ (b0.toNat % 0x20 * 0x40 + b1.toNat % 0x40) :: decodeUtf8Replace bs₁
        else
          match bs₁ with
          | [] => [replacement]
          | b2 :: bs₂ =>
            if !isTail 0x80 0xBF b2 then replacement :: decodeUtf8Replace (b2 :: bs₂)
            else if b0.toNat < 0xF0 then
              Fin.ofNat _ (b0.toNat % 0x10 * 0x1000 + b1.toNat % 0x40 * 0x40 + b2.toNat % 0x40) ::
                decodeUtf8Replace bs₂
            else
              match bs₂ with
              | [] => [replacement]
              | b3 :: bs₃ =>
                if !isTail 0x80 0xBF b3 then replacement :: decodeUtf8Replace (b3 :: bs₃)
                else
                  Fin.ofNat _ (b0.toNat % 8 * 0x40000 + b1.toNat % 0x40 * 0x1000 +
                    b2.toNat % 0x40 * 0x40 + b3.toNat % 0x40) :: decodeUtf8Replace bs₃

example : decodeUtf8Replace [0x61, 0xE2, 0x82, 0x62, 0xED, 0xA0, 0x80] =
    [0x61, 0xFFFD, 0x62, 0xFFFD, 0xFFFD, 0xFFFD] := by decide

/-- The codec of the locale. -/
class LocaleCodec where
  decode : Bytes → Except Exc Str
  decode_error : ∀ b e, decode b = .error e → e = .unicodeDecodeError
  decode_canEncode : ∀ b s, decode b = .ok s → CanEncode s

/-! ## Surrogates -/

/-- A code point outside of the surrogate range is none. -/
theorem isSurrogate_ofNat {n : Nat} (hn : n < 0x110000) (h : n < 0xD800 ∨ 0xDFFF < n) :
    isSurrogate (Fin.ofNat _ n) = false := by
  have hval : (Fin.ofNat 0x110000 n).val = n := Nat.mod_eq_of_lt hn
  rw [isSurrogate, hval, Bool.and_eq_false_iff, decide_eq_false_iff_not, decide_eq_false_iff_not]
  omega

theorem isSurrogate_ascii {x : UInt8} (h : x.toNat < 0x80) : isSurrogate (Fin.ofNat _ x.toNat) = false :=
  isSurrogate_ofNat (by omega) (by omega)

/-- Two bytes. -/
theorem isSurrogate_two (b0 b1 : UInt8) :
    isSurrogate (Fin.ofNat _ (b0.toNat % 0x20 * 0x40 + b1.toNat % 0x40)) = false :=
  isSurrogate_ofNat (by omega) (by omega)

theorem isTail_eq_true {lo hi : Nat} {b : UInt8} (h : ¬ (!isTail lo hi b) = true) :
    lo ≤ b.toNat ∧ b.toNat ≤ hi := by
  rw [Bool.not_eq_true', Bool.not_eq_false, isTail, decide_eq_true_eq] at h
  exact h

/-- Three bytes: behind `ED` the second byte is bounded. -/
theorem isSurrogate_three {b0 b1 : UInt8} (b2 : UInt8) (hlo : ¬ b0.toNat < 0xE0) (hhi : b0.toNat < 0xF0)
    (h : ¬ (!isTail (tailLow b0.toNat) (tailHigh b0.toNat) b1) = true) :
    isSurrogate (Fin.ofNat _
      (b0.toNat % 0x10 * 0x1000 + b1.toNat % 0x40 * 0x40 + b2.toNat % 0x40)) = false := by
  obtain ⟨hlow, hhigh⟩ := isTail_eq_true h
  unfold tailLow at hlow
  unfold tailHigh at hhigh
  refine isSurrogate_ofNat (by omega) ?_
  split_ifs at hlow hhigh <;> omega

/-- Four bytes: behind `F0` and `F4` it is bounded. -/
theorem isSurrogate_four {b0 b1 : UInt8} (b2 b3 : UInt8) (hlo : ¬ b0.toNat < 0xF0)
    (hhi : ¬ (b0.toNat < 0xC2 ∨ 0xF4 < b0.toNat))
    (h : ¬ (!isTail (tailLow b0.toNat) (tailHigh b0.toNat) b1) = true) :
    isSurrogate (Fin.ofNat _ (b0.toNat % 8 * 0x40000 + b1.toNat % 0x40 * 0x1000 +
      b2.toNat % 0x40 * 0x40 + b3.toNat % 0x40)) = false := by
  obtain ⟨hlow, hhigh⟩ := isTail_eq_true h
  unfold tailLow at hlow
  unfold tailHigh at hhigh
  refine isSurrogate_ofNat ?_ ?_
  · split_ifs at hlow hhigh <;> omega
  · split_ifs at hlow hhigh <;> omega

/-- A text can be encoded character by character. -/
theorem canEncode_cons {c : CodePoint} {s : Str} (hc : isSurrogate c = false) (hs : CanEncode s) :
    CanEncode (c :: s) := by
  intro d hd
  rcases List.mem_cons.mp hd with rfl | hd
  · exact hc
  · exact hs d hd

theorem canEncode_nil : CanEncode [] := fun _ hc => absurd hc List.not_mem_nil

/-- **Decoded text can be encoded.** -/
theorem decodeUtf8_canEncode {b : Bytes} {s : Str} (h : decodeUtf8 b = .ok s) : CanEncode s := by
  have hcons : ∀ {c : CodePoint} {r : Except Exc Str}, isSurrogate c = false →
      (∀ s, r = .ok s → CanEncode s) → ∀ {s}, (do return c :: (← r) : Except Exc Str) = .ok s →
      CanEncode s := by
    intro c r hc hr s hs
    obtain ⟨rest, hrest, hs⟩ := bind_eq_ok.mp hs
    obtain rfl := Except.ok.inj hs
    exact canEncode_cons hc (hr rest hrest)
  fun_induction decodeUtf8 b generalizing s with
  | case1 =>
    obtain rfl := Except.ok.inj h
    exact canEncode_nil
  | case2 b0 bs hlow ih => exact hcons (isSurrogate_ascii hlow) (fun _ => ih) h
  | case6 b0 _ _ b1 bs _ _ ih => exact hcons (isSurrogate_two b0 b1) (fun _ => ih) h
  | case9 b0 _ _ b1 htail hlo b2 bs _ hhi ih =>
    exact hcons (isSurrogate_three b2 hlo hhi htail) (fun _ => ih) h
  | case12 b0 _ hrange b1 htail _ b2 _ hlo b3 bs _ ih =>
    exact hcons (isSurrogate_four b2 b3 hlo hrange htail) (fun _ => ih) h
  | _ => cases h

/-- Decoding with `errors="replace"` makes U+FFFD, never a surrogate. -/
theorem decodeUtf8Replace_canEncode (b : Bytes) : CanEncode (decodeUtf8Replace b) := by
  have hreplaced : isSurrogate replacement = false := by decide
  fun_induction decodeUtf8Replace b with
  | case1 => exact canEncode_nil
  | case2 b0 bs hlow ih => exact canEncode_cons (isSurrogate_ascii hlow) ih
  | case4 | case7 | case10 => exact canEncode_cons hreplaced canEncode_nil
  | case3 | case5 | case8 | case11 =>
    rename_i ih
    exact canEncode_cons hreplaced ih
  | case6 b0 _ _ b1 bs _ _ ih => exact canEncode_cons (isSurrogate_two b0 b1) ih
  | case9 b0 _ _ b1 htail hlo b2 bs _ hhi ih => exact canEncode_cons (isSurrogate_three b2 hlo hhi htail) ih
  | case12 b0 _ hrange b1 htail _ b2 _ hlo b3 bs _ ih =>
    exact canEncode_cons (isSurrogate_four b2 b3 hlo hrange htail) ih

theorem decodeAsciiReplace_canEncode (b : Bytes) : CanEncode (decodeAsciiReplace b) := by
  intro c hc
  obtain ⟨x, -, rfl⟩ := List.mem_map.mp hc
  split
  · rename_i hlow
    exact isSurrogate_ascii hlow
  · decide

/-- Translating line ends makes no character but the newline. -/
theorem mem_universalNewlines {c : CodePoint} : ∀ {s : Str} {afterCr : Bool},
    c ∈ universalNewlines afterCr s → c = 10 ∨ c ∈ s := by
  intro s
  induction s with
  | nil => intro _ h; cases h
  | cons d s ih =>
    intro afterCr h
    have hlater : ∀ {afterCr : Bool}, c ∈ universalNewlines afterCr s → c = 10 ∨ c ∈ d :: s :=
      fun h => (ih h).imp id (List.mem_cons_of_mem d)
    unfold universalNewlines at h
    split_ifs at h
    · rcases List.mem_cons.mp h with rfl | h
      · exact Or.inl rfl
      · exact hlater h
    · exact hlater h
    · rcases List.mem_cons.mp h with rfl | h
      · exact Or.inr List.mem_cons_self
      · exact hlater h

/-- So what could be encoded before can be after. -/
theorem universalNewlines_canEncode {s : Str} (h : CanEncode s) (afterCr : Bool) :
    CanEncode (universalNewlines afterCr s) := by
  intro c hc
  rcases mem_universalNewlines hc with rfl | hc
  · decide
  · exact h c hc

end Bedrock.Python
