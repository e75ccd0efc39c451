/-
  Round trips of the standard library's base64.

  1. **Forth** — what the encoder writes, the decoder reads back (`urlsafeB64Decode_encode`): an
     induction over the three-byte groups of the encoder.

  2. **Unpadded** — `rstrip("=")` takes exactly the padding away, and the length of what is left says
     how much it was (`pad_rstripPad`), so that the padding can be put back.

  3. **What the decoder counts** — `dataChars` is the decoder without the data: how many characters of
     either alphabet it reads until a pad sequence closes a group, and whether it gets there.  How many
     bytes a text decodes to depends on nothing else (`a2bBase64_length`).
-/
import Bedrock.Python.Base64

open Lib.Fallible

namespace Bedrock.Python

/-! ## The alphabet -/

/-- The encoded form of a 6-bit value, as a byte. -/
def b64Byte (v : Nat) : UInt8 := UInt8.ofNat (b64Char v).val

/-- **The two tables agree**, and the pad character is in neither. -/
theorem b64Byte_spec {v : Nat} (hv : v < 64) : b64Value (b64Byte v) = some v ∧ (b64Byte v).toNat ≠ 61 ∧
    (b64Char v).val < 128 ∧ b64Char v ≠ (str "=")[0]! ∧ b64Char v ∈ b64Alphabet := by
  have htable : ∀ v : Fin 64, b64Value (b64Byte v) = some v.val ∧ (b64Byte v).toNat ≠ 61 ∧
      (b64Char v).val < 128 ∧ b64Char v ≠ (str "=")[0]! ∧ b64Char v ∈ b64Alphabet := by decide +kernel
  exact htable ⟨v, hv⟩

/-- Six bits are below 64. -/
theorem sextets_lt (b : Bytes) : ∀ v ∈ sextets b, v < 64 := by
  -- by the groups of three bytes; a group of one or two ends the text
  induction b using sextets.induct with
  | case1 => intro v hv; exact absurd hv List.not_mem_nil
  | case2 a =>
    have ha := a.toNat_lt
    intro v hv
    rw [sextets] at hv
    simp only [List.mem_cons, List.not_mem_nil, or_false] at hv
    omega
  | case3 a b =>
    have ha := a.toNat_lt
    have hb := b.toNat_lt
    intro v hv
    rw [sextets] at hv
    simp only [List.mem_cons, List.not_mem_nil, or_false] at hv
    omega
  | case4 a b c rest ih =>
    have ha := a.toNat_lt
    have hb := b.toNat_lt
    have hc := c.toNat_lt
    intro v hv
    rw [sextets] at hv
    simp only [List.mem_cons] at hv
    rcases hv with hv | hv | hv | hv | hv
    · omega
    · omega
    · omega
    · omega
    · exact ih v hv

/-- Two characters for one byte over, three for two. -/
theorem length_sextets (b : Bytes) : (sextets b).length = (b.length * 4 + 2) / 3 := by
  induction b using sextets.induct with
  | case1 => rfl
  | case2 a => simp [sextets]
  | case3 a b => simp [sextets]
  | case4 a b c rest ih =>
    rw [sextets]
    simp only [List.length_cons]
    omega

/-! ## Forth and back -/

section

variable {v : Nat} (hv : v < 64) (left pads : Nat) (cs : Bytes)
include hv

/-- The first character of a group is kept for the second one. -/
theorem a2bBase64_first : a2bBase64 0 left pads (b64Byte v :: cs) = a2bBase64 1 v 0 cs := by
  obtain ⟨hvalue, hpad, _⟩ := b64Byte_spec hv
  rw [a2bBase64, if_neg hpad, hvalue]
  rfl

/-- Every further digit completes a byte, here the second. -/
theorem a2bBase64_second : a2bBase64 1 left pads (b64Byte v :: cs) =
    (a2bBase64 2 (v % 16) 0 cs >>= fun out => pure (UInt8.ofNat (left * 4 + v / 16) :: out)) := by
  obtain ⟨hvalue, hpad, _⟩ := b64Byte_spec hv
  rw [a2bBase64, if_neg hpad, hvalue]
  rfl

theorem a2bBase64_third : a2bBase64 2 left pads (b64Byte v :: cs) =
    (a2bBase64 3 (v % 4) 0 cs >>= fun out => pure (UInt8.ofNat (left * 16 + v / 4) :: out)) := by
  obtain ⟨hvalue, hpad, _⟩ := b64Byte_spec hv
  rw [a2bBase64, if_neg hpad, hvalue]
  rfl

theorem a2bBase64_fourth : a2bBase64 3 left pads (b64Byte v :: cs) =
    (a2bBase64 0 0 0 cs >>= fun out => pure (UInt8.ofNat (left * 64 + v) :: out)) := by
  obtain ⟨hvalue, hpad, _⟩ := b64Byte_spec hv
  rw [a2bBase64, if_neg hpad, hvalue]
  rfl

end

/-- **The decoder reads back what the encoder wrote.** -/
theorem a2bBase64_sextets (b : Bytes) : a2bBase64 0 0 0
    ((sextets b).map b64Byte ++ List.replicate ((3 - b.length % 3) % 3) 61) = .ok b := by
  have hbyte : ∀ (x : UInt8) (n : Nat), n = x.toNat → UInt8.ofNat n = x := fun x n hn => by
    rw [hn, UInt8.ofNat_toNat]
  induction b using sextets.induct with
  | case1 => rfl
  | case2 a =>
    have ha := a.toNat_lt
    show a2bBase64 0 0 0 (b64Byte (a.toNat / 4) :: b64Byte (a.toNat % 4 * 16) :: [61, 61]) = .ok [a]
    rw [a2bBase64_first (by omega), a2bBase64_second (by omega), hbyte a _ (by omega)]
    rfl
  | case3 a b =>
    have ha := a.toNat_lt
    have hb := b.toNat_lt
    show a2bBase64 0 0 0 (b64Byte (a.toNat / 4) :: b64Byte (a.toNat % 4 * 16 + b.toNat / 16) ::
      b64Byte (b.toNat % 16 * 4) :: [61]) = .ok [a, b]
    rw [a2bBase64_first (by omega), a2bBase64_second (by omega), hbyte a _ (by omega),
      a2bBase64_third (by omega), hbyte b _ (by omega)]
    rfl
  | case4 a b c rest ih =>
    have ha := a.toNat_lt
    have hb := b.toNat_lt
    have hc := c.toNat_lt
    -- the padding depends on what is behind the last full group
    have hpads : (3 - (a :: b :: c :: rest).length % 3) % 3 = (3 - rest.length % 3) % 3 := by
      simp only [List.length_cons]
      omega
    rw [hpads, sextets]
    simp only [List.map_cons, List.cons_append]
    rw [a2bBase64_first (by omega), a2bBase64_second (by omega), hbyte a _ (by omega),
      a2bBase64_third (by omega), hbyte b _ (by omega), a2bBase64_fourth (by omega), hbyte c _ (by omega),
      ih]
    rfl

/-- The pad character. -/
def padChar : CodePoint := (str "=")[0]!

/-- The encoder's text, in two parts. -/
theorem urlsafeB64Encode_eq (b : Bytes) : urlsafeB64Encode b =
    (sextets b).map b64Char ++ List.replicate ((3 - b.length % 3) % 3) padChar := rfl

/-- **The base64url round trip.** -/
theorem urlsafeB64Decode_encode (b : Bytes) : urlsafeB64Decode (urlsafeB64Encode b) = .ok b := by
  have hascii : isAscii (urlsafeB64Encode b) = true := by
    rw [isAscii_iff, urlsafeB64Encode_eq]
    intro c hc
    rcases List.mem_append.mp hc with hc | hc
    · obtain ⟨v, hv, rfl⟩ := List.mem_map.mp hc
      exact (b64Byte_spec (sextets_lt b v hv)).2.2.1
    · rw [List.eq_of_mem_replicate hc]
      decide +kernel
  have hbytes : (urlsafeB64Encode b).map (fun c => UInt8.ofNat c.val) =
      (sextets b).map b64Byte ++ List.replicate ((3 - b.length % 3) % 3) 61 := by
    rw [urlsafeB64Encode_eq, List.map_append, List.map_map, List.map_replicate]
    rfl
  rw [urlsafeB64Decode, encodeAscii_ok hascii, hbytes]
  exact a2bBase64_sextets b

/-! ## Padding -/

/-- **The unpadded form** is the text without its padding. -/
theorem rstripPad_encode (b : Bytes) : rstripPad (urlsafeB64Encode b) = (sextets b).map b64Char := by
  have hkeep : ∀ c ∈ (sextets b).map b64Char, c ≠ padChar := by
    intro c hc
    obtain ⟨v, hv, rfl⟩ := List.mem_map.mp hc
    exact (b64Byte_spec (sextets_lt b v hv)).2.2.2.1
  have hdrop : ∀ (n : Nat) (l : Str), (∀ c ∈ l, c ≠ padChar) →
      (List.replicate n padChar ++ l).dropWhile (· = padChar) = l := by
    intro n l hl
    induction n with
    | zero =>
      cases l with
      | nil => rfl
      | cons c l => exact List.dropWhile_cons_of_neg (by simpa using hl c List.mem_cons_self)
    | succ n ih =>
      rw [List.replicate_succ, List.cons_append, List.dropWhile_cons_of_pos (by simp)]
      exact ih
  show ((urlsafeB64Encode b).reverse.dropWhile (· = padChar)).reverse = _
  rw [urlsafeB64Encode_eq, List.reverse_append, List.reverse_replicate,
    hdrop _ _ fun c hc => hkeep c (List.mem_reverse.mp hc), List.reverse_reverse]

/-- The length of the unpadded form says how much padding there was. -/
theorem pad_rstripPad (b : Bytes) : rstripPad (urlsafeB64Encode b) ++
    List.replicate ((4 - (rstripPad (urlsafeB64Encode b)).length % 4) % 4) padChar =
      urlsafeB64Encode b := by
  have hcount : (4 - (rstripPad (urlsafeB64Encode b)).length % 4) % 4 = (3 - b.length % 3) % 3 := by
    rw [rstripPad_encode, List.length_map, length_sextets]
    obtain ⟨k, hk | hk | hk⟩ : ∃ k, b.length = 3 * k ∨ b.length = 3 * k + 1 ∨ b.length = 3 * k + 2 :=
      ⟨b.length / 3, by omega⟩
    · omega
    · omega
    · omega
  rw [hcount, rstripPad_encode, urlsafeB64Encode_eq]

/-- The bytes can be read off the unpadded form. -/
theorem rstripPad_encode_inj {b b' : Bytes}
    (h : rstripPad (urlsafeB64Encode b) = rstripPad (urlsafeB64Encode b')) : b = b' := by
  have hpadded : urlsafeB64Encode b = urlsafeB64Encode b' := by
    rw [← pad_rstripPad b, ← pad_rstripPad b', h]
  exact Except.ok.inj ((urlsafeB64Decode_encode b).symm.trans
    ((congrArg urlsafeB64Decode hpadded).trans (urlsafeB64Decode_encode b')))

/-! ## What the decoder counts -/

/-- The characters of either alphabet that the decoder reads before a pad sequence closes a group, or
    before the end of a text that needs no padding: `n` were read so far, and `pads` pad characters
    follow the last one. -/
def dataChars (n pads : Nat) : Bytes → Option Nat
  | [] => if n % 4 = 0 then some n else none
  | c :: cs =>
    if c.toNat = 61 then
      if n % 4 ≥ 2 ∧ n % 4 + (pads + 1) ≥ 4 then some n
      else dataChars n (if n % 4 ≥ 2 then pads + 1 else pads) cs
    else if b64Value c = none then dataChars n pads cs
    else dataChars (n + 1) 0 cs

/-- **The length of what is decoded**: three bytes for four characters, whatever they are. -/
theorem a2bBase64_length (cs : Bytes) : ∀ (n pads left : Nat),
    (∀ out, a2bBase64 (n % 4) left pads cs = .ok out →
      ∃ m, dataChars n pads cs = some m ∧ m * 3 / 4 = n * 3 / 4 + out.length) ∧
    ∀ e, a2bBase64 (n % 4) left pads cs = .error e → dataChars n pads cs = none := by
  induction cs with
  | nil =>
    intro n pads left
    constructor
    · intro out h
      rw [a2bBase64] at h
      split at h
      · rename_i hquad
        obtain rfl := Except.ok.inj h
        exact ⟨n, if_pos hquad, rfl⟩
      · split at h
        · cases h
        · cases h
    · intro e h
      rw [a2bBase64] at h
      split at h
      · cases h
      · rename_i hquad
        exact if_neg hquad
  | cons c cs ih =>
    intro n pads left
    rw [a2bBase64, dataChars]
    by_cases hpad : c.toNat = 61
    · rw [if_pos hpad, if_pos hpad]
      by_cases hclose : n % 4 ≥ 2 ∧ n % 4 + (pads + 1) ≥ 4
      · rw [if_pos hclose, if_pos hclose]
        constructor
        · intro out h
          obtain rfl := Except.ok.inj h
          exact ⟨n, rfl, rfl⟩
        · intro e h
          cases h
      · rw [if_neg hclose, if_neg hclose]
        exact ih n _ left
    rw [if_neg hpad, if_neg hpad]
    cases hvalue : b64Value c with
    | none =>
      rw [if_pos rfl]
      exact ih n pads left
    | some v =>
      rw [if_neg (by simp)]
      -- a character that writes a byte adds one to the length
      have hwrite : ∀ {x : UInt8} {quad left' : Nat}, (n + 1) % 4 = quad →
          (n + 1) * 3 / 4 = n * 3 / 4 + 1 →
          (∀ out, (do return x :: (← a2bBase64 quad left' 0 cs) : Except Exc Bytes) = .ok out →
            ∃ m, dataChars (n + 1) 0 cs = some m ∧ m * 3 / 4 = n * 3 / 4 + out.length) ∧
          ∀ e, (do return x :: (← a2bBase64 quad left' 0 cs) : Except Exc Bytes) = .error e →
            dataChars (n + 1) 0 cs = none := by
        intro x quad left' hquad hone
        subst hquad
        constructor
        · intro out h
          obtain ⟨out', hout', h⟩ := bind_eq_ok.mp h
          obtain rfl := Except.ok.inj h
          obtain ⟨m, hm, hlen⟩ := (ih (n + 1) 0 left').1 out' hout'
          refine ⟨m, hm, ?_⟩
          rw [List.length_cons]
          omega
        · intro e h
          rcases bind_eq_error.mp h with h | ⟨_, _, h⟩
          · exact (ih (n + 1) 0 left').2 e h
          · cases h
      obtain hq | hq | hq | hq : n % 4 = 0 ∨ n % 4 = 1 ∨ n % 4 = 2 ∨ n % 4 = 3 := by omega
      · -- the first character of a group writes nothing
        have hnext : (n + 1) % 4 = 1 := by omega
        obtain ⟨hok, herr⟩ := ih (n + 1) 0 v
        rw [hnext] at hok herr
        rw [hq]
        refine ⟨fun out h => ?_, herr⟩
        obtain ⟨m, hm, hlen⟩ := hok out h
        exact ⟨m, hm, by omega⟩
      · rw [hq]
        exact hwrite (by omega) (by omega)
      · rw [hq]
        exact hwrite (by omega) (by omega)
      · rw [hq]
        exact hwrite (by omega) (by omega)

end Bedrock.Python
