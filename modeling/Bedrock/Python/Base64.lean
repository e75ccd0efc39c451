/-
  `base64.urlsafe_b64encode` / `urlsafe_b64decode` of the standard library.

  The encoder is RFC 4648 with the URL alphabet and `=` padding.  The decoder is `binascii`'s
  NON-strict one: a state machine over the characters that skips everything outside the alphabet,
  takes the standard alphabet's `+` and `/` as well, ignores stray padding, stops at the first
  complete pad sequence and drops the bits a short last group has left over.
-/
import Bedrock.Python.Str

open Lib.Fallible

namespace Bedrock.Python

/-! ## Encoding -/

/-- The URL-safe alphabet, by value. -/
def b64Alphabet : Str := str "ABCDEFGHIJKLMNOPQRSTUVWXYZabcdefghijklmnopqrstuvwxyz0123456789-_"

/-- The character of a 6-bit value. -/
def b64Char (v : Nat) : CodePoint := b64Alphabet[v]!

/-- The 6-bit groups of a byte string, three bytes at a time; the last group is filled with zero
    bits. -/
def sextets : Bytes → List Nat
  | [] => []
  | [a] => [a.toNat / 4, a.toNat % 4 * 16]
  | [a, b] => [a.toNat / 4, a.toNat % 4 * 16 + b.toNat / 16, b.toNat % 16 * 4]
  | a :: b :: c :: rest =>
    a.toNat / 4 :: (a.toNat % 4 * 16 + b.toNat / 16) :: (b.toNat % 16 * 4 + c.toNat / 64) ::
      (c.toNat % 64) :: sextets rest

/-- `urlsafe_b64encode(b).decode("ascii")`. -/
def urlsafeB64Encode (b : Bytes) : Str :=
  (sextets b).map b64Char ++ List.replicate ((3 - b.length % 3) % 3) (str "=")[0]!

/-- `s.rstrip("=")`. -/
def rstripPad (s : Str) : Str := (s.reverse.dropWhile (· = (str "=")[0]!)).reverse

example : urlsafeB64Encode (bytesOf "hi") = str "aGk=" := by decide +kernel
example : rstripPad (str "aGk=") = str "aGk" := by decide +kernel

/-! ## Decoding -/

/-- The value of an input byte under the standard alphabet, after `-` and `_` were translated to
    `+` and `/`. -/
def b64Value (c : UInt8) : Option Nat :=
  let n := c.toNat
  if 65 ≤ n ∧ n ≤ 90 then some (n - 65)
  else if 97 ≤ n ∧ n ≤ 122 then some (n - 71)
  else if 48 ≤ n ∧ n ≤ 57 then some (n + 4)
  else if n = 43 ∨ n = 45 then some 62
  else if n = 47 ∨ n = 95 then some 63
  else none

/-- `binascii.a2b_base64(s)`: `quad` characters of the current group are read, their unwritten bits
    are `left`, and `pads` pad characters follow the last one. -/
def a2bBase64 (quad left pads : Nat) : Bytes → Except Exc Bytes
  | [] =>
    if quad = 0 then .ok []
    else if quad = 1 then
      .error (.valueError "number of data characters cannot be 1 more than a multiple of 4")
    else .error (.valueError "Incorrect padding")
  | c :: cs =>
    if c.toNat = 61 then
      -- a pad sequence that completes the group ends the input, whatever follows
      if quad ≥ 2 ∧ quad + (pads + 1) ≥ 4 then .ok []
      else a2bBase64 quad left (if quad ≥ 2 then pads + 1 else pads) cs
    else
      match b64Value c with
      | none => a2bBase64 quad left pads cs
      | some v =>
        match quad with
        | 0 => a2bBase64 1 v 0 cs
        | 1 => do return UInt8.ofNat (left * 4 + v / 16) :: (← a2bBase64 2 (v % 16) 0 cs)
        | 2 => do return UInt8.ofNat (left * 16 + v / 4) :: (← a2bBase64 3 (v % 4) 0 cs)
        | _ => do return UInt8.ofNat (left * 64 + v) :: (← a2bBase64 0 0 0 cs)

/-- `urlsafe_b64decode(s)` of a string. -/
def urlsafeB64Decode (s : Str) : Except Exc Bytes :=
  match encodeAscii s with
  | .error _ => .error (.valueError "string argument should contain only ASCII characters")
  | .ok b => a2bBase64 0 0 0 b

example : urlsafeB64Decode (str "aGk=") = .ok (bytesOf "hi") := by decide +kernel
example : urlsafeB64Decode (str "a*G k==") = .ok (bytesOf "hi") := by decide +kernel

/-- Whatever the decoder raises is a `ValueError`. -/
theorem a2bBase64_error {quad left pads : Nat} {b : Bytes} {e : Exc}
    (h : a2bBase64 quad left pads b = .error e) : e.isValueError = true := by
  induction b generalizing quad left pads with
  | nil =>
    rw [a2bBase64] at h
    split at h
    · cases h
    · split at h <;> (obtain rfl := Except.error.inj h; rfl)
  | cons c cs ih =>
    -- a byte written before the failure does not change it
    have hwrite : ∀ {x : UInt8} {q l p : Nat},
        (do return x :: (← a2bBase64 q l p cs) : Except Exc Bytes) = .error e →
          e.isValueError = true := by
      intro x q l p hx
      rcases bind_eq_error.mp hx with h' | ⟨_, _, h'⟩
      · exact ih h'
      · cases h'
    rw [a2bBase64] at h
    split at h
    · split at h
      · cases h
      · exact ih h
    · split at h
      · exact ih h
      · split at h
        · exact ih h
        · exact hwrite h
        · exact hwrite h
        · exact hwrite h

/-- Whatever the decoder raises is a `ValueError`, the kind its callers catch. -/
theorem urlsafeB64Decode_error {s : Str} {e : Exc} (h : urlsafeB64Decode s = .error e) :
    e.isValueError = true := by
  unfold urlsafeB64Decode at h
  split at h
  · obtain rfl := Except.error.inj h; rfl
  · exact a2bBase64_error h

end Bedrock.Python
