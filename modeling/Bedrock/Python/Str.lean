/-
  The Python values the client computes with: `bytes`, `str` and `dict[str, _]`.

  1. **`Str`** — a Python string is a list of code points, lone surrogates INCLUDED: the values the
     collectors report come from `os.environ` and `os.uname`, whose undecodable bytes arrive as
     surrogates, and it is exactly those strings that `encode` refuses.

  2. **Codecs** — `encodeUtf8`, `decodeUtf8`, `encodeAscii`, `decodeAscii` with Python's strict error
     handling (an encoder or decoder that meets a code point or byte it has no place for raises),
     and the total `decodeLatin1`.

  3. **`Dict`** — a `dict` with string keys is Mathlib's association list with distinct keys;
     `sortedKeys` is `sorted(d)` and `sortedSet` is `sorted(s)`, both in code-point order.
-/
import Bedrock.Lib.Fallible

open Lib.Fallible

namespace Bedrock.Python

/-- `bytes`. -/
abbrev Bytes := List UInt8

/-- A Unicode code point, surrogates included. -/
abbrev CodePoint := Fin 0x110000

/-- A Python `str`. -/
abbrev Str := List CodePoint

/-! The instances that literals and membership tests rest on, under one name in every module. -/

instance codePoint_neZero : NeZero 0x110000 := ⟨by decide⟩

instance codePoint_lawfulBEq : LawfulBEq CodePoint := inferInstance

instance str_lawfulBEq : LawfulBEq Str := inferInstance

/-- A string literal. -/
def str (s : String) : Str := s.toList.map fun c => Fin.ofNat 0x110000 c.toNat

/-- A bytes literal: the ASCII characters of the text. -/
def bytesOf (s : String) : Bytes := s.toList.map fun c => UInt8.ofNat c.toNat

/-! ## Exceptions -/

/-- `ErrorKind`: the categories of a `BedrockError`. -/
inductive ErrorKind
  | configuration | transport | unsignedResponse | invalidSignature
  | invalidPayload | freshnessViolation | sessionTerminated | localFailure
  deriving DecidableEq, Repr

/-- One piece of an f-string: literal text, `{s}`, `{s!r}` or `{n}`. -/
inductive Part
  | lit (text : String)
  | str (s : Str)
  | repr (s : Str)
  | int (n : Int)
  deriving DecidableEq, Repr

/-- An exception's message, as the f-string that builds it. -/
abbrev Message := List Part

/-- The exceptions the modelled code raises, or lets through from the built-ins it calls. -/
inductive Exc
  | bedrockError (kind : ErrorKind) (message : Message)
  | ssError (message : Message)
  | corruptHelperError (message : Message)
  | driftError (present needed : Nat) (missing : List Str) (mandatory : Bool)
  | osError (message : Message)
  | unicodeDecodeError
  | unicodeEncodeError
  | jsonDecodeError
  | valueError (message : String)
  | indexError
  | keyError
  | structError
  | recursionError
  | overflowError
  | argumentError
  deriving DecidableEq, Repr

/-- `except SsError`: the class and its two subclasses. -/
def Exc.isSsError : Exc → Bool
  | .ssError _ | .corruptHelperError _ | .driftError .. => true
  | _ => false

/-- `except CorruptHelperError`. -/
def Exc.isCorruptHelperError : Exc → Bool
  | .corruptHelperError _ => true
  | _ => false

/-- `except DriftError`. -/
def Exc.isDriftError : Exc → Bool
  | .driftError .. => true
  | _ => false

/-- `except OSError`. -/
def Exc.isOSError : Exc → Bool
  | .osError _ => true
  | _ => false

/-- `except BedrockError`. -/
def Exc.isBedrockError : Exc → Bool
  | .bedrockError .. => true
  | _ => false

/-- `except ValueError`: the class, the two Unicode errors and `json.JSONDecodeError`. -/
def Exc.isValueError : Exc → Bool
  | .valueError _ | .unicodeDecodeError | .unicodeEncodeError | .jsonDecodeError => true
  | _ => false

/-! ## Building and reading bytes -/

/-- One entry of `bytes([..])`. -/
def byte (n : Nat) : Except Exc UInt8 :=
  if n < 256 then .ok (UInt8.ofNat n) else .error (.valueError "bytes must be in range(0, 256)")

theorem byte_ok {n : Nat} (h : n < 256) : byte n = .ok (UInt8.ofNat n) := if_pos h

/-- `b[i]`. -/
def index (b : Bytes) (i : Nat) : Except Exc UInt8 :=
  match b[i]? with
  | some x => .ok x
  | none => .error .indexError

/-- `b[i]` is the byte at `i`. -/
theorem index_eq_ok {b : Bytes} {i : Nat} {x : UInt8} : index b i = .ok x ↔ b[i]? = some x := by
  unfold index
  cases b[i]? with
  | none => simp
  | some y => simp

/-- `b[start:stop]`. -/
def slice (b : Bytes) (start stop : Nat) : Bytes := (b.take stop).drop start

theorem length_slice {b : Bytes} {i j : Nat} (hj : j ≤ b.length) : (slice b i j).length = j - i := by
  rw [slice, List.length_drop, List.length_take_of_le hj]

/-- Adjacent slices join. -/
theorem slice_append {b : Bytes} {i j k : Nat} (hij : i ≤ j) (hjk : j ≤ k) (hk : k ≤ b.length) :
    slice b i j ++ slice b j k = slice b i k := by
  have hcut : b.take k = b.take j ++ slice b j k := by
    have htake : b.take j = (b.take k).take j := by rw [List.take_take, Nat.min_eq_left hjk]
    rw [slice, htake, List.take_append_drop]
  have hlen : i ≤ (b.take j).length := by rw [List.length_take_of_le (by omega)]; exact hij
  conv_rhs => rw [slice, hcut, List.drop_append_of_le_length hlen]
  rfl

/-- A one-byte slice is the byte there. -/
theorem slice_single {b : Bytes} {i : Nat} {x : UInt8} (h : b[i]? = some x) :
    slice b i (i + 1) = [x] := by
  obtain ⟨hi, rfl⟩ := List.getElem?_eq_some_iff.mp h
  have hlen : (b.take i).length = i := List.length_take_of_le (by omega)
  rw [slice, List.take_succ_eq_append_getElem hi]
  exact List.drop_left' hlen

/-- The middle part of a concatenation. -/
theorem slice_mid {a b c : Bytes} {i j : Nat} (hi : i = a.length) (hj : j = a.length + b.length) :
    slice (a ++ b ++ c) i j = b := by
  subst hi hj
  rw [slice, List.take_append_of_le_length (by simp), List.take_of_length_le (by simp),
    List.drop_left]

/-- A slice within the second part. -/
theorem slice_append_right (a b : Bytes) (i j : Nat) :
    slice (a ++ b) (a.length + i) (a.length + j) = slice b i j := by
  rw [slice, slice, List.take_length_add_append, List.drop_length_add_append]

/-- A slice within the first part. -/
theorem slice_append_left {a b : Bytes} {i j : Nat} (hj : j ≤ a.length) :
    slice (a ++ b) i j = slice a i j := by
  rw [slice, slice, List.take_append_of_le_length hj]

/-- Two neighbours within a text. -/
theorem eq_of_slice_pair {b : Bytes} {i : Nat} {x y : UInt8} (h : slice b i (i + 2) = [x, y]) :
    b = b.take i ++ x :: y :: b.drop (i + 2) := by
  rw [slice, List.drop_take, Nat.add_sub_cancel_left] at h
  calc b = b.take i ++ ((b.drop i).take 2 ++ (b.drop i).drop 2) := by
        rw [List.take_append_drop, List.take_append_drop]
    _ = b.take i ++ x :: y :: b.drop (i + 2) := by
        rw [h, List.drop_drop]
        rfl

/-! ## Codecs -/

/-- `s.isascii()`. -/
def isAscii (s : Str) : Bool := s.all fun c => c.val < 128

theorem isAscii_iff {s : Str} : isAscii s = true ↔ ∀ c ∈ s, c.val < 128 := by
  simp [isAscii]

/-- `s.encode("ascii")`. -/
def encodeAscii (s : Str) : Except Exc Bytes :=
  if isAscii s then .ok (s.map fun c => UInt8.ofNat c.val)
  else .error .unicodeEncodeError

/-- `b.decode("ascii")`. -/
def decodeAscii (b : Bytes) : Except Exc Str :=
  if b.all fun x => x.toNat < 128 then .ok (b.map fun x => Fin.ofNat 0x110000 x.toNat)
  else .error .unicodeDecodeError

/-- `b.decode("latin-1")`: every byte is a code point. -/
def decodeLatin1 (b : Bytes) : Str := b.map fun x => Fin.ofNat 0x110000 x.toNat

/-- The UTF-8 form of one code point; a surrogate has none. -/
def utf8Char (c : CodePoint) : Option Bytes :=
  if c.val < 0x80 then some [UInt8.ofNat c.val]
  else if c.val < 0x800 then
    some [UInt8.ofNat (0xC0 + c.val / 0x40), UInt8.ofNat (0x80 + c.val % 0x40)]
  else if 0xD800 ≤ c.val ∧ c.val ≤ 0xDFFF then none
  else if c.val < 0x10000 then
    some [UInt8.ofNat (0xE0 + c.val / 0x1000), UInt8.ofNat (0x80 + c.val / 0x40 % 0x40),
      UInt8.ofNat (0x80 + c.val % 0x40)]
  else
    some [UInt8.ofNat (0xF0 + c.val / 0x40000), UInt8.ofNat (0x80 + c.val / 0x1000 % 0x40),
      UInt8.ofNat (0x80 + c.val / 0x40 % 0x40), UInt8.ofNat (0x80 + c.val % 0x40)]

/-- `s.encode("utf-8")`. -/
def encodeUtf8 : Str → Except Exc Bytes
  | [] => .ok []
  | c :: s =>
    match utf8Char c with
    | none => .error .unicodeEncodeError
    | some b => do return b ++ (← encodeUtf8 s)

/-- A continuation byte between the two bounds. -/
def isTail (lo hi : Nat) (b : UInt8) : Bool := lo ≤ b.toNat ∧ b.toNat ≤ hi

/-- The least value the second byte may have after `b0` (no overlong forms). -/
def tailLow (b0 : Nat) : Nat := if b0 = 0xE0 then 0xA0 else if b0 = 0xF0 then 0x90 else 0x80

/-- The greatest value the second byte may have after `b0` (no surrogates, nothing past
    `0x10FFFF`). -/
def tailHigh (b0 : Nat) : Nat := if b0 = 0xED then 0x9F else if b0 = 0xF4 then 0x8F else 0xBF

/-- `b.decode("utf-8")`: strict, so overlong forms, surrogates and stray bytes are errors. -/
def decodeUtf8 : Bytes → Except Exc Str
  | [] => .ok []
  | b0 :: bs =>
    if b0.toNat < 0x80 then do return Fin.ofNat _ b0.toNat :: (← decodeUtf8 bs)
    -- a continuation byte, or a lead that starts no code point
    else if b0.toNat < 0xC2 ∨ 0xF4 < b0.toNat then .error .unicodeDecodeError
    else
      match bs with
      | [] => .error .unicodeDecodeError
      | b1 :: bs =>
        -- the second byte has the tighter bounds: no overlong forms, no surrogates, nothing behind
        -- U+10FFFF
        if !isTail (tailLow b0.toNat) (tailHigh b0.toNat) b1 then .error .unicodeDecodeError
        else if b0.toNat < 0xE0 then do
          return Fin.ofNat _ (b0.toNat % 0x20 * 0x40 + b1.toNat % 0x40) :: (← decodeUtf8 bs)
        else
          match bs with
          | [] => .error .unicodeDecodeError
          | b2 :: bs =>
            if !isTail 0x80 0xBF b2 then .error .unicodeDecodeError
            else if b0.toNat < 0xF0 then do
              return Fin.ofNat _ (b0.toNat % 0x10 * 0x1000 + b1.toNat % 0x40 * 0x40 +
                b2.toNat % 0x40) :: (← decodeUtf8 bs)
            else
              match bs with
              | [] => .error .unicodeDecodeError
              | b3 :: bs =>
                if !isTail 0x80 0xBF b3 then .error .unicodeDecodeError
                else do
                  return Fin.ofNat _ (b0.toNat % 8 * 0x40000 + b1.toNat % 0x40 * 0x1000 +
                    b2.toNat % 0x40 * 0x40 + b3.toNat % 0x40) :: (← decodeUtf8 bs)

example : decodeUtf8 [0xC3, 0xA9] = .ok [0xE9] := by decide
example : decodeUtf8 [0xED, 0xA0, 0x80] = .error .unicodeDecodeError := by decide

theorem encodeAscii_ok {s : Str} (h : isAscii s) :
    encodeAscii s = .ok (s.map fun c => UInt8.ofNat c.val) := if_pos h

/-- ASCII text survives being written and read back. -/
theorem decodeAscii_encode {s : Str} (h : isAscii s) :
    decodeAscii (s.map fun c => UInt8.ofNat c.val) = .ok s := by
  have hback : ∀ c ∈ s, (UInt8.ofNat c.val).toNat = c.val := fun c hc => by
    have := isAscii_iff.mp h c hc
    simp [Nat.mod_eq_of_lt (show c.val < 256 by omega)]
  have hsmall : (s.map (fun c => UInt8.ofNat c.val)).all (fun x => x.toNat < 128) = true := by
    refine List.all_eq_true.mpr fun x hx => ?_
    obtain ⟨c, hc, rfl⟩ := List.mem_map.mp hx
    rw [hback c hc]; exact decide_eq_true (isAscii_iff.mp h c hc)
  rw [decodeAscii, if_pos hsmall, List.map_map]
  congr 1
  conv_rhs => rw [← List.map_id s]
  refine List.map_congr_left fun c hc => ?_
  show Fin.ofNat _ (UInt8.ofNat c.val).toNat = c
  rw [hback c hc]
  exact Fin.ext (Nat.mod_eq_of_lt c.isLt)

/-- Bytes that decode as ASCII are the encoding of what they decode to, which is ASCII. -/
theorem decodeAscii_eq_ok {b : Bytes} {s : Str} (h : decodeAscii b = .ok s) :
    isAscii s ∧ s.map (fun c => UInt8.ofNat c.val) = b := by
  unfold decodeAscii at h
  split at h
  · rename_i hb
    obtain rfl := Except.ok.inj h
    refine ⟨isAscii_iff.mpr fun c hc => ?_, ?_⟩
    · obtain ⟨x, hx, rfl⟩ := List.mem_map.mp hc
      have := of_decide_eq_true (List.all_eq_true.mp hb x hx)
      show x.toNat % 0x110000 < 128
      omega
    · rw [List.map_map]
      conv_rhs => rw [← List.map_id b]
      refine List.map_congr_left fun x _ => ?_
      have hx := x.toNat_lt
      show UInt8.ofNat (x.toNat % 0x110000) = x
      rw [Nat.mod_eq_of_lt (by omega), UInt8.ofNat_toNat]
  · cases h

/-- Decoding ASCII fails at a byte from 128 on. -/
theorem decodeAscii_eq_error {b : Bytes} {e : Exc} (h : decodeAscii b = .error e) :
    e = .unicodeDecodeError ∧ ∃ x ∈ b, 128 ≤ x.toNat := by
  unfold decodeAscii at h
  split at h
  · cases h
  · rename_i hb
    refine ⟨(Except.error.inj h).symm, ?_⟩
    simpa using hb

/-! ### What can be encoded -/

/-- A code point that no UTF form has a place for. -/
def isSurrogate (c : CodePoint) : Bool := 0xD800 ≤ c.val && c.val ≤ 0xDFFF

/-- `s.encode("utf-8")` returns. -/
def CanEncode (s : Str) : Prop := ∀ c ∈ s, isSurrogate c = false

/-- Exactly the surrogates have no UTF-8. -/
theorem utf8Char_eq_none {c : CodePoint} : utf8Char c = none ↔ isSurrogate c = true := by
  unfold utf8Char isSurrogate
  rw [Bool.and_eq_true, decide_eq_true_eq, decide_eq_true_eq]
  constructor
  · intro h
    by_cases hsur : 0xD800 ≤ c.val ∧ c.val ≤ 0xDFFF
    · exact hsur
    · rw [if_neg hsur] at h
      split_ifs at h
  · rintro ⟨hlo, hhi⟩
    rw [if_neg (by omega), if_neg (by omega), if_pos ⟨hlo, hhi⟩]

/-- Text without surrogates can be encoded. -/
theorem encodeUtf8_ok : ∀ {s : Str}, CanEncode s → ∃ b, encodeUtf8 s = .ok b := by
  intro s
  induction s with
  | nil => intro _; exact ⟨[], rfl⟩
  | cons c s ih =>
    intro h
    obtain ⟨b, hb⟩ := ih fun c' hc' => h c' (List.mem_cons_of_mem c hc')
    rw [encodeUtf8]
    cases hc : utf8Char c with
    | none => exact absurd (utf8Char_eq_none.mp hc) (by rw [h c List.mem_cons_self]; decide)
    | some bs => exact ⟨bs ++ b, by rw [hb]; rfl⟩

theorem encodeUtf8_eq_ok : ∀ {s : Str} {b : Bytes}, encodeUtf8 s = .ok b → CanEncode s := by
  intro s
  induction s with
  | nil => intro b _ c hc; exact absurd hc List.not_mem_nil
  | cons c s ih =>
    intro b h
    rw [encodeUtf8] at h
    split at h
    · cases h
    · rename_i bs hbs
      obtain ⟨b', hb', _⟩ := bind_eq_ok.mp h
      intro c' hc'
      rcases List.mem_cons.mp hc' with rfl | hc'
      · rw [← Bool.not_eq_true]
        intro hsur
        rw [utf8Char_eq_none.mpr hsur] at hbs
        cases hbs
      · exact ih hb' c' hc'

theorem encodeUtf8_eq_error {s : Str} {e : Exc} (h : encodeUtf8 s = .error e) :
    e = .unicodeEncodeError := by
  induction s with
  | nil => cases h
  | cons c s ih =>
    rw [encodeUtf8] at h
    split at h
    · exact (Except.error.inj h).symm
    · rcases bind_eq_error.mp h with h | ⟨_, _, h⟩
      · exact ih h
      · cases h

/-- Decoding bytes that are not UTF-8 raises `UnicodeDecodeError`. -/
theorem decodeUtf8_error {b : Bytes} {e : Exc} (h : decodeUtf8 b = .error e) :
    e = .unicodeDecodeError := by
  -- a character decoded before the failure does not change it
  have hcons : ∀ {c : CodePoint} {r : Except Exc Str},
      (do return c :: (← r) : Except Exc Str) = .error e → r = .error e := by
    intro c r hr
    rcases bind_eq_error.mp hr with h' | ⟨_, _, h'⟩
    · exact h'
    · cases h'
  fun_induction decodeUtf8 b with
  | case1 => cases h
  | case2 | case6 | case9 | case12 =>
    rename_i ih
    exact ih (hcons h)
  | _ => exact (Except.error.inj h).symm

/-- One encoded code point in front is decoded, whatever follows. -/
theorem decodeUtf8_char {c : CodePoint} {b : Bytes} (h : utf8Char c = some b) (rest : Bytes) :
    decodeUtf8 (b ++ rest) = (decodeUtf8 rest >>= fun s => pure (c :: s)) := by
  have hbyte : ∀ n, n < 256 → (UInt8.ofNat n).toNat = n := fun n hn => by
    rw [UInt8.toNat_ofNat']
    omega
  have hpoint : ∀ n, n = c.val → (Fin.ofNat 0x110000 n : CodePoint) = c := fun n hn => by
    rw [hn]
    exact Fin.ofNat_val_eq_self c
  have hc := c.isLt
  unfold utf8Char at h
  -- by the number of bytes, from one to four
  split_ifs at h with h₁ h₂ h₃ h₄
  all_goals
    obtain rfl := Option.some.inj h
    simp only [List.cons_append, List.nil_append]
    rw [decodeUtf8.eq_def]
    dsimp only
  · rw [hbyte _ (by omega), if_pos h₁, hpoint _ rfl]
  · rw [hbyte _ (by omega), if_neg (by omega), if_neg (by omega)]
    have htail : isTail (tailLow (192 + c.val / 64)) (tailHigh (192 + c.val / 64))
        (UInt8.ofNat (128 + c.val % 64)) = true := by
      unfold isTail tailLow tailHigh
      rw [hbyte _ (by omega), decide_eq_true_eq]
      split_ifs <;> omega
    rw [htail, if_neg (by decide), if_pos (by omega), hbyte _ (by omega), hpoint _ (by omega)]
  · rw [hbyte _ (by omega), if_neg (by omega), if_neg (by omega)]
    have htail : isTail (tailLow (224 + c.val / 4096)) (tailHigh (224 + c.val / 4096))
        (UInt8.ofNat (128 + c.val / 64 % 64)) = true := by
      unfold isTail tailLow tailHigh
      rw [hbyte _ (by omega), decide_eq_true_eq]
      split_ifs <;> omega
    have htail' : isTail 0x80 0xBF (UInt8.ofNat (128 + c.val % 64)) = true := by
      unfold isTail
      rw [hbyte _ (by omega), decide_eq_true_eq]
      omega
    rw [htail, if_neg (by decide), if_neg (by omega), htail', if_neg (by decide), if_pos (by omega),
      hbyte _ (by omega), hbyte _ (by omega), hpoint _ (by omega)]
  · rw [hbyte _ (by omega), if_neg (by omega), if_neg (by omega)]
    have htail : isTail (tailLow (240 + c.val / 262144)) (tailHigh (240 + c.val / 262144))
        (UInt8.ofNat (128 + c.val / 4096 % 64)) = true := by
      unfold isTail tailLow tailHigh
      rw [hbyte _ (by omega), decide_eq_true_eq]
      split_ifs <;> omega
    have htail' : ∀ n, isTail 0x80 0xBF (UInt8.ofNat (128 + n % 64)) = true := fun n => by
      unfold isTail
      rw [hbyte _ (by omega), decide_eq_true_eq]
      omega
    rw [htail, if_neg (by decide), if_neg (by omega), htail', if_neg (by decide), if_neg (by omega),
      htail', if_neg (by decide), hbyte _ (by omega), hbyte _ (by omega), hbyte _ (by omega),
      hpoint _ (by omega)]

/-- **What is encoded is decoded again.** -/
theorem decodeUtf8_encodeUtf8 : ∀ {s : Str} {b : Bytes}, encodeUtf8 s = .ok b →
    decodeUtf8 b = .ok s := by
  intro s
  induction s with
  | nil =>
    intro b h
    obtain rfl := Except.ok.inj h
    rfl
  | cons c s ih =>
    intro b h
    rw [encodeUtf8] at h
    cases hc : utf8Char c with
    | none =>
      rw [hc] at h
      cases h
    | some head =>
      rw [hc] at h
      obtain ⟨tail, htail, h⟩ := bind_eq_ok.mp h
      obtain rfl := Except.ok.inj h
      rw [decodeUtf8_char hc, ih htail]
      rfl

theorem encodeUtf8_inj {s s' : Str} {b : Bytes} (h : encodeUtf8 s = .ok b) (h' : encodeUtf8 s' = .ok b) :
    s = s' :=
  Except.ok.inj ((decodeUtf8_encodeUtf8 h).symm.trans (decodeUtf8_encodeUtf8 h'))

/-! ## Dictionaries and sets -/

/-- A `dict` with string keys. -/
abbrev Dict (β : Type) := AList fun _ : Str => β

/-- `d.get(name, "")`, and `d.get(name)` where only its truth is used: an absent key and an empty
    value are the same there. -/
def Dict.get (d : Dict Str) (name : Str) : Str := (d.lookup name).getD []

/-- `d[name]`. -/
def Dict.item {β : Type} (d : Dict β) (name : Str) : Except Exc β :=
  match d.lookup name with
  | some v => .ok v
  | none => .error .keyError

/-- `sorted(names)` for a list of distinct strings. -/
def sortStrs (names : List Str) : List Str := names.insertionSort (· ≤ ·)

/-- `sorted(d)`. -/
def sortedKeys {β : Type} (d : Dict β) : List Str := sortStrs d.keys

/-- `sorted(s)` of a set of strings. -/
def sortedSet (s : Finset Str) : List Str :=
  Quot.liftOn s.1 sortStrs fun l l' h =>
    List.Perm.eq_of_pairwise' (List.pairwise_insertionSort (· ≤ ·) l)
      (List.pairwise_insertionSort (· ≤ ·) l')
      ((List.perm_insertionSort (· ≤ ·) l).trans
        (h.trans (List.perm_insertionSort (· ≤ ·) l').symm))

@[simp] theorem mem_sortStrs {names : List Str} {n : Str} : n ∈ sortStrs names ↔ n ∈ names :=
  (List.perm_insertionSort (· ≤ ·) names).mem_iff

theorem length_sortStrs (names : List Str) : (sortStrs names).length = names.length :=
  (List.perm_insertionSort (· ≤ ·) names).length_eq

/-- Sorting distinct strings gives a strictly increasing list. -/
theorem sortStrs_pairwise_lt {names : List Str} (h : names.Nodup) :
    (sortStrs names).Pairwise (· < ·) := by
  have hle : (sortStrs names).Pairwise (· ≤ ·) := List.pairwise_insertionSort (· ≤ ·) names
  have hne : (sortStrs names).Pairwise (· ≠ ·) :=
    (List.perm_insertionSort (· ≤ ·) names).nodup_iff.mpr h
  exact (hle.and hne).imp fun h => lt_of_le_of_ne h.1 h.2

theorem sortedKeys_pairwise_lt {β : Type} (d : Dict β) : (sortedKeys d).Pairwise (· < ·) :=
  sortStrs_pairwise_lt d.keys_nodup

theorem mem_sortedKeys {β : Type} {d : Dict β} {n : Str} : n ∈ sortedKeys d ↔ n ∈ d := by
  rw [sortedKeys, mem_sortStrs, AList.mem_keys]

theorem length_sortedKeys {β : Type} (d : Dict β) : (sortedKeys d).length = d.keys.length :=
  length_sortStrs d.keys

/-- Dictionaries with the same keys list them in the same order. -/
theorem sortedKeys_congr {β γ : Type} {d : Dict β} {d' : Dict γ} (h : ∀ n, n ∈ d ↔ n ∈ d') :
    sortedKeys d = sortedKeys d' := by
  refine List.Perm.eq_of_pairwise (fun a b _ _ hab hba => absurd hab (lt_asymm hba))
    (sortedKeys_pairwise_lt d) (sortedKeys_pairwise_lt d') ?_
  refine (List.perm_ext_iff_of_nodup ?_ ?_).mpr fun n => ?_
  · exact (sortedKeys_pairwise_lt d).imp fun hlt => ne_of_lt hlt
  · exact (sortedKeys_pairwise_lt d').imp fun hlt => ne_of_lt hlt
  · rw [mem_sortedKeys, mem_sortedKeys, h n]

/-- Counting the members of a set among the keys that contain it. -/
theorem length_filter_sortedKeys {β : Type} {d : Dict β} {s : Finset Str} (h : ∀ n ∈ s, n ∈ d) :
    ((sortedKeys d).filter (· ∈ s)).length = s.card := by
  have hnd : ((sortedKeys d).filter (· ∈ s)).Nodup :=
    ((sortedKeys_pairwise_lt d).imp fun hlt => ne_of_lt hlt).filter _
  rw [← List.toFinset_card_of_nodup hnd]
  congr 1
  ext n
  rw [List.mem_toFinset, List.mem_filter, mem_sortedKeys, decide_eq_true_eq]
  exact ⟨fun hn => hn.2, fun hn => ⟨h n hn, hn⟩⟩

/-- Leaving the members of a set out of a list of distinct strings drops at most that many. -/
theorem length_filter_notMem_ge {names : List Str} (h : names.Nodup) (s : Finset Str) :
    names.length ≤ (names.filter fun n => n ∉ s).length + s.card := by
  have hsplit := List.length_eq_length_filter_add (l := names) fun n => decide (n ∈ s)
  have hin : (names.filter fun n => n ∈ s).length ≤ s.card := by
    rw [← List.toFinset_card_of_nodup (h.filter _)]
    refine Finset.card_le_card fun n hn => ?_
    exact of_decide_eq_true (List.mem_filter.mp (List.mem_toFinset.mp hn)).2
  have hout : names.filter (fun n => !decide (n ∈ s)) = names.filter fun n => n ∉ s :=
    List.filter_congr fun n _ => (decide_not ..).symm
  rw [hout] at hsplit
  omega

theorem mem_sortedSet {s : Finset Str} {n : Str} : n ∈ sortedSet s ↔ n ∈ s := by
  obtain ⟨⟨l⟩, h⟩ := s
  exact mem_sortStrs

/-- A name with a nonempty value is a key. -/
theorem Dict.mem_of_get_ne_nil {d : Dict Str} {n : Str} (h : d.get n ≠ []) : n ∈ d := by
  by_contra hn
  rw [Dict.get, AList.lookup_eq_none.mpr hn] at h
  exact h rfl

/-- `d[n]` is the value that is there. -/
theorem Dict.item_eq_ok {β : Type} {d : Dict β} {n : Str} {v : β} :
    d.item n = .ok v ↔ d.lookup n = some v := by
  unfold Dict.item
  cases d.lookup n with
  | none => simp
  | some w => simp

end Bedrock.Python
