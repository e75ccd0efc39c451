/-
  Text files, lines and numbers, as the lock file is read with them.

  1. **Text mode** — `open(path, encoding="utf-8")` decodes strictly and reads `\r\n` and `\r` as
     `\n`; what is written has its `\n` spelled the way of the platform.  Text without `\r` is read
     back as it was written (`readText_writeText`).

  2. **Lines** — `str.splitlines()` cuts at ten different characters, not at `\n` alone.

  3. **Digits** — `str.isdigit()` is wider than what `int()` accepts: it is also true of characters
     such as `²`, for which `int()` has no value.  Which characters these are is a matter of the
     Unicode tables of the interpreter (`DigitTables`); on ASCII they are `0` to `9`.
-/
import Bedrock.Python.Hash

open Lib.Fallible

namespace Bedrock.Python

/-! ## Text mode -/

/-- Universal newlines; `afterCr` says that the character before was a `\r`. -/
def universalNewlines (afterCr : Bool) : Str → Str
  | [] => []
  | c :: s =>
    if c = 13 then 10 :: universalNewlines true s
    else if c = 10 ∧ afterCr then universalNewlines false s
    else c :: universalNewlines false s

/-- `open(path, "r", encoding="utf-8").read()` of a file with these bytes. -/
def readText (b : Bytes) : Except Exc Str := do return universalNewlines false (← decodeUtf8 b)

/-- How a `\n` is written in text mode. -/
def platformNewlines (windows : Bool) (s : Str) : Str :=
  if windows then s.flatMap fun c => if c = 10 then [13, 10] else [c] else s

/-- The bytes that `open(path, "w", encoding="utf-8").write(s)` leaves. -/
def writeText (windows : Bool) (s : Str) : Except Exc Bytes := encodeUtf8 (platformNewlines windows s)

/-- Text without carriage returns is not changed. -/
theorem universalNewlines_false : ∀ {s : Str}, (13 : CodePoint) ∉ s → universalNewlines false s = s := by
  intro s
  induction s with
  | nil => intro _; rfl
  | cons c s ih =>
    intro h
    rw [List.mem_cons, not_or] at h
    rw [universalNewlines, if_neg (Ne.symm h.1), if_neg (fun hc => by cases hc.2), ih h.2]

theorem universalNewlines_crlf : ∀ {s : Str}, (13 : CodePoint) ∉ s →
    universalNewlines false (s.flatMap fun c => if c = 10 then [13, 10] else [c]) = s := by
  intro s
  induction s with
  | nil => intro _; rfl
  | cons c s ih =>
    intro h
    rw [List.mem_cons, not_or] at h
    rw [List.flatMap_cons]
    by_cases hc : c = 10
    · rw [if_pos hc, hc, List.cons_append, List.cons_append, List.nil_append, universalNewlines,
        if_pos rfl, universalNewlines, if_neg (by decide), if_pos ⟨rfl, rfl⟩, ih h.2]
    · rw [if_neg hc, List.cons_append, List.nil_append, universalNewlines, if_neg (Ne.symm h.1),
        if_neg (fun h' => hc h'.1), ih h.2]

/-- **Text without a carriage return is read back as it was written.** -/
theorem readText_writeText (windows : Bool) {s : Str} (hs : CanEncode s) (hcr : (13 : CodePoint) ∉ s) :
    ∃ b, writeText windows s = .ok b ∧ readText b = .ok s := by
  have hplat : CanEncode (platformNewlines windows s) := by
    unfold platformNewlines
    split
    · intro c hc
      obtain ⟨d, hd, hc⟩ := List.mem_flatMap.mp hc
      split at hc
      · rcases List.mem_cons.mp hc with rfl | hc
        · rfl
        · rw [List.mem_singleton.mp hc]; rfl
      · rw [List.mem_singleton.mp hc]
        exact hs d hd
    · exact hs
  obtain ⟨b, hb⟩ := encodeUtf8_ok hplat
  refine ⟨b, hb, ?_⟩
  rw [readText, decodeUtf8_encodeUtf8 hb, ok_bind]
  show Except.ok _ = Except.ok s
  congr 1
  unfold platformNewlines
  split
  · exact universalNewlines_crlf hcr
  · exact universalNewlines_false hcr

/-- Reading a text file raises nothing but `UnicodeDecodeError`. -/
theorem readText_error {b : Bytes} {e : Exc} (h : readText b = .error e) : e = .unicodeDecodeError := by
  rcases bind_eq_error.mp h with h | ⟨_, _, h⟩
  · exact decodeUtf8_error h
  · cases h

/-! ## Lines -/

/-- The characters at which `str.splitlines` cuts. -/
def isLineBreak (c : CodePoint) : Bool :=
  c ∈ ([0x0A, 0x0B, 0x0C, 0x0D, 0x1C, 0x1D, 0x1E, 0x85, 0x2028, 0x2029] : List CodePoint)

/-- `s.splitlines()`: a `\n` directly behind a `\r` belongs to it, and nothing comes behind the last
    break. -/
def splitlinesAfter (afterCr : Bool) : Str → List Str
  | [] => []
  | c :: s =>
    if c = 10 ∧ afterCr then splitlinesAfter false s
    else if isLineBreak c then [] :: splitlinesAfter (c = 13) s
    else
      match splitlinesAfter false s with
      | [] => [[c]]
      | line :: lines => (c :: line) :: lines

/-- `str.splitlines()`. -/
def splitlines (s : Str) : List Str := splitlinesAfter false s

example : splitlines (str "a\r\nb\n\nc") = [str "a", str "b", [], str "c"] := by decide

/-- A line in front of a newline is the first line. -/
theorem splitlines_line : ∀ {line : Str}, (∀ c ∈ line, isLineBreak c = false) → ∀ rest : Str,
    splitlines (line ++ 10 :: rest) = line :: splitlines rest := by
  intro line
  induction line with
  | nil => intro _ rest; rfl
  | cons c line ih =>
    intro h rest
    have hc := h c List.mem_cons_self
    have hne : c ≠ 10 := by
      intro heq
      rw [heq] at hc
      cases hc
    have htail := ih (fun c' hc' => h c' (List.mem_cons_of_mem c hc')) rest
    show splitlinesAfter false (c :: (line ++ 10 :: rest)) = _
    rw [splitlinesAfter, if_neg (fun h' => hne h'.1), hc, if_neg (by decide)]
    rw [splitlines] at htail
    rw [htail]

/-- Printable ASCII, which holds no line break. -/
def IsPlain (s : Str) : Prop := ∀ c ∈ s, 32 ≤ c.val ∧ c.val < 127

/-- Character by character. -/
instance (s : Str) : Decidable (IsPlain s) :=
  List.decidableBAll (fun c : CodePoint => 32 ≤ c.val ∧ c.val < 127) s

/-- Plain text has no line break in it. -/
theorem IsPlain.noBreak {s : Str} (h : IsPlain s) : ∀ c ∈ s, isLineBreak c = false := by
  intro c hc
  obtain ⟨hlo, hhi⟩ := h c hc
  have hne : ∀ v : CodePoint, (v.val < 32 ∨ 127 ≤ v.val) → c ≠ v := fun v hv heq => by
    rw [heq] at hlo hhi
    omega
  simp only [isLineBreak, List.mem_cons, List.not_mem_nil, or_false, decide_eq_false_iff_not, not_or]
  refine ⟨hne _ ?_, hne _ ?_, hne _ ?_, hne _ ?_, hne _ ?_, hne _ ?_, hne _ ?_, hne _ ?_, hne _ ?_,
    hne _ ?_⟩
  all_goals decide

/-- Hexadecimal text is plain. -/
theorem isPlain_hexStr (b : Bytes) : IsPlain (hexStr b) := by
  intro c hc
  obtain ⟨x, _, hc⟩ := List.mem_flatMap.mp hc
  obtain ⟨v, hv, rfl⟩ := List.mem_map.mp hc
  have hx := x.toNat_lt
  have hlt : v < 16 := by
    rcases List.mem_cons.mp hv with rfl | hv
    · omega
    · rw [List.mem_singleton.mp hv]; omega
  have hval : (Fin.ofNat 0x110000 (if v < 10 then 48 + v else 87 + v)).val =
      if v < 10 then 48 + v else 87 + v := Nat.mod_eq_of_lt (by split <;> omega)
  rw [hval]
  split <;> omega

/-! ## Numbers -/

/-- The Unicode tables behind `str.isdigit()` and `int()`: which characters are digits, and the value
    of those that are decimal digits. -/
class DigitTables where
  isDigitChar : CodePoint → Bool
  decimal : CodePoint → Option Nat
  isDigitChar_of_decimal : ∀ c v, decimal c = some v → isDigitChar c = true
  isDigitChar_ascii : ∀ c : CodePoint, c.val < 128 → (isDigitChar c = true ↔ 48 ≤ c.val ∧ c.val ≤ 57)
  decimal_ascii : ∀ c : CodePoint, 48 ≤ c.val → c.val ≤ 57 → decimal c = some (c.val - 48)

export DigitTables (isDigitChar decimal)

/-- `0` to `9`. -/
def isAsciiDigit (c : CodePoint) : Bool := 48 ≤ c.val && c.val ≤ 57

theorem isAsciiDigit_iff {c : CodePoint} : isAsciiDigit c = true ↔ 48 ≤ c.val ∧ c.val ≤ 57 := by
  rw [isAsciiDigit, Bool.and_eq_true, decide_eq_true_eq, decide_eq_true_eq]

/-- The value of a string of ASCII digits. -/
def asciiValue (s : Str) : Nat := s.foldl (fun acc c => 10 * acc + (c.val - 48)) 0

section Digits

variable [DigitTables]

/-- `s.isdigit()`. -/
def isdigit (s : Str) : Bool := s ≠ [] && s.all isDigitChar

/-- `int(s)` of a string that `isdigit`: every character needs a decimal value, and there may be at
    most 4300 of them. -/
def toInt (s : Str) : Except Exc Nat :=
  if (s.takeWhile fun c => (decimal c).isSome).length > 4300 then
    .error (.valueError "Exceeds the limit (4300 digits) for integer string conversion")
  else if s.all fun c => (decimal c).isSome then
    .ok (s.foldl (fun acc c => 10 * acc + (decimal c).getD 0) 0)
  else .error (.valueError "invalid literal for int() with base 10")

/-- `int` raises nothing but `ValueError`. -/
theorem toInt_error {s : Str} {e : Exc} (h : toInt s = .error e) : e.isValueError = true := by
  unfold toInt at h
  split_ifs at h
  · rw [← Except.error.inj h]; rfl
  · rw [← Except.error.inj h]; rfl

/-- A nonempty string of ASCII digits passes the test. -/
theorem isdigit_ascii {s : Str} (hne : s ≠ []) (h : s.all isAsciiDigit = true) : isdigit s = true := by
  rw [isdigit, Bool.and_eq_true, decide_eq_true_eq]
  refine ⟨hne, List.all_eq_true.mpr fun c hc => ?_⟩
  obtain ⟨hlo, hhi⟩ := isAsciiDigit_iff.mp (List.all_eq_true.mp h c hc)
  exact (DigitTables.isDigitChar_ascii c (by omega)).mpr ⟨hlo, hhi⟩

/-- **ASCII digits are read as the number they spell**, up to the limit. -/
theorem toInt_ascii {s : Str} (h : s.all isAsciiDigit = true) :
    toInt s = if s.length > 4300 then
      .error (.valueError "Exceeds the limit (4300 digits) for integer string conversion")
    else .ok (asciiValue s) := by
  have hvalue : ∀ c ∈ s, decimal c = some (c.val - 48) := fun c hc => by
    obtain ⟨hlo, hhi⟩ := isAsciiDigit_iff.mp (List.all_eq_true.mp h c hc)
    exact DigitTables.decimal_ascii c hlo hhi
  have hall : (s.all fun c => (decimal c).isSome) = true :=
    List.all_eq_true.mpr fun c hc => by rw [hvalue c hc]; rfl
  have htake : (s.takeWhile fun c => (decimal c).isSome) = s :=
    List.takeWhile_eq_self_iff.mpr (List.all_eq_true.mp hall)
  have hfold : ∀ acc, s.foldl (fun acc c => 10 * acc + (decimal c).getD 0) acc =
      s.foldl (fun acc c => 10 * acc + (c.val - 48)) acc := fun acc =>
    List.foldl_ext _ _ acc fun acc c hc => by rw [hvalue c hc]; rfl
  rw [toInt, htake, if_pos hall, hfold]
  rfl

end Digits

/-! ### The digits of a number -/

/-- The characters of `str(n)` are ASCII digits. -/
theorem all_isAsciiDigit_toString (n : Nat) : (str (toString n)).all isAsciiDigit = true := by
  refine List.all_eq_true.mpr fun c hc => ?_
  obtain ⟨d, hd, rfl⟩ := List.mem_map.mp hc
  rw [Nat.toString_eq_repr, Nat.toList_repr] at hd
  have hdigit := Nat.isDigit_of_mem_toDigits (by decide) (by decide) hd
  rw [Char.isDigit, Bool.and_eq_true, decide_eq_true_eq, decide_eq_true_eq] at hdigit
  have hlo : 48 ≤ d.toNat := hdigit.1
  have hhi : d.toNat ≤ 57 := hdigit.2
  rw [isAsciiDigit_iff]
  have hval : (Fin.ofNat 0x110000 d.toNat).val = d.toNat := Nat.mod_eq_of_lt (by omega)
  rw [hval]
  exact ⟨hlo, hhi⟩

theorem toString_ne_nil (n : Nat) : str (toString n) ≠ [] := by
  rw [str, Nat.toString_eq_repr, Nat.toList_repr]
  exact fun h => Nat.toDigits_ne_nil (List.map_eq_nil_iff.mp h)

/-- `int(str(n))` is `n`. -/
theorem asciiValue_toString (n : Nat) : asciiValue (str (toString n)) = n := by
  have hdigits : ∀ c ∈ Nat.toDigits 10 n, c.toNat ≤ 57 := fun c hc => by
    have hdigit := Nat.isDigit_of_mem_toDigits (by decide) (by decide) hc
    rw [Char.isDigit, Bool.and_eq_true, decide_eq_true_eq, decide_eq_true_eq] at hdigit
    exact hdigit.2
  rw [asciiValue, str, Nat.toString_eq_repr, Nat.toList_repr, List.foldl_map]
  conv_rhs => rw [← Nat.ofDigitChars_ten_toDigits (n := n), Nat.ofDigitChars_eq_foldl]
  refine List.foldl_ext _ _ 0 fun acc c hc => ?_
  have hval : (Fin.ofNat 0x110000 c.toNat).val = c.toNat :=
    Nat.mod_eq_of_lt (by have := hdigits c hc; omega)
  rw [hval]
  rfl

theorem length_toString_le {n k : Nat} (hk : 0 < k) (h : n < 10 ^ k) : (str (toString n)).length ≤ k := by
  rw [str, List.length_map, Nat.toString_eq_repr, Nat.toList_repr]
  exact (Nat.length_toDigits_le_iff (by decide) hk).mpr h

end Bedrock.Python
