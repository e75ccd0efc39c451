/-
  `json.loads` of a string, with the default decoder.

  1. **Values** — an object is its items with distinct keys, a repeated key keeping its last value.
     A number with a fraction or an exponent is a `float`, of which only the literal is kept.

  2. **Scanner** — `scanOnce` reads one value from the front of a text and gives back the rest.  It
     is CPython's: strict strings, `NaN` and the infinities, no trailing commas, at most 4300 digits
     in an integer.  Every complaint is a `ValueError`.

  3. **Depth** — a container costs a level of the interpreter's stack.  How many are left is not
     known here: it is the parameter `CallStack`, and running out of it is a `RecursionError`, which
     is NOT a `ValueError`.

  The scanner's `fuel` only makes its recursion structural: `scanOnce_fuel` shows that twice the
  length of the text is enough.
-/
import Bedrock.Python.Str

open Lib.Fallible

namespace Bedrock.Python

/-- A decoded JSON value. -/
inductive Json
  | null
  | bool (b : Bool)
  | int (n : Int)
  | float (literal : Str)
  | str (s : Str)
  | list (items : List Json)
  | dict (items : List (Str × Json))

/-- The nested containers the interpreter's stack has room for. -/
class CallStack where
  room : Nat

/-- A character literal. -/
def chr (c : Char) : CodePoint := Fin.ofNat 0x110000 c.toNat

/-! ## Lexical parts -/

/-- The white space of JSON: four characters. -/
def isJsonSpace (c : CodePoint) : Bool := c = chr ' ' || c = chr '\t' || c = chr '\n' || c = chr '\r'

/-- `WHITESPACE.match(s, idx).end()`. -/
def skipSpace (s : Str) : Str := s.dropWhile isJsonSpace

/-- `0` to `9`. -/
def isDigit (c : CodePoint) : Bool := 48 ≤ c.val && c.val ≤ 57

/-- The value of a hexadecimal digit. -/
def hexDigit (c : CodePoint) : Option Nat :=
  if isDigit c then some (c.val - 48)
  else if 65 ≤ c.val ∧ c.val ≤ 70 then some (c.val - 55)
  else if 97 ≤ c.val ∧ c.val ≤ 102 then some (c.val - 87)
  else none

/-- The four digits of `\uXXXX`. -/
def hexQuad (a b c d : CodePoint) : Option Nat := do
  return (← hexDigit a) * 4096 + (← hexDigit b) * 256 + (← hexDigit c) * 16 + (← hexDigit d)

/-- The character a one-letter escape stands for. -/
def unescape (c : CodePoint) : Option CodePoint :=
  if c = chr '"' ∨ c = chr '\\' ∨ c = chr '/' then some c
  else if c = chr 'b' then some 8
  else if c = chr 'f' then some 12
  else if c = chr 'n' then some 10
  else if c = chr 'r' then some 13
  else if c = chr 't' then some 9
  else none

/-- The low surrogate that is escaped at the front of a text, if there is one; an escape that is not
    four digits is an error. -/
def lowEscape : Str → Except Exc (Option Nat)
  | b :: u :: c₁ :: c₂ :: c₃ :: c₄ :: _ =>
    if b = chr '\\' ∧ u = chr 'u' then
      match hexQuad c₁ c₂ c₃ c₄ with
      | none => .error .jsonDecodeError
      | some lo => .ok (if 0xDC00 ≤ lo ∧ lo ≤ 0xDFFF then some lo else none)
    else .ok none
  | _ => .ok none

/-- The second half of the surrogate pair `n` starts. -/
def pairEscape (n : Nat) (s : Str) : Except Exc (Option Nat) :=
  if 0xD800 ≤ n ∧ n ≤ 0xDBFF then lowEscape s else .ok none

/-- One more character in front of a scanned string. -/
def pushChar (n : Nat) (r : Except Exc (Str × Str)) : Except Exc (Str × Str) := do
  let (text, rest) ← r
  return (Fin.ofNat _ n :: text, rest)

/-- `scanstring`, after the opening quote: the string, and what follows the closing quote.  The
    escapes of a surrogate pair are one character; a lone one stays as it is. -/
def scanString : Str → Except Exc (Str × Str)
  | [] => .error .jsonDecodeError
  | c :: s =>
    if c = chr '"' then .ok ([], s)
    else if c = chr '\\' then
      match s with
      | [] => .error .jsonDecodeError
      | e :: s =>
        if e = chr 'u' then
          match s with
          -- `\uXXXX`: exactly four digits, and a low half if this is a high one
          | c₁ :: c₂ :: c₃ :: c₄ :: s =>
            match hexQuad c₁ c₂ c₃ c₄ with
            | none => .error .jsonDecodeError
            | some n =>
              match pairEscape n s with
              | .error e => .error e
              -- a high half without a low one stands for itself
              | .ok none => pushChar n (scanString s)
              | .ok (some lo) =>
                match s with
                | _ :: _ :: _ :: _ :: _ :: _ :: s =>
                  pushChar (0x10000 + (n - 0xD800) * 0x400 + (lo - 0xDC00)) (scanString s)
                | _ => .error .jsonDecodeError
          | _ => .error .jsonDecodeError
        else
          match unescape e with
          | none => .error .jsonDecodeError
          | some x => pushChar x (scanString s)
    -- control characters are refused, as `strict` is on
    else if c.val < 0x20 then .error .jsonDecodeError
    else pushChar c (scanString s)

/-- `.` and its digits, when there are any. -/
def scanFraction (s : Str) : Str × Str :=
  match s with
  | p :: t =>
    if p = chr '.' ∧ (t.takeWhile isDigit) ≠ [] then (p :: t.takeWhile isDigit, t.dropWhile isDigit)
    else ([], s)
  | [] => ([], [])

/-- The sign of an exponent, when there is one. -/
def scanSign : Str → Str × Str
  | c :: t => if c = chr '+' ∨ c = chr '-' then ([c], t) else ([], c :: t)
  | [] => ([], [])

/-- `e`, a sign and digits, when they are complete. -/
def scanExponent (s : Str) : Str × Str :=
  match s with
  | e :: t =>
    let (sign, t) := scanSign t
    if (e = chr 'e' ∨ e = chr 'E') ∧ (t.takeWhile isDigit) ≠ [] then
      (e :: sign ++ t.takeWhile isDigit, t.dropWhile isDigit)
    else ([], s)
  | [] => ([], [])

/-- `int(digits)`. -/
def readDigits (digits : Str) : Nat := digits.foldl (fun n c => n * 10 + (c.val - 48)) 0

/-- The digits before the point: `0` alone, or a run. -/
def scanWhole (d : CodePoint) (t : Str) : Str × Str :=
  if d = chr '0' then ([d], t) else (d :: t.takeWhile isDigit, t.dropWhile isDigit)

/-- `int(numstr)`, or `float(numstr)` when there is a fraction or an exponent. -/
def parseNumber (sign whole fraction exponent : Str) : Except Exc Json :=
  if fraction ≠ [] ∨ exponent ≠ [] then .ok (.float (sign ++ whole ++ fraction ++ exponent))
  else if whole.length > 4300 then
    .error (.valueError "Exceeds the limit (4300 digits) for integer string conversion")
  else .ok (.int (if sign = [] then readDigits whole else -(readDigits whole : Int)))

/-- The number after its sign. -/
def scanMagnitude (sign : Str) : Str → Except Exc (Json × Str)
  | [] => .error .jsonDecodeError
  | d :: t =>
    if !isDigit d then .error .jsonDecodeError
    else do
      let whole := scanWhole d t
      let fraction := scanFraction whole.2
      let exponent := scanExponent fraction.2
      return (← parseNumber sign whole.1 fraction.1 exponent.1, exponent.2)

/-- `_match_number`. -/
def scanNumber : Str → Except Exc (Json × Str)
  | [] => .error .jsonDecodeError
  | c :: s => if c = chr '-' then scanMagnitude [c] s else scanMagnitude [] (c :: s)

/-- The constants, by their spelling. -/
def jsonConstants : List (Str × Json) := [
  (str "null", .null), (str "true", .bool true), (str "false", .bool false),
  (str "NaN", .float (str "NaN")), (str "Infinity", .float (str "Infinity")),
  (str "-Infinity", .float (str "-Infinity"))]

/-- A value that is neither a string nor a container. -/
def scanScalar (s : Str) : Except Exc (Json × Str) :=
  match jsonConstants.find? fun constant => constant.1.isPrefixOf s with
  | some (word, value) => .ok (value, s.drop word.length)
  | none => scanNumber s

/-- `d[key] = value` on the items of a dict. -/
def setItem (key : Str) (value : Json) : List (Str × Json) → List (Str × Json)
  | [] => [(key, value)]
  | item :: items =>
    if item.1 = key then (key, value) :: items else item :: setItem key value items

/-- Read a `:` and the spaces around it. -/
def scanColon (s : Str) : Except Exc Str :=
  match skipSpace s with
  | c :: s => if c = chr ':' then .ok (skipSpace s) else .error .jsonDecodeError
  | [] => .error .jsonDecodeError

/-! ## Values -/

/-- `_Py_EnterRecursiveCall` around a container. -/
def descend {α : Type} (room : Nat) (body : Nat → Except Exc α) : Except Exc α :=
  match room with
  | 0 => .error .recursionError
  | room + 1 => body room

mutual

/-- `scan_once`. -/
def scanOnce : Nat → Nat → Str → Except Exc (Json × Str)
  | 0, _, _ | _, _, [] => .error .jsonDecodeError
  | fuel + 1, room, c :: s =>
    if c = chr '"' then do
      let (text, rest) ← scanString s
      return (.str text, rest)
    else if c = chr '{' then
      descend room fun room =>
        if (skipSpace s).head? = some (chr '}') then .ok (.dict [], (skipSpace s).tail)
        else scanItems fuel room [] (skipSpace s)
    else if c = chr '[' then
      descend room fun room =>
        if (skipSpace s).head? = some (chr ']') then .ok (.list [], (skipSpace s).tail)
        else scanElements fuel room [] (skipSpace s)
    else scanScalar (c :: s)

/-- The items of an object, the first at the front of the text. -/
def scanItems : Nat → Nat → List (Str × Json) → Str → Except Exc (Json × Str)
  | 0, _, _, _ | _, _, _, [] => .error .jsonDecodeError
  | fuel + 1, room, items, c :: s =>
    if c ≠ chr '"' then .error .jsonDecodeError
    else do
      let (key, s) ← scanString s
      let (value, s) ← scanOnce fuel room (← scanColon s)
      match skipSpace s with
      | c :: s =>
        if c = chr '}' then .ok (.dict (setItem key value items), s)
        else if c = chr ',' then scanItems fuel room (setItem key value items) (skipSpace s)
        else .error .jsonDecodeError
      | [] => .error .jsonDecodeError

/-- The elements of an array, the first at the front of the text. -/
def scanElements : Nat → Nat → List Json → Str → Except Exc (Json × Str)
  | 0, _, _, _ => .error .jsonDecodeError
  | fuel + 1, room, items, s => do
    let (value, s) ← scanOnce fuel room s
    match skipSpace s with
    | c :: s =>
      if c = chr ']' then .ok (.list (items ++ [value]), s)
      else if c = chr ',' then scanElements fuel room (items ++ [value]) (skipSpace s)
      else .error .jsonDecodeError
    | [] => .error .jsonDecodeError

end

/-- `json.loads(s)`. -/
def loads [CallStack] (s : Str) : Except Exc Json := do
  if s.head? = some 0xFEFF then .error .jsonDecodeError
  else
    let text := skipSpace s
    let (value, rest) ← scanOnce (2 * text.length + 1) CallStack.room text
    if skipSpace rest = [] then return value else .error .jsonDecodeError

example : [CallStack] → CallStack.room = 1 →
    (loads (str " [] ") = .ok (.list []) ∧ loads (str "[[]]") = .error .recursionError) := by
  rintro ⟨_⟩ rfl
  constructor <;> rfl

/-! ## What it raises -/

/-- The exceptions of `json.loads`. -/
def Exc.isJsonError (e : Exc) : Bool := e.isValueError || decide (e = .recursionError)

/-- The second half of a surrogate pair fails with `JSONDecodeError`, as does every step of the scanner.
    -/
theorem lowEscape_error {s : Str} {e : Exc} (h : lowEscape s = .error e) : e = .jsonDecodeError := by
  unfold lowEscape at h
  split at h
  · split at h
    · split at h
      · exact (Except.error.inj h).symm
      · cases h
    · cases h
  · cases h

theorem pairEscape_error {n : Nat} {s : Str} {e : Exc} (h : pairEscape n s = .error e) :
    e = .jsonDecodeError := by
  unfold pairEscape at h
  split at h
  · exact lowEscape_error h
  · cases h

theorem pushChar_error {n : Nat} {r : Except Exc (Str × Str)} {e : Exc}
    (h : pushChar n r = .error e) : r = .error e := by
  rcases bind_eq_error.mp h with h | ⟨_, _, h⟩
  · exact h
  · cases h

theorem scanString_error {s : Str} {e : Exc} (h : scanString s = .error e) :
    e = .jsonDecodeError := by
  fun_induction scanString s with
  | case2 => cases h
  | case5 c₁ c₂ c₃ c₄ s n hn e' he hne =>
    rw [← Except.error.inj h]
    exact pairEscape_error he
  | case6 | case7 | case11 | case13 =>
    rename_i ih
    exact ih (pushChar_error h)
  | _ => exact (Except.error.inj h).symm

/-- A number may also be too long for `int`, which is a `ValueError` too. -/
theorem parseNumber_error {sign whole fraction exponent : Str} {e : Exc}
    (h : parseNumber sign whole fraction exponent = .error e) : e.isValueError = true := by
  unfold parseNumber at h
  split at h
  · cases h
  · split at h
    · obtain rfl := Except.error.inj h
      rfl
    · cases h

theorem scanMagnitude_error {sign s : Str} {e : Exc} (h : scanMagnitude sign s = .error e) :
    e.isValueError = true := by
  cases s with
  | nil =>
    obtain rfl := Except.error.inj h
    rfl
  | cons d t =>
    rw [scanMagnitude] at h
    split at h
    · obtain rfl := Except.error.inj h
      rfl
    · rcases bind_eq_error.mp h with h | ⟨_, _, h⟩
      · exact parseNumber_error h
      · cases h

theorem scanScalar_error {s : Str} {e : Exc} (h : scanScalar s = .error e) :
    e.isValueError = true := by
  unfold scanScalar at h
  split at h
  · cases h
  · cases s with
    | nil =>
      obtain rfl := Except.error.inj h
      rfl
    | cons c t =>
      rw [scanNumber] at h
      split at h
      · exact scanMagnitude_error h
      · exact scanMagnitude_error h

/-- A missing colon is an error of the document. -/
theorem scanColon_error {s : Str} {e : Exc} (h : scanColon s = .error e) : e = .jsonDecodeError := by
  unfold scanColon at h
  split at h
  · split at h
    · cases h
    · exact (Except.error.inj h).symm
  · exact (Except.error.inj h).symm

/-- One level deeper the stack may be at its end. -/
theorem descend_error {α : Type} {room : Nat} {body : Nat → Except Exc α} {e : Exc}
    (h : descend room body = .error e) : e = .recursionError ∨ ∃ room, body room = .error e := by
  cases room with
  | zero => exact Or.inl (Except.error.inj h).symm
  | succ room => exact Or.inr ⟨room, h⟩

/-- The scanner's own complaints are `ValueError`s. -/
theorem isJsonError_of_eq {e : Exc} (h : Exc.jsonDecodeError = e) : e.isJsonError = true := by
  subst h
  rfl

/-- **What a document raises** is a `ValueError`, or `RecursionError`. By induction on the fuel, over
    the three functions at once. -/
theorem scan_error : ∀ fuel : Nat,
    (∀ room s e, scanOnce fuel room s = .error e → e.isJsonError = true) ∧
    (∀ room items s e, scanItems fuel room items s = .error e → e.isJsonError = true) ∧
    (∀ room items s e, scanElements fuel room items s = .error e → e.isJsonError = true) := by
  intro fuel
  -- on the fuel, for the three scanners at once, since they call each other
  induction fuel with
  | zero =>
    refine ⟨fun room s e h => ?_, fun room items s e h => ?_, fun room items s e h => ?_⟩
    · exact isJsonError_of_eq (Except.error.inj h)
    · exact isJsonError_of_eq (Except.error.inj h)
    · exact isJsonError_of_eq (Except.error.inj h)
  | succ fuel ih =>
    obtain ⟨ihOnce, ihItems, ihElements⟩ := ih
    refine ⟨fun room s e h => ?_, fun room items s e h => ?_, fun room items s e h => ?_⟩
    · cases s with
      | nil => exact isJsonError_of_eq (Except.error.inj h)
      | cons c s =>
        rw [scanOnce] at h
        split at h
        · -- a string, an object, an array, or a scalar
          rcases bind_eq_error.mp h with h | ⟨_, _, h⟩
          · exact isJsonError_of_eq (scanString_error h).symm
          · cases h
        · split at h
          · rcases descend_error h with rfl | ⟨room, h⟩
            · rfl
            · split at h
              · cases h
              · exact ihItems _ _ _ _ h
          · split at h
            · rcases descend_error h with rfl | ⟨room, h⟩
              · rfl
              · split at h
                · cases h
                · exact ihElements _ _ _ _ h
            · rw [Exc.isJsonError, scanScalar_error h]
              rfl
    · cases s with
      | nil => exact isJsonError_of_eq (Except.error.inj h)
      | cons c s =>
        rw [scanItems] at h
        split at h
        · exact isJsonError_of_eq (Except.error.inj h)
        · rcases bind_eq_error.mp h with h | ⟨⟨key, s₁⟩, _, h⟩
          · exact isJsonError_of_eq (scanString_error h).symm
          · rcases bind_eq_error.mp h with h | ⟨s₂, _, h⟩
            · exact isJsonError_of_eq (scanColon_error h).symm
            · rcases bind_eq_error.mp h with h | ⟨⟨value, s₃⟩, _, h⟩
              · exact ihOnce _ _ _ h
              · dsimp only at h
                split at h
                · split at h
                  · cases h
                  · split at h
                    · exact ihItems _ _ _ _ h
                    · exact isJsonError_of_eq (Except.error.inj h)
                · exact isJsonError_of_eq (Except.error.inj h)
    · rw [scanElements] at h
      rcases bind_eq_error.mp h with h | ⟨⟨value, s₁⟩, _, h⟩
      · exact ihOnce _ _ _ h
      · dsimp only at h
        split at h
        · split at h
          · cases h
          · split at h
            · exact ihElements _ _ _ _ h
            · exact isJsonError_of_eq (Except.error.inj h)
        · exact isJsonError_of_eq (Except.error.inj h)

/-- **What `json.loads` raises**: a `ValueError`, or a `RecursionError` for a text that nests deeper
    than the stack has room for. -/
theorem loads_error [CallStack] {s : Str} {e : Exc} (h : loads s = .error e) :
    e.isJsonError = true := by
  unfold loads at h
  split at h
  · exact isJsonError_of_eq (Except.error.inj h)
  · rcases bind_eq_error.mp h with h | ⟨⟨value, rest⟩, _, h⟩
    · exact (scan_error _).1 _ _ _ h
    · dsimp only at h
      split at h
      · cases h
      · exact isJsonError_of_eq (Except.error.inj h)

/-! ## The fuel is enough

Every value takes at least one character off the text, and no two nested calls of the scanner start
at one position unless the outer one is an array's. -/

theorem length_skipSpace_le (s : Str) : (skipSpace s).length ≤ s.length :=
  List.length_dropWhile_le _ s

theorem pushChar_eq_ok {n : Nat} {r : Except Exc (Str × Str)} {text rest : Str}
    (h : pushChar n r = .ok (text, rest)) : ∃ text', r = .ok (text', rest) := by
  obtain ⟨⟨text', rest'⟩, hr, h⟩ := bind_eq_ok.mp h
  obtain ⟨rfl, rfl⟩ := Prod.mk.inj (Except.ok.inj h)
  exact ⟨text', hr⟩

theorem scanString_length {s text rest : Str} (h : scanString s = .ok (text, rest)) :
    rest.length < s.length := by
  fun_induction scanString s generalizing text with
  | case2 s =>
    obtain ⟨-, rfl⟩ := Prod.mk.inj (Except.ok.inj h)
    exact Nat.lt_succ_self _
  | case6 | case7 | case11 | case13 =>
    rename_i ih
    obtain ⟨text', h⟩ := pushChar_eq_ok h
    have := ih h
    simp only [List.length_cons]
    omega
  | _ => cases h

theorem length_scanFraction_le (s : Str) : (scanFraction s).2.length ≤ s.length := by
  unfold scanFraction
  split
  · rename_i p t
    split
    · have := List.length_dropWhile_le isDigit t
      simp only [List.length_cons]
      omega
    · exact Nat.le_refl _
  · exact Nat.le_refl _

theorem length_scanSign_le (s : Str) : (scanSign s).2.length ≤ s.length := by
  unfold scanSign
  split
  · split
    · exact Nat.le_succ _
    · exact Nat.le_refl _
  · exact Nat.le_refl _

theorem length_scanExponent_le (s : Str) : (scanExponent s).2.length ≤ s.length := by
  unfold scanExponent
  split
  · rename_i e t
    dsimp only
    split
    · have := List.length_dropWhile_le isDigit (scanSign t).2
      have := length_scanSign_le t
      simp only [List.length_cons]
      omega
    · exact Nat.le_refl _
  · exact Nat.le_refl _

theorem length_scanWhole_le (d : CodePoint) (t : Str) : (scanWhole d t).2.length ≤ t.length := by
  unfold scanWhole
  split
  · exact Nat.le_refl _
  · exact List.length_dropWhile_le isDigit t

theorem scanMagnitude_length {sign s rest : Str} {v : Json}
    (h : scanMagnitude sign s = .ok (v, rest)) : rest.length < s.length := by
  cases s with
  | nil => cases h
  | cons d t =>
    rw [scanMagnitude] at h
    split at h
    · cases h
    · obtain ⟨_, _, h⟩ := bind_eq_ok.mp h
      obtain ⟨-, rfl⟩ := Prod.mk.inj (Except.ok.inj h)
      have h₁ := length_scanExponent_le (scanFraction (scanWhole d t).2).2
      have h₂ := length_scanFraction_le (scanWhole d t).2
      have h₃ := length_scanWhole_le d t
      rw [List.length_cons]
      omega

theorem scanNumber_length {s rest : Str} {v : Json} (h : scanNumber s = .ok (v, rest)) :
    rest.length < s.length := by
  cases s with
  | nil => cases h
  | cons c t =>
    rw [scanNumber] at h
    split at h
    · have := scanMagnitude_length h
      rw [List.length_cons]
      omega
    · exact scanMagnitude_length h

/-- A scalar takes at least one character. -/
theorem scanScalar_length {c : CodePoint} {s rest : Str} {v : Json}
    (h : scanScalar (c :: s) = .ok (v, rest)) : rest.length < (c :: s).length := by
  have hwords : ∀ constant ∈ jsonConstants, 0 < constant.1.length := by
    simp only [jsonConstants, List.forall_mem_cons]
    decide
  unfold scanScalar at h
  split at h
  · rename_i word value hfind
    obtain ⟨-, rfl⟩ := Prod.mk.inj (Except.ok.inj h)
    have := hwords _ (List.mem_of_find?_eq_some hfind)
    rw [List.length_drop, List.length_cons]
    dsimp only at this
    omega
  · exact scanNumber_length h

theorem scanColon_length {s rest : Str} (h : scanColon s = .ok rest) : rest.length < s.length := by
  have hle := length_skipSpace_le s
  unfold scanColon at h
  split at h
  · rename_i c t hs
    rw [hs, List.length_cons] at hle
    split at h
    · obtain rfl := Except.ok.inj h
      have := length_skipSpace_le t
      omega
    · cases h
  · cases h

/-- What returned one level deeper returned with the room that was left. -/
theorem descend_eq_ok {α : Type} {room : Nat} {body : Nat → Except Exc α} {a : α}
    (h : descend room body = .ok a) : ∃ room, body room = .ok a := by
  cases room with
  | zero => cases h
  | succ room => exact ⟨room, h⟩

/-- **Progress**: a value that was read is off the text. -/
theorem scan_length : ∀ fuel : Nat,
    (∀ room s v rest, scanOnce fuel room s = .ok (v, rest) → rest.length < s.length) ∧
    (∀ room items s v rest, scanItems fuel room items s = .ok (v, rest) →
      rest.length < s.length) ∧
    (∀ room items s v rest, scanElements fuel room items s = .ok (v, rest) →
      rest.length < s.length) := by
  intro fuel
  induction fuel with
  | zero =>
    refine ⟨fun room s v rest h => ?_, fun room items s v rest h => ?_,
      fun room items s v rest h => ?_⟩
    · cases h
    · cases h
    · cases h
  | succ fuel ih =>
    obtain ⟨ihOnce, ihItems, ihElements⟩ := ih
    -- what stands between a value and the next one
    have hnext : ∀ {s t rest : Str} {c : CodePoint}, skipSpace s = c :: t → rest.length ≤ t.length →
        rest.length < s.length := by
      intro s t rest c hs hle
      have := length_skipSpace_le s
      rw [hs, List.length_cons] at this
      omega
    refine ⟨fun room s v rest h => ?_, fun room items s v rest h => ?_,
      fun room items s v rest h => ?_⟩
    · cases s with
      | nil => cases h
      | cons c s =>
        have hskip := length_skipSpace_le s
        rw [List.length_cons]
        rw [scanOnce] at h
        split at h
        · obtain ⟨⟨text, rest'⟩, hs, h⟩ := bind_eq_ok.mp h
          obtain ⟨-, rfl⟩ := Prod.mk.inj (Except.ok.inj h)
          have := scanString_length hs
          omega
        · split at h
          · obtain ⟨room, h⟩ := descend_eq_ok h
            split at h
            · obtain ⟨-, rfl⟩ := Prod.mk.inj (Except.ok.inj h)
              rw [List.length_tail]
              omega
            · have := ihItems _ _ _ _ _ h
              omega
          · split at h
            · obtain ⟨room, h⟩ := descend_eq_ok h
              split at h
              · obtain ⟨-, rfl⟩ := Prod.mk.inj (Except.ok.inj h)
                rw [List.length_tail]
                omega
              · have := ihElements _ _ _ _ _ h
                omega
            · exact scanScalar_length h
    · cases s with
      | nil => cases h
      | cons c s =>
        rw [List.length_cons]
        rw [scanItems] at h
        split at h
        · cases h
        · obtain ⟨⟨key, s₁⟩, h₁, h⟩ := bind_eq_ok.mp h
          obtain ⟨s₂, h₂, h⟩ := bind_eq_ok.mp h
          obtain ⟨⟨value, s₃⟩, h₃, h⟩ := bind_eq_ok.mp h
          have l₁ := scanString_length h₁
          have l₂ := scanColon_length h₂
          have l₃ := ihOnce _ _ _ _ h₃
          dsimp only at h l₂ l₃
          split at h
          · rename_i c' t ht
            split at h
            · obtain ⟨-, rfl⟩ := Prod.mk.inj (Except.ok.inj h)
              have := hnext ht (Nat.le_refl _)
              omega
            · split at h
              · have l₄ := ihItems _ _ _ _ _ h
                have l₅ := length_skipSpace_le t
                have := hnext ht (show rest.length ≤ t.length by omega)
                omega
              · cases h
          · cases h
    · rw [scanElements] at h
      obtain ⟨⟨value, s₁⟩, h₁, h⟩ := bind_eq_ok.mp h
      have l₁ := ihOnce _ _ _ _ h₁
      dsimp only at h
      split at h
      · rename_i c' t ht
        split at h
        · obtain ⟨-, rfl⟩ := Prod.mk.inj (Except.ok.inj h)
          have := hnext ht (Nat.le_refl _)
          omega
        · split at h
          · have l₂ := ihElements _ _ _ _ _ h
            have l₃ := length_skipSpace_le t
            have := hnext ht (show rest.length ≤ t.length by omega)
            omega
          · cases h
      · cases h

/-- **Enough fuel is enough**: twice the length of the text gives the same result as any more. By
    induction on the fuel, over the three functions at once. -/
theorem scan_fuel : ∀ f f' : Nat,
    (∀ room s, 2 * s.length < f → 2 * s.length < f' →
      scanOnce f room s = scanOnce f' room s) ∧
    (∀ room items s, 2 * s.length < f → 2 * s.length < f' →
      scanItems f room items s = scanItems f' room items s) ∧
    (∀ room items s, 2 * s.length + 1 < f → 2 * s.length + 1 < f' →
      scanElements f room items s = scanElements f' room items s) := by
  intro f
  -- on the first fuel; every call is on a shorter text, and two units of fuel are left for a character
  induction f with
  | zero =>
    intro f'
    exact ⟨fun _ _ h => absurd h (Nat.not_lt_zero _), fun _ _ _ h => absurd h (Nat.not_lt_zero _),
      fun _ _ _ h => absurd h (Nat.not_lt_zero _)⟩
  | succ f ih =>
    intro f'
    cases f' with
    | zero =>
      exact ⟨fun _ _ _ h => absurd h (Nat.not_lt_zero _),
        fun _ _ _ _ h => absurd h (Nat.not_lt_zero _), fun _ _ _ _ h => absurd h (Nat.not_lt_zero _)⟩
    | succ f' =>
      obtain ⟨ihOnce, ihItems, ihElements⟩ := ih f'
      refine ⟨fun room s h h' => ?_, fun room items s h h' => ?_, fun room items s h h' => ?_⟩
      · cases s with
        | nil => rfl
        | cons c s =>
          have hskip := length_skipSpace_le s
          rw [List.length_cons] at h h'
          have hitems : ∀ room, scanItems f room [] (skipSpace s) =
              scanItems f' room [] (skipSpace s) := fun room =>
            ihItems room [] _ (by omega) (by omega)
          have helements : ∀ room, scanElements f room [] (skipSpace s) =
              scanElements f' room [] (skipSpace s) := fun room =>
            ihElements room [] _ (by omega) (by omega)
          simp only [scanOnce, hitems, helements]
      · cases s with
        | nil => rfl
        | cons c s =>
          rw [List.length_cons] at h h'
          rw [scanItems, scanItems]
          refine if_congr Iff.rfl rfl ?_
          -- an item is a key, a colon and a value, each of them shorter than what it was read from
          refine bind_congr_ok fun ⟨key, s₁⟩ h₁ => bind_congr_ok fun s₂ h₂ => ?_
          have l₁ := scanString_length h₁
          have l₂ := scanColon_length h₂
          dsimp only at l₂ ⊢
          rw [ihOnce room s₂ (by omega) (by omega)]
          refine bind_congr_ok fun ⟨value, s₃⟩ h₃ => ?_
          have l₃ := (scan_length f').1 _ _ _ _ h₃
          dsimp only
          split
          · rename_i c' t ht
            have l₄ := length_skipSpace_le s₃
            have l₅ := length_skipSpace_le t
            rw [ht, List.length_cons] at l₄
            rw [ihItems room _ (skipSpace t) (by omega) (by omega)]
          · rfl
      · rw [scanElements, scanElements, ihOnce room s (by omega) (by omega)]
        refine bind_congr_ok fun ⟨value, s₁⟩ h₁ => ?_
        have l₁ := (scan_length f').1 _ _ _ _ h₁
        dsimp only
        split
        · rename_i c' t ht
          have l₂ := length_skipSpace_le s₁
          have l₃ := length_skipSpace_le t
          rw [ht, List.length_cons] at l₂
          rw [ihElements room _ (skipSpace t) (by omega) (by omega)]
        · rfl

/-- **The fuel of `loads` is enough**: with more of it the scanner does the same. -/
theorem scanOnce_fuel {room fuel : Nat} {s : Str} (h : 2 * s.length + 1 ≤ fuel) :
    scanOnce fuel room s = scanOnce (2 * s.length + 1) room s :=
  (scan_fuel fuel (2 * s.length + 1)).1 room s h (Nat.lt_succ_self _)

end Bedrock.Python
