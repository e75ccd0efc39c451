/-
  Escape codes: texts in which some symbols stand for themselves and every other one is written as the
  escape symbol with a two-symbol word behind it.

  1. **Code** — `EscapeCode` carries the two facts that make a code readable: the escape symbol is
     escaped itself, and a word is read back as the symbol it was made of.

  2. **Round trip** — `decode_encode`: reading back what was written gives the text, whatever
     it is.  The decoder is total: an escape symbol with no word behind it stands for itself.

  3. **Alphabet** — `mem_encode`: what an encoded text is made of, so that a separator outside of the
     code's alphabet does not occur in one.

  4. **Separated fields** — `splitFirst` cuts a text at its first separator.
-/
import Mathlib.Data.List.Basic

namespace Lib.Escape

variable {α : Type}

/-- An escape symbol, the symbols that stand for themselves, and the words of the others. -/
structure EscapeCode (α : Type) where
  esc : α
  literal : α → Bool
  word : α → α × α
  unword : α → α → Option α
  esc_escaped : literal esc = false
  unword_word : ∀ a, unword (word a).1 (word a).2 = some a

/-- Words behind the escape symbol are replaced, everything else stays. -/
def unescape [DecidableEq α] (esc : α) (unword : α → α → Option α) : List α → List α
  | a :: b :: c :: l =>
    if a = esc then
      match unword b c with
      | some x => x :: unescape esc unword l
      | none => a :: unescape esc unword (b :: c :: l)
    else a :: unescape esc unword (b :: c :: l)
  | l => l

/-- A symbol other than the escape symbol stands for itself. -/
theorem unescape_cons_ne [DecidableEq α] {esc a : α} (h : a ≠ esc) (unword : α → α → Option α) :
    ∀ l : List α, unescape esc unword (a :: l) = a :: unescape esc unword l
  | [] => rfl
  | [_] => rfl
  | b :: c :: l => by rw [unescape, if_neg h]

namespace EscapeCode

variable (code : EscapeCode α)

/-- One symbol, written down. -/
def encodeSymbol (a : α) : List α :=
  if code.literal a then [a] else [code.esc, (code.word a).1, (code.word a).2]

/-- A text, symbol by symbol .. -/
def encode (l : List α) : List α := l.flatMap code.encodeSymbol

/-- **The alphabet** of encoded texts. -/
theorem mem_encode {a : α} {l : List α} (h : a ∈ code.encode l) :
    code.literal a = true ∨ a = code.esc ∨ ∃ b, a = (code.word b).1 ∨ a = (code.word b).2 := by
  obtain ⟨b, -, h⟩ := List.mem_flatMap.mp h
  unfold encodeSymbol at h
  split at h
  · rename_i hlit
    rw [List.mem_singleton.mp h]
    exact Or.inl hlit
  · simp only [List.mem_cons, List.not_mem_nil, or_false] at h
    rcases h with h | h | h
    · exact Or.inr (Or.inl h)
    · exact Or.inr (Or.inr ⟨b, Or.inl h⟩)
    · exact Or.inr (Or.inr ⟨b, Or.inr h⟩)

variable [DecidableEq α]

/-- .. and back. -/
def decode (l : List α) : List α := unescape code.esc code.unword l

/-- One symbol is read back, whatever follows it. -/
theorem decode_encodeSymbol (a : α) (l : List α) :
    code.decode (code.encodeSymbol a ++ l) = a :: code.decode l := by
  unfold encodeSymbol decode
  split
  · rename_i hlit
    have hne : a ≠ code.esc := by
      rintro rfl
      rw [code.esc_escaped] at hlit
      cases hlit
    exact unescape_cons_ne hne code.unword l
  · show unescape code.esc code.unword (code.esc :: (code.word a).1 :: (code.word a).2 :: l) = _
    rw [unescape, if_pos rfl, code.unword_word]

/-- **What is written is read back.** -/
theorem decode_encode (l : List α) : code.decode (code.encode l) = l := by
  induction l with
  | nil => rfl
  | cons a l ih =>
    rw [encode, List.flatMap_cons, decode_encodeSymbol]
    exact congrArg (a :: ·) ih

end EscapeCode

/-! ## Separated fields -/

variable [DecidableEq α]

/-- The text up to the first separator, and what follows it. -/
def splitFirst (sep : α) : List α → List α × List α
  | [] => ([], [])
  | a :: l => if a = sep then ([], l) else ((splitFirst sep l).1.cons a, (splitFirst sep l).2)

/-- A text is cut behind a field without separators. -/
theorem splitFirst_append {sep : α} : ∀ {field : List α}, sep ∉ field → ∀ rest,
    splitFirst sep (field ++ sep :: rest) = (field, rest)
  | [], _, rest => if_pos rfl
  | a :: field, h, rest => by
    have hne : a ≠ sep := fun heq => h (heq ▸ List.mem_cons_self)
    have ih := splitFirst_append (fun hmem => h (List.mem_cons_of_mem a hmem)) rest
    rw [List.cons_append, splitFirst, if_neg hne, ih]

end Lib.Escape
