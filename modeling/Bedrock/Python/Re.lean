/-
  `re`, as far as the client's patterns use it: `re.match(r"^…$", s)` with character classes between
  the anchors, each with a range of repetitions.

  1. **Words** — what stands between the anchors, `Words`: a property of the pattern alone.

  2. **Match** — without `re.MULTILINE` the `$` matches at the end of the string AND in front of a
     newline that ends it.  So a match is a word, or a word and a newline (`Match`), and the pattern
     says what it seems to say on every string but those (`match_iff_words_iff`).

  3. **A test** — with no newline in the classes, a match is decided on `beforeNewline`, the string
     without such a newline (`match_iff`).
-/
import Bedrock.Python.Str

namespace Bedrock.Python

/-- `[set]{lo,hi}`. -/
structure Item where
  set : CodePoint → Bool
  lo : Nat
  hi : Nat

/-- The words of a sequence of items. -/
def Words : List Item → Str → Prop
  | [], s => s = []
  | item :: rest, s => ∃ u v, s = u ++ v ∧ item.lo ≤ u.length ∧ u.length ≤ item.hi ∧
      (∀ c ∈ u, item.set c = true) ∧ Words rest v

/-- `"\n"`. -/
def newline : CodePoint := 10

/-- `re.match(r"^…$", s)` returns a match. -/
def Match (p : List Item) (s : Str) : Prop := ∃ w, Words p w ∧ (s = w ∨ s = w ++ [newline])

/-- The string without a newline at its end. -/
def beforeNewline (s : Str) : Str := if s.getLast? = some newline then s.dropLast else s

/-- One item: as many characters of its class as it asks for. -/
theorem words_single {item : Item} {s : Str} : Words [item] s ↔
    item.lo ≤ s.length ∧ s.length ≤ item.hi ∧ ∀ c ∈ s, item.set c = true := by
  constructor
  · rintro ⟨u, v, rfl, hlo, hhi, hset, hv⟩
    obtain rfl : v = [] := hv
    rw [List.append_nil]
    exact ⟨hlo, hhi, hset⟩
  · rintro ⟨hlo, hhi, hset⟩
    exact ⟨s, [], (List.append_nil s).symm, hlo, hhi, hset, rfl⟩

section

variable {p : List Item} (hp : ∀ item ∈ p, item.set newline = false)
include hp

/-- Classes without the newline make words without it. -/
theorem newline_notMem_words : ∀ {s : Str}, Words p s → newline ∉ s := by
  induction p with
  | nil =>
    intro s hs
    obtain rfl : s = [] := hs
    exact List.not_mem_nil
  | cons item rest ih =>
    rintro s ⟨u, v, rfl, _, _, hset, hv⟩ hmem
    rcases List.mem_append.mp hmem with hu | hv'
    · have htrue := hset newline hu
      rw [hp item List.mem_cons_self] at htrue
      cases htrue
    · exact ih (fun item' hitem => hp item' (List.mem_cons_of_mem item hitem)) hv hv'

/-- **A match is decided in front of the newline.** -/
theorem match_iff {s : Str} : Match p s ↔ Words p (beforeNewline s) := by
  constructor
  · rintro ⟨w, hw, rfl | rfl⟩
    · have hlast : s.getLast? ≠ some newline := fun h =>
        newline_notMem_words hp hw (List.mem_of_getLast? h)
      rwa [beforeNewline, if_neg hlast]
    · rw [beforeNewline, if_pos (by simp), List.dropLast_concat]
      exact hw
  · intro h
    refine ⟨beforeNewline s, h, ?_⟩
    unfold beforeNewline
    split
    · rename_i hlast
      right
      obtain ⟨w, rfl⟩ := List.getLast?_eq_some_iff.mp hlast
      rw [List.dropLast_concat]
    · left
      rfl

/-- **Where the anchors hold what they promise**: everywhere but on a word with a newline behind it. -/
theorem match_iff_words_iff {s : Str} :
    (Match p s ↔ Words p s) ↔ ¬ ∃ w, Words p w ∧ s = w ++ [newline] := by
  constructor
  · rintro hiff ⟨w, hw, rfl⟩
    have hword := hiff.mp ⟨w, hw, Or.inr rfl⟩
    exact newline_notMem_words hp hword (List.mem_append_right w List.mem_cons_self)
  · intro hno
    constructor
    · rintro ⟨w, hw, rfl | heq⟩
      · exact hw
      · exact absurd ⟨w, hw, heq⟩ hno
    · intro hs
      exact ⟨s, hs, Or.inl rfl⟩

end

end Bedrock.Python
