/-
  The `k`-element combinations of a list, in the order `itertools.combinations` produces them
  (lexicographic in the positions chosen).

  What a search over them needs: a combination is exactly a length-`k` sublist (`mem_combinations`),
  so a search that visits all of them misses none; and choosing positions and then looking the
  elements up is choosing the elements (`map_combinations`).
-/
import Mathlib

namespace Lib.Combinations

variable {α β : Type}

/-- All `k`-element combinations of `l`, those that use the head first. -/
def combinations : Nat → List α → List (List α)
  | 0, _ => [[]]
  | _ + 1, [] => []
  | k + 1, a :: l => (combinations k l).map (a :: ·) ++ combinations (k + 1) l

theorem combinations_cons (k : Nat) (a : α) (l : List α) :
    combinations (k + 1) (a :: l) = (combinations k l).map (a :: ·) ++ combinations (k + 1) l := rfl

/-- **Completeness and soundness**: the combinations are exactly the sublists of that length. -/
theorem mem_combinations {c l : List α} : ∀ {k : Nat},
    c ∈ combinations k l ↔ c.Sublist l ∧ c.length = k := by
  induction l generalizing c with
  | nil =>
    intro k
    cases k with
    | zero => simp [combinations]
    | succ k =>
      simp only [combinations, List.not_mem_nil, List.sublist_nil, false_iff, not_and]
      intro h; rw [h]; exact (Nat.succ_ne_zero k).symm
  | cons a l ih =>
    intro k
    cases k with
    | zero =>
      simp only [combinations, List.mem_singleton]
      constructor
      · intro h; rw [h]; exact ⟨List.nil_sublist _, rfl⟩
      · intro h; exact List.length_eq_zero_iff.mp h.2
    | succ k =>
      rw [combinations_cons, List.mem_append, List.mem_map]
      -- with the first element in front, or without it
      constructor
      · rintro (⟨c', hc', rfl⟩ | hc)
        · obtain ⟨hsub, hlen⟩ := ih.mp hc'
          exact ⟨hsub.cons_cons a, by rw [List.length_cons, hlen]⟩
        · obtain ⟨hsub, hlen⟩ := ih.mp hc
          exact ⟨hsub.cons a, hlen⟩
      · rintro ⟨hsub, hlen⟩
        cases hsub with
        | cons _ hsub => exact Or.inr (ih.mpr ⟨hsub, hlen⟩)
        | cons_cons _ hsub =>
          exact Or.inl ⟨_, ih.mpr ⟨hsub, by simpa using hlen⟩, rfl⟩

/-- There is no set of `k` elements in a shorter list. -/
theorem combinations_of_lt {k : Nat} {l : List α} (h : l.length < k) : combinations k l = [] := by
  refine List.eq_nil_iff_forall_not_mem.mpr fun c hc => ?_
  obtain ⟨hsub, hlen⟩ := mem_combinations.mp hc
  have hle := hsub.length_le
  omega

/-- An early return for too short a list is the loop over no combination. -/
theorem foldlM_combinations {m : Type → Type} [Monad m] {k n : Nat} {l : List α}
    (hn : l.length = n) (f : β → List α → m β) (b : β) :
    (if k > n then pure b else (combinations k l).foldlM f b) = (combinations k l).foldlM f b := by
  by_cases hk : k > n
  · rw [if_pos hk, combinations_of_lt (by rwa [hn])]
    rfl
  · rw [if_neg hk]

/-- Choosing positions and then looking the elements up is choosing the elements. -/
theorem map_combinations (f : α → β) : ∀ (k : Nat) (l : List α),
    (combinations k l).map (List.map f) = combinations k (l.map f) := by
  intro k l
  induction l generalizing k with
  | nil => cases k <;> rfl
  | cons a l ih =>
    cases k with
    | zero => rfl
    | succ k =>
      rw [List.map_cons, combinations_cons, combinations_cons, List.map_append, ← ih k,
        ← ih (k + 1), List.map_map, List.map_map]
      rfl

/-- A list is the list of its own entries. -/
theorem map_getElem_range [Inhabited α] (l : List α) :
    (List.range l.length).map (fun i => l[i]!) = l := by
  apply List.ext_getElem
  · simp
  · intro i h₁ h₂
    rw [List.getElem_map, List.getElem_range]
    exact getElem!_pos l i h₂

/-- The combinations of positions, looked up, are the combinations of the list. -/
theorem combinations_range [Inhabited α] (k : Nat) (l : List α) :
    (combinations k (List.range l.length)).map (List.map fun i => l[i]!) = combinations k l := by
  rw [map_combinations, map_getElem_range]

end Lib.Combinations
