/-
  Lists that are read up to a separator.

  1. **One field** — a field that does not contain the separator ends at the first one: the field and
     what follows it are determined by the whole (`append_cons_inj`).

  2. **Joins** — items joined by a separator can be cut further without changing the join
     (`intercalate_flatMap`), and what treats every element on its own can be done item by
     item (`map_intercalate`).

  3. **Terminated fields** — non-empty fields, each with the separator behind it and one more at the
     end: the first double separator is the end (`double_separator_last`).

  4. **Ambiguous joins** — items that may contain the separator are read back cut wherever an item
     could start (`cuts`): two joins are equal exactly if their items, so cut, are
     (`intercalate_eq_iff`).
-/
import Mathlib.Data.List.Basic

namespace Lib.Delimited

variable {α : Type} {sep : α}

/-- **The first separator is where the field ends.** -/
theorem append_cons_inj : ∀ {field field' rest rest' : List α}, sep ∉ field → sep ∉ field' →
    field ++ sep :: rest = field' ++ sep :: rest' → field = field' ∧ rest = rest' := by
  intro field
  induction field with
  | nil =>
    intro field' rest rest' _ hfield' h
    cases field' with
    | nil => exact ⟨rfl, (List.cons.inj h).2⟩
    | cons a field' => exact absurd ((List.cons.inj h).1 ▸ List.mem_cons_self) hfield'
  | cons a field ih =>
    intro field' rest rest' hfield hfield' h
    cases field' with
    | nil => exact absurd ((List.cons.inj h).1 ▸ List.mem_cons_self) hfield
    | cons a' field' =>
      obtain ⟨rfl, htail⟩ := List.cons.inj h
      obtain ⟨rfl, rfl⟩ := ih (fun hmem => hfield (List.mem_cons_of_mem _ hmem))
        (fun hmem => hfield' (List.mem_cons_of_mem _ hmem)) htail
      exact ⟨rfl, rfl⟩

/-! ## Joined texts -/

/-- The join of two lists is the join of one, a separator, and the join of the other. -/
theorem intercalate_append {a b : List (List α)} (ha : a ≠ []) (hb : b ≠ []) :
    List.intercalate [sep] (a ++ b) = List.intercalate [sep] a ++ sep :: List.intercalate [sep] b := by
  induction a with
  | nil => exact absurd rfl ha
  | cons p a ih =>
    cases a with
    | nil =>
      rw [List.singleton_append, List.intercalate_cons_of_ne_nil hb, List.intercalate_singleton,
        List.append_assoc, List.singleton_append]
    | cons q a =>
      rw [List.cons_append, List.intercalate_cons_of_ne_nil (by simp), ih (by simp),
        List.intercalate_cons_cons]
      simp

/-- The first item stands at the beginning. -/
theorem prefix_intercalate (p : List α) (ps : List (List α)) :
    p <+: List.intercalate [sep] (p :: ps) := by
  cases ps with
  | nil => exact ⟨[], by rw [List.append_nil, List.intercalate_singleton]⟩
  | cons q ps =>
    rw [List.intercalate_cons_cons, List.append_assoc]
    exact List.prefix_append _ _

theorem mem_intercalate {sep : List α} {a : α} : ∀ {ps : List (List α)},
    a ∈ List.intercalate sep ps → a ∈ sep ∨ ∃ p ∈ ps, a ∈ p
  | [], h => absurd h List.not_mem_nil
  | [p], h => Or.inr ⟨p, List.mem_cons_self, by rwa [List.intercalate_singleton] at h⟩
  | p :: q :: ps, h => by
    rw [List.intercalate_cons_cons, List.append_assoc] at h
    rcases List.mem_append.mp h with h | h
    · exact Or.inr ⟨p, List.mem_cons_self, h⟩
    · rcases List.mem_append.mp h with h | h
      · exact Or.inl h
      · rcases mem_intercalate h with h | ⟨r, hr, h⟩
        · exact Or.inl h
        · exact Or.inr ⟨r, List.mem_cons_of_mem p hr, h⟩

/-- What every item of a join starts with can be part of the separator. -/
theorem append_intercalate (sep p : List α) : ∀ {ps : List (List α)}, ps ≠ [] →
    p ++ List.intercalate (sep ++ p) ps = List.intercalate sep (ps.map (p ++ ·))
  | [], h => absurd rfl h
  | [q], _ => by rw [List.intercalate_singleton, List.map_singleton, List.intercalate_singleton]
  | q :: r :: ps, _ => by
    have ih := append_intercalate sep p (List.cons_ne_nil r ps)
    rw [List.intercalate_cons_cons, List.map_cons, List.map_cons, List.intercalate_cons_cons,
      ← List.map_cons, ← ih]
    simp only [List.append_assoc]

/-- Cutting the items of a join further does not change it. -/
theorem intercalate_flatMap {cut : List α → List (List α)} (hne : ∀ p, cut p ≠ [])
    (hjoin : ∀ p, List.intercalate [sep] (cut p) = p) (ps : List (List α)) :
    List.intercalate [sep] (ps.flatMap cut) = List.intercalate [sep] ps := by
  induction ps with
  | nil => rfl
  | cons p ps ih =>
    rw [List.flatMap_cons]
    cases ps with
    | nil => rw [List.flatMap_nil, List.append_nil, hjoin, List.intercalate_singleton]
    | cons q ps =>
      have hrest : (q :: ps).flatMap cut ≠ [] := by
        rw [List.flatMap_cons]
        exact List.append_ne_nil_of_left_ne_nil (hne q) _
      rw [intercalate_append (hne p) hrest, ih, hjoin, List.intercalate_cons_cons]
      simp

/-- A cut item has no separator in it. -/
theorem not_mem_of_mem_splitOn [DecidableEq α] {l p : List α} (h : p ∈ l.splitOn sep) : sep ∉ p := by
  induction l generalizing p with
  | nil =>
    rw [List.splitOn_nil, List.mem_singleton] at h
    rw [h]
    exact List.not_mem_nil
  | cons a l ih =>
    rw [List.splitOn_cons_eq_if_modifyHead] at h
    split at h
    · rcases List.mem_cons.mp h with rfl | h
      · exact List.not_mem_nil
      · exact ih h
    · rename_i hne
      obtain ⟨q, rest, hsplit⟩ := List.exists_cons_of_ne_nil (List.splitOn_ne_nil sep l)
      rw [hsplit] at h ih
      rcases List.mem_cons.mp h with rfl | h
      · intro hmem
        rcases List.mem_cons.mp hmem with rfl | hmem
        · exact hne (beq_self_eq_true _)
        · exact ih List.mem_cons_self hmem
      · exact ih (List.mem_cons_of_mem q h)

/-- What treats every character on its own can be done item by item. -/
theorem map_intercalate {β : Type} {g : List α → List β} {sep' : β} (hnil : g [] = [])
    (happend : ∀ a b, g (a ++ b) = g a ++ g b) (hsep : g [sep] = [sep']) (ps : List (List α)) :
    g (List.intercalate [sep] ps) = List.intercalate [sep'] (ps.map g) := by
  induction ps with
  | nil => exact hnil
  | cons p ps ih =>
    cases ps with
    | nil => rw [List.map_singleton, List.intercalate_singleton, List.intercalate_singleton]
    | cons q ps =>
      rw [List.intercalate_cons_cons, happend, happend, hsep, ih]
      simp

/-! ## Terminated fields -/

/-- **The double separator is the end** of a list of terminated non-empty fields. -/
theorem double_separator_last : ∀ {fields : List (List α)}, fields ≠ [] →
    (∀ f ∈ fields, f ≠ [] ∧ sep ∉ f) → ∀ {before after : List α},
    fields.flatMap (· ++ [sep]) ++ [sep] = before ++ sep :: sep :: after → after = [] := by
  intro fields
  induction fields with
  | nil => intro hne; exact absurd rfl hne
  | cons f fields ih =>
    intro _ hfields before after h
    obtain ⟨_, hf⟩ := hfields f List.mem_cons_self
    have hrest : ∀ g ∈ fields, g ≠ [] ∧ sep ∉ g := fun g hg => hfields g (List.mem_cons_of_mem f hg)
    rw [List.flatMap_cons, List.append_assoc, List.append_assoc, List.singleton_append] at h
    by_cases hbefore : sep ∈ before
    · -- the double separator stands behind the first field
      obtain ⟨field, before, rfl, hfield⟩ := List.eq_append_cons_of_mem hbefore
      rw [List.append_assoc, List.cons_append] at h
      obtain ⟨rfl, htail⟩ := append_cons_inj hf hfield h
      cases fields with
      | nil =>
        have hlen := congrArg List.length htail
        simp only [List.flatMap_nil, List.nil_append, List.length_append, List.length_cons,
          List.length_nil] at hlen
        omega
      | cons g fields => exact ih (List.cons_ne_nil g fields) hrest htail
    · -- it starts with the separator of the first field, so no field follows
      obtain ⟨rfl, htail⟩ := append_cons_inj hf hbefore h
      cases fields with
      | nil => exact (List.cons.inj htail).2.symm
      | cons g fields =>
        obtain ⟨hg, hgsep⟩ := hrest g List.mem_cons_self
        obtain ⟨a, g, rfl⟩ := List.exists_cons_of_ne_nil hg
        exact absurd ((List.cons.inj htail).1 ▸ List.mem_cons_self) hgsep

/-! ## Ambiguous joins -/

section

variable [DecidableEq α] (sep : α) (start : List α → Bool)

/-- The text cut at every separator after which an item could start. -/
def cuts : List α → List (List α)
  | [] => [[]]
  | a :: l => if a = sep ∧ start l = true then [] :: cuts l else (cuts l).modifyHead (a :: ·)

/-- Whether an item could start does not depend on what follows the next separator. -/
def StopsAtSep : Prop := ∀ l rest, start (l ++ sep :: rest) = start l

variable {sep start}

/-- There is at least one cut. -/
theorem cuts_ne_nil : ∀ l : List α, cuts sep start l ≠ []
  | [] => List.cons_ne_nil _ _
  | a :: l => by
    rw [cuts]
    split
    · exact List.cons_ne_nil _ _
    · intro h
      exact cuts_ne_nil l (List.modifyHead_eq_nil_iff.mp h)

theorem intercalate_cuts : ∀ l : List α, List.intercalate [sep] (cuts sep start l) = l
  | [] => rfl
  | a :: l => by
    have ih := intercalate_cuts l
    rw [cuts]
    split
    · rename_i h
      rw [List.intercalate_cons_of_ne_nil (cuts_ne_nil l), ih, h.1]
      rfl
    · obtain ⟨p, ps, hcuts⟩ := List.exists_cons_of_ne_nil 
        (show cuts sep start l ≠ [] from cuts_ne_nil l)
      rw [hcuts] at ih ⊢
      rw [List.modifyHead_cons, List.intercalate_cons_cons_left, ih]

/-- A text is cut at a separator behind which an item could start. -/
theorem cuts_append_cons (hstop : StopsAtSep sep start) {b : List α} (hb : start b = true) :
    ∀ a : List α, cuts sep start (a ++ sep :: b) = cuts sep start a ++ cuts sep start b
  | [] => by
    show cuts sep start (sep :: b) = [] :: cuts sep start b
    rw [cuts, if_pos ⟨rfl, hb⟩]
  | c :: a => by
    have ih := cuts_append_cons hstop hb a
    rw [List.cons_append, cuts, cuts, hstop, ih]
    split
    · rfl
    · obtain ⟨p, ps, hcuts⟩ := List.exists_cons_of_ne_nil 
        (show cuts sep start a ≠ [] from cuts_ne_nil a)
      rw [hcuts]
      rfl

/-- What has no separator in it goes in front of the first cut. -/
theorem cuts_append_left : ∀ {m : List α}, sep ∉ m → ∀ l : List α,
    cuts sep start (m ++ l) = (cuts sep start l).modifyHead (m ++ ·)
  | [], _, l => by
    obtain ⟨p, ps, hcuts⟩ := List.exists_cons_of_ne_nil
      (show cuts sep start l ≠ [] from cuts_ne_nil l)
    rw [List.nil_append, hcuts]
    rfl
  | a :: m, h, l => by
    obtain ⟨p, ps, hcuts⟩ := List.exists_cons_of_ne_nil
      (show cuts sep start l ≠ [] from cuts_ne_nil l)
    have ha : a ≠ sep := fun heq => h (heq ▸ List.mem_cons_self)
    rw [List.cons_append, cuts, if_neg fun hcut => ha hcut.1,
      cuts_append_left (fun hm => h (List.mem_cons_of_mem a hm)) l, hcuts]
    rfl

/-- **Behind every cut an item could start**; whether one could start at the first cut is up to the
    text. -/
theorem start_of_cuts (hstop : StopsAtSep sep start) : ∀ {l p : List α} {ps : List (List α)},
    cuts sep start l = p :: ps → start p = start l ∧ ∀ q ∈ ps, start q = true
  | [], p, ps, h => by
    obtain ⟨rfl, rfl⟩ := List.cons.inj h
    exact ⟨rfl, fun q hq => absurd hq List.not_mem_nil⟩
  | a :: l, p, ps, h => by
    obtain ⟨r, rs, hcuts⟩ := List.exists_cons_of_ne_nil
      (show cuts sep start l ≠ [] from cuts_ne_nil l)
    obtain ⟨hhead, htail⟩ := start_of_cuts hstop hcuts
    rw [cuts, hcuts] at h
    split at h
    · rename_i hcut
      obtain ⟨rfl, rfl⟩ := List.cons.inj h
      refine ⟨?_, fun q hq => ?_⟩
      · rw [hcut.1]
        exact (hstop [] l).symm
      · rcases List.mem_cons.mp hq with rfl | hq
        · rw [hhead]
          exact hcut.2
        · exact htail q hq
    · obtain ⟨rfl, rfl⟩ := List.cons.inj h
      refine ⟨?_, htail⟩
      -- the text is its first cut, or goes on behind a separator
      have hjoin : List.intercalate [sep] (cuts sep start l) = l := intercalate_cuts l
      rw [hcuts] at hjoin
      cases rs with
      | nil =>
        rw [List.intercalate_singleton] at hjoin
        rw [hjoin]
      | cons r' rs =>
        rw [List.intercalate_cons_cons, List.append_assoc, List.singleton_append] at hjoin
        rw [← hjoin]
        exact (hstop (a :: r) _).symm

/-- A text in which no item starts after a separator is not cut. -/
theorem cuts_eq_singleton : ∀ {l : List α},
    (∀ before after, l = before ++ sep :: after → start after = false) → cuts sep start l = [l]
  | [], _ => rfl
  | a :: l, h => by
    have ih := cuts_eq_singleton (l := l) fun before after hsplit =>
      h (a :: before) after (congrArg (a :: ·) hsplit)
    rw [cuts, ih, if_neg]
    · rfl
    · rintro ⟨rfl, hstart⟩
      rw [h [] l rfl] at hstart
      cases hstart

/-- **A join is read back** cut wherever an item could start. -/
theorem cuts_intercalate (hstop : StopsAtSep sep start) : ∀ {ps : List (List α)}, ps ≠ [] →
    (∀ p ∈ ps, start p = true) →
      cuts sep start (List.intercalate [sep] ps) = ps.flatMap (cuts sep start)
  | [], hne, _ => absurd rfl hne
  | [p], _, _ => by
    rw [List.intercalate_singleton, List.flatMap_cons, List.flatMap_nil, List.append_nil]
  | p :: q :: ps, _, hstart => by
    have htail := cuts_intercalate hstop (List.cons_ne_nil q ps)
      fun r hr => hstart r (List.mem_cons_of_mem p hr)
    have hq : start (List.intercalate [sep] (q :: ps)) = true := by
      have hq' := hstart q (List.mem_cons_of_mem p List.mem_cons_self)
      cases ps with
      | nil => rwa [List.intercalate_singleton]
      | cons r ps =>
        rw [List.intercalate_cons_cons, List.append_assoc, List.singleton_append, hstop]
        exact hq'
    rw [List.intercalate_cons_cons, List.append_assoc, List.singleton_append,
      cuts_append_cons hstop hq, htail]
    exact List.flatMap_cons.symm

/-- **Two joins are equal** exactly if their items are, cut wherever an item could start. -/
theorem intercalate_eq_iff (hstop : StopsAtSep sep start) {ps qs : List (List α)} (hps : ps ≠ [])
    (hqs : qs ≠ []) (hstart : ∀ p ∈ ps, start p = true) (hstart' : ∀ q ∈ qs, start q = true) :
    List.intercalate [sep] ps = List.intercalate [sep] qs ↔
      ps.flatMap (cuts sep start) = qs.flatMap (cuts sep start) := by
  constructor
  · intro h
    rw [← cuts_intercalate hstop hps hstart, h, cuts_intercalate hstop hqs hstart']
  · intro h
    have hjoin : ∀ l : List α, List.intercalate [sep] (cuts sep start l) = l := intercalate_cuts
    rw [← intercalate_flatMap cuts_ne_nil hjoin ps, h, intercalate_flatMap cuts_ne_nil hjoin]

end

end Lib.Delimited
