/-
  Backtracking matches, as `re.search` and `re.findall` make them.

  1. **Ways** — a pattern is a list of pieces: a symbol of a set, a greedy run of them, one or none, the
     start and the end of a line.  From a `Place` in the subject each piece goes on in some ways, the
     preferred one first, and a pattern in the ways of its pieces one after the other (`ways`): the
     first of them is the match a backtracking engine finds.

  2. **Groups** — a `Pattern` has one group, whose text a match captures.  `search` takes the first place
     with a match, `findAll` goes on behind each match.

  3. **Words** — what a group captures is a word of its pieces (`Spells`), made of symbols of the subject:
     `search_captures`, `findAll_captures`.
-/
import Mathlib

namespace Lib.Backtrack

/-- One piece of a pattern. -/
inductive Piece (α : Type)
  | one (set : α → Bool)
  /-- As many symbols of the set as there are, or fewer. -/
  | many (set : α → Bool)
  /-- A symbol of the set, or none. -/
  | maybe (set : α → Bool)
  | lineStart
  | lineEnd

/-- A place in a subject: what is behind it, nearest first, and what is ahead of it. -/
structure Place (α : Type) where
  behind : List α
  ahead : List α

/-- A pattern with one group. -/
structure Pattern (α : Type) where
  before : List (Piece α)
  group : List (Piece α)
  after : List (Piece α)

variable {α : Type}

/-- The ways of a greedy run, the longest first. -/
def greedy (set : α → Bool) : List α → List α → List (Place α)
  | behind, [] => [⟨behind, []⟩]
  | behind, c :: ahead =>
    if set c then greedy set (c :: behind) ahead ++ [⟨behind, c :: ahead⟩] else [⟨behind, c :: ahead⟩]

/-- The ways of one symbol. -/
def single (set : α → Bool) (p : Place α) : List (Place α) :=
  match p.ahead with
  | [] => []
  | c :: ahead => if set c then [⟨c :: p.behind, ahead⟩] else []

section Ways

variable [DecidableEq α] (newline : α)

/-- Nothing is there, or the newline. -/
def atLineEdge (side : List α) : Bool := side.head?.all fun c => c = newline

/-- The ways to match one piece, the preferred ones first .. -/
def Piece.ways (p : Place α) : Piece α → List (Place α)
  | .one set => single set p
  | .many set => greedy set p.behind p.ahead
  | .maybe set => single set p ++ [p]
  | .lineStart => if atLineEdge newline p.behind then [p] else []
  | .lineEnd => if atLineEdge newline p.ahead then [p] else []

/-- .. and those to match several, piece by piece. -/
def ways : List (Piece α) → Place α → List (Place α)
  | [], p => [p]
  | piece :: pieces, p => (piece.ways newline p).flatMap (ways pieces)

/-- The matches at a place, the preferred one first: the text of the group, and where the match ends. -/
def Pattern.matchesAt (pat : Pattern α) (p : Place α) : List (List α × Place α) :=
  (ways newline pat.before p).flatMap fun q =>
    (ways newline pat.group q).flatMap fun r =>
      (ways newline pat.after r).map fun s => (q.ahead.take (q.ahead.length - r.ahead.length), s)

/-- The first match, and the place it starts at. -/
def Pattern.searchFrom (pat : Pattern α) : List α → List α → Option (List α)
  | behind, [] => (pat.matchesAt newline ⟨behind, []⟩).head?.map Prod.fst
  | behind, c :: ahead =>
    match (pat.matchesAt newline ⟨behind, c :: ahead⟩).head? with
    | some found => some found.1
    | none => pat.searchFrom (c :: behind) ahead

/-- `re.search(pattern, subject).group(1)`. -/
def Pattern.search (pat : Pattern α) (subject : List α) : Option (List α) :=
  pat.searchFrom newline [] subject

/-- The matches one behind the other; `skip` symbols still belong to the last one. -/
def Pattern.findFrom (pat : Pattern α) : Nat → List α → List α → List (List α)
  | skip, behind, [] =>
    if skip = 0 then ((pat.matchesAt newline ⟨behind, []⟩).head?.map Prod.fst).toList else []
  | skip + 1, behind, c :: ahead => pat.findFrom skip (c :: behind) ahead
  | 0, behind, c :: ahead =>
    match (pat.matchesAt newline ⟨behind, c :: ahead⟩).head? with
    | some found => found.1 :: pat.findFrom (ahead.length - found.2.ahead.length) (c :: behind) ahead
    | none => pat.findFrom 0 (c :: behind) ahead

/-- `re.findall(pattern, subject)`, for patterns that match no empty text. -/
def Pattern.findAll (pat : Pattern α) (subject : List α) : List (List α) :=
  pat.findFrom newline 0 [] subject

end Ways

/-! ## Words -/

/-- The words of some pieces; what the anchors ask for is left aside. -/
def Spells : List (Piece α) → List α → Prop
  | [], u => u = []
  | .one set :: pieces, u => ∃ c v, u = c :: v ∧ set c = true ∧ Spells pieces v
  | .many set :: pieces, u => ∃ v w, u = v ++ w ∧ (∀ c ∈ v, set c = true) ∧ Spells pieces w
  | .maybe set :: pieces, u => (∃ c v, u = c :: v ∧ set c = true ∧ Spells pieces v) ∨ Spells pieces u
  | .lineStart :: pieces, u => Spells pieces u
  | .lineEnd :: pieces, u => Spells pieces u

/-- A symbol and a run. -/
theorem spells_one_many {set set' : α → Bool} {u : List α} : Spells [.one set, .many set'] u ↔
    ∃ c v, u = c :: v ∧ set c = true ∧ ∀ d ∈ v, set' d = true := by
  constructor
  · rintro ⟨c, _, rfl, hc, v, w, rfl, hv, hw⟩
    obtain rfl : w = [] := hw
    rw [List.append_nil]
    exact ⟨c, v, rfl, hc, hv⟩
  · rintro ⟨c, v, rfl, hc, hv⟩
    exact ⟨c, v, rfl, hc, v, [], (List.append_nil v).symm, hv, rfl⟩

/-- A single symbol is the next one, and of the set. -/
theorem single_spells {set : α → Bool} {p q : Place α} (h : q ∈ single set p) :
    ∃ c, p.ahead = c :: q.ahead ∧ set c = true := by
  unfold single at h
  cases hahead : p.ahead with
  | nil =>
    rw [hahead] at h
    cases h
  | cons c ahead =>
    rw [hahead] at h
    dsimp only at h
    split at h
    · rename_i hc
      obtain rfl := List.mem_singleton.mp h
      exact ⟨c, rfl, hc⟩
    · cases h

/-- A run of symbols is a prefix, all of the set. -/
theorem greedy_spells {set : α → Bool} : ∀ {ahead behind : List α} {q : Place α},
    q ∈ greedy set behind ahead → ∃ v, ahead = v ++ q.ahead ∧ ∀ c ∈ v, set c = true := by
  have hnone : ∀ {l : List α}, ∃ v, l = v ++ l ∧ ∀ c ∈ v, set c = true :=
    ⟨[], rfl, fun _ hc => absurd hc List.not_mem_nil⟩
  intro ahead
  -- over the text ahead: a greedy place has taken some of it, and the set contains what it took
  induction ahead with
  | nil =>
    intro behind q h
    obtain rfl := List.mem_singleton.mp h
    exact hnone
  | cons c ahead ih =>
    intro behind q h
    unfold greedy at h
    split at h
    · rename_i hc
      rcases List.mem_append.mp h with h | h
      · obtain ⟨v, hv, hset⟩ := ih h
        refine ⟨c :: v, by rw [hv]; rfl, fun d hd => ?_⟩
        rcases List.mem_cons.mp hd with rfl | hd
        · exact hc
        · exact hset d hd
      · obtain rfl := List.mem_singleton.mp h
        exact hnone
    · obtain rfl := List.mem_singleton.mp h
      exact hnone

section Found

variable [DecidableEq α] {newline : α}

/-- **What a way consumes** is a word of its pieces. -/
theorem ways_spells : ∀ {pieces : List (Piece α)} {p q : Place α}, q ∈ ways newline pieces p →
    ∃ u, p.ahead = u ++ q.ahead ∧ Spells pieces u := by
  intro pieces
  -- over the pieces: what the first one takes stands in front of what the others spell
  induction pieces with
  | nil =>
    intro p q h
    obtain rfl := List.mem_singleton.mp h
    exact ⟨[], rfl, rfl⟩
  | cons piece pieces ih =>
    intro p q h
    obtain ⟨r, hr, hq⟩ := List.mem_flatMap.mp h
    obtain ⟨v, hv, hspells⟩ := ih hq
    cases piece with
    | one set =>
      obtain ⟨c, hc, hset⟩ := single_spells hr
      exact ⟨c :: v, by rw [hc, hv]; rfl, c, v, rfl, hset, hspells⟩
    | many set =>
      obtain ⟨w, hw, hset⟩ := greedy_spells hr
      exact ⟨w ++ v, by rw [hw, hv, List.append_assoc], w, v, rfl, hset, hspells⟩
    | maybe set =>
      rcases List.mem_append.mp hr with hr | hr
      · obtain ⟨c, hc, hset⟩ := single_spells hr
        exact ⟨c :: v, by rw [hc, hv]; rfl, Or.inl ⟨c, v, rfl, hset, hspells⟩⟩
      · obtain rfl := List.mem_singleton.mp hr
        exact ⟨v, hv, Or.inr hspells⟩
    -- an anchor takes nothing, and fails where it does not hold
    | lineStart =>
      unfold Piece.ways at hr
      dsimp only at hr
      split at hr
      · obtain rfl := List.mem_singleton.mp hr
        exact ⟨v, hv, hspells⟩
      · cases hr
    | lineEnd =>
      unfold Piece.ways at hr
      dsimp only at hr
      split at hr
      · obtain rfl := List.mem_singleton.mp hr
        exact ⟨v, hv, hspells⟩
      · cases hr

/-- What may be captured of a subject: a word of the group, out of its symbols. -/
def Pattern.Captures (pat : Pattern α) (subject text : List α) : Prop :=
  Spells pat.group text ∧ ∀ c ∈ text, c ∈ subject

/-- What a match at a place captures stands there. -/
theorem matchesAt_captures {pat : Pattern α} {p : Place α} {found : List α × Place α}
    (h : found ∈ pat.matchesAt newline p) : pat.Captures p.ahead found.1 := by
  obtain ⟨q, hq, h⟩ := List.mem_flatMap.mp h
  obtain ⟨r, hr, h⟩ := List.mem_flatMap.mp h
  obtain ⟨s, -, rfl⟩ := List.mem_map.mp h
  obtain ⟨u, hu, -⟩ := ways_spells hq
  obtain ⟨v, hv, hspells⟩ := ways_spells hr
  have htext : q.ahead.take (q.ahead.length - r.ahead.length) = v := by
    rw [hv, List.length_append, Nat.add_sub_cancel, List.take_left]
  refine ⟨?_, fun c hc => ?_⟩
  · rw [htext]
    exact hspells
  · rw [hu]
    exact List.mem_append_right u (List.mem_of_mem_take hc)

theorem searchFrom_captures {pat : Pattern α} {text : List α} : ∀ {ahead behind : List α},
    pat.searchFrom newline behind ahead = some text → pat.Captures ahead text := by
  intro ahead
  induction ahead with
  | nil =>
    intro behind h
    obtain ⟨found, hfound, rfl⟩ := Option.map_eq_some_iff.mp h
    exact matchesAt_captures (List.mem_of_head? hfound)
  | cons c ahead ih =>
    intro behind h
    unfold Pattern.searchFrom at h
    cases hfound : (pat.matchesAt newline ⟨behind, c :: ahead⟩).head? with
    | some found =>
      rw [hfound] at h
      obtain rfl := Option.some.inj h
      exact matchesAt_captures (List.mem_of_head? hfound)
    | none =>
      rw [hfound] at h
      obtain ⟨hspells, hsymbols⟩ := ih h
      exact ⟨hspells, fun d hd => List.mem_cons_of_mem c (hsymbols d hd)⟩

theorem search_captures {pat : Pattern α} {subject text : List α}
    (h : pat.search newline subject = some text) : pat.Captures subject text := searchFrom_captures h

/-- Each match of several is one. -/
theorem findFrom_captures {pat : Pattern α} {text : List α} : ∀ {ahead behind : List α} {skip : Nat},
    text ∈ pat.findFrom newline skip behind ahead → pat.Captures ahead text := by
  intro ahead
  induction ahead with
  | nil =>
    intro behind skip h
    unfold Pattern.findFrom at h
    split at h
    · obtain ⟨found, hfound, rfl⟩ := Option.map_eq_some_iff.mp (Option.mem_toList.mp h)
      exact matchesAt_captures (List.mem_of_head? hfound)
    · cases h
  | cons c ahead ih =>
    -- what a later match captures stands further on in the same text
    have hlater : ∀ {behind : List α} {skip : Nat}, text ∈ pat.findFrom newline skip behind ahead →
        pat.Captures (c :: ahead) text := fun h =>
      ⟨(ih h).1, fun d hd => List.mem_cons_of_mem c ((ih h).2 d hd)⟩
    intro behind skip h
    cases skip with
    -- inside the match before, whose characters are passed over
    | succ skip => exact hlater h
    | zero =>
      unfold Pattern.findFrom at h
      cases hfound : (pat.matchesAt newline ⟨behind, c :: ahead⟩).head? with
      | some found =>
        rw [hfound] at h
        rcases List.mem_cons.mp h with rfl | h
        · exact matchesAt_captures (List.mem_of_head? hfound)
        · exact hlater h
      | none =>
        rw [hfound] at h
        exact hlater h

theorem findAll_captures {pat : Pattern α} {subject text : List α}
    (h : text ∈ pat.findAll newline subject) : pat.Captures subject text := findFrom_captures h

end Found

end Lib.Backtrack
