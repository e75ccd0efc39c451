/-
  Loops that look for the first hit.

  A search runs a fallible test on the elements of a list, one after the other, from a start state; a
  test that hits moves to a state that is `Done`, and from then on the elements are only passed through.
  So what the loop does with an element depends on what came before it, and on nothing else:

  1. **Whether it returns** — a test that raises is only met if nothing before it hit (`returns_iff`).

  2. **What it finds** — something, if any element hits (`done_iff`).

  3. **How far it tests** — `tested` are the elements whose test was run to its end: a prefix of the
     list, as long as the position of the first stop (`length_tested`).  A loop that writes them down
     computes the same and has them in its log (`run_logged`).
-/
import Bedrock.Lib.Fallible

open Lib.Fallible

namespace Lib.Search

variable {ε σ α β : Type}

/-- The loop body `step` searches from `s₀`. -/
structure Searches (step : σ → α → Except ε σ) (s₀ : σ) (Done : σ → Prop) : Prop where
  start : ¬ Done s₀
  keep : ∀ s a, Done s → step s a = .ok s
  miss : ∀ a s, step s₀ a = .ok s → Done s ∨ s = s₀

/-- The test of `a` returns. -/
def Returns (step : σ → α → Except ε σ) (s₀ : σ) (a : α) : Prop := ∃ s, step s₀ a = .ok s

/-- The test of `a` hits. -/
def Hits (step : σ → α → Except ε σ) (s₀ : σ) (Done : σ → Prop) (a : α) : Prop :=
  ∃ s, step s₀ a = .ok s ∧ Done s

/-- Every element without `R` has one with `H` before it. -/
def Shielded (R H : α → Prop) (l : List α) : Prop :=
  ∀ before a after, l = before ++ a :: after → R a ∨ ∃ b ∈ before, H b

theorem shielded_nil (R H : α → Prop) : Shielded R H [] := by
  intro before a after h
  exact absurd h.symm (List.append_ne_nil_of_right_ne_nil before (List.cons_ne_nil a after))

/-- Peeling the first element: it must be good, and either it already answers the scan or the rest is
    shielded. -/
theorem shielded_cons {R H : α → Prop} {a : α} {l : List α} :
    Shielded R H (a :: l) ↔ R a ∧ (H a ∨ Shielded R H l) := by
  constructor
  · intro h
    refine ⟨(h [] a l rfl).resolve_right fun ⟨b, hb, _⟩ => absurd hb List.not_mem_nil, ?_⟩
    by_cases hhit : H a
    · exact Or.inl hhit
    · -- the first element is no hit, so it cannot be the one that shields a later element
      refine Or.inr fun before b after hl => ?_
      rcases h (a :: before) b after (congrArg (a :: ·) hl) with hb | ⟨c, hc, hcH⟩
      · exact Or.inl hb
      · rcases List.mem_cons.mp hc with rfl | hc
        · exact absurd hcH hhit
        · exact Or.inr ⟨c, hc, hcH⟩
  · rintro ⟨hR, h⟩ before b after hl
    cases before with
    | nil =>
      obtain ⟨rfl, _⟩ := List.cons.inj hl
      exact Or.inl hR
    | cons c before =>
      obtain ⟨rfl, htail⟩ := List.cons.inj hl
      rcases h with hhit | h
      · exact Or.inr ⟨a, List.mem_cons_self, hhit⟩
      · rcases h before b after htail with hb | ⟨d, hd, hdH⟩
        · exact Or.inl hb
        · exact Or.inr ⟨d, List.mem_cons_of_mem a hd, hdH⟩

/-- Being shielded reads the two predicates on the elements of the list and nowhere else. -/
theorem Shielded.congr {R R' H H' : α → Prop} {l : List α} (hR : ∀ a ∈ l, R a ↔ R' a)
    (hH : ∀ a ∈ l, H a ↔ H' a) : Shielded R H l ↔ Shielded R' H' l := by
  induction l with
  | nil => exact ⟨fun _ => shielded_nil _ _, fun _ => shielded_nil _ _⟩
  | cons a l ih =>
    rw [shielded_cons, shielded_cons, hR a List.mem_cons_self, hH a List.mem_cons_self,
      ih (fun b hb => hR b (List.mem_cons_of_mem a hb)) fun b hb => hH b (List.mem_cons_of_mem a hb)]

/-- What comes before the first element without `R` has `R`. -/
theorem shielded_and {R H : α → Prop} {l : List α} :
    Shielded R (fun a => R a ∧ H a) l ↔ Shielded R H l := by
  induction l with
  | nil => exact ⟨fun _ => shielded_nil _ _, fun _ => shielded_nil _ _⟩
  | cons a l ih =>
    rw [shielded_cons, shielded_cons, ih]
    constructor
    · rintro ⟨hR, h⟩
      exact ⟨hR, h.imp_left And.right⟩
    · rintro ⟨hR, h⟩
      exact ⟨hR, h.imp_left fun hH => ⟨hR, hH⟩⟩

/-- A scan of images is the scan of the elements under the composed predicates. -/
theorem shielded_map {R H : β → Prop} (f : α → β) : ∀ {l : List α},
    Shielded R H (l.map f) ↔ Shielded (fun a => R (f a)) (fun a => H (f a)) l := by
  intro l
  induction l with
  | nil => exact ⟨fun _ => shielded_nil _ _, fun _ => shielded_nil _ _⟩
  | cons a l ih => rw [List.map_cons, shielded_cons, shielded_cons, ih]

section

variable {step : σ → α → Except ε σ} {s₀ : σ} {Done : σ → Prop} (h : Searches step s₀ Done)
include h

/-- After a hit the loop passes through. -/
theorem Searches.foldlM_done {s : σ} (hs : Done s) : ∀ l : List α, l.foldlM step s = .ok s := by
  intro l
  induction l with
  | nil => rfl
  | cons a l ih => rw [List.foldlM_cons, h.keep s a hs, ok_bind, ih]

/-- One element: the loop raises there, hits there, or goes on as if it were not there. -/
theorem Searches.foldlM_cons (a : α) (l : List α) :
    (¬ Returns step s₀ a ∧ ∃ e, (a :: l).foldlM step s₀ = .error e) ∨
    (Returns step s₀ a ∧ Hits step s₀ Done a ∧ ∃ s, Done s ∧ (a :: l).foldlM step s₀ = .ok s) ∨
    (Returns step s₀ a ∧ ¬ Hits step s₀ Done a ∧ (a :: l).foldlM step s₀ = l.foldlM step s₀) := by
  rw [List.foldlM_cons]
  cases ha : step s₀ a with
  | error e =>
    refine Or.inl ⟨fun ⟨s, hs⟩ => ?_, e, rfl⟩
    rw [ha] at hs
    cases hs
  | ok s =>
    rw [ok_bind]
    rcases h.miss a s ha with hdone | rfl
    · exact Or.inr (Or.inl ⟨⟨s, ha⟩, ⟨s, ha, hdone⟩, s, hdone, h.foldlM_done hdone l⟩)
    · refine Or.inr (Or.inr ⟨⟨s, ha⟩, fun ⟨s', hs', hdone⟩ => h.start ?_, rfl⟩)
      rw [Except.ok.inj (ha.symm.trans hs')]
      exact hdone

/-- **A search returns** unless it meets a raising test before its first hit. -/
theorem Searches.returns_iff {l : List α} : (∃ s, l.foldlM step s₀ = .ok s) ↔
    Shielded (Returns step s₀) (Hits step s₀ Done) l := by
  induction l with
  | nil => exact ⟨fun _ => shielded_nil _ _, fun _ => ⟨s₀, rfl⟩⟩
  | cons a l ih =>
    rw [shielded_cons]
    rcases h.foldlM_cons a l with ⟨hno, e, hrun⟩ | ⟨hret, hhit, s, _, hrun⟩ | ⟨hret, hmiss, hrun⟩
    · rw [hrun]
      constructor
      · rintro ⟨s, hs⟩; cases hs
      · intro hsh; exact absurd hsh.1 hno
    · rw [hrun]
      exact ⟨fun _ => ⟨hret, Or.inl hhit⟩, fun _ => ⟨s, rfl⟩⟩
    · rw [hrun, ih]
      exact ⟨fun hsh => ⟨hret, Or.inr hsh⟩, fun hsh => hsh.2.resolve_left hmiss⟩

/-- **A search finds something** if there is a hit. -/
theorem Searches.done_iff {l : List α} {s : σ} (hrun : l.foldlM step s₀ = .ok s) :
    (Done s ↔ ∃ a ∈ l, Hits step s₀ Done a) ∧ (Done s ∨ s = s₀) := by
  induction l with
  | nil =>
    obtain rfl := Except.ok.inj hrun
    exact ⟨⟨fun hs => absurd hs h.start, fun ⟨a, ha, _⟩ => absurd ha List.not_mem_nil⟩, Or.inr rfl⟩
  | cons a l ih =>
    rcases h.foldlM_cons a l with ⟨_, e, hcons⟩ | ⟨_, hhit, s', hdone, hcons⟩ | ⟨_, hmiss, hcons⟩
    · rw [hcons] at hrun
      cases hrun
    · rw [hcons] at hrun
      obtain rfl := Except.ok.inj hrun
      exact ⟨⟨fun _ => ⟨a, List.mem_cons_self, hhit⟩, fun _ => hdone⟩, Or.inl hdone⟩
    · rw [hcons] at hrun
      obtain ⟨hiff, hcases⟩ := ih hrun
      refine ⟨hiff.trans ⟨fun ⟨b, hb, hbH⟩ => ⟨b, List.mem_cons_of_mem a hb, hbH⟩, ?_⟩, hcases⟩
      rintro ⟨b, hb, hbH⟩
      rcases List.mem_cons.mp hb with rfl | hb
      · exact absurd hbH hmiss
      · exact ⟨b, hb, hbH⟩

end

/-! ## How far a search tests -/

open Classical in
/-- The elements whose test is run to its end: up to the first hit, or to the first that raises. -/
noncomputable def tested (R H : α → Prop) : List α → List α
  | [] => []
  | a :: l => if R a then if H a then [a] else a :: tested R H l else []

/-- **How many tests run to their end**: those in front of the first element without `R`, and up to the
    first with `H`. -/
theorem length_tested {R H : α → Prop} [DecidablePred R] [DecidablePred H] (l : List α) :
    (tested R H l).length =
      min (l.findIdx fun a => !decide (R a)) ((l.findIdx fun a => decide (H a)) + 1) := by
  induction l with
  | nil => rfl
  | cons a l ih =>
    rw [tested, List.findIdx_cons, List.findIdx_cons]
    by_cases hR : R a
    · by_cases hH : H a
      · rw [if_pos hR, if_pos hH, decide_eq_true hR, decide_eq_true hH]
        exact (Nat.min_eq_right (Nat.succ_le_succ (Nat.zero_le _))).symm
      · rw [if_pos hR, if_neg hH, decide_eq_true hR, decide_eq_false hH, List.length_cons, ih]
        exact (Nat.add_min_add_right _ _ 1).symm
    · rw [if_neg hR, decide_eq_false hR]
      exact (Nat.zero_min _).symm

/-- What a scan looks at is an initial part of its list. -/
theorem tested_initial {R H : α → Prop} : ∀ l : List α, tested R H l <+: l := by
  intro l
  induction l with
  | nil => exact List.prefix_rfl
  | cons a l ih =>
    rw [tested]
    split_ifs with hR hH
    · exact List.cons_prefix_cons.mpr ⟨rfl, List.nil_prefix⟩
    · exact List.cons_prefix_cons.mpr ⟨rfl, ih⟩
    · exact List.nil_prefix

/-- **Two searches of one list test the same** exactly if they stop at the same place. -/
theorem tested_eq_iff {R H R' H' : α → Prop} {l : List α} :
    tested R H l = tested R' H' l ↔ (tested R H l).length = (tested R' H' l).length := by
  constructor
  · intro h
    rw [h]
  · intro hlen
    rw [List.prefix_iff_eq_take.mp (tested_initial (R := R) (H := H) l),
      List.prefix_iff_eq_take.mp (tested_initial (R := R') (H := H') l), hlen]

/-- Two scans with the same answers on the list look at the same elements. -/
theorem tested_congr {R R' H H' : α → Prop} {l : List α} (hR : ∀ a ∈ l, R a ↔ R' a)
    (hH : ∀ a ∈ l, H a ↔ H' a) : tested R H l = tested R' H' l := by
  classical
  induction l with
  | nil => rfl
  | cons a l ih =>
    have ha := hR a List.mem_cons_self
    have ha' := hH a List.mem_cons_self
    rw [tested, tested, ih (fun b hb => hR b (List.mem_cons_of_mem a hb))
      fun b hb => hH b (List.mem_cons_of_mem a hb)]
    exact if_congr ha (if_congr ha' rfl rfl) rfl

/-- **Everything is tested** exactly if every test returns and none but the last hits. -/
theorem tested_eq_self_iff {R H : α → Prop} {l : List α} :
    tested R H l = l ↔ (∀ a ∈ l, R a) ∧ ∀ a ∈ l.dropLast, ¬ H a := by
  induction l with
  | nil => simp [tested]
  | cons a l ih =>
    rw [tested]
    cases l with
    | nil =>
      split_ifs with hR hH
      · simpa using hR
      · simpa [tested] using hR
      · simpa using hR
    | cons b l =>
      rw [List.forall_mem_cons, List.dropLast_cons_cons, List.forall_mem_cons]
      split_ifs with hR hH
      · simp [hH]
      · rw [List.cons.injEq, ih]
        simp [hR, hH]
      · simp [hR]

/-- Elements that are passed over need not be looked at. -/
theorem tested_filter {R H : α → Prop} {p : α → Bool} : ∀ {l : List α},
    (∀ a ∈ l, p a = false → R a ∧ ¬ H a) →
      (tested R H l).filter p = tested R H (l.filter p) := by
  intro l
  induction l with
  | nil => intro _; rfl
  | cons a l ih =>
    intro hskip
    have ih' := ih fun b hb => hskip b (List.mem_cons_of_mem a hb)
    cases hp : p a with
    | false =>
      obtain ⟨hR, hH⟩ := hskip a List.mem_cons_self hp
      rw [tested, if_pos hR, if_neg hH, List.filter_cons_of_neg (by simp [hp]),
        List.filter_cons_of_neg (by simp [hp]), ih']
    | true =>
      rw [List.filter_cons_of_pos hp, tested, tested]
      split_ifs with hR hH
      · rw [List.filter_cons_of_pos hp, List.filter_nil]
      · rw [List.filter_cons_of_pos hp, ih']
      · rfl

/-! ## Writing the tests down -/

/-- The log when the loop ended, either way. -/
def finalLog {σ' : Type} : EStateM.Result ε σ' σ → σ'
  | .ok _ log => log
  | .error _ log => log

/-- What the loop computed, without the log. -/
def outcome {σ' : Type} : EStateM.Result ε σ' σ → Except ε σ
  | .ok s _ => .ok s
  | .error e _ => .error e

/-- What a test computed, with `text` written down if it returned. -/
def noted (text log : List β) : Except ε σ → EStateM.Result ε (List β) σ
  | .ok s => .ok s (log ++ text)
  | .error e => .error e log

/-- **A loop that logs its tests**: it computes what the search computes, and the log has what it wrote
    for each element that was tested. -/
theorem Searches.run_logged {step : σ → α → Except ε σ} {s₀ : σ} {Done : σ → Prop}
    (h : Searches step s₀ Done) {logged : σ → α → EStateM ε (List β) σ} {write : α → List β}
    (hkeep : ∀ s a log, Done s → logged s a log = .ok s log)
    (htest : ∀ a log, logged s₀ a log = noted (write a) log (step s₀ a)) :
    ∀ (l : List α) (log : List β),
    outcome (l.foldlM logged s₀ log) = l.foldlM step s₀ ∧
    finalLog (l.foldlM logged s₀ log) =
      log ++ (tested (Returns step s₀) (Hits step s₀ Done) l).flatMap write := by
  -- behind a hit nothing is tested and nothing written
  have hdone : ∀ {s : σ}, Done s → ∀ (l : List α) (log : List β), l.foldlM logged s log = .ok s log := by
    intro s hs l
    induction l with
    | nil => intro log; rfl
    | cons a l ih =>
      intro log
      rw [List.foldlM_cons, run_bind_ok (hkeep s a log hs)]
      exact ih log
  intro l
  induction l with
  | nil => intro log; exact ⟨rfl, (List.append_nil log).symm⟩
  | cons a l ih =>
    intro log
    rw [List.foldlM_cons, List.foldlM_cons, tested]
    -- the scan raises here, and the log ends
    cases ha : step s₀ a with
    | error e =>
      have hrun : logged s₀ a log = .error e log := by rw [htest, ha]; rfl
      have hno : ¬ Returns step s₀ a := fun ⟨s, hs⟩ => by rw [ha] at hs; cases hs
      have hbind : (logged s₀ a >>= fun s => l.foldlM logged s) log = .error e log := by
        rw [run_bind, hrun]
      rw [hbind, if_neg hno]
      exact ⟨rfl, (List.append_nil log).symm⟩
    | ok s =>
      have hrun : logged s₀ a log = .ok s (log ++ write a) := by rw [htest, ha]; rfl
      rw [run_bind_ok hrun, ok_bind, if_pos ⟨s, ha⟩]
      rcases h.miss a s ha with hs | rfl
      · have hhit : Hits step s₀ Done a := ⟨s, ha, hs⟩
        rw [hdone hs, h.foldlM_done hs, if_pos hhit]
        exact ⟨rfl, by simp [finalLog]⟩
      · -- a miss leaves the start as it was, and the scan goes on from it
        have hmiss : ¬ Hits step s Done a := fun ⟨s', hs', hd⟩ =>
          h.start (Except.ok.inj (ha.symm.trans hs') ▸ hd)
        obtain ⟨hout, hlog⟩ := ih (log ++ write a)
        rw [if_neg hmiss]
        refine ⟨hout, hlog.trans ?_⟩
        rw [List.flatMap_cons, List.append_assoc]

end Lib.Search
