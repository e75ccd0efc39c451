/-
  What holds over whole runs.

  1. **One identifier per enrollment** (`one_hwid_per_enrollment`) — the key behind the stored helper
     only changes where a step enrolls; a commit never restores a superseded helper.

  2. **Hard locks** (`hard_locks_kept`) — a refreshed helper hard-locks exactly what the one before
     it did, under the name mapping, or the old one stays byte for byte.

  3. **The codec** (`helper_codec_bijection`) — parsing and serializing are inverse to each other,
     and every helper that was ever written can be read back.
-/
import Bedrock.Slhwid.Runs

open Lib.Fallible Lib.Transition Bedrock.Python

namespace Bedrock.Slhwid

section Hashing

variable [Sha256]

/-! ## The key behind a helper -/

/-- The key whose check word the stored helper carries. -/
def KeyBehind (d : Dir) (k : Limbs) : Prop :=
  k.Reduced ∧ ∃ blob h, d.files.lookup deviceFile = some blob ∧ parseHelper blob = .ok h ∧
    h.checkWord = checkWordOf k

/-- The step enrolls: it runs the enrollment branch and puts another helper in place. -/
def Enrolls (s : Sys) (a : Action) : Prop :=
  match a with
  | .prepare o _ _ _ => Enrolling o s.dir ∧
      (step s a).dir.files.lookup deviceFile ≠ s.dir.files.lookup deviceFile
  | .commit .. => False

/-- The sessions returned by a run from `s`. -/
def returned (s : Sys) (acts : List Action) : List Entry :=
  (run step s acts).entries.drop s.entries.length

theorem KeyBehind.congr {d d' : Dir} (h : d'.files.lookup deviceFile = d.files.lookup deviceFile)
    (k : Limbs) : KeyBehind d' k ↔ KeyBehind d k := by
  rw [KeyBehind, KeyBehind, h]

/-- Behind a dealt helper is the key it was dealt for. -/
theorem Dealt.keyBehind {k : Limbs} {F : Dict Str} {M : Finset Str} {blob : Bytes}
    (hd : Dealt k F M blob) {d : Dir} (hfile : d.files.lookup deviceFile = some blob) (k' : Limbs) :
    KeyBehind d k' ↔ k'.Reduced ∧ checkWordOf k' = checkWordOf k := by
  obtain ⟨h, hparse, _, hword, _⟩ := hd.helper
  constructor
  · rintro ⟨hk', blob', h', hfile', hparse', hword'⟩
    obtain rfl : blob = blob' := Option.some.inj (hfile.symm.trans hfile')
    obtain rfl : h = h' := Except.ok.inj (hparse.symm.trans hparse')
    exact ⟨hk', hword'.symm.trans hword⟩
  · rintro ⟨hk', hword'⟩
    exact ⟨hk', blob, h, hfile, hparse, hword.trans hword'.symm⟩

theorem Recovered.keyBehind {raw : Dict Str} {blob : Bytes} {session : Session} {h : Helper}
    {k : Limbs} (hrec : Recovered raw blob session h k) {d : Dir}
    (hfile : d.files.lookup deviceFile = some blob) : KeyBehind d k :=
  ⟨hrec.reduced, blob, h, hfile, hrec.parsed, hrec.word.symm⟩

/-- **The key only changes where a step enrolls.** -/
theorem keyBehind_step {s : Sys} (hs : s.Inv) {a : Action} (hno : ¬ Enrolls s a) (k : Limbs) :
    KeyBehind (step s a).dir k ↔ KeyBehind s.dir k := by
  have hspec := step_spec hs a
  cases a with
  | prepare o collected source faults =>
    have hkeep : Enrolling o s.dir → (step s (.prepare o collected source faults)).dir.files.lookup
        deviceFile = s.dir.files.lookup deviceFile := fun henr =>
      -- a prepare that does not enroll leaves the helper file alone
      not_not.mp fun hne => hno ⟨henr, hne⟩
    obtain ⟨_, _, _, _, ⟨_, hdir, _⟩ | ⟨henr, _⟩⟩ | ⟨_, hdir | ⟨henr, _⟩⟩ := hspec
    · rw [hdir]
    · exact KeyBehind.congr (hkeep henr) k
    · rw [hdir]
    · exact KeyBehind.congr (hkeep henr) k
  | commit i source faults =>
    obtain ⟨_, hsame⟩ | ⟨e, _, he, _, _, _, _, _, _, hdir | hwrote⟩ := hspec
    · rw [hsame]
    · rw [hdir]
    obtain ⟨k₀, blob, hkey, _, hfile, hdealt, hdir⟩ := hwrote
    obtain ⟨k₁, h, hk₁, _, hparse, hword, _, huniq⟩ := (hs.entries e (List.mem_of_getElem? he)).key
    obtain rfl := huniq k₀ hkey
    -- a commit deals the key of its session again, so the check word stays
    rw [hdealt.keyBehind (by rw [hdir]; exact Dir.lookup_write_self _ _ _)]
    constructor
    · rintro ⟨hk, hkw⟩
      exact ⟨hk, _, h, hfile, hparse, hword.symm.trans hkw.symm⟩
    · rintro ⟨hk, blob', h', hfile', hparse', hword'⟩
      obtain rfl := Option.some.inj (hfile.symm.trans hfile')
      obtain rfl : h = h' := Except.ok.inj (hparse.symm.trans hparse')
      exact ⟨hk, hword'.symm.trans hword.symm⟩

/-! ## The sessions between two enrollments -/

/-- The sessions from index `n` on carry the identifier of the key behind the stored helper. -/
def Current (n : Nat) (s : Sys) : Prop :=
  ∀ j e, n ≤ j → s.entries[j]? = some e → ∃ k, KeyBehind s.dir k ∧ e.session.hwid = hwidStr k

/-- A step that does not enroll keeps them current; one that does starts a new count. -/
theorem Current.step {n : Nat} {s : Sys} (hs : s.Inv) (hcur : Current n s) {a : Action}
    (ha : ¬ Enrolls s a ∨ s.entries.length ≤ n) : Current n (step s a) := by
  -- the sessions from `n` on had the current key, or there are none yet
  have hold : ∀ {j e}, n ≤ j → s.entries[j]? = some e →
      ∃ k, KeyBehind (Slhwid.step s a).dir k ∧ e.session.hwid = hwidStr k := fun {j e} hj he => by
    rcases ha with hno | hlen
    · obtain ⟨k, hk, hid⟩ := hcur j e hj he
      exact ⟨k, (keyBehind_step hs hno k).mpr hk, hid⟩
    · obtain ⟨hlt, _⟩ := List.getElem?_eq_some_iff.mp he
      omega
  have hspec := step_spec hs a
  intro j e hj he
  cases a with
  | prepare o collected source faults =>
    obtain ⟨session, nf, hentries, _, hcase⟩ | ⟨hentries, _⟩ := hspec
    · rw [hentries] at he
      -- an older session, or the one that the call has just returned
      rcases Nat.lt_or_ge j s.entries.length with hlt | hge
      · rw [List.getElem?_append_left hlt] at he
        exact hold hj he
      · rw [List.getElem?_append_right hge, List.getElem?_singleton] at he
        split at he
        · obtain rfl := Option.some.inj he
          rcases hcase with ⟨_, hdir, _, blob, h, k, hfile, hrec⟩ | ⟨_, henr⟩
          · exact ⟨k, by rw [hdir]; exact hrec.keyBehind hfile, hrec.hwid⟩
          · obtain ⟨k, hdealt, hid, _⟩ := henr.dealt
            obtain ⟨d₁, _, hdir, _⟩ := henr.stored
            refine ⟨k, (hdealt.keyBehind ?_ k).mpr ⟨hdealt.reduced, rfl⟩, hid⟩
            rw [hdir]
            exact Dir.lookup_write_self _ _ _
        · cases he
    · rw [hentries] at he
      exact hold hj he
  | commit i source faults =>
    obtain ⟨_, hsame⟩ | ⟨e₀, session, he₀, hentries, _, hid, _⟩ := hspec
    · rw [hsame] at he
      exact hold hj he
    · -- the session at this index is replaced by its successor, with the same identifier
      rw [hentries, List.getElem?_set] at he
      split at he
      · rename_i hij
        subst hij
        split at he
        · obtain rfl := Option.some.inj he
          obtain ⟨k, hk, hid₀⟩ := hold hj he₀
          exact ⟨k, hk, hid.trans hid₀⟩
        · cases he
      · exact hold hj he

/-- All sessions returned by a run that enrolls at most in its first step have one identifier. -/
theorem hwid_eq_of_returned (hcw : ∀ k : Limbs, k.Reduced → NoCheckWordCollision k) {s : Sys}
    (hs : s.Inv) {a : Action} {acts : List Action}
    (hno : Along step (fun s a => ¬ Enrolls s a) (step s a) acts) :
    ∀ e₁ ∈ returned s (a :: acts), ∀ e₂ ∈ returned s (a :: acts),
      e₁.session.hwid = e₂.session.hwid := by
  have hfirst : Current s.entries.length (step s a) := by
    refine Current.step hs (fun j e hj he => ?_) (Or.inr le_rfl)
    obtain ⟨hlt, _⟩ := List.getElem?_eq_some_iff.mp he
    omega
  have hlast := Along.inv (fun s a (h : s.Inv ∧ Current _ s) hok =>
    ⟨h.1.step a, h.2.step h.1 (Or.inl hok)⟩) hno ⟨hs.step a, hfirst⟩
  have hkey : ∀ e ∈ returned s (a :: acts),
      ∃ k, KeyBehind (run step s (a :: acts)).dir k ∧ e.session.hwid = hwidStr k := fun e he => by
    obtain ⟨j, hj⟩ := List.mem_iff_getElem?.mp he
    rw [returned, List.getElem?_drop] at hj
    exact hlast.2 _ e (Nat.le_add_right _ _) hj
  intro e₁ he₁ e₂ he₂
  obtain ⟨k₁, ⟨hk₁, blob₁, h₁, hfile₁, hparse₁, hword₁⟩, hid₁⟩ := hkey e₁ he₁
  obtain ⟨k₂, ⟨hk₂, blob₂, h₂, hfile₂, hparse₂, hword₂⟩, hid₂⟩ := hkey e₂ he₂
  obtain rfl := Option.some.inj (hfile₁.symm.trans hfile₂)
  obtain rfl : h₁ = h₂ := Except.ok.inj (hparse₁.symm.trans hparse₂)
  rw [hid₁, hid₂, hcw k₂ hk₂ k₁ hk₁ (hword₁.symm.trans hword₂)]

/-! ## Stale and repeated commits -/

/-- A commit of a session whose helper was superseded leaves the directory alone. -/
theorem commit_of_superseded {s : Sys} (hs : s.Inv) {i : Nat} {e : Entry}
    (he : s.entries[i]? = some e)
    (hstale : s.dir.files.lookup deviceFile ≠ some e.session.expectedHelper) (source : Bytes)
    (faults : List Fault) : (step s (.commit i source faults)).dir = s.dir := by
  obtain ⟨hnone, _⟩ | ⟨e', _, he', _, _, _, _, _, _, hdir | ⟨_, _, _, _, hfile, _⟩⟩ :=
    step_spec hs (.commit i source faults)
  · rw [hnone] at he; cases he
  · exact hdir
  · obtain rfl := Option.some.inj (he.symm.trans he')
    exact absurd hfile hstale

/-- The session at index `i` has given its key away. -/
def Spent (i : Nat) (s : Sys) : Prop := ∃ e, s.entries[i]? = some e ∧ e.session.key = none

/-- A spent session stays spent, whatever is called next. -/
theorem Spent.step {i : Nat} {s : Sys} (hs : s.Inv) (h : Spent i s) (a : Action) :
    Spent i (step s a) := by
  obtain ⟨e, he, hkey⟩ := h
  have hspec := step_spec hs a
  cases a with
  | prepare o collected source faults =>
    obtain ⟨session, nf, hentries, _⟩ | ⟨hentries, _⟩ := hspec
    · refine ⟨e, ?_, hkey⟩
      obtain ⟨hlt, _⟩ := List.getElem?_eq_some_iff.mp he
      rw [hentries, List.getElem?_append_left hlt]
      exact he
    · exact ⟨e, by rw [hentries]; exact he, hkey⟩
  | commit j source faults =>
    obtain ⟨_, hsame⟩ | ⟨e₀, session, _, hentries, hnone, _⟩ := hspec
    · rw [hsame]
      exact ⟨e, he, hkey⟩
    · by_cases hij : j = i
      · subst hij
        obtain ⟨hlt, _⟩ := List.getElem?_eq_some_iff.mp he
        exact ⟨⟨session, e₀.collected⟩, by rw [hentries, List.getElem?_set_self hlt], hnone⟩
      · exact ⟨e, by rw [hentries, List.getElem?_set_ne hij]; exact he, hkey⟩

/-- A commit spends its session, also where it fails. -/
theorem spent_of_commit {s : Sys} (hs : s.Inv) {i : Nat} {e : Entry} (he : s.entries[i]? = some e)
    (source : Bytes) (faults : List Fault) : Spent i (step s (.commit i source faults)) := by
  obtain ⟨hnone, _⟩ | ⟨e₀, session, _, hentries, hkey, _⟩ := step_spec hs (.commit i source faults)
  · rw [hnone] at he; cases he
  · obtain ⟨hlt, _⟩ := List.getElem?_eq_some_iff.mp he
    exact ⟨⟨session, e₀.collected⟩, by rw [hentries, List.getElem?_set_self hlt], hkey⟩

/-- A spent session changes nothing when it commits. -/
theorem step_of_spent {s : Sys} {i : Nat} (h : Spent i s) (source : Bytes) (faults : List Fault) :
    step s (.commit i source faults) = s := by
  obtain ⟨e, he, hkey⟩ := h
  obtain ⟨hlt, hget⟩ := List.getElem?_eq_some_iff.mp he
  simp only [step, he, commit_of_key_none hkey]
  show (⟨s.dir, s.entries.set i e⟩ : Sys) = s
  rw [← hget, List.set_getElem_self]

/-! ## The result -/

/-- **One identifier per enrollment, no stale overwrite.**  In every state reached by prepare and
    commit steps, whatever fails on the way:

    1. the key behind the stored helper only changes in an enrollment step;
    2. the sessions returned between two enrollments (by a run that enrolls at most in its first
       step) have one identifier;
    3. a commit of a session whose helper was superseded leaves the directory unchanged;
    4. a second commit of a session changes nothing;
    5. right after a commit that writes, `prepare` on the signals of that session recovers its
       identifier, with no drifted slots. -/
theorem one_hwid_per_enrollment (hcw : ∀ k : Limbs, k.Reduced → NoCheckWordCollision k) {s : Sys}
    (hs : Reachable step Initial s) :
    (∀ a, ¬ Enrolls s a → ∀ k, KeyBehind (step s a).dir k ↔ KeyBehind s.dir k) ∧
    (∀ a acts, Along step (fun s a => ¬ Enrolls s a) (step s a) acts →
      ∀ e₁ ∈ returned s (a :: acts), ∀ e₂ ∈ returned s (a :: acts),
        e₁.session.hwid = e₂.session.hwid) ∧
    (∀ i e, s.entries[i]? = some e →
      s.dir.files.lookup deviceFile ≠ some e.session.expectedHelper →
      ∀ source faults, (step s (.commit i source faults)).dir = s.dir) ∧
    (∀ i e, s.entries[i]? = some e → ∀ source faults acts source' faults',
      step (run step (step s (.commit i source faults)) acts) (.commit i source' faults') =
        run step (step s (.commit i source faults)) acts) ∧
    (∀ i e, s.entries[i]? = some e → ∀ source faults blob,
      (step s (.commit i source faults)).dir = s.dir.write deviceFile blob →
      ∀ extra M source', requestedMandatory extra = .ok M →
        ∃ session w, prepareWith ⟨extra, false⟩ e.collected
            ((step s (.commit i source faults)).dir.world source' []) = .ok session w ∧
          session.hwid = e.session.hwid ∧ session.drifted = [] ∧ session.pending = false ∧
          session.fresh = false) := by
  have hinv := reachable_inv hs
  refine ⟨fun a hno k => keyBehind_step hinv hno k, fun a acts hno => hwid_eq_of_returned hcw hinv hno,
    fun i e he hstale source faults => commit_of_superseded hinv he hstale source faults,
    fun i e he source faults acts source' faults' => ?_, ?_⟩
  · have hfirst : (step s (.commit i source faults)).Inv ∧ Spent i (step s (.commit i source faults)) :=
      ⟨hinv.step _, spent_of_commit hinv he source faults⟩
    have hlast := run_inv (fun s a (h : s.Inv ∧ Spent i s) => ⟨h.1.step a, h.2.step h.1 a⟩) acts hfirst
    exact step_of_spent hlast.2 source' faults'
  · intro i e he source faults blob hwrote extra M source' hM
    obtain ⟨hnone, _⟩ | ⟨e', _, he', _, _, _, _, _, _, hdisk⟩ := step_spec hinv (.commit i source faults)
    · rw [hnone] at he; cases he
    obtain rfl := Option.some.inj (he.symm.trans he')
    obtain hsame | ⟨k, blob', hkey, _, _, hdealt, hdir⟩ := hdisk
    · -- a write shows in the history
      rw [hwrote] at hsame
      have hlen := congrArg (fun d => d.log.length) hsame
      simp [Dir.write] at hlen
    rw [hdir]
    have hentry := (hinv.entries e (List.mem_of_getElem? he)).kept (s.dir.write_kept blob')
    obtain ⟨nf, hnf, hhas, hproj⟩ := hentry.launched
    obtain ⟨k₁, _, _, hid, _, _, _, huniq⟩ := hentry.key
    obtain rfl := huniq k hkey
    obtain ⟨session, hsession, hhwid, hdrift, hpend, hfresh⟩ :=
      hdealt.recoverSession hproj
    have hrun := prepareWith_run hM hnf (s.dir.lookup_write_self _ blob') hhas source'
    rw [hsession] at hrun
    exact ⟨session, _, hrun, hhwid.trans hid.symm, hdrift, hpend, hfresh⟩

/-! ## A sample machine -/

/-- What the collector reports on the sample machine: everything but the stored secret. -/
def sampleSignals : Dict Str := sampleFactors.erase (str "slstore")

/-- A launch of the sample application. -/
def sampleLaunch (extra : List Str) : Action :=
  .prepare ⟨extra, false⟩ sampleSignals (List.replicate 400 7) []

/-- Nothing on disk. -/
def sampleEmpty : Sys := ⟨⟨∅, []⟩, []⟩

/-- The sample machine after its first launch. -/
def sampleStored : Sys := @step sampleHash sampleEmpty (sampleLaunch [])

omit [Sha256] in
theorem sampleEmpty_initial : @Initial sampleHash sampleEmpty :=
  ⟨rfl, rfl, fun _ hb => by cases hb⟩

omit [Sha256] in
theorem sampleStored_stored : sampleStored.dir.files.lookup deviceFile ≠ none := by
  decide +kernel

omit [Sha256] in
/-- The second launch of the sample application finds the helper of the first, and its session has
    the same identifier. -/
theorem one_hwid_per_enrollment_sample :
    ∃ e₁ e₂, @returned sampleHash sampleEmpty [sampleLaunch [], sampleLaunch []] = [e₁, e₂] ∧
      e₁.session.hwid = e₂.session.hwid := by
  let _ := sampleHash
  have hno : Along step (fun s a => ¬ Enrolls s a) sampleStored [sampleLaunch []] := by
    refine ⟨fun ⟨henr, _⟩ => ?_, trivial⟩
    rcases henr with hforce | hnone
    · cases hforce
    · exact sampleStored_stored hnone
  have hreach : Reachable step Initial sampleEmpty := ⟨sampleEmpty, [], sampleEmpty_initial, rfl⟩
  have hsame := (one_hwid_per_enrollment (fun _ hk => sampleHash_noCollision hk) hreach).2.1
    (sampleLaunch []) [sampleLaunch []] hno
  have hlen : (returned sampleEmpty [sampleLaunch [], sampleLaunch []]).length = 2 := by
    decide +kernel
  obtain ⟨e₁, e₂, hret⟩ := List.length_eq_two.mp hlen
  rw [hret] at hsame
  exact ⟨e₁, e₂, hret, hsame _ List.mem_cons_self _ (List.mem_cons_of_mem _ List.mem_cons_self)⟩

/-! ## Hard locks -/

/-- No step of the run forces a re-enrollment. -/
def Unforced (_ : Sys) (a : Action) : Prop :=
  match a with
  | .prepare o _ _ _ => o.forceReenroll = false
  | .commit .. => True

/-- The hard locks `M` and the threshold rule can be met over the factors `F`. -/
def CanMeet (F : Dict Str) (M : Finset Str) : Prop :=
  (∀ n ∈ M, F.get n ≠ []) ∧ minimumFactors ≤ F.keys.length ∧ M.card < F.keys.length

/-- What is dealt meets the hard locks and the rule. -/
theorem Dealt.canMeet {k : Limbs} {F : Dict Str} {M : Finset Str} {blob : Bytes}
    (hd : Dealt k F M blob) : CanMeet F M := by
  obtain ⟨_, t, _, _, hF, hM, ht, _⟩ := hd
  obtain ⟨hn, hm, _⟩ := threshold_spec ht
  exact ⟨fun n hn => hF n (hM n hn), hn, hm⟩

/-- Without forced re-enrollment a stored helper stays stored. -/
theorem stored_of_unforced {s₀ : Sys} (hs₀ : s₀.Inv)
    (hstored : s₀.dir.files.lookup deviceFile ≠ none) {acts : List Action}
    (hun : Along step Unforced s₀ acts) :
    (run step s₀ acts).Inv ∧ (run step s₀ acts).dir.files.lookup deviceFile ≠ none := by
  refine Along.inv (fun s a (h : s.Inv ∧ s.dir.files.lookup deviceFile ≠ none) hok =>
    ⟨h.1.step a, ?_⟩) hun ⟨hs₀, hstored⟩
  have hspec := step_spec h.1 a
  cases a with
  | prepare o collected source faults =>
    have hno : ¬ Enrolling o s.dir := fun henr => by
      rcases henr with hforce | hnone
      · exact absurd (hforce.symm.trans hok) (by decide)
      · exact h.2 hnone
    obtain ⟨_, _, _, _, ⟨_, hdir, _⟩ | ⟨henr, _⟩⟩ | ⟨_, hdir | ⟨henr, _⟩⟩ := hspec
    · rw [hdir]; exact h.2
    · exact absurd henr hno
    · rw [hdir]; exact h.2
    · exact absurd henr hno
  | commit i source faults =>
    obtain ⟨_, hsame⟩ | ⟨_, _, _, _, _, _, _, _, _, hdir | ⟨_, blob, _, _, _, _, hdir⟩⟩ := hspec
    · rw [hsame]; exact h.2
    · rw [hdir]; exact h.2
    · rw [hdir, Dir.lookup_write_self]
      exact Option.some_ne_none _

/-- **Hard locks are never weakened**: after any run without forced re-enrollment from a stored
    helper, a commit leaves the directory alone or writes a helper whose hard locks are exactly those
    of the helper it replaces, under the mapping to v2 names, and which keeps the threshold rule.
    Where the session's factors cannot meet that, the stored helper stays byte for byte. -/
theorem hard_locks_kept {s₀ : Sys} (h₀ : Initial s₀)
    (hstored : s₀.dir.files.lookup deviceFile ≠ none) {acts : List Action}
    (hun : Along step Unforced s₀ acts) (i : Nat) (source : Bytes) (faults : List Fault) :
    ∃ blob h, (run step s₀ acts).dir.files.lookup deviceFile = some blob ∧
      parseHelper blob = .ok h ∧
      ((step (run step s₀ acts) (.commit i source faults)).dir = (run step s₀ acts).dir ∨
        ∃ blob' h', (step (run step s₀ acts) (.commit i source faults)).dir =
            (run step s₀ acts).dir.write deviceFile blob' ∧ parseHelper blob' = .ok h' ∧
          h'.mandatory = mapMandatoryToCurrent h.mandatory ∧
          (h.normVersion = currentNormVersion → h'.mandatory = h.mandatory) ∧
          str "slstore" ∈ h'.mandatory ∧ 8 ≤ h'.slots.length ∧
          7 * h'.slots.length ≤ 10 * h'.threshold ∧ h'.threshold ≤ h'.slots.length ∧
          h'.mandatory.card < h'.threshold) ∧
      (∀ e, (run step s₀ acts).entries[i]? = some e →
        ¬ CanMeet e.session.factors (mapMandatoryToCurrent h.mandatory) →
        (step (run step s₀ acts) (.commit i source faults)).dir.files.lookup deviceFile =
          some blob) := by
  obtain ⟨hinv, hsome⟩ := stored_of_unforced h₀.inv hstored hun
  obtain ⟨blob, hblob⟩ := Option.ne_none_iff_exists'.mp hsome
  obtain ⟨h, hparse⟩ := hinv.dir.helper blob hblob
  have hvalid := (parseHelper_eq_ok hparse).1
  refine ⟨blob, h, hblob, hparse, ?_⟩
  obtain ⟨hnone, hsame⟩ | ⟨e, _, he, _, _, _, _, _, _, hdir | hwrote⟩ :=
    step_spec hinv (.commit i source faults)
  · refine ⟨Or.inl (by rw [hsame]), fun e he _ => ?_⟩
    rw [hnone] at he; cases he
  · exact ⟨Or.inl hdir, fun _ _ _ => by rw [hdir]; exact hblob⟩
  · obtain ⟨k, blob', hkey, _, hfile, hdealt, hdir⟩ := hwrote
    -- the commit compared the stored helper with the one the session was prepared from
    obtain ⟨_, h₁, _, _, hparse₁, _, hmand, _⟩ := (hinv.entries e (List.mem_of_getElem? he)).key
    obtain rfl := Option.some.inj (hblob.symm.trans hfile)
    obtain rfl : h = h₁ := Except.ok.inj (hparse.symm.trans hparse₁)
    rw [hmand] at hdealt
    obtain ⟨h', hparse', _, _, hmand', hlen, _, ht, _⟩ := hdealt.helper
    obtain ⟨hn, _, hm, hle, hrule⟩ := threshold_spec ht
    refine ⟨Or.inr ⟨blob', h', hdir, hparse', hmand', fun hcur => ?_, ?_, by omega, by omega, by omega,
      by rw [hmand']; exact hm⟩, fun e' he' hcannot => ?_⟩
    · rw [hmand']
      exact mapMandatoryToCurrent_eq_self fun n hn => hcur ▸ hvalid.mandatory_allowed hn
    · rw [hmand']
      exact slstore_mem_map hvalid.slstore_mem
    · obtain rfl := Option.some.inj (he.symm.trans he')
      exact absurd hdealt.canMeet hcannot

/-- All applications exit; the files stay. -/
def Sys.restart (s : Sys) : Sys := ⟨⟨s.dir.files, []⟩, []⟩

omit [Sha256] in
theorem Sys.restart_files (s : Sys) : s.restart.dir.files = s.dir.files := rfl

/-- What a run leaves behind is a starting point again. -/
theorem Sys.Inv.restart {s : Sys} (hs : s.Inv) : Initial s.restart := ⟨rfl, rfl, hs.dir.helper⟩

/-- The firmware of the sample machine is updated, and the next application asks for one more hard
    lock. -/
def sampleUpdate : Action :=
  .prepare ⟨[str "machine_guid"], false⟩
    (sampleSignals.insert (str "firmware") (str "1.15.2-2024-01")) (List.replicate 400 7) []

/-- The sample machine after the restart and the launch with the update. -/
def sampleRelaunched : Sys := @run _ _ (@step sampleHash) sampleStored.restart [sampleUpdate]

omit [Sha256] in
/-- The commit of that application writes a new helper, and neither adds the hard lock nor drops
    one. -/
theorem hard_locks_kept_sample :
    ∃ blob h blob' h', sampleRelaunched.dir.files.lookup deviceFile = some blob ∧
      @parseHelper sampleHash blob = .ok h ∧
      (@step sampleHash sampleRelaunched (.commit 0 (List.replicate 400 9) [])).dir =
        sampleRelaunched.dir.write deviceFile blob' ∧
      @parseHelper sampleHash blob' = .ok h' ∧ h'.mandatory = mapMandatoryToCurrent h.mandatory := by
  have hinv : @Sys.Inv sampleHash sampleStored :=
    @Sys.Inv.step sampleHash _ (@Initial.inv sampleHash _ sampleEmpty_initial) _
  have hstored : sampleStored.restart.dir.files.lookup deviceFile ≠ none := by
    rw [Sys.restart_files]; exact sampleStored_stored
  have hlogs : sampleRelaunched.dir.log.length = 0 ∧
      (@step sampleHash sampleRelaunched (.commit 0 (List.replicate 400 9) [])).dir.log.length = 1 := by
    decide +kernel
  obtain ⟨blob, h, hblob, hparse, hsame | ⟨blob', h', hdir, hparse', hmand, _⟩, _⟩ :=
    @hard_locks_kept sampleHash _ (@Sys.Inv.restart sampleHash _ hinv) hstored
      [sampleUpdate] ⟨rfl, trivial⟩ 0 (List.replicate 400 9) []
  · rw [← sampleRelaunched] at hsame
    rw [hsame, hlogs.1] at hlogs
    exact absurd hlogs.2 (by decide)
  · rw [sampleRelaunched]
    exact ⟨blob, h, blob', h', hblob, hparse, hdir, hparse', hmand⟩

/-! ## The codec -/

/-- **The helper codec is a bijection**: what the writer may be asked to write is read back exactly;
    what the reader accepts is written back byte for byte; and every helper that any run of prepare
    and commit steps writes is one of those. -/
theorem helper_codec_bijection :
    (∀ (shares : Dict Limbs) (mandatory : Finset Str) (t salt : Nat) (cw : Bytes) (v : Nat),
      Writable shares mandatory t salt cw v →
      ∃ blob, serializeHelper shares mandatory t salt cw v = .ok blob ∧
        parseHelper blob = .ok (helperOf shares mandatory t salt cw v)) ∧
    (∀ blob h, parseHelper blob = .ok h →
      serializeHelper h.shares h.mandatory h.threshold h.salt h.checkWord h.normVersion =
        .ok blob) ∧
    (∀ s, Reachable step Initial s → ∀ blob, (deviceFile, blob) ∈ s.dir.log →
      ∃ shares mandatory t salt cw, Writable shares mandatory t salt cw currentNormVersion ∧
        serializeHelper shares mandatory t salt cw currentNormVersion = .ok blob ∧
        parseHelper blob = .ok (helperOf shares mandatory t salt cw currentNormVersion)) := by
  have hread : ∀ {shares : Dict Limbs} {mandatory : Finset Str} {t salt : Nat} {cw : Bytes} {v : Nat},
      Writable shares mandatory t salt cw v →
      parseHelper (helperOf shares mandatory t salt cw v).bytes =
        .ok (helperOf shares mandatory t salt cw v) := fun hw => parseHelper_bytes hw.valid
  refine ⟨fun shares mandatory t salt cw v hw => ⟨_, serializeHelper_eq hw, hread hw⟩,
    fun blob h hparse => ?_, fun s hs blob hblob => ?_⟩
  · obtain ⟨hvalid, rfl⟩ := parseHelper_eq_ok hparse
    rw [serializeHelper_eq hvalid.writable, hvalid.helperOf_eq]
  · obtain ⟨k, F, M, shares, t, salt, _, _, _, _, hw, hser, _⟩ := (reachable_inv hs).dir.log blob hblob
    have hbytes : blob = _ := Except.ok.inj (hser.symm.trans (serializeHelper_eq hw))
    exact ⟨shares, M, t, salt, _, hw, hser, by rw [hbytes]; exact hread hw⟩

end Hashing

end Bedrock.Slhwid
