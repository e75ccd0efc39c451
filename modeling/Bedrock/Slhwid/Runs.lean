/-
  Many applications, one `DirStore`: runs of `prepare` and `commit` in any order.

  1. **The system** — `Sys`: the directory, and every session returned so far with the signals it was
     prepared from.  One action is one call under the store lock, with its own random bytes and its
     own I/O failures.

  2. **The invariant** — the stored helper always parses; a session's key has the check word of the
     helper it was prepared from, and launching again on its signals gives its factors again
     (`Entry.Inv`).  `step_spec` says once what a step can do, `Sys.Inv.step` that it keeps the
     invariant.

  3. **Results** — one identifier per enrollment and no stale overwrite
     (`one_hwid_per_enrollment`), hard locks that are never weakened (`hard_locks_kept`), and a
     helper codec that reads back whatever is ever written (`helper_codec_bijection`).
-/
import Bedrock.Lib.Transition
import Bedrock.Slhwid.SessionSpec

open Lib.Fallible Lib.Transition Bedrock.Python

namespace Bedrock.Slhwid

/-! ## The system -/

/-- A session, and what the collector reported when it was prepared. -/
structure Entry where
  /-- What `prepare` returned .. -/
  session : Session
  /-- .. and what was collected for it. -/
  collected : Dict Str

/-- The directory that all applications share, and what each of them holds. -/
structure Sys where
  /-- The store. -/
  dir : Dir
  /-- The sessions handed out so far. -/
  entries : List Entry

/-- A launch, or the commit of the session that the `i`-th launch returned; `source` is what the random
    source gives, `faults` which file operations fail. -/
inductive Action
  /-- A launch prepares. -/
  | prepare (options : Options) (collected : Dict Str) (source : Bytes) (faults : List Fault)
  /-- One of the sessions commits. -/
  | commit (i : Nat) (source : Bytes) (faults : List Fault)

section Hashing

variable [Sha256]

/-- One call runs to its end: the lock serializes them. -/
def step (s : Sys) : Action → Sys
  | .prepare options collected source faults =>
    match prepareWith options collected (s.dir.world source faults) with
    | .ok session w => ⟨w.store.dir, s.entries ++ [⟨session, collected⟩]⟩
    | .error _ w => ⟨w.store.dir, s.entries⟩
  | .commit i source faults =>
    match s.entries[i]? with
    | none => s
    | some e =>
      let r := e.session.commit (s.dir.world source faults)
      ⟨r.2.2.store.dir, s.entries.set i ⟨r.1, e.collected⟩⟩

/-- Nothing prepared yet; no helper, or one that parses. -/
def Initial (s : Sys) : Prop :=
  s.entries = [] ∧ s.dir.log = [] ∧
    ∀ blob, s.dir.files.lookup deviceFile = some blob → ∃ h, parseHelper blob = .ok h

/-! ## The invariant -/

/-- What holds of a session at all times. -/
structure Entry.Inv (files : Dict Bytes) (e : Entry) : Prop where
  /-- The session's factors are those of the launch. -/
  launched : ∃ nf, normalizeFactors e.collected = .ok nf ∧ HasSlstore files nf ∧
    projectFactors (launchRaw files nf) currentNormVersion = .ok e.session.factors
  /-- Its key is the one of the helper it was prepared from. -/
  key : ∃ k h, k.Reduced ∧ e.session.hwid = hwidStr k ∧
    parseHelper e.session.expectedHelper = .ok h ∧ checkWordOf k = h.checkWord ∧
    e.session.mandatory = mapMandatoryToCurrent h.mandatory ∧
    ∀ k', e.session.key = some k' → k' = k
  /-- Committing forgets the key. -/
  closed : e.session.committed = true → e.session.key = none

/-- The stored helper parses, and every helper ever written was dealt. -/
structure Dir.Good (d : Dir) : Prop where
  /-- The stored helper is accepted. -/
  helper : ∀ blob, d.files.lookup deviceFile = some blob → ∃ h, parseHelper blob = .ok h
  /-- Every helper ever written was dealt. -/
  log : ∀ blob, (deviceFile, blob) ∈ d.log → ∃ k F M, Dealt k F M blob

/-- **The invariant**: the directory holds a helper that was dealt or nothing, and every session belongs
    to a helper that was stored. -/
structure Sys.Inv (s : Sys) : Prop where
  dir : s.dir.Good
  entries : ∀ e ∈ s.entries, e.Inv s.dir.files

theorem Initial.inv {s : Sys} (h : Initial s) : s.Inv where
  dir := ⟨h.2.2, fun b hb => by rw [h.2.1] at hb; exact absurd hb (List.not_mem_nil)⟩
  entries := fun e he => by rw [h.1] at he; exact absurd he (List.not_mem_nil)

/-- Creating the secret leaves the helper alone. -/
theorem SecretMade.good {d d' : Dir} (h : SecretMade d d') (hd : d.Good) : d'.Good := by
  refine ⟨fun blob hblob => hd.helper blob (by rw [← h.device]; exact hblob), fun blob hblob => ?_⟩
  obtain rfl | ⟨_, v, _, rfl⟩ := h
  · exact hd.log blob hblob
  · rcases List.mem_append.mp hblob with hold | hnew
    · exact hd.log blob hold
    · exact absurd (congrArg Prod.fst (List.mem_singleton.mp hnew)) slstoreFile_ne.symm

/-- A dealt helper keeps the directory good. -/
theorem Dir.Good.write {d : Dir} (hd : d.Good) {k : Limbs} {F : Dict Str} {M : Finset Str}
    {blob : Bytes} (hdealt : Dealt k F M blob) : (d.write deviceFile blob).Good := by
  refine ⟨fun b hb => ?_, fun b hb => ?_⟩
  · rw [d.lookup_write_self] at hb
    obtain rfl := Option.some.inj hb
    obtain ⟨h, hparse, _⟩ := hdealt.helper
    exact ⟨h, hparse⟩
  · rcases List.mem_append.mp hb with hold | hnew
    · exact hd.log b hold
    · obtain rfl : b = blob := congrArg Prod.snd (List.mem_singleton.mp hnew)
      exact ⟨k, F, M, hdealt⟩

/-- The secret file, once there, stays. -/
def SecretKept (d d' : Dir) : Prop :=
  ∀ data, d.files.lookup slstoreFile = some data → d'.files.lookup slstoreFile = some data

omit [Sha256] in
/-- A secret that is there stays. -/
theorem SecretMade.kept {d d' : Dir} (h : SecretMade d d') : SecretKept d d' := by
  intro data hdata
  obtain rfl | ⟨hnone, _⟩ := h
  · exact hdata
  · rw [hnone] at hdata; cases hdata

omit [Sha256] in
theorem Dir.write_kept (d : Dir) (blob : Bytes) : SecretKept d (d.write deviceFile blob) :=
  fun _ hdata => by rw [d.lookup_write_ne _ slstoreFile_ne]; exact hdata

/-- A launch sees the same factors as long as the secret stays. -/
theorem Entry.Inv.kept {d d' : Dir} {e : Entry} (h : e.Inv d.files) (hkept : SecretKept d d') :
    e.Inv d'.files := by
  obtain ⟨nf, hnf, hhas, hproj⟩ := h.launched
  refine ⟨⟨nf, hnf, ?_, ?_⟩, h.key, h.closed⟩
  · exact hhas.imp id fun ⟨v, hv, hfile⟩ => ⟨v, hv, hkept _ hfile⟩
  · rcases hhas with hrep | ⟨v, _, hfile⟩
    · rw [launchRaw_reported hrep] at hproj ⊢; exact hproj
    · have hsame : d'.files.lookup slstoreFile = d.files.lookup slstoreFile := by
        rw [hkept _ hfile, hfile]
      rwa [launchRaw_congr nf hsame]

/-- The session's hard locks include the secret, and its factors are v2 slots. -/
theorem Entry.Inv.refreshable {files : Dict Bytes} {e : Entry} (h : e.Inv files) :
    (∀ k, e.session.key = some k → k.Reduced) ∧
      SlotsIn (allowedNames currentNormVersion) e.session.factors ∧
      str "slstore" ∈ e.session.mandatory := by
  obtain ⟨_, _, _, hproj⟩ := h.launched
  obtain ⟨k, hp, hk, _, hparse, _, hmand, huniq⟩ := h.key
  have hvalid := (parseHelper_eq_ok hparse).1
  refine ⟨fun k' hk' => by rw [huniq k' hk']; exact hk, projectFactors_spec hproj, ?_⟩
  rw [hmand]
  exact slstore_mem_map hvalid.slstore_mem

/-! ## One step -/

/-- **What a step can do**, all of it. -/
def StepSpec (s s' : Sys) : Action → Prop
  | .prepare o collected _ _ =>
    (∃ session nf, s'.entries = s.entries ++ [⟨session, collected⟩] ∧
      normalizeFactors collected = .ok nf ∧
      ((o.forceReenroll = false ∧ s'.dir = s.dir ∧ HasSlstore s.dir.files nf ∧
          ∃ blob h k, s.dir.files.lookup deviceFile = some blob ∧
            Recovered (launchRaw s.dir.files nf) blob session h k) ∨
        (Enrolling o s.dir ∧ Enrolled nf deviceFile s.dir s'.dir session))) ∨
    (s'.entries = s.entries ∧
      (s'.dir = s.dir ∨ (Enrolling o s.dir ∧ EnrollFailed deviceFile s.dir s'.dir)))
  | .commit i _ _ =>
    (s.entries[i]? = none ∧ s' = s) ∨
    ∃ e session, s.entries[i]? = some e ∧ s'.entries = s.entries.set i ⟨session, e.collected⟩ ∧
      session.key = none ∧ session.hwid = e.session.hwid ∧ session.factors = e.session.factors ∧
      session.mandatory = e.session.mandatory ∧
      session.expectedHelper = e.session.expectedHelper ∧ Refreshed e.session s.dir s'.dir

/-- **What one step can do**, for every action and every failure in it. -/
theorem step_spec {s : Sys} (hs : s.Inv) (a : Action) : StepSpec s (step s a) a := by
  cases a with
  | prepare o collected source faults =>
    have hspec := prepareWith_ensures o collected (s.dir.world source faults)
    simp only [StepSpec, step]
    cases hrun : prepareWith o collected (s.dir.world source faults) with
    | ok session w =>
      obtain ⟨nf, hnf, hcase⟩ := hspec.of_ok hrun
      exact Or.inl ⟨session, nf, rfl, hnf, hcase⟩
    | error e w => exact Or.inr ⟨rfl, hspec.of_error hrun⟩
  | commit i source faults =>
    simp only [StepSpec, step]
    cases he : s.entries[i]? with
    | none => exact Or.inl ⟨rfl, rfl⟩
    | some e =>
      obtain ⟨hk, hF, hsl⟩ := (hs.entries e (List.mem_of_getElem? he)).refreshable
      obtain ⟨hkey, hhwid, hfac, hmand, hexp, hdisk⟩ :=
        commit_cases hk hF hsl (s.dir.world source faults)
      exact Or.inr ⟨e, _, rfl, rfl, hkey, hhwid, hfac, hmand, hexp, hdisk⟩

/-- A session that was just enrolled. -/
theorem Enrolled.entry {nf : Dict Str} {d d' : Dir} {session : Session} {collected : Dict Str}
    (h : Enrolled nf deviceFile d d' session) (hnf : normalizeFactors collected = .ok nf) :
    Entry.Inv d'.files ⟨session, collected⟩ := by
  obtain ⟨k, hdealt, hhwid, hkey⟩ := h.dealt
  obtain ⟨d₁, _, rfl, hhas, hproj⟩ := h.stored
  obtain ⟨hp, hparse, hnorm, hword, hmand, _⟩ := hdealt.helper
  have hfixed : session.mandatory = mapMandatoryToCurrent hp.mandatory := by
    rw [← hmand]
    exact (mapMandatoryToCurrent_eq_self fun n hn =>
      hnorm ▸ (parseHelper_eq_ok hparse).1.mandatory_allowed hn).symm
  have hbefore : Entry.Inv d₁.files ⟨session, collected⟩ := {
    launched := ⟨nf, hnf, hhas, hproj⟩
    key := ⟨k, hp, hdealt.reduced, hhwid, hparse, hword.symm, hfixed,
      fun k' hk' => Option.some.inj (hk'.symm.trans hkey)⟩
    closed := fun hc => absurd (hc.symm.trans h.open_) (by decide) }
  exact hbefore.kept (d₁.write_kept _)

/-- A session that was just recovered. -/
theorem Recovered.entry {nf : Dict Str} {files : Dict Bytes} {blob : Bytes} {session : Session}
    {h : Helper} {k : Limbs} {collected : Dict Str}
    (hrec : Recovered (launchRaw files nf) blob session h k)
    (hnf : normalizeFactors collected = .ok nf) (hhas : HasSlstore files nf) :
    Entry.Inv files ⟨session, collected⟩ where
  launched := ⟨nf, hnf, hhas, hrec.factors⟩
  key := ⟨k, h, hrec.reduced, hrec.hwid, by rw [hrec.expected]; exact hrec.parsed, hrec.word,
    hrec.mandatory, fun k' hk' => Option.some.inj (hk'.symm.trans hrec.key)⟩
  closed := fun hc => absurd (hc.symm.trans hrec.open_) (by decide)

/-- A call that enrolls without returning a session leaves a good directory, the secret kept. -/
theorem EnrollFailed.good {d d' : Dir} (h : EnrollFailed deviceFile d d') (hd : d.Good) :
    d'.Good ∧ SecretKept d d' := by
  obtain ⟨d₁, hmade, rfl | ⟨k, F, M, blob, hdealt, rfl⟩⟩ := h
  · exact ⟨hmade.good hd, hmade.kept⟩
  · exact ⟨(hmade.good hd).write hdealt, fun data hdata => d₁.write_kept _ data (hmade.kept data hdata)⟩

/-- An enrollment leaves a good directory, with the secret it found or made. -/
theorem Enrolled.good {nf : Dict Str} {d d' : Dir} {session : Session}
    (h : Enrolled nf deviceFile d d' session) (hd : d.Good) : d'.Good ∧ SecretKept d d' := by
  obtain ⟨k, hdealt, _⟩ := h.dealt
  obtain ⟨d₁, hmade, rfl, _⟩ := h.stored
  exact ⟨(hmade.good hd).write hdealt, fun data hdata => d₁.write_kept _ data (hmade.kept data hdata)⟩

/-- **Every step keeps the invariant.** -/
theorem Sys.Inv.step {s : Sys} (hs : s.Inv) (a : Action) : (step s a).Inv := by
  -- what was true of a session stays true, as long as the secret is kept
  have hkeep : ∀ {d' : Dir}, SecretKept s.dir d' → ∀ e ∈ s.entries, e.Inv d'.files :=
    fun hkept e he => (hs.entries e he).kept hkept
  have hspec := step_spec hs a
  cases a with
  | prepare o collected source faults =>
    obtain ⟨session, nf, hentries, hnf, hcase⟩ | ⟨hentries, hcase⟩ := hspec
    · have happend : ∀ {d' : Dir}, SecretKept s.dir d' → Entry.Inv d'.files ⟨session, collected⟩ →
          ∀ e ∈ s.entries ++ [⟨session, collected⟩], e.Inv d'.files := fun hkept hnew e he => by
        rcases List.mem_append.mp he with hold | hlast
        · exact hkeep hkept e hold
        · rw [List.mem_singleton.mp hlast]; exact hnew
      -- the call recovered, and wrote nothing, or it enrolled
      rcases hcase with ⟨_, hdir, hhas, blob, h, k, _, hrec⟩ | ⟨_, henr⟩
      · refine ⟨by rw [hdir]; exact hs.dir, ?_⟩
        rw [hentries, hdir]
        exact happend (fun _ hdata => hdata) (hrec.entry hnf hhas)
      · obtain ⟨hgood, hkept⟩ := henr.good hs.dir
        refine ⟨hgood, ?_⟩
        rw [hentries]
        exact happend hkept (henr.entry hnf)
    · -- the call raised: nothing is written, or what an enrollment writes before it raises
      rcases hcase with hdir | ⟨_, hfail⟩
      · exact ⟨by rw [hdir]; exact hs.dir, by rw [hentries, hdir]; exact hs.entries⟩
      · obtain ⟨hgood, hkept⟩ := hfail.good hs.dir
        exact ⟨hgood, by rw [hentries]; exact hkeep hkept⟩
  | commit i source faults =>
    obtain ⟨_, hsame⟩ | ⟨e, session, he, hentries, hkey, hhwid, hfac, hmand, hexp, hdisk⟩ := hspec
    · rw [hsame]; exact hs
    have hset : ∀ {d' : Dir}, SecretKept s.dir d' →
        ∀ e' ∈ s.entries.set i ⟨session, e.collected⟩, e'.Inv d'.files := fun hkept e' he' => by
      rcases List.mem_or_eq_of_mem_set he' with hold | rfl
      · exact hkeep hkept e' hold
      · have hinv := hkeep hkept e (List.mem_of_getElem? he)
        -- the new session is the old one without its key
        obtain ⟨k, h, hk, hid, hparse, hword, hlocks, _⟩ := hinv.key
        exact {
          launched := by rw [hfac]; exact hinv.launched
          key := ⟨k, h, hk, hhwid.trans hid, by rw [hexp]; exact hparse, hword, hmand.trans hlocks,
            fun k' hk' => by rw [hkey] at hk'; cases hk'⟩
          closed := fun _ => hkey }
    obtain hdir | ⟨k, blob, _, _, _, hdealt, hdir⟩ := hdisk
    · exact ⟨by rw [hdir]; exact hs.dir, by rw [hentries, hdir]; exact hset fun _ hdata => hdata⟩
    · exact ⟨by rw [hdir]; exact hs.dir.write hdealt,
        by rw [hentries, hdir]; exact hset (s.dir.write_kept blob)⟩

/-- **The invariant holds in every reachable state.** -/
theorem reachable_inv {s : Sys} (h : Reachable step Initial s) : s.Inv :=
  h.inv (fun _ h₀ => h₀.inv) fun _ a hs => hs.step a

end Hashing

end Bedrock.Slhwid
