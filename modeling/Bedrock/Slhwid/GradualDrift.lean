/-
  Drift in stages: how far the machine may move from the one that was enrolled.

  1. **The baseline** — the factors that the stored helper is shared over.  An enrollment sets them,
     and a commit that writes moves them to the factors its session saw (`rebase`); nothing else does.

  2. **The invariant** — `SharedOver d k F blob h`: the stored helper `h` splits `k` over `F`.  Every
     step that does not enroll keeps it, over the moved baseline (`sharedOver_step`).

  3. **The result** — drift is measured against the last commit only (`gradual_drift`): in stages that
     each are near the one committed before, the machine may move as far as it likes.
-/
import Bedrock.Slhwid.Reenroll

open Lib.Fallible Lib.Transition Bedrock.Python

namespace Bedrock.Slhwid

section Hashing

variable [Sha256]

/-! ## The baseline -/

/-- The stored helper splits `k` over the factors `F`. -/
structure SharedOver (d : Dir) (k : Limbs) (F : Dict Str) (blob : Bytes) (h : Helper) : Prop where
  /-- The blob is the stored helper .. -/
  stored : d.files.lookup deviceFile = some blob
  /-- .. it is accepted .. -/
  parsed : parseHelper blob = .ok h
  /-- .. and shares this key over these factors. -/
  splits : Nonempty (h.Splits k F h.mandatory)

/-- A commit that writes moves the baseline to the factors of its session. -/
def rebase (s : Sys) (a : Action) (F : Dict Str) : Dict Str :=
  match a with
  | .prepare .. => F
  | .commit i .. =>
    if (step s a).dir.log.length = s.dir.log.length then F
    else (s.entries[i]?.map fun e => e.session.factors).getD F

/-- What is dealt is shared over the factors it was dealt for. -/
theorem Dealt.sharedOver {k : Limbs} {F : Dict Str} {M : Finset Str} {blob : Bytes}
    (hd : Dealt k F M blob) {d : Dir} (hfile : d.files.lookup deviceFile = some blob) :
    ∃ h, SharedOver d k F blob h := by
  obtain ⟨h, hparse, _, _, rfl, _, _, _, hsplits⟩ := hd.helper
  exact ⟨h, hfile, hparse, hsplits⟩

/-- **An enrollment** shares its key over the factors of its session. -/
theorem Enrolled.sharedOver {nf : Dict Str} {d d' : Dir} {s : Session}
    (h : Enrolled nf deviceFile d d' s) :
    ∃ k blob helper, SharedOver d' k s.factors blob helper ∧ s.hwid = hwidStr k := by
  obtain ⟨k, hdealt, hid, _⟩ := h.dealt
  obtain ⟨helper, hshared⟩ := hdealt.sharedOver h.found.1
  exact ⟨k, _, helper, hshared, hid⟩

theorem SharedOver.congr {d d' : Dir} {k : Limbs} {F : Dict Str} {blob : Bytes} {h : Helper}
    (hs : SharedOver d k F blob h) (hdir : d' = d) : SharedOver d' k F blob h := hdir ▸ hs

/-- A session prepared from the stored helper has its key. -/
theorem SharedOver.key_eq {d : Dir} {k : Limbs} {F : Dict Str} {blob : Bytes} {h : Helper}
    (hs : SharedOver d k F blob h) (hcw : NoCheckWordCollision k) {files : Dict Bytes} {e : Entry}
    (he : e.Inv files) (hexp : e.session.expectedHelper = blob) {k' : Limbs}
    (hkey : e.session.key = some k') : k' = k := by
  obtain ⟨S⟩ := hs.splits
  obtain ⟨k₁, h₁, hk₁, _, hparse, hword, _, huniq⟩ := he.key
  obtain rfl := huniq k' hkey
  rw [hexp, hs.parsed] at hparse
  obtain rfl := Except.ok.inj hparse
  exact hcw k' hk₁ (hword.trans S.checkWord)

/-- **Every step that does not enroll** keeps the key, over the moved baseline. -/
theorem sharedOver_step {s : Sys} (hs : s.Inv) {k : Limbs} (hcw : NoCheckWordCollision k)
    {F : Dict Str} {blob : Bytes} {h : Helper} (hshared : SharedOver s.dir k F blob h) {a : Action}
    (ha : Unforced s a) : ∃ blob' h', SharedOver (step s a).dir k (rebase s a F) blob' h' := by
  have hspec := step_spec hs a
  cases a with
  | prepare o collected source faults =>
    have hno : ¬ Enrolling o s.dir := by
      rintro (hforce | hnone)
      · exact absurd (hforce.symm.trans ha) (by decide)
      · rw [hshared.stored] at hnone
        cases hnone
    obtain ⟨_, _, _, _, ⟨_, hdir, _⟩ | ⟨henr, _⟩⟩ | ⟨_, hdir | ⟨henr, _⟩⟩ := hspec
    · exact ⟨blob, h, hshared.congr hdir⟩
    · exact absurd henr hno
    · exact ⟨blob, h, hshared.congr hdir⟩
    · exact absurd henr hno
  | commit i source faults =>
    have hkeep : (step s (.commit i source faults)).dir = s.dir →
        ∃ blob' h', SharedOver (step s (.commit i source faults)).dir k
          (rebase s (.commit i source faults) F) blob' h' := fun hdir => by
      rw [rebase, if_pos (by rw [hdir])]
      exact ⟨blob, h, hshared.congr hdir⟩
    obtain ⟨_, hsame⟩ | ⟨e, _, he, _, _, _, _, _, _, hdir | hwrote⟩ := hspec
    · exact hkeep (by rw [hsame])
    · exact hkeep hdir
    · -- the commit wrote: it shares the key of its session, which is `k`, over its factors
      obtain ⟨k', blob', hkey, _, hfile, hdealt, hdir⟩ := hwrote
      have hexp := Option.some.inj (hfile.symm.trans hshared.stored)
      obtain rfl := hshared.key_eq hcw (hs.entries e (List.mem_of_getElem? he)) hexp hkey
      obtain ⟨h', hshared'⟩ := hdealt.sharedOver (d := s.dir.write deviceFile blob')
        (Dir.lookup_write_self _ _ _)
      have hlonger : (s.dir.write deviceFile blob').log.length ≠ s.dir.log.length := by
        simp [Dir.write]
      rw [rebase, hdir, if_neg hlonger, he]
      exact ⟨blob', h', hshared'⟩

/-! ## A launch near the baseline -/

/-- What a launch on these signals sees under a schema. -/
def Sees (files : Dict Bytes) (collected : Dict Str) (normVersion : Nat) (G : Dict Str) : Prop :=
  ∃ nf, normalizeFactors collected = .ok nf ∧ HasSlstore files nf ∧
    projectFactors (launchRaw files nf) normVersion = .ok G

/-- `G` is near enough to the factors `F` of a helper: the hard locks as they were, the threshold met,
    and no two slots at one coordinate. -/
structure Near (h : Helper) (F G : Dict Str) : Prop where
  /-- No mandatory factor has moved. -/
  locks : ∀ n ∈ h.mandatory, G.get n = F.get n
  /-- At least as many factors as the threshold have kept their value. -/
  enough : h.threshold ≤ (F.keys.filter fun n => G.get n = F.get n).length
  /-- No two slots have the same coordinate. -/
  distinct : DistinctCoordinates F.keys G h.salt

instance (h : Helper) (F G : Dict Str) : Decidable (Near h F G) :=
  decidable_of_iff ((∀ n ∈ h.mandatory, G.get n = F.get n) ∧
      h.threshold ≤ (F.keys.filter fun n => G.get n = F.get n).length ∧
      DistinctCoordinates F.keys G h.salt)
    ⟨fun hn => ⟨hn.1, hn.2.1, hn.2.2⟩, fun hn => ⟨hn.locks, hn.enough, hn.distinct⟩⟩

omit [Sha256] in
theorem Helper.mem_mandatory {h : Helper} {s : HelperSlot} (hs : s ∈ h.slots)
    (hm : s.mandatory = true) : s.name ∈ h.mandatory := by
  rw [Helper.mandatory, List.mem_toFinset]
  exact List.mem_map_of_mem (List.mem_filter.mpr ⟨hs, hm⟩)

/-- The stored helper recovers near the baseline. -/
theorem SharedOver.recoverSession {d : Dir} {k : Limbs} {F : Dict Str} {blob : Bytes} {h : Helper}
    (hs : SharedOver d k F blob h) (hcw : NoCheckWordCollision k) {raw G G₂ : Dict Str}
    (hG : projectFactors raw h.normVersion = .ok G) (hnear : Near h F G)
    (hG₂ : projectFactors raw currentNormVersion = .ok G₂) :
    ∃ session, recoverSession raw blob = .ok session ∧ session.hwid = hwidStr k ∧
      session.key = some k ∧ session.factors = G₂ ∧
      session.mandatory = mapMandatoryToCurrent h.mandatory ∧ session.expectedHelper = blob := by
  obtain ⟨S⟩ := hs.splits
  have hvalid := (parseHelper_eq_ok hs.parsed).1
  obtain ⟨x, hp⟩ := hnear.distinct.placed hvalid.names_nodup fun s hs =>
    AList.mem_keys.mp (S.mem_iff.mp (List.mem_map_of_mem hs))
  obtain ⟨r, hr, hok, hkey, hid, _⟩ := S.recovers hcw hp
    (fun s hs hm => hnear.locks _ (Helper.mem_mandatory hs hm))
    (by rw [S.length_filter fun n => G.get n = F.get n]; exact hnear.enough)
  have hcore : recoverCore blob G = .ok r := by
    rw [recoverCore, hs.parsed]
    exact hr
  refine ⟨{ hwid := r.hwid, fresh := false, drifted := r.dead, pending := r.pending, key := r.key,
            factors := G₂, mandatory := mapMandatoryToCurrent h.mandatory, expectedHelper := blob },
    ?_, hid, hkey, rfl, rfl, rfl⟩
  rw [Slhwid.recoverSession, parseStored, hs.parsed, ok_bind, hG, ok_bind, hcore, ok_bind,
    raiseIf_neg (not_not.mpr hok), ok_bind, hG₂]
  rfl

/-- **A launch near the baseline** returns the identifier and changes nothing. -/
theorem SharedOver.launch {d : Dir} {k : Limbs} {F : Dict Str} {blob : Bytes} {h : Helper}
    (hs : SharedOver d k F blob h) (hcw : NoCheckWordCollision k) {extra : List Str} {M : Finset Str}
    (hM : requestedMandatory extra = .ok M) {collected G : Dict Str}
    (hsees : Sees d.files collected h.normVersion G) (hnear : Near h F G) (source : Bytes) :
    ∃ session, prepareWith ⟨extra, false⟩ collected (d.world source []) =
        .ok session (d.world source []) ∧ session.hwid = hwidStr k ∧ session.key = some k ∧
      Sees d.files collected currentNormVersion session.factors ∧
      session.mandatory = mapMandatoryToCurrent h.mandatory ∧ session.expectedHelper = blob := by
  obtain ⟨nf, hnf, hhas, hG⟩ := hsees
  have hencode : ValuesEncode (launchRaw d.files nf) := launchRaw_encode (normalizeFactors_encode hnf).2
  obtain ⟨G₂, hG₂⟩ := projectFactors_ok hencode (Or.inr rfl)
  obtain ⟨session, hsession, hid, hkey, rfl, hmand, hexp⟩ := hs.recoverSession hcw hG hnear hG₂
  refine ⟨session, ?_, hid, hkey, ⟨nf, hnf, hhas, hG₂⟩, hmand, hexp⟩
  rw [Dir.world, prepareWith_run hM hnf hs.stored hhas source, hsession]
  rfl

/-! ## A commit moves the baseline -/

/-- The factors can be shared: every hard lock has a value, the slots have a threshold, some salt
    separates them, and there are bytes for the coefficients. -/
def Shareable (F : Dict Str) (M : Finset Str) (source : Bytes) : Prop :=
  ∃ t salt, (∀ n ∈ M, F.get n ≠ []) ∧ threshold F.keys.length M.card = .ok t ∧ salt < 255 ∧
    DistinctCoordinates F.keys F salt ∧ 32 * (t - 1) ≤ source.length

/-- The refresh of a shareable stage writes a blob. -/
theorem refreshCore_ok {k : Limbs} (hk : k.Reduced) {F : Dict Str}
    (hF : SlotsIn (allowedNames currentNormVersion) F) {M : Finset Str} (hslstore : str "slstore" ∈ M)
    {source : Bytes} (h : Shareable F M source) :
    ∃ blob rest, refreshCore k F M source = .ok (some blob) rest := by
  obtain ⟨t, salt, hM, ht, hsalt, hdistinct, hbytes⟩ := h
  have hMF : ∀ n ∈ M, n ∈ F := fun n hn => Dict.mem_of_get_ne_nil (hM n hn)
  have hall : ¬ ∃ name ∈ M, F.get name = [] := fun ⟨n, hn, hnil⟩ => hM n hn hnil
  obtain ⟨shares, salt', rest, blob, hb, hser⟩ := share_ok hk hF hslstore hM ht hsalt hdistinct hbytes
  refine ⟨blob, rest, ?_⟩
  unfold refreshCore
  rw [if_neg hall]
  dsimp only
  rw [length_slotList, count_slotList hMF, ht]
  refine (run_bind_ok hb _).trans ?_
  rw [checkWord_ok hk, lift_ok_bind, hser]
  rfl

/-- **A commit of an up-to-date session** shares its key over the factors it saw. -/
theorem commit_writes {s : Session} {k : Limbs} (hkey : s.key = some k) (hopen : s.committed = false)
    (hk : k.Reduced) (hF : SlotsIn (allowedNames currentNormVersion) s.factors)
    (hslstore : str "slstore" ∈ s.mandatory) {d : Dir}
    (hfile : d.files.lookup deviceFile = some s.expectedHelper) {source : Bytes}
    (hshare : Shareable s.factors s.mandatory source) :
    ∃ blob, (s.commit (d.world source [])).2.2.store.dir = d.write deviceFile blob := by
  -- nobody has replaced the helper since the session saw it, so the refresh is drawn and written
  obtain ⟨blob, rest, hrefresh⟩ := refreshCore_ok hk hF hslstore hshare
  have hread : onStore (Store.readHelper deviceHelperId) (d.world source []) =
      .ok (s.expectedHelper, true) (d.world source []) := by
    have hread := readHelper_quiet deviceHelperId d
    rw [show d.files.lookup (helperFile deviceHelperId) = some s.expectedHelper from hfile] at hread
    exact onStore_ok hread
  have hlock : onStore Store.acquire (d.world source []) = .ok () (d.world source []) := rfl
  -- the refresh uses up its part of the random bytes
  have hdraw : onSource (refreshCore k s.factors s.mandatory) (d.world source []) =
      .ok (some blob) (d.world rest []) := by
    unfold onSource
    rw [Dir.world, hrefresh]
    rfl
  have hwrite : onStore (Store.writeHelper deviceHelperId blob) (d.world rest []) =
      .ok () ((d.write deviceFile blob).world rest []) := rfl
  have hfresh : ¬ (¬ true = true ∨ s.expectedHelper ≠ s.expectedHelper) := by simp
  have hrun : commitLocked s k (d.world source []) =
      .ok { s with pending := false, drifted := [] } ((d.write deviceFile blob).world rest []) := by
    refine (run_bind_ok hlock _).trans ((run_bind_ok hread _).trans ?_)
    dsimp only
    rw [if_neg hfresh]
    exact (run_bind_ok hdraw _).trans (run_bind_ok hwrite _)
  refine ⟨blob, ?_⟩
  unfold Session.commit
  rw [hkey]
  dsimp only
  rw [hopen, if_neg Bool.false_ne_true, hrun]
  rfl

/-! ## The result -/

/-- The invariant of the tracked runs. -/
def Tracked (k : Limbs) (p : Sys × Dict Str) : Prop :=
  p.1.Inv ∧ ∃ blob h, SharedOver p.1.dir k p.2 blob h

/-- The sharing survives every run without forced re-enrollment. -/
theorem sharedOver_run {s : Sys} (hs : s.Inv) {k : Limbs} (hcw : NoCheckWordCollision k)
    {F : Dict Str} {blob : Bytes} {h : Helper} (hshared : SharedOver s.dir k F blob h)
    {acts : List Action} (hun : Along step Unforced s acts) :
    (run step s acts).Inv ∧ ∃ blob' h',
      SharedOver (run step s acts).dir k (run (noteStep step rebase) (s, F) acts).2 blob' h' := by
  have hlast : Tracked k (run (noteStep step rebase) (s, F) acts) := Along.inv (fun p a htracked hok => by
      obtain ⟨hinv, blob, h, hshared⟩ := htracked
      exact ⟨hinv.step a, sharedOver_step hinv hcw hshared hok⟩) hun.noteStep ⟨hs, blob, h, hshared⟩
  rw [Tracked, run_noteStep_fst] at hlast
  exact hlast

/-- **Drift is measured against the last commit**: after any run without forced re-enrollment, with
    any failures and in any order of the applications,

    1. the stored helper shares the same key over the tracked baseline;
    2. a launch that sees factors near the baseline returns the same identifier;
    3. a commit of a session prepared from the stored helper makes what the session saw the new
       baseline, if that can be shared.

    So the identifier stays the same in all stages, however far the last of them is from the first. -/
theorem gradual_drift {k : Limbs} (hcw : NoCheckWordCollision k) {s : Sys}
    (hs : Reachable step Initial s) {F : Dict Str} {blob : Bytes} {h : Helper}
    (hshared : SharedOver s.dir k F blob h) {acts : List Action} (hun : Along step Unforced s acts) :
    ∃ blob' h', SharedOver (run step s acts).dir k (run (noteStep step rebase) (s, F) acts).2 blob' h' ∧
      (∀ extra M collected G source, requestedMandatory extra = .ok M →
        Sees (run step s acts).dir.files collected h'.normVersion G →
        Near h' (run (noteStep step rebase) (s, F) acts).2 G →
        ∃ session, prepareWith ⟨extra, false⟩ collected ((run step s acts).dir.world source []) =
            .ok session ((run step s acts).dir.world source []) ∧
          session.hwid = hwidStr k ∧ session.key = some k ∧
          Sees (run step s acts).dir.files collected currentNormVersion session.factors ∧
          session.mandatory = mapMandatoryToCurrent h'.mandatory ∧ session.expectedHelper = blob') ∧
      (∀ i e source, (run step s acts).entries[i]? = some e → e.session.key ≠ none →
        e.session.expectedHelper = blob' → Shareable e.session.factors e.session.mandatory source →
        ∃ blob'' h'', SharedOver (step (run step s acts) (.commit i source [])).dir k
            e.session.factors blob'' h'' ∧
          (run (noteStep step rebase) (s, F) (acts ++ [.commit i source []])).2 =
            e.session.factors) := by
  obtain ⟨hinv, blob', h', hlast⟩ := sharedOver_run (reachable_inv hs) hcw hshared hun
  refine ⟨blob', h', hlast, fun extra M collected G source hM hsees hnear =>
    hlast.launch hcw hM hsees hnear source, fun i e source he hkey hexp hshare => ?_⟩
  -- a session that still has its key is open, and refreshes with the key of the helper
  obtain ⟨k', hk'⟩ := Option.ne_none_iff_exists'.mp hkey
  have hentry := hinv.entries e (List.mem_of_getElem? he)
  obtain ⟨hred, hF, hsl⟩ := hentry.refreshable
  have hopen : e.session.committed = false :=
    Bool.eq_false_iff.mpr fun hc => hkey (hentry.closed hc)
  obtain ⟨blob'', hwrote⟩ := commit_writes hk' hopen (hred k' hk') hF hsl (hexp ▸ hlast.stored) hshare
  have hdir : (step (run step s acts) (.commit i source [])).dir =
      (run step s acts).dir.write deviceFile blob'' := by
    rw [← hwrote, step, he]
  -- the write is on record, so the baseline moves to what the session saw
  have hlonger : ((run step s acts).dir.write deviceFile blob'').log.length ≠
      (run step s acts).dir.log.length := by
    simp [Dir.write]
  have hbase : rebase (run step s acts) (.commit i source [])
      (run (noteStep step rebase) (s, F) acts).2 = e.session.factors := by
    rw [rebase, hdir, if_neg hlonger, he]
    rfl
  obtain ⟨blob₃, h₃, hnew⟩ := sharedOver_step hinv hcw hlast (a := .commit i source []) trivial
  rw [hbase] at hnew
  refine ⟨blob₃, h₃, hnew, ?_⟩
  rw [run_append, run_cons, run_nil, noteStep, run_noteStep_fst]
  exact hbase

end Hashing

/-! ## Two stages on the sample machine -/

/-- New disk and new firmware. -/
def sampleMoved : Dict Str :=
  (sampleSignals.insert (str "disk_serial") (str "wd-0042")).insert (str "firmware") (str "2.0.1")

/-- Then another processor and another volume. -/
def sampleMovedOn : Dict Str :=
  (sampleMoved.insert (str "cpu_id") (str "authenticamd-25-97")).insert (str "volume_id") (str "77aa")

/-- A launch on the moved machine. -/
def sampleMoves : Action := .prepare ⟨[], false⟩ sampleMoved [] []

/-- Its commit. -/
def sampleCommit : Action := .commit 1 (List.replicate 400 9) []

/-- The sample machine after a launch with new disk and firmware. -/
def sampleLaunched : Sys := @step sampleHash sampleStored sampleMoves

/-- And after the commit of that launch. -/
def sampleCommitted : Sys := @step sampleHash sampleLaunched sampleCommit

/-- What the first launch of the sample machine enrolled. -/
theorem sampleStored_shared : ∃ e k blob h, sampleStored.entries = [e] ∧
    @SharedOver sampleHash sampleStored.dir k e.session.factors blob h ∧
    e.session.hwid = @hwidStr sampleHash k := by
  let _ := sampleHash
  obtain ⟨session, nf, hentries, _, ⟨_, _, _, _, _, _, hfile, _⟩ | ⟨_, henr⟩⟩ | ⟨hentries, _⟩ :=
    step_spec sampleEmpty_initial.inv (sampleLaunch [])
  · cases hfile
  · obtain ⟨k, blob, h, hshared, hid⟩ := henr.sharedOver
    exact ⟨_, k, blob, h, hentries, hshared, hid⟩
  · have hlen : sampleStored.entries.length = 1 := by decide +kernel
    rw [sampleStored, hentries] at hlen
    cases hlen

/-- Four slots of the sample machine have changed since its enrollment, two before a commit, which moves
    the baseline, and two behind it: it keeps its identifier. -/
theorem gradual_drift_sample : ∃ e session, sampleStored.entries = [e] ∧
    @prepareWith Disk sampleHash _ ⟨[], false⟩ sampleMovedOn (sampleCommitted.dir.world [] []) =
      .ok session (sampleCommitted.dir.world [] []) ∧
    session.hwid = e.session.hwid := by
  let _ := sampleHash
  obtain ⟨e, k, blob, h, hentries, hshared, hid⟩ := sampleStored_shared
  obtain ⟨S⟩ := hshared.splits
  have hreach : Reachable step Initial sampleStored :=
    ⟨sampleEmpty, [sampleLaunch []], sampleEmpty_initial, by rw [run_cons, run_nil, sampleStored]⟩
  have hcw := sampleHash_noCollision S.key_reduced
  -- the first launch, whose commit moves the baseline ..
  obtain ⟨blob₁, h₁, hfirst, _, hcommits⟩ := gradual_drift hcw hreach hshared
    (show Along step Unforced sampleStored [sampleMoves] from ⟨rfl, trivial⟩)
  have hrun₁ : run step sampleStored [sampleMoves] = sampleLaunched := by
    rw [run_cons, run_nil, sampleLaunched]
  rw [hrun₁] at hfirst hcommits
  -- .. and the second one, near the moved baseline
  obtain ⟨blob', h', hlast, hlaunch, _⟩ := gradual_drift hcw hreach hshared
    (show Along step Unforced sampleStored [sampleMoves, sampleCommit] from ⟨rfl, trivial, trivial⟩)
  have hrun : run step sampleStored [sampleMoves, sampleCommit] = sampleCommitted := by
    rw [run_cons, run_cons, run_nil, sampleCommitted, sampleLaunched]
  -- what the first launch saw can be shared, and the last signals are near it
  have hcheck : (sampleLaunched.entries[1]?.any fun e' =>
      (e'.session.key.isSome &&
        decide (sampleLaunched.dir.files.lookup deviceFile = some e'.session.expectedHelper) &&
        checks (fun t _ => decide (∀ n ∈ e'.session.mandatory, e'.session.factors.get n ≠ []) &&
            decide (DistinctCoordinates e'.session.factors.keys e'.session.factors 0) &&
            decide (32 * (t - 1) ≤ 400))
          (lift (threshold e'.session.factors.keys.length e'.session.mandatory.card) ())) &&
      (decide (sampleCommitted.dir.files.lookup slstoreFile =
        some (slstorePrefix ++ List.replicate 32 7)) &&
      checks (fun nf _ => checks (fun h' _ =>
        checks (fun G _ => decide (Near h' e'.session.factors G))
          (lift (projectFactors (launchRaw sampleCommitted.dir.files nf) h'.normVersion) ()))
        (lift (parseHelper ((sampleCommitted.dir.files.lookup deviceFile).getD [])) ()))
        (lift (normalizeFactors sampleMovedOn) ()))) = true := by
    decide +kernel
  obtain ⟨e', he', hcheck⟩ := (Option.any_eq_true _ _).mp hcheck
  obtain ⟨hshareable, hcheck⟩ := Bool.and_eq_true_iff.mp hcheck
  obtain ⟨hprepared, hshareable⟩ := Bool.and_eq_true_iff.mp hshareable
  obtain ⟨hkey, hexp⟩ := Bool.and_eq_true_iff.mp hprepared
  obtain ⟨t, _, ht, hshareable⟩ := exists_of_checks hshareable
  obtain ⟨hshareable, hbytes⟩ := Bool.and_eq_true_iff.mp hshareable
  obtain ⟨hlocks, hdistinct⟩ := Bool.and_eq_true_iff.mp hshareable
  obtain ⟨hsecret, hnear⟩ := Bool.and_eq_true_iff.mp hcheck
  obtain ⟨nf, _, hnf, hnear⟩ := exists_of_checks hnear
  obtain ⟨h₂, _, hparse, hnear⟩ := exists_of_checks hnear
  obtain ⟨G, _, hG, hnear⟩ := exists_of_checks hnear
  -- the baseline behind the commit is what the first launch saw
  obtain ⟨_, _, _, hbase⟩ := hcommits 1 e' (List.replicate 400 9) he' (Option.isSome_iff_ne_none.mp hkey)
    (Option.some.inj ((of_decide_eq_true hexp).symm.trans hfirst.stored))
    ⟨t, 0, of_decide_eq_true hlocks, (lift_eq_ok.mp ht).1, by decide, of_decide_eq_true hdistinct,
      by rw [List.length_replicate]; exact of_decide_eq_true hbytes⟩
  have hbase : (run (noteStep step rebase) (sampleStored, e.session.factors)
      [sampleMoves, sampleCommit]).2 = e'.session.factors := hbase
  rw [hrun, hbase] at hlast
  rw [hbase] at hlaunch
  rw [hlast.stored, Option.getD_some] at hparse
  obtain rfl : h' = h₂ := Except.ok.inj (hlast.parsed.symm.trans (lift_eq_ok.mp hparse).1)
  have hsees : Sees sampleCommitted.dir.files sampleMovedOn h'.normVersion G :=
    ⟨nf, (lift_eq_ok.mp hnf).1, Or.inr ⟨_, List.length_replicate, of_decide_eq_true hsecret⟩,
      (lift_eq_ok.mp hG).1⟩
  obtain ⟨session, hsession, hhwid, _⟩ := hlaunch [] _ sampleMovedOn G [] rfl (by rw [hrun]; exact hsees)
    (of_decide_eq_true hnear)
  rw [hrun] at hsession
  exact ⟨e, session, hentries, hsession, hhwid.trans hid.symm⟩

end Bedrock.Slhwid
