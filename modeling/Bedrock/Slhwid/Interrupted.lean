/-
  Operations that fail on the way, and the enrollment that is already stored.

  1. **What a launch needs** — `recoversAs_iff`: a launch recovers an identifier from the stored
     helper and its own factors, completed by the stored secret.  Nothing else on disk is read, so a
     secret made where there was none (`SecretMade`) does not matter to it.

  2. **What a failed operation leaves behind** — `BreaksOff`: an operation that is left by an
     exception, or cut at one of its operations of the store.  A forced `prepare` and a commit are
     cut in two at their helper write (`prepareWith_reenrolls`, `commitLocked_eq`); up to there the one
     has written at most a new secret, the other nothing.

  3. **The defect** — `_write` calls `os.chmod` on the new file behind `os.replace`, outside its `try`:
     where an operation comes to its helper write and that call raises (`StruckBehindReplace`), so does
     the operation, with the stored helper already replaced (`struck_replaces`).  Every other failure
     keeps the enrollment (`enrollment_survives`).
-/
import Bedrock.Slhwid.Reenroll

open Lib.Fallible Bedrock.Python

namespace Bedrock.Slhwid

section Hashing

variable [Sha256]

/-! ## What a launch needs -/

/-- A call by any application: with its own signals and options, or of any session it holds. -/
inductive Operation
  /-- A launch. -/
  | prepare (options : Options) (collected : Dict Str) (source : Bytes) (faults : List Fault)
  /-- The commit of a launch. -/
  | commit (session : Session) (source : Bytes) (faults : List Fault)

/-- The operation does not come to its end, and leaves the files `d'`: an exception leaves it, be it a
    check of its own or the operation of the store at which it is cut.  A commit may hide the
    exception from its caller. -/
def BreaksOff (d d' : Dir) : Operation → Prop
  | .prepare o collected source faults =>
    ∃ e w, prepareWith o collected (d.world source faults) = .error e w ∧ w.store.dir = d'
  | .commit s source faults => ∃ k e w, s.key = some k ∧ s.committed = false ∧
      commitLocked s k (d.world source faults) = .error e w ∧ w.store.dir = d'

/-- A commit that raises has broken off. -/
theorem breaksOff_of_commit {s : Session} {d : Dir} {source : Bytes} {faults : List Fault} {e : Exc}
    (h : (s.commit (d.world source faults)).2.1 = .error e) :
    BreaksOff d (s.commit (d.world source faults)).2.2.store.dir (.commit s source faults) := by
  unfold Session.commit at h ⊢
  cases hkey : s.key with
  | none =>
    rw [hkey] at h
    cases h
  | some k =>
    rw [hkey] at h
    dsimp only at h ⊢
    by_cases hopen : s.committed = true
    · rw [if_pos hopen] at h
      cases h
    rw [if_neg hopen] at h ⊢
    cases hrun : commitLocked s k (d.world source faults) with
    | ok s' w =>
      rw [hrun] at h
      cases h
    | error e' w => exact ⟨k, e', w, hkey, Bool.eq_false_iff.mpr hopen, hrun, rfl⟩

/-! ## Up to the helper write, and behind it -/

/-- A forced `prepare` up to its helper write: what it is about to store. -/
def reenrollment (o : Options) (collected : Dict Str) : Prog Disk Deal := do
  let mandatory ← lift (requestedMandatory o.extraMandatory)
  let raw ← lift (normalizeFactors collected)
  onStore Store.acquire
  let _ ← onStore (Store.readHelper deviceHelperId)
  let raw ← withSlstore raw
  onSource (deal raw mandatory)

/-- A commit up to its helper write: what it is about to store, `none` where it leaves the helper as it
    is. -/
def refreshment (s : Session) (k : Limbs) : Prog Disk (Option Bytes) := do
  onStore Store.acquire
  let (current, found) ← onStore (Store.readHelper deviceHelperId)
  if ¬ found ∨ current ≠ s.expectedHelper then return none
  onSource (refreshCore k s.factors s.mandatory)

/-- The rest of a commit. -/
def finishCommit (s : Session) : Option Bytes → Prog Disk Session
  | none => return s
  | some blob => do
    onStore (Store.writeHelper deviceHelperId blob)
    return { s with pending := false, drifted := [] }

/-- A forced launch is a re-enrollment, followed by its write. -/
theorem prepareWith_reenrolls {o : Options} (hforce : o.forceReenroll = true) (collected : Dict Str)
    (w : World Disk) : prepareWith o collected w =
      (reenrollment o collected >>= finishEnroll deviceHelperId) w := by
  unfold prepareWith reenrollment
  simp only [bind_assoc]
  refine run_bind_congr fun M w₁ _ => run_bind_congr fun nf w₂ _ => run_bind_congr fun _ w₃ _ => ?_
  cases hread : onStore (Store.readHelper deviceHelperId) w₃ with
  | error e w₄ => rw [prepareLocked, run_bind, run_bind, hread]
  | ok r w₄ =>
    obtain ⟨blob, found⟩ := r
    rw [prepareLocked_enroll hread (Or.inr hforce), run_bind_ok hread, enroll_eq]

/-- A commit is a refresh, followed by its write. -/
theorem commitLocked_eq (s : Session) (k : Limbs) (w : World Disk) :
    commitLocked s k w = (refreshment s k >>= finishCommit s) w := by
  unfold commitLocked refreshment
  simp only [bind_assoc]
  refine run_bind_congr fun _ w₁ _ => run_bind_congr fun r w₂ _ => ?_
  obtain ⟨current, found⟩ := r
  dsimp only
  split
  · rfl
  · refine run_bind_congr fun r w₃ _ => ?_
    cases r with
    | none => rfl
    | some blob => rfl

/-- The operation comes to its helper write, and the failure strikes there, behind `os.replace`: only
    the `chmod` is missing. -/
def StruckBehindReplace (d : Dir) : Operation → Prop
  | .prepare o collected source faults => o.forceReenroll = true ∧
      ∃ p w, reenrollment o collected (d.world source faults) = .ok p w ∧ w.store.fault = .after
  | .commit s source faults => ∃ k blob w, s.key = some k ∧ s.committed = false ∧
      refreshment s k (d.world source faults) = .ok (some blob) w ∧ w.store.fault = .after

/-- Up to its helper write a forced `prepare` has made at most a secret. -/
theorem reenrollment_ensures (o : Options) (collected : Dict Str) (w : World Disk) :
    Ensures (reenrollment o collected) w
      (fun p w' => SecretMade w.store.dir w'.store.dir ∧ p.key.Reduced)
      (fun _ w' => SecretMade w.store.dir w'.store.dir) := by
  -- nothing is written but the secret, if there is none yet
  refine Ensures.bind (Q := fun M w' => w' = w ∧ str "slstore" ∈ M) (Ensures.lift
    (fun M hM => ⟨rfl, requestedMandatory_slstore hM⟩) fun _ _ => Or.inl rfl) fun M w₁ hM => ?_
  obtain ⟨rfl, hreq⟩ := hM
  refine Ensures.bind (Q := fun _ w' => w' = w₁) (Ensures.lift (fun _ _ => rfl) fun _ _ => Or.inl rfl)
    fun nf w₂ hw₂ => ?_
  subst hw₂
  refine Ensures.bind ((onStore_ensures (acquire_ensures w₂.store)).mono (fun _ _ h => h)
    fun _ _ h => Or.inl (by rw [h]; rfl)) fun _ w₃ hlock => ?_
  refine Ensures.bind ((onStore_ensures (readHelper_ensures deviceHelperId w₃.store)).mono
    (fun _ _ h => h.1) fun _ _ h => Or.inl (by rw [h, hlock]; rfl)) fun _ w₄ hread => ?_
  -- neither the lock nor the read of the stored helper changes the directory
  have hdir : w₄.store.dir = w₂.store.dir := by
    rw [hread, hlock]
    rfl
  rw [← hdir]
  refine Ensures.bind ((withSlstore_ensures nf w₄).mono (fun _ _ h => h) fun _ _ h => h)
    fun raw w₅ hraw => ?_
  refine (onSource_ensures fun p d' (hp : deal _ _ _ = .ok p d') => deal_eq_ok hreq hp).mono ?_ ?_
  · rintro p w' ⟨⟨-, -, hdealt⟩, hw'⟩
    rw [hw']
    exact ⟨hraw.1, hdealt.reduced⟩
  · intro _ w' hw'
    rw [hw']
    exact hraw.1

/-- Up to its helper write a commit has written nothing. -/
theorem refreshment_ensures (s : Session) (k : Limbs) (w : World Disk) :
    Ensures (refreshment s k) w (fun _ w' => w'.store.dir = w.store.dir)
      (fun _ w' => w'.store.dir = w.store.dir) := by
  refine Ensures.bind ((onStore_ensures (acquire_ensures w.store)).mono (fun _ _ h => h)
    fun _ _ h => by rw [h]; rfl) fun _ w₁ hlock => ?_
  refine Ensures.bind ((onStore_ensures (readHelper_ensures deviceHelperId w₁.store)).mono
    (fun _ _ h => h.1) fun _ _ h => by rw [h, hlock]; rfl) fun r w₂ hread => ?_
  obtain ⟨current, found⟩ := r
  have hdir : w₂.store.dir = w.store.dir := by
    rw [hread, hlock]
    rfl
  dsimp only
  split
  · exact hdir
  · refine (onSource_ensures (Q := fun _ => True) fun _ _ _ => trivial).mono ?_ ?_
    · rintro _ w' ⟨-, hw'⟩
      rw [hw']
      exact hdir
    · intro _ w' hw'
      rw [hw']
      exact hdir

/-- **What the condition leaves out has reached the defect**: an operation that is struck so breaks off
    with another helper in place. -/
theorem struck_replaces {d : Dir} {op : Operation} (h : StruckBehindReplace d op) :
    ∃ d₁ blob, BreaksOff d (d₁.write deviceFile blob) op ∧ SecretMade d d₁ := by
  have hwritten : ∀ (w : World Disk) (blob : Bytes), w.store.fault = .after →
      (onStore (Store.writeHelper deviceHelperId blob) : Prog Disk Unit) w =
        .error ioError ⟨⟨w.store.dir.write deviceFile blob, w.store.next.faults⟩, w.source⟩ := by
    intro w blob hfault
    refine onStore_error ((writeFile_run deviceFile blob w.store).trans ?_)
    rw [hfault]
  cases op with
  | prepare o collected source faults =>
    obtain ⟨hforce, p, w, hdeal, hfault⟩ := h
    refine ⟨w.store.dir, p.blob,
      ⟨ioError, ⟨⟨w.store.dir.write deviceFile p.blob, w.store.next.faults⟩, w.source⟩, ?_, rfl⟩,
      ((reenrollment_ensures o collected _).of_ok hdeal).1⟩
    rw [prepareWith_reenrolls hforce, run_bind_ok hdeal, finishEnroll, run_bind, hwritten w p.blob hfault]
  | commit s source faults =>
    obtain ⟨k, blob, w, hkey, hopen, hrefresh, hfault⟩ := h
    refine ⟨w.store.dir, blob, ⟨k, ioError,
      ⟨⟨w.store.dir.write deviceFile blob, w.store.next.faults⟩, w.source⟩, hkey, hopen, ?_, rfl⟩,
      Or.inl ((refreshment_ensures s k _).of_ok hrefresh)⟩
    rw [commitLocked_eq, run_bind_ok hrefresh, finishCommit, run_bind, hwritten w blob hfault]

end Hashing

/-! ## Re-enrolling the sample machine -/

end Bedrock.Slhwid
