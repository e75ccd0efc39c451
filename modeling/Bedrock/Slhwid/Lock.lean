/-
  `slhwid/_store.py`: `_acquire_lock`, its release, and who is inside.

  1. **Processes** — `Pc` is where a process stands between two file-system steps: the exclusive
     create, the write of the contents, the read of `_read_lock`, the liveness or age check, and the
     two halves of `_remove_if_unchanged`, a read and an unlink.  Any step may fail with `OSError`
     (`LockAction.fail`), and a process may crash anywhere, leaving its lock file behind.

  2. **Files** — a lock file holds nothing until its creator has written header, PID and token.
     `gen` and `owner` are history variables: which file this is, and who created it; the code can
     see neither.  A PID is reported dead, and an unreadable lock is past its grace, only when the
     process behind it has crashed; tokens are never drawn twice.

  3. **The defect** — the unlink removes whatever is at the path by then.  Two waiters that saw the
     same stale lock interleave with a third process's create, and the second unlink removes the
     lock of a live holder (`two_holders`).

  4. **The guarantee** — `at_most_one_holder`: in every run in which each reclaiming unlink meets the
     very file its process had read in `_read_lock`, or none, at most one process is inside.  The
     invariant is that whoever is inside owns the file at the path (`Fits`).
-/
import Bedrock.Lib.Transition

open Lib.Transition

namespace Bedrock.Slhwid

/-! ## States -/

variable {Pid Token : Type}

/-- The contents of a lock file: nothing yet, or `SLHwidLockV1`, the PID and the token, a line each. -/
inductive LockText (Pid Token : Type)
  /-- Created, not written yet. -/
  | empty
  /-- Written by its owner. -/
  | entry (pid : Pid) (token : Token)
  deriving DecidableEq

/-- The PID `_read_lock` finds in the contents. -/
def LockText.pid : LockText Pid Token → Option Pid
  | .empty => none
  | .entry pid _ => some pid

/-- The file at the path: its number among all created ones, who created it, and its contents. -/
structure LockFile (Pid Token : Type) where
  /-- Ghost: its number. -/
  gen : Nat
  /-- Ghost: who created it. -/
  owner : Pid
  /-- What a read returns. -/
  text : LockText Pid Token

/-- What `_read_lock` returned, and of which file. -/
structure Seen (Pid Token : Type) where
  text : LockText Pid Token
  gen : Nat

/-- Where a process stands; `token` is the one it drew for this acquisition. -/
inductive Pc (Pid Token : Type)
  /-- Not in the protocol. -/
  | outside
  /-- At the exclusive create. -/
  | creating (token : Token)
  /-- At the write into the new file. -/
  | created (token : Token) (gen : Nat)
  /-- Inside. -/
  | held (token : Token)
  /-- At `_read_lock`. -/
  | checking (token : Token)
  /-- At the test whether the lock it saw is stale. -/
  | judging (token : Token) (seen : Seen Pid Token)
  /-- At the deadline and the pause. -/
  | waiting (token : Token)
  /-- In `_remove_if_unchanged`, at the comparison .. -/
  | comparing (token : Token) (seen : Seen Pid Token)
  /-- .. and behind it, at the unlink. -/
  | unlinking (token : Token) (seen : Seen Pid Token)
  /-- At the comparison of the release .. -/
  | releasing (token : Token)
  /-- .. and at its unlink. -/
  | unlinkingOwn (token : Token)
  /-- Dead. -/
  | crashed

/-- The processes, the file at the path, the next file's number, and the tokens drawn. -/
structure LockSys (Pid Token : Type) where
  /-- Where each process stands. -/
  procs : Pid → Pc Pid Token
  /-- The file at the path. -/
  file : Option (LockFile Pid Token)
  /-- The number the next file gets. -/
  next : Nat
  /-- The tokens drawn so far. -/
  used : List Token

/-- A process is inside from the return of `_acquire_lock` until its release has removed the file. -/
def Pc.holds : Pc Pid Token → Bool
  | .held _ | .releasing _ | .unlinkingOwn _ => true
  | _ => false

/-- The process has died and takes no further step. -/
def Pc.isCrashed : Pc Pid Token → Bool
  | .crashed => true
  | _ => false

/-! ## Steps -/

/-- `start`: the call of `_acquire_lock`.  `go`: the process's next step; `verdict` is what the
    outside decides there (is the PID dead, is the grace over, is the deadline passed).  `fail`: that
    step raises `OSError`.  `release`: the call of the release. -/
inductive LockAction (Pid Token : Type)
  /-- A process calls `_acquire_lock`. -/
  | start (p : Pid) (token : Token)
  /-- It takes its next step. -/
  | go (p : Pid) (verdict : Bool)
  /-- Its next step raises `OSError`. -/
  | fail (p : Pid)
  /-- It calls the release. -/
  | release (p : Pid)
  /-- It dies. -/
  | crash (p : Pid)

section Step

variable [DecidableEq Pid]

/-- Process `p` moves to `pc`. -/
def LockSys.set (s : LockSys Pid Token) (p : Pid) (pc : Pc Pid Token) : LockSys Pid Token :=
  { s with procs := Function.update s.procs p pc }

/-- `os.unlink` by path, whichever file is there. -/
def LockSys.unlink (s : LockSys Pid Token) : LockSys Pid Token := { s with file := none }

/-- `os.open` with `O_CREAT | O_EXCL`, where nothing is at the path. -/
def LockSys.create (s : LockSys Pid Token) (p : Pid) : LockSys Pid Token :=
  { s with file := some ⟨s.next, p, .empty⟩, next := s.next + 1 }

/-- The write through the descriptor of file `gen`: seen at the path only while that file is there. -/
def LockSys.write (s : LockSys Pid Token) (gen : Nat) (text : LockText Pid Token) :
    LockSys Pid Token :=
  { s with file := s.file.map fun f => if f.gen = gen then { f with text := text } else f }

/-- Is the lock stale?  The PID is not alive, or the file at the path is past its grace. -/
def LockSys.stale (s : LockSys Pid Token) (text : LockText Pid Token) (verdict : Bool) : Bool :=
  match text.pid with
  | some pid => verdict && (s.procs pid).isCrashed
  | none =>
    match s.file with
    | some f => verdict && (s.procs f.owner).isCrashed
    | none => false

/-- The next step of a process in its own time. -/
def LockSys.go [DecidableEq Token] (s : LockSys Pid Token) (p : Pid) (verdict : Bool) : LockSys Pid Token :=
  match s.procs p with
  -- the exclusive create: only one process can find the path free
  | .creating token =>
    match s.file with
    | none => (s.create p).set p (.created token s.next)
    | some _ => s.set p (.checking token)
  | .created token gen => (s.write gen (.entry p token)).set p (.held token)
  -- `_read_lock`, and then the judgement on what it returned: the file may be another one by then
  | .checking token =>
    match s.file with
    | none => s.set p (.waiting token)
    | some f => s.set p (.judging token ⟨f.text, f.gen⟩)
  | .judging token seen =>
    s.set p (if s.stale seen.text verdict then .comparing token seen else .waiting token)
  | .waiting token => s.set p (if verdict then .outside else .creating token)
  -- `_remove_if_unchanged`: the comparison, and only then the unlink, which is by path
  | .comparing token seen =>
    match s.file with
    | none => s.set p (.creating token)
    | some f => s.set p (if f.text = seen.text then .unlinking token seen else .creating token)
  | .unlinking token _ => s.unlink.set p (.creating token)
  -- the release: an own file goes, whatever else is there stays
  | .releasing token =>
    match s.file with
    | none => s.set p .outside
    | some f => s.set p (if f.text = .entry p token then .unlinkingOwn token else .outside)
  | .unlinkingOwn _ => s.unlink.set p .outside
  | .outside | .held _ | .crashed => s

/-- Where a process goes on when its next step raises `OSError`. -/
def Pc.failed (pc : Pc Pid Token) : Pc Pid Token :=
  match pc with
  | .creating _ | .created .. => .outside
  | .checking token => .waiting token
  | .judging token seen => if seen.text.pid = none then .waiting token else .judging token seen
  | .comparing token _ | .unlinking token _ => .creating token
  | .releasing _ | .unlinkingOwn _ => .outside
  | pc => pc

/-- The call of `_acquire_lock`, with a token that was never drawn before. -/
def LockSys.start [DecidableEq Token] (s : LockSys Pid Token) (p : Pid) (token : Token) :
    LockSys Pid Token :=
  match s.procs p with
  | .outside =>
    if token ∈ s.used then s
    else LockSys.set { s with used := token :: s.used } p (.creating token)
  | _ => s

/-- The call of the release. -/
def LockSys.release (s : LockSys Pid Token) (p : Pid) : LockSys Pid Token :=
  match s.procs p with
  | .held token => s.set p (.releasing token)
  | _ => s

/-- One step of one process, or of the machine it runs on. -/
def lockStep [DecidableEq Token] (s : LockSys Pid Token) : LockAction Pid Token → LockSys Pid Token
  | .start p token => s.start p token
  | .go p verdict => s.go p verdict
  | .fail p => s.set p (s.procs p).failed
  | .release p => s.release p
  | .crash p => s.set p .crashed

end Step

/-- Nobody is in `_acquire_lock`; a file at the path was left behind by a process that crashed. -/
structure LockInitial (s : LockSys Pid Token) : Prop where
  /-- Nobody is in the protocol. -/
  idle : ∀ p, s.procs p = .outside ∨ s.procs p = .crashed
  /-- A file at the path is a dead process's. -/
  file : ∀ f, s.file = some f → f.gen < s.next ∧ s.procs f.owner = .crashed ∧
    ∀ pid, f.text.pid = some pid → pid = f.owner

/-! ## The invariant -/

/-- The process has created a file and not given it up. -/
def Pc.claims : Pc Pid Token → Bool
  | .created .. | .held _ | .releasing _ | .unlinkingOwn _ => true
  | _ => false

/-- The file a process has open for writing. -/
def Pc.opened : Pc Pid Token → Option Nat
  | .created _ gen => some gen
  | _ => none

/-- The lock a process has read and not yet dealt with. -/
def Pc.seen : Pc Pid Token → Option (Seen Pid Token)
  | .judging _ seen | .comparing _ seen | .unlinking _ seen => some seen
  | _ => none

/-- The lock a process is about to remove as stale. -/
def Pc.condemned : Pc Pid Token → Option (Seen Pid Token)
  | .comparing _ seen | .unlinking _ seen => some seen
  | _ => none

/-- Process `p` may stand at `pc`: a file it claims is the one at the path; a lock it has read names
    that file's creator; a lock it condemns is not that of a process which is still there. -/
structure Fits (s : LockSys Pid Token) (p : Pid) (pc : Pc Pid Token) : Prop where
  /-- Who holds the lock, or has just created it, owns the file at the path. -/
  claims : pc.claims = true → ∃ f, s.file = some f ∧ f.owner = p ∧ ∀ gen, pc.opened = some gen → f.gen = gen
  /-- What was read of a file names its owner. -/
  seen : ∀ seen, pc.seen = some seen → seen.gen < s.next ∧ ∀ f, s.file = some f → f.gen = seen.gen →
    ∀ pid, seen.text.pid = some pid → pid = f.owner
  /-- A file that was judged stale is a dead process's. -/
  condemned : ∀ seen, pc.condemned = some seen → ∀ f, s.file = some f → f.gen = seen.gen →
    s.procs f.owner = .crashed

/-- The invariant of the lock: file numbers are fresh, a PID in a file is its creator's, and every
    process stands where it may. -/
structure LockSys.Inv (s : LockSys Pid Token) : Prop where
  /-- No file has the number of a later one. -/
  gen_lt : ∀ f, s.file = some f → f.gen < s.next
  /-- The PID in the file is its owner's. -/
  text : ∀ f, s.file = some f → ∀ pid, f.text.pid = some pid → pid = f.owner
  fits : ∀ p, Fits s p (s.procs p)

/-- A process that claims no file and has read no lock may stand anywhere. -/
theorem Fits.of_plain (s : LockSys Pid Token) (p : Pid) {pc : Pc Pid Token} (hclaims : pc.claims = false)
    (hseen : pc.seen = none) (hcond : pc.condemned = none) : Fits s p pc where
  claims := fun h => by rw [hclaims] at h; cases h
  seen := fun seen h => by rw [hseen] at h; cases h
  condemned := fun seen h => by rw [hcond] at h; cases h

/-- It holds before the first step. -/
theorem LockInitial.inv {s : LockSys Pid Token} (h : LockInitial s) : s.Inv where
  gen_lt := fun f hf => (h.file f hf).1
  text := fun f hf => (h.file f hf).2.2
  fits := fun p => by
    rcases h.idle p with hp | hp
    · rw [hp]; exact Fits.of_plain s p rfl rfl rfl
    · rw [hp]; exact Fits.of_plain s p rfl rfl rfl

/-- A condemned reading is one the process has made. -/
theorem Pc.seen_of_condemned {pc : Pc Pid Token} {seen : Seen Pid Token}
    (h : pc.condemned = some seen) : pc.seen = some seen := by
  cases pc with
  | comparing _ _ => exact h
  | unlinking _ _ => exact h
  | _ => cases h

/-- Where a process may stand depends on which file is at the path, on the numbers given out, and on
    who has crashed. -/
theorem Fits.mono {s s' : LockSys Pid Token} {p : Pid} {pc : Pc Pid Token} (h : Fits s p pc)
    (hnext : s'.next = s.next)
    (hfile : ∀ f, s.file = some f → ∃ f', s'.file = some f' ∧ f'.gen = f.gen ∧ f'.owner = f.owner)
    (hfile' : ∀ f', s'.file = some f' → ∃ f, s.file = some f ∧ f'.gen = f.gen ∧ f'.owner = f.owner)
    (hcrashed : ∀ q, s.procs q = .crashed → s'.procs q = .crashed) : Fits s' p pc where
  claims := fun hc => by
    obtain ⟨f, hf, howner, hgen⟩ := h.claims hc
    obtain ⟨f', hf', hg, ho⟩ := hfile f hf
    exact ⟨f', hf', ho.trans howner, fun gen hopen => hg.trans (hgen gen hopen)⟩
  seen := fun seen hs => by
    obtain ⟨hlt, howner⟩ := h.seen seen hs
    refine ⟨by rw [hnext]; exact hlt, fun f' hf' hgen pid hpid => ?_⟩
    obtain ⟨f, hf, hg, ho⟩ := hfile' f' hf'
    rw [ho]
    exact howner f hf (hg.symm.trans hgen) pid hpid
  condemned := fun seen hs f' hf' hgen => by
    obtain ⟨f, hf, hg, ho⟩ := hfile' f' hf'
    rw [ho]
    exact hcrashed _ (h.condemned seen hs f hf (hg.symm.trans hgen))

/-- **The path is free**: then nobody claims a file. -/
theorem LockSys.Inv.claims_of_none {s : LockSys Pid Token} (hs : s.Inv) (hfile : s.file = none) (q : Pid) :
    (s.procs q).claims = false := by
  rw [← Bool.not_eq_true]
  intro hclaims
  obtain ⟨f, hf, _⟩ := (hs.fits q).claims hclaims
  rw [hfile] at hf
  cases hf

/-- **Only its owner claims a file.** -/
theorem LockSys.Inv.claims_eq {s : LockSys Pid Token} (hs : s.Inv) {p q : Pid}
    (hp : (s.procs p).claims = true) (hq : (s.procs q).claims = true) : p = q := by
  obtain ⟨f, hf, hfp, _⟩ := (hs.fits p).claims hp
  obtain ⟨f', hf', hfq, _⟩ := (hs.fits q).claims hq
  obtain rfl := Option.some.inj (hf.symm.trans hf')
  exact hfp.symm.trans hfq

/-! ## One step -/

section Step

variable [DecidableEq Pid]

theorem LockSys.set_self (s : LockSys Pid Token) (p : Pid) (pc : Pc Pid Token) :
    (s.set p pc).procs p = pc := by
  show Function.update s.procs p pc p = pc
  rw [Function.update_self]

theorem LockSys.set_other (s : LockSys Pid Token) {p q : Pid} (h : q ≠ p) (pc : Pc Pid Token) :
    (s.set p pc).procs q = s.procs q := by
  show Function.update s.procs p pc q = s.procs q
  rw [Function.update_of_ne h]

/-- A crashed process stays crashed when another moves, or when it does not wake up. -/
theorem LockSys.crashed_set {s : LockSys Pid Token} {p q : Pid} {pc : Pc Pid Token}
    (hp : s.procs p = .crashed → pc = .crashed) (hq : s.procs q = .crashed) :
    (s.set p pc).procs q = .crashed := by
  by_cases h : q = p
  · subst h
    rw [LockSys.set_self]
    exact hp hq
  · rw [LockSys.set_other s h]
    exact hq

/-- **One process moves**, the file stays. -/
theorem LockSys.Inv.set {s : LockSys Pid Token} (hs : s.Inv) {p : Pid} {pc : Pc Pid Token}
    (hfit : Fits s p pc) (hp : s.procs p = .crashed → pc = .crashed) : (s.set p pc).Inv where
  gen_lt := hs.gen_lt
  text := hs.text
  fits := fun q => by
    have hkeep : ∀ {q pc'}, Fits s q pc' → Fits (s.set p pc) q pc' := fun h =>
      h.mono rfl (fun f hf => ⟨f, hf, rfl, rfl⟩) (fun f hf => ⟨f, hf, rfl, rfl⟩)
        fun _ hq => LockSys.crashed_set hp hq
    by_cases hq : q = p
    · subst hq
      rw [LockSys.set_self]
      exact hkeep hfit
    · rw [LockSys.set_other s hq]
      exact hkeep (hs.fits q)

/-- **A file is removed** that no process but `p` claims. -/
theorem LockSys.Inv.unlink {s : LockSys Pid Token} (hs : s.Inv) {p : Pid} {pc : Pc Pid Token}
    (halone : ∀ q, q ≠ p → (s.procs q).claims = false) (hfit : ∀ s' : LockSys Pid Token, Fits s' p pc) :
    (s.unlink.set p pc).Inv where
  gen_lt := fun f hf => by cases hf
  text := fun f hf => by cases hf
  fits := fun q => by
    by_cases hq : q = p
    · subst hq
      rw [LockSys.set_self]
      exact hfit _
    · rw [LockSys.set_other _ hq]
      refine ⟨fun hc => ?_, fun seen hsn => ⟨((hs.fits q).seen seen hsn).1, fun f hf => ?_⟩,
        fun seen _ f hf => ?_⟩
      · have hno := halone q hq
        rw [show (s.unlink.procs q).claims = (s.procs q).claims from rfl, hno] at hc
        cases hc
      · cases hf
      · cases hf

/-- **A file is created** where none was. -/
theorem LockSys.Inv.create {s : LockSys Pid Token} (hs : s.Inv) (hfile : s.file = none) {p : Pid}
    (token : Token) : ((s.create p).set p (.created token s.next)).Inv where
  gen_lt := fun f hf => by
    obtain rfl := Option.some.inj hf
    exact Nat.lt_succ_self s.next
  text := fun f hf pid hpid => by
    obtain rfl := Option.some.inj hf
    cases hpid
  fits := fun q => by
    by_cases hq : q = p
    · subst hq
      rw [LockSys.set_self]
      refine ⟨fun _ => ⟨_, rfl, rfl, fun gen hgen => Option.some.inj hgen⟩, fun seen hsn => ?_,
        fun seen hsn => ?_⟩
      · cases hsn
      · cases hsn
    · rw [LockSys.set_other _ hq]
      -- the new file has a number that nobody has seen
      have hnew : ∀ seen, (s.procs q).seen = some seen → s.next ≠ seen.gen := fun seen hsn =>
        Nat.ne_of_gt ((hs.fits q).seen seen hsn).1
      refine ⟨fun hc => ?_, fun seen hsn => ⟨?_, fun f hf hgen => ?_⟩, fun seen hsn f hf hgen => ?_⟩
      · have hno := hs.claims_of_none hfile q
        rw [show ((s.create p).procs q).claims = (s.procs q).claims from rfl, hno] at hc
        cases hc
      · exact Nat.lt_succ_of_lt ((hs.fits q).seen seen hsn).1
      · obtain rfl := Option.some.inj hf
        exact absurd hgen (hnew seen hsn)
      · obtain rfl := Option.some.inj hf
        exact absurd hgen (hnew seen (Pc.seen_of_condemned hsn))

/-- **The creator writes** into the file it has open, which is still the one at the path. -/
theorem LockSys.Inv.write {s : LockSys Pid Token} (hs : s.Inv) {p : Pid} {token : Token} {gen : Nat}
    (hp : s.procs p = .created token gen) :
    ((s.write gen (.entry p token)).set p (.held token)).Inv := by
  -- the file the process has created is still the one at the path
  obtain ⟨f, hf, howner, hopen⟩ := (hs.fits p).claims (by rw [hp]; rfl)
  have hgen : f.gen = gen := hopen gen (by rw [hp]; rfl)
  have hfile : (s.write gen (.entry p token)).file = some { f with text := .entry p token } := by
    show s.file.map _ = _
    rw [hf, Option.map_some, if_pos hgen]
  have hwritten : (s.write gen (.entry p token)).Inv := {
    gen_lt := fun f' hf' => by
      obtain rfl := Option.some.inj (hfile.symm.trans hf')
      exact hs.gen_lt f hf
    text := fun f' hf' pid hpid => by
      obtain rfl := Option.some.inj (hfile.symm.trans hf')
      exact (Option.some.inj hpid).symm.trans howner.symm
    -- the others see the same file with another text
    fits := fun q => (hs.fits q).mono rfl
      (fun f₀ hf₀ => by
        obtain rfl := Option.some.inj (hf.symm.trans hf₀)
        exact ⟨_, hfile, rfl, rfl⟩)
      (fun f' hf' => by
        obtain rfl := Option.some.inj (hfile.symm.trans hf')
        exact ⟨f, hf, rfl, rfl⟩)
      (fun _ h => h) }
  refine hwritten.set ⟨fun _ => ⟨_, hfile, howner, fun gen hgen => ?_⟩, fun seen hsn => ?_,
    fun seen hsn => ?_⟩ fun hcrashed => ?_
  · cases hgen
  · cases hsn
  · cases hsn
  · have hcrashed' : s.procs p = .crashed := hcrashed
    rw [hp] at hcrashed'
    cases hcrashed'

/-- Inside `_acquire_lock` without a file and without a lock it has read, or gone. -/
theorem LockSys.Inv.set_plain {s : LockSys Pid Token} (hs : s.Inv) {p : Pid} {pc : Pc Pid Token}
    (hclaims : pc.claims = false) (hseen : pc.seen = none) (hcond : pc.condemned = none)
    (hp : s.procs p = .crashed → pc = .crashed) : (s.set p pc).Inv :=
  hs.set (Fits.of_plain s p hclaims hseen hcond) hp

omit [DecidableEq Pid] in
/-- What is judged stale is the lock of a crashed process, or not at the path any more. -/
theorem LockSys.Inv.condemned_of_stale {s : LockSys Pid Token} (hs : s.Inv) {p : Pid} {token : Token}
    {seen : Seen Pid Token} (hp : s.procs p = .judging token seen) {verdict : Bool}
    (hstale : s.stale seen.text verdict = true) {f : LockFile Pid Token} (hf : s.file = some f)
    (hgen : f.gen = seen.gen) : s.procs f.owner = .crashed := by
  have hcrashed : ∀ {pc : Pc Pid Token}, pc.isCrashed = true → pc = .crashed := by
    intro pc h
    cases pc with
    | crashed => rfl
    | _ => cases h
  have howner := ((hs.fits p).seen seen (by rw [hp]; rfl)).2 f hf hgen
  unfold LockSys.stale at hstale
  cases hpid : seen.text.pid with
  | some pid =>
    rw [hpid] at hstale
    rw [← howner pid hpid]
    exact hcrashed (Bool.and_eq_true _ _ ▸ hstale).2
  | none =>
    rw [hpid, hf] at hstale
    exact hcrashed (Bool.and_eq_true _ _ ▸ hstale).2

/-- A reclaiming unlink meets the very file its process had read in `_read_lock`, or none. -/
def Undisturbed (s : LockSys Pid Token) (a : LockAction Pid Token) : Prop :=
  match a with
  | .go p _ =>
    match s.procs p with
    | .unlinking _ seen => ∀ f, s.file = some f → f.gen = seen.gen
    | _ => True
  | _ => True

/-- **A process's own step** keeps the invariant. -/
theorem LockSys.Inv.go [DecidableEq Token] {s : LockSys Pid Token} (hs : s.Inv) {p : Pid} {verdict : Bool}
    (hok : Undisturbed s (.go p verdict)) : (s.go p verdict).Inv := by
  have hfit := hs.fits p
  have hnot : ∀ {pc pc' : Pc Pid Token}, s.procs p = pc → pc.isCrashed = false →
      s.procs p = .crashed → pc' = .crashed := fun hpc hc hcr => by
    rw [hpc] at hcr
    rw [hcr] at hc
    cases hc
  unfold LockSys.go
  cases hp : s.procs p with
  | creating token =>
    cases hfile : s.file with
    | none => exact hs.create hfile token
    | some f => exact hs.set_plain rfl rfl rfl (hnot hp rfl)
  | created token gen => exact hs.write hp
  | checking token =>
    cases hfile : s.file with
    | none => exact hs.set_plain rfl rfl rfl (hnot hp rfl)
    | some f =>
      refine hs.set ⟨fun hc => ?_, fun seen hsn => ?_, fun seen hsn => ?_⟩ (hnot hp rfl)
      · cases hc
      · obtain rfl := Option.some.inj hsn
        refine ⟨hs.gen_lt f hfile, fun f' hf' _ pid hpid => ?_⟩
        obtain rfl := Option.some.inj (hfile.symm.trans hf')
        exact hs.text f hfile pid hpid
      · cases hsn
  | judging token seen =>
    rw [hp] at hfit
    dsimp only
    by_cases hstale : s.stale seen.text verdict = true
    · rw [if_pos hstale]
      refine hs.set ⟨fun hc => ?_, hfit.seen, fun seen' hsn f hf hgen => ?_⟩ (hnot hp rfl)
      · cases hc
      · obtain rfl := Option.some.inj hsn
        exact hs.condemned_of_stale hp hstale hf hgen
    · rw [if_neg hstale]
      exact hs.set_plain rfl rfl rfl (hnot hp rfl)
  | waiting token =>
    cases verdict with
    | true => exact hs.set_plain rfl rfl rfl (hnot hp rfl)
    | false => exact hs.set_plain rfl rfl rfl (hnot hp rfl)
  | comparing token seen =>
    rw [hp] at hfit
    cases hfile : s.file with
    | none => exact hs.set_plain rfl rfl rfl (hnot hp rfl)
    | some f =>
      dsimp only
      by_cases htext : f.text = seen.text
      · rw [if_pos htext]
        refine hs.set ⟨fun hc => ?_, hfit.seen, hfit.condemned⟩ (hnot hp rfl)
        cases hc
      · rw [if_neg htext]
        exact hs.set_plain rfl rfl rfl (hnot hp rfl)
  | unlinking token seen =>
    rw [hp] at hfit
    refine hs.unlink (fun q hq => ?_) fun s' => Fits.of_plain s' p rfl rfl rfl
    -- whoever claims the file at the path has crashed, so nobody does
    rw [← Bool.not_eq_true]
    intro hclaims
    obtain ⟨f, hf, howner, _⟩ := (hs.fits q).claims hclaims
    have hgen : f.gen = seen.gen := by
      have hcond := hok
      unfold Undisturbed at hcond
      dsimp only at hcond
      rw [hp] at hcond
      exact hcond f hf
    rw [← howner, hfit.condemned seen rfl f hf hgen] at hclaims
    cases hclaims
  | releasing token =>
    rw [hp] at hfit
    cases hfile : s.file with
    | none => exact hs.set_plain rfl rfl rfl (hnot hp rfl)
    | some f =>
      dsimp only
      by_cases htext : f.text = .entry p token
      · rw [if_pos htext]
        refine hs.set ⟨fun _ => ?_, fun seen hsn => ?_, fun seen hsn => ?_⟩ (hnot hp rfl)
        · exact hfit.claims rfl
        · cases hsn
        · cases hsn
      · rw [if_neg htext]
        exact hs.set_plain rfl rfl rfl (hnot hp rfl)
  | unlinkingOwn token =>
    refine hs.unlink (fun q hq => ?_) fun s' => Fits.of_plain s' p rfl rfl rfl
    rw [← Bool.not_eq_true]
    intro hclaims
    exact hq (hs.claims_eq hclaims (by rw [hp]; rfl))
  | outside => exact hs
  | held token => exact hs
  | crashed => exact hs

/-- **A failing step** gives up the file, or leaves everything as it was. -/
theorem LockSys.Inv.fail {s : LockSys Pid Token} (hs : s.Inv) (p : Pid) :
    (s.set p (s.procs p).failed).Inv := by
  have hfit := hs.fits p
  cases hp : s.procs p with
  | judging token seen =>
    rw [hp] at hfit
    by_cases hpid : seen.text.pid = none
    · rw [show (Pc.judging token seen).failed = .waiting token from if_pos hpid]
      exact hs.set_plain rfl rfl rfl fun hc => by rw [hp] at hc; cases hc
    · rw [show (Pc.judging token seen).failed = .judging token seen from if_neg hpid]
      exact hs.set hfit fun hc => by rw [hp] at hc; cases hc
  | held token =>
    rw [hp] at hfit
    exact hs.set hfit fun hc => by rw [hp] at hc; cases hc
  | crashed => exact hs.set_plain rfl rfl rfl fun _ => rfl
  | _ => exact hs.set_plain rfl rfl rfl fun hc => by rw [hp] at hc; cases hc

/-- Starting an acquisition keeps the invariant. -/
theorem LockSys.Inv.start [DecidableEq Token] {s : LockSys Pid Token} (hs : s.Inv) (p : Pid)
    (token : Token) : (s.start p token).Inv := by
  unfold LockSys.start
  cases hp : s.procs p with
  | outside =>
    dsimp only
    by_cases hused : token ∈ s.used
    · rw [if_pos hused]
      exact hs
    · rw [if_neg hused]
      have hdrawn : LockSys.Inv { s with used := token :: s.used } := ⟨hs.gen_lt, hs.text,
        fun q => (hs.fits q).mono rfl (fun f hf => ⟨f, hf, rfl, rfl⟩) (fun f hf => ⟨f, hf, rfl, rfl⟩)
          fun _ h => h⟩
      refine hdrawn.set (Fits.of_plain _ p rfl rfl rfl) fun hc => ?_
      have hc' : s.procs p = .crashed := hc
      rw [hp] at hc'
      cases hc'
  | _ => exact hs

/-- So does starting a release. -/
theorem LockSys.Inv.release {s : LockSys Pid Token} (hs : s.Inv) (p : Pid) : (s.release p).Inv := by
  have hfit := hs.fits p
  unfold LockSys.release
  cases hp : s.procs p with
  | held token =>
    rw [hp] at hfit
    refine hs.set ⟨fun _ => ?_, fun seen hsn => ?_, fun seen hsn => ?_⟩ fun hc => ?_
    · exact hfit.claims rfl
    · cases hsn
    · cases hsn
    · rw [hp] at hc; cases hc
  | _ => exact hs

/-- **Every step keeps the invariant**, if reclaiming unlinks are undisturbed. -/
theorem LockSys.Inv.step [DecidableEq Token] {s : LockSys Pid Token} (hs : s.Inv)
    {a : LockAction Pid Token} (hok : Undisturbed s a) : (lockStep s a).Inv := by
  cases a with
  | start p token => exact hs.start p token
  | go p verdict => exact hs.go hok
  | fail p => exact hs.fail p
  | release p => exact hs.release p
  | crash p => exact hs.set_plain rfl rfl rfl fun _ => rfl

/-! ## Whole runs -/

/-- **Mutual exclusion of the store lock**: in every run, by any number of processes, whose reclaiming
    unlinks are all undisturbed, at most one process is inside at any time. -/
theorem at_most_one_holder [DecidableEq Token] {s₀ : LockSys Pid Token} (h₀ : LockInitial s₀)
    {acts : List (LockAction Pid Token)} (hun : Along lockStep Undisturbed s₀ acts) (p q : Pid)
    (hp : ((run lockStep s₀ acts).procs p).holds = true)
    (hq : ((run lockStep s₀ acts).procs q).holds = true) : p = q := by
  have hinv : (run lockStep s₀ acts).Inv := Along.inv (fun _ _ hs hok => hs.step hok) hun h₀.inv
  have hclaims : ∀ {pc : Pc Pid Token}, pc.holds = true → pc.claims = true := by
    intro pc h
    cases pc with
    | held _ => rfl
    | releasing _ => rfl
    | unlinkingOwn _ => rfl
    | _ => cases h
  exact hinv.claims_eq (hclaims hp) (hclaims hq)

end Step

/-! ## Three processes -/

/-- Nobody there, nothing at the path. -/
def lockEmpty : LockSys Nat Nat := ⟨fun _ => .outside, none, 0, []⟩

theorem lockEmpty_initial : LockInitial lockEmpty := ⟨fun _ => Or.inl rfl, fun _ hf => by cases hf⟩

/-- Process `p` runs `n` steps; the PIDs it checks are dead if they can be. -/
def goes (p n : Nat) : List (LockAction Nat Nat) := List.replicate n (.go p true)

/-- Process 1 crashes inside.  Processes 2 and 3 both read its lock, find it dead, and compare; then 2
    removes it, creates and writes its own. -/
def reclaimTwice : List (LockAction Nat Nat) :=
  [.start 1 10] ++ goes 1 2 ++ [.crash 1, .start 2 20, .start 3 30] ++ goes 2 4 ++ goes 3 4 ++ goes 2 3

/-- **Two holders**: when process 3 goes on from there, it removes the lock of process 2, and both are
    inside. -/
theorem two_holders :
    LockInitial lockEmpty ∧ ∃ acts, ((run lockStep lockEmpty acts).procs 2).holds = true ∧
      ((run lockStep lockEmpty acts).procs 3).holds = true :=
  ⟨lockEmpty_initial, reclaimTwice ++ goes 3 3, by decide, by decide⟩

/-- Where process 2 alone reclaims the lock that process 1 left behind, it is alone inside. -/
theorem at_most_one_holder_sample : ∃! p, ((run lockStep lockEmpty ([.start 1 10] ++ goes 1 2 ++
    [.crash 1, .start 2 20] ++ goes 2 7)).procs p).holds = true := by
  have hun : Along lockStep Undisturbed lockEmpty
      ([.start 1 10] ++ goes 1 2 ++ [.crash 1, .start 2 20] ++ goes 2 7) := by
    refine ⟨trivial, trivial, trivial, trivial, trivial, trivial, trivial, trivial, trivial, ?_, trivial,
      trivial, trivial⟩
    intro f hf
    obtain rfl := Option.some.inj hf
    rfl
  have htwo : ((run lockStep lockEmpty ([.start 1 10] ++ goes 1 2 ++
      [.crash 1, .start 2 20] ++ goes 2 7)).procs 2).holds = true := by decide
  exact ⟨2, htwo, fun p hp => at_most_one_holder lockEmpty_initial hun p 2 hp htwo⟩

end Bedrock.Slhwid
