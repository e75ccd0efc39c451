/-
  `slhwid/_store.py`: what `_acquire_lock` makes of the file it finds.

  1. **Host** — how the platform answers the liveness probe, `os.kill(pid, 0)` or `OpenProcess`.  The
     probe takes a PID of limited size: `os.kill` raises `OverflowError` for one that is no `pid_t`,
     `ctypes` its `ArgumentError` for one that is no 32-bit word.

  2. **Path** — `LockPath` is what is at the path of the lock file, the two clocks, and two scripts:
     how much longer than asked the next sleeps last and where the wall clock then stands, and which
     of the next file operations fail with `OSError`.  The script of failures is finite; a directory
     that refuses the removal of a stale file for ever keeps the loop going for ever.  Nobody else
     touches the path here: see `Slhwid/Lock.lean` for processes that interleave.

  3. **Passes** — `lockPass_ensures` says once what a pass of the loop can do.  `verdict` is what a
     file is found to be at an instant, stale or not; it may raise, and only this can escape.

  4. **Runs** — `acquireLock_ensures`: where the verdict on a file never raises, the call returns with
     the lock at an instant at which the file was stale, or raises `OSError`; `acquireLock_escapes`:
     where it raises, so does the call.  `Acquired.release` is the way out of the `with` block.
-/
import Bedrock.Lib.Loop
import Bedrock.Python.Text
import Bedrock.Slhwid.Lock
import Bedrock.Slhwid.Store

open Lib.Fallible Lib.Loop Bedrock.Python

namespace Bedrock.Slhwid

/-! ## The host -/

/-- What `os.kill(pid, 0)` does: return, or raise `PermissionError` or another `OSError`. -/
inductive KillOutcome
  | delivered | denied | failed
  deriving DecidableEq, Repr

/-- What `OpenProcess` does: no handle and an error code, or a handle and the exit code that
    `GetExitCodeProcess` reports for it, if it does. -/
inductive OpenOutcome
  | refused (lastError : Nat)
  | opened (exitCode : Option Nat)
  deriving DecidableEq, Repr

/-- `os.name == "nt"`, and the two probes: of which process, and when. -/
structure Host where
  /-- `os.name == "nt"`. -/
  windows : Bool
  /-- What `os.kill(pid, 0)` comes to at this time. -/
  kill : Nat → Nat → KillOutcome
  /-- What `OpenProcess` comes to at this time. -/
  openProcess : Nat → Nat → OpenOutcome

/-- The first PID the probe has no room for. -/
def Host.pidLimit (host : Host) : Nat := if host.windows then 2 ^ 32 else 2 ^ 31

/-- `_process_is_alive`. -/
def processIsAlive (host : Host) (now : Nat) : Option Nat → Except Exc Bool
  | none => .ok false
  | some pid =>
    if pid = 0 then .ok false
    else if host.windows then
      if pid ≥ 2 ^ 32 then .error .argumentError
      else
        match host.openProcess now pid with
        | .refused lastError => .ok (lastError == 5)
        | .opened none => .ok true
        | .opened (some exitCode) => .ok (exitCode == 259)
    else if pid ≥ 2 ^ 31 then .error .overflowError
    else
      match host.kill now pid with
      | .delivered | .denied => .ok true
      | .failed => .ok false

/-- **The probe answers exactly for the PIDs it has room for.** -/
theorem processIsAlive_cases (host : Host) (now pid : Nat) :
    (pid < host.pidLimit ∧ ∃ alive, processIsAlive host now (some pid) = .ok alive) ∨
    (host.pidLimit ≤ pid ∧ processIsAlive host now (some pid) =
      .error (if host.windows then .argumentError else .overflowError)) := by
  unfold Host.pidLimit
  -- a PID of zero is dead without a probe
  by_cases hzero : pid = 0
  · refine Or.inl ⟨by split <;> omega, false, if_pos hzero⟩
  rw [processIsAlive, if_neg hzero]
  by_cases hwin : host.windows = true
  · -- the limit is that of the argument, 32 bits on Windows and 31 elsewhere
    rw [if_pos hwin, if_pos hwin, if_pos hwin]
    by_cases hbig : pid ≥ 2 ^ 32
    · exact Or.inr ⟨hbig, if_pos hbig⟩
    · rw [if_neg hbig]
      refine Or.inl ⟨Nat.lt_of_not_le hbig, ?_⟩
      rcases host.openProcess now pid with _ | _ | _
      · exact ⟨_, rfl⟩
      · exact ⟨_, rfl⟩
      · exact ⟨_, rfl⟩
  · rw [if_neg hwin, if_neg hwin, if_neg hwin]
    by_cases hbig : pid ≥ 2 ^ 31
    · exact Or.inr ⟨hbig, if_pos hbig⟩
    · rw [if_neg hbig]
      refine Or.inl ⟨Nat.lt_of_not_le hbig, ?_⟩
      cases host.kill now pid with
      | delivered => exact ⟨_, rfl⟩
      | denied => exact ⟨_, rfl⟩
      | failed => exact ⟨_, rfl⟩

/-! ## The path -/

/-- A file at the path, and its `st_mtime`. -/
structure LockEntry where
  bytes : Bytes
  mtime : Int
  deriving DecidableEq

/-- What one process has to do with: the file, `time.monotonic()` and `time.time()` in nanoseconds,
    and the scripts. -/
structure LockPath where
  /-- The file at the path. -/
  file : Option LockEntry
  /-- `time.monotonic()`. -/
  now : Nat
  /-- `time.time()`. -/
  wall : Int
  /-- How late the next sleeps wake, and the wall clock then. -/
  sleeps : List (Nat × Int)
  /-- Which of the next operations on the file fail. -/
  faults : List Bool
  deriving DecidableEq

/-- A step of the protocol runs on the lock's path and may raise. -/
abbrev LockM := EStateM Exc LockPath

/-- Does the next operation on the file system fail? -/
def strike : LockM Bool := fun d =>
  match d.faults with
  | [] => .ok false d
  | f :: faults => .ok f { d with faults := faults }

/-- `time.sleep`: never shorter than asked. -/
def sleepFor (asked : Nat) : LockM Unit := fun d =>
  match d.sleeps with
  | [] => .ok () { d with now := d.now + asked, wall := d.wall + asked }
  | (late, wall) :: sleeps => .ok () { d with now := d.now + asked + late, wall := wall, sleeps := sleeps }

/-! ## The program -/

/-- Times are counted in nanoseconds. -/
def second : Nat := 1000000000

/-- `_LOCK_HEADER`. -/
def lockHeader : Str := str "SLHwidLockV1"

/-- `_LOCK_WAIT_SECONDS`. -/
def lockWait : Nat := 30 * second

/-- `_UNKNOWN_LOCK_GRACE_SECONDS`. -/
def unknownLockGrace : Nat := 120 * second

/-- The `0.05` between two tries. -/
def lockPause : Nat := 50000000

/-- The contents a process writes into its lock: header, PID and token, a line each. -/
def lockContents (pid : Nat) (token : Bytes) : Str :=
  lockHeader ++ 10 :: (str (toString pid) ++ 10 :: (hexStr token ++ 10 :: []))

/-- What an `OSError` of the lock's own operations is raised as. -/
def cannotAcquire : Exc := .osError [.lit "slhwid: cannot acquire storage lock: ", .lit "I/O error"]

/-- What a wait over the deadline raises. -/
def storageBusy : Exc := .osError [.lit "slhwid: storage is busy; retry the operation"]

/-- `os.makedirs`. -/
def makeDirectory : LockM Unit := do
  if ← strike then throw ioError

/-- The exclusive create and the write of the contents; `False` is `FileExistsError`. -/
def createLock (host : Host) (contents : Str) : LockM Bool := do
  if ← strike then throw cannotAcquire
  let d ← get
  if d.file.isSome then return false
  set { d with file := some ⟨[], d.wall⟩ }
  if ← strike then throw cannotAcquire
  let bytes ← lift (writeText host.windows contents)
  modify fun d => { d with file := some ⟨bytes, d.wall⟩ }
  return true

/-- `_remove_if_unchanged`. -/
def removeIfUnchanged (expected : Str) : LockM Unit := do
  if ← strike then return
  match (← get).file with
  | none => return
  | some f =>
    let contents ← lift (readText f.bytes)
    if contents = expected then
      if ← strike then return
      modify fun d => { d with file := none }

/-- Is a lock with this PID stale? -/
def isStale (host : Host) (pid : Option Nat) : LockM Bool := do
  match pid with
  | some pid => return !(← lift (processIsAlive host (← get).now (some pid)))
  | none =>
    if ← strike then return false
    let d ← get
    match d.file with
    | none => return false
    | some f => return decide (unknownLockGrace ≤ d.wall - f.mtime)

section Digits

variable [DigitTables]

/-- The PID in the text of a lock, if it has the three lines. -/
def lockPid (contents : Str) : Except Exc (Option Nat) :=
  match splitlines contents with
  | [header, pid, token] =>
    if header = lockHeader ∧ isdigit pid ∧ token ≠ [] then do return some (← toInt pid)
    else .ok none
  | _ => .ok none

/-- What `_read_lock` makes of the bytes of the file: its text, and the PID in it. -/
def lockReading (b : Bytes) : Except Exc (Str × Option Nat) := do
  let contents ← readText b
  let pid ← lockPid contents
  return (contents, pid)

/-- `_read_lock`: nothing there, or the text and the PID, neither of them if the read failed. -/
def readLock : LockM (Option (Option Str × Option Nat)) := do
  if ← strike then return some (none, none)
  match (← get).file with
  | none => return none
  | some f =>
    let (contents, pid) ← lift (lockReading f.bytes)
    return some (some contents, pid)

/-- The handler of `FileExistsError`: was the lock stale, so that the loop tries again at once? -/
def reclaim (host : Host) : LockM Bool := do
  match ← readLock with
  | some (some expected, pid) =>
    if ← isStale host pid then
      removeIfUnchanged expected
      return true
    else return false
  | _ => return false

/-- One pass of the loop of `_acquire_lock`. -/
def lockPass (host : Host) (contents : Str) (deadline : Nat) : LockM (Option Str) := do
  if ← createLock host contents then return some contents
  if ← reclaim host then return none
  if deadline ≤ (← get).now then throw storageBusy
  sleepFor lockPause
  return none

/-- As many passes as the loop can take: a failure each, the removal of one file, and the pauses of
    the wait. -/
def LockPath.passes (d : LockPath) : Nat := d.faults.length + 602

/-- `_acquire_lock`: the contents by which the release knows its lock.  The passes are never used up,
    which is part of `acquireLock_ensures`. -/
def acquireLock (host : Host) (pid : Nat) (token : Bytes) : LockM Str := do
  makeDirectory
  let d ← get
  match ← forever (lockPass host (lockContents pid token) (d.now + lockWait)) d.passes with
  | some contents => return contents
  | none => throw .recursionError

/-- What a lock with this PID is found to be at an instant, when no operation fails: stale or not. -/
def staleness (host : Host) (f : LockEntry) (now : Nat) (wall : Int) : Option Nat → Except Exc Bool
  | some pid => do return !(← processIsAlive host now (some pid))
  | none => .ok (decide (unknownLockGrace ≤ wall - f.mtime))

/-- The same of the file `f`, whatever is in it. -/
def verdict (host : Host) (f : LockEntry) (now : Nat) (wall : Int) : Except Exc Bool := do
  let r ← lockReading f.bytes
  staleness host f now wall r.2

theorem verdict_of_reading (host : Host) {f : LockEntry} (now : Nat) (wall : Int) {contents : Str}
    {pid : Option Nat} (h : lockReading f.bytes = .ok (contents, pid)) :
    verdict host f now wall = staleness host f now wall pid := by
  rw [verdict, h, ok_bind]

end Digits

/-! ## Effects -/

/-- The next operation fails. -/
def LockPath.struck (d : LockPath) : Bool := d.faults.headD false

/-- One entry of the script of failures is used up. -/
def LockPath.next (d : LockPath) : LockPath := { d with faults := d.faults.tail }

/-- A strike reads the first entry of the script and uses it up. -/
theorem strike_run (d : LockPath) : strike d = .ok d.struck d.next := by
  obtain ⟨file, now, wall, sleeps, faults⟩ := d
  cases faults with
  | nil => rfl
  | cons f fs => rfl

/-- A failure shortens the script, which is what the retries terminate on. -/
theorem LockPath.length_next_lt {d : LockPath} (h : d.struck = true) :
    d.next.faults.length < d.faults.length := by
  obtain ⟨file, now, wall, sleeps, faults⟩ := d
  cases faults with
  | nil => cases h
  | cons f fs => exact Nat.lt_succ_self fs.length

theorem LockPath.faults_ne_nil {d : LockPath} (h : d.struck = true) : d.faults ≠ [] := by
  intro hnil
  rw [LockPath.struck, hnil] at h
  cases h

/-- No time has passed from `d` to `d'`, and the failures of `d'` are the last ones of `d`. -/
structure SameInstant (d d' : LockPath) : Prop where
  /-- No time passes .. -/
  now : d'.now = d.now
  /-- .. on either clock. -/
  wall : d'.wall = d.wall
  /-- Only faults are used up. -/
  faults : d'.faults <:+ d.faults

theorem SameInstant.refl (d : LockPath) : SameInstant d d := ⟨rfl, rfl, List.suffix_rfl⟩

theorem SameInstant.next (d : LockPath) : SameInstant d d.next := ⟨rfl, rfl, List.tail_suffix _⟩

theorem SameInstant.trans {d d' d'' : LockPath} (h : SameInstant d d') (h' : SameInstant d' d'') :
    SameInstant d d'' :=
  ⟨h'.now.trans h.now, h'.wall.trans h.wall, h'.faults.trans h.faults⟩

/-- A removal with the text of the file takes it away, unless one of its two operations fails. -/
theorem removeIfUnchanged_run {d : LockPath} {f : LockEntry} (hf : d.file = some f) {text : Str}
    (htext : readText f.bytes = .ok text) :
    removeIfUnchanged text d = .ok () (if d.struck then d.next else if d.next.struck then d.next.next
      else { d.next.next with file := none }) := by
  refine (run_bind_ok (strike_run d) _).trans ?_
  cases d.struck with
  | true => rfl
  | false =>
    have hf' : d.next.file = some f := hf
    rw [if_neg (by decide), if_neg (by decide)]
    refine (run_bind_ok (run_get d.next) _).trans ?_
    rw [hf']
    refine (run_bind_ok (lift_eq_ok.mpr ⟨htext, rfl⟩) _).trans ?_
    rw [if_pos rfl]
    refine (run_bind_ok (strike_run d.next) _).trans ?_
    cases d.next.struck with
    | true => rfl
    | false => rfl

/-- With a PID in it, a lock is stale if the process is not alive. -/
theorem isStale_known (host : Host) (pid : Nat) (d : LockPath) :
    isStale host (some pid) d =
      match processIsAlive host d.now (some pid) with
      | .ok alive => .ok (!alive) d
      | .error e => .error e d := by
  refine (run_bind_ok (run_get d) _).trans ?_
  cases halive : processIsAlive host d.now (some pid) with
  | ok alive => rfl
  | error e => rfl

/-- Without one, a lock that is there is stale at its age, if that can be had. -/
theorem isStale_unknown (host : Host) {d : LockPath} {f : LockEntry} (hf : d.file = some f) :
    isStale host none d =
      .ok (!d.struck && decide (unknownLockGrace ≤ d.wall - f.mtime)) d.next := by
  refine (run_bind_ok (strike_run d) _).trans ?_
  cases d.struck with
  | true => rfl
  | false =>
    have hf' : d.next.file = some f := hf
    rw [if_neg (by decide)]
    refine (run_bind_ok (run_get d.next) _).trans ?_
    rw [hf']
    rfl

/-- The check of a file that is there says what it is found to be, or no because an operation
    failed. -/
theorem isStale_ensures (host : Host) {d : LockPath} {f : LockEntry} (hf : d.file = some f)
    (pid : Option Nat) :
    Ensures (isStale host pid) d
      (fun stale d' => SameInstant d d' ∧ d'.file = some f ∧
        (staleness host f d.now d.wall pid = .ok stale ∨ (stale = false ∧ d.faults ≠ [])))
      (fun e _ => staleness host f d.now d.wall pid = .error e) := by
  unfold Ensures
  cases pid with
  | some pid =>
    rw [isStale_known, staleness]
    cases processIsAlive host d.now (some pid) with
    | ok alive => exact ⟨SameInstant.refl d, hf, Or.inl rfl⟩
    | error e => rfl
  | none =>
    rw [isStale_unknown host hf]
    cases hs : d.struck with
    | true => exact ⟨SameInstant.next d, hf, Or.inr ⟨rfl, LockPath.faults_ne_nil hs⟩⟩
    | false => exact ⟨SameInstant.next d, hf, Or.inl rfl⟩

section Digits

variable [DigitTables]

/-- The read of a file that is there: its text and PID, unless the operation fails. -/
theorem readLock_ensures {d : LockPath} {f : LockEntry} (hf : d.file = some f) :
    Ensures readLock d
      (fun r d' => d' = d.next ∧ ((d.struck = true ∧ r = some (none, none)) ∨
        ∃ contents pid, lockReading f.bytes = .ok (contents, pid) ∧ r = some (some contents, pid)))
      (fun e _ => lockReading f.bytes = .error e) := by
  unfold readLock
  refine Ensures.bind_ok (strike_run d) ?_
  cases hs : d.struck with
  | true => exact ⟨rfl, Or.inl ⟨rfl, rfl⟩⟩
  | false =>
    rw [if_neg (by decide)]
    refine Ensures.bind_ok (run_get d.next) ?_
    have hf' : d.next.file = some f := hf
    rw [hf']
    refine Ensures.bind (Ensures.lift (Q := fun r d' => lockReading f.bytes = .ok r ∧ d' = d.next)
      (fun r hr => ⟨hr, rfl⟩) fun e he => he) fun r d' hr => ?_
    obtain ⟨hr, rfl⟩ := hr
    exact ⟨rfl, Or.inr ⟨r.1, r.2, hr, rfl⟩⟩

/-- **The handler of `FileExistsError`**: the file is found stale, and then it is gone or a failure
    is used up, or it stays; what escapes is what its verdict raises. -/
theorem reclaim_ensures (host : Host) {d : LockPath} {f : LockEntry} (hf : d.file = some f) :
    Ensures (reclaim host) d
      (fun again d' => SameInstant d d' ∧
        if again then verdict host f d.now d.wall = .ok true ∧
          (d'.file = none ∨ (d'.file = some f ∧ d'.faults.length < d.faults.length))
        else d'.file = some f ∧ (verdict host f d.now d.wall = .ok false ∨ d.faults ≠ []))
      (fun e _ => verdict host f d.now d.wall = .error e) := by
  refine Ensures.bind ((readLock_ensures hf).mono (fun _ _ h => h) fun e _ he => ?_) fun r d' h => ?_
  · rw [verdict, he]
    rfl
  -- the lock could not be read, or it was
  obtain ⟨rfl, ⟨hs, rfl⟩ | ⟨contents, pid, hreading, rfl⟩⟩ := h
  · exact ⟨SameInstant.next d, hf, Or.inr (LockPath.faults_ne_nil hs)⟩
  have htext : readText f.bytes = .ok contents := by
    obtain ⟨text, htext, h⟩ := bind_eq_ok.mp hreading
    obtain ⟨_, _, h⟩ := bind_eq_ok.mp h
    rw [htext, (Prod.mk.inj (Except.ok.inj h)).1]
  rw [verdict_of_reading host d.now d.wall hreading]
  refine Ensures.bind ((isStale_ensures host (d := d.next) hf pid).mono (fun _ _ h => h)
    fun _ _ he => he) fun stale d₁ h => ?_
  obtain ⟨hsame, hfile, hstale⟩ := h
  have hsame := (SameInstant.next d).trans hsame
  -- a lock that is not stale stays; the source then waits
  cases stale with
  | false =>
    refine ⟨hsame, hfile, hstale.imp id fun h hnil => h.2 ?_⟩
    show d.faults.tail = []
    rw [hnil]
    rfl
  | true =>
    have hstale := hstale.resolve_right fun h => by cases h.1
    rw [if_pos rfl]
    refine Ensures.bind (Q := fun _ d' => SameInstant d d' ∧
      (d'.file = none ∨ (d'.file = some f ∧ d'.faults.length < d.faults.length))) ?_
      fun _ d' h => ⟨h.1, hstale, h.2⟩
    -- a removal that fails costs an entry of the script, and the source tries again
    have hle := hsame.faults.length_le
    unfold Ensures
    rw [removeIfUnchanged_run hfile htext]
    cases hs : d₁.struck with
    | true =>
      have hlt := LockPath.length_next_lt hs
      exact ⟨hsame.trans (SameInstant.next d₁), Or.inr ⟨hfile, by
        show d₁.next.faults.length < d.faults.length
        omega⟩⟩
    | false =>
      have hnext := (SameInstant.next d₁).trans (SameInstant.next d₁.next)
      rw [if_neg (by decide)]
      cases hs' : d₁.next.struck with
      | true =>
        have hlt := LockPath.length_next_lt hs'
        have hle' := (SameInstant.next d₁).faults.length_le
        exact ⟨hsame.trans hnext, Or.inr ⟨hfile, by
          show d₁.next.next.faults.length < d.faults.length
          omega⟩⟩
      | false => exact ⟨hsame.trans ⟨rfl, rfl, hnext.faults⟩, Or.inl rfl⟩

end Digits

/-- Making the directory leaves the lock alone, and raises only on a failure. -/
theorem makeDirectory_ensures (d : LockPath) :
    Ensures makeDirectory d (fun _ d' => d' = d.next) (fun e _ => e = ioError ∧ d.faults ≠ []) := by
  unfold makeDirectory
  refine Ensures.bind_ok (strike_run d) ?_
  cases hs : d.struck with
  | true => exact ⟨rfl, LockPath.faults_ne_nil hs⟩
  | false => rfl

/-- Every outcome of the exclusive create, with the file it leaves at the path. -/
theorem createLock_run (host : Host) {contents : Str} {b : Bytes}
    (hb : writeText host.windows contents = .ok b) (d : LockPath) :
    createLock host contents d =
      if d.struck then .error cannotAcquire d.next
      else if d.file.isSome then .ok false d.next
      else if d.next.struck then .error cannotAcquire { d.next.next with file := some ⟨[], d.wall⟩ }
      else .ok true { d.next.next with file := some ⟨b, d.wall⟩ } := by
  refine (run_bind_ok (strike_run d) _).trans ?_
  cases d.struck with
  | true => rfl
  | false =>
    rw [if_neg (by decide), if_neg (by decide)]
    refine (run_bind_ok (run_get d.next) _).trans ?_
    have hsame : d.next.file = d.file := rfl
    rw [hsame]
    cases d.file with
    | some f => rfl
    | none =>
      -- the new file does not change what happens to the write
      let made : LockPath := { d.next with file := some ⟨[], d.wall⟩ }
      refine (run_bind_ok (strike_run made) _).trans ?_
      have hstruck : made.struck = d.next.struck := rfl
      rw [hstruck]
      cases d.next.struck with
      | true => rfl
      | false => exact run_bind_ok (lift_eq_ok.mpr ⟨hb, rfl⟩) _

/-- The exclusive create: where nothing is, the lock is made; a file that is there stays. -/
theorem createLock_ensures (host : Host) {contents : Str} {b : Bytes}
    (hb : writeText host.windows contents = .ok b) (d : LockPath) :
    Ensures (createLock host contents) d
      (fun made d' => SameInstant d d' ∧
        if made then d.file = none ∧ d'.file = some ⟨b, d.wall⟩
        else d.file.isSome = true ∧ d'.file = d.file)
      (fun e _ => e = cannotAcquire ∧ d.faults ≠ []) := by
  unfold Ensures
  rw [createLock_run host hb]
  have hnext := (SameInstant.next d).trans (SameInstant.next d.next)
  -- the create fails, the path is taken, or the lock is made and written
  cases hs : d.struck with
  | true => exact ⟨rfl, LockPath.faults_ne_nil hs⟩
  | false =>
    rw [if_neg (by decide)]
    cases hfile : d.file with
    | some f => exact ⟨SameInstant.next d, rfl, hfile⟩
    -- between create and write the file is empty
    | none =>
      rw [if_neg (by decide)]
      cases hs' : d.next.struck with
      | true =>
        refine ⟨rfl, fun hnil => LockPath.faults_ne_nil hs' ?_⟩
        show d.faults.tail = []
        rw [hnil]
        rfl
      | false => exact ⟨⟨rfl, rfl, hnext.faults⟩, rfl, rfl⟩

section Digits

variable [DigitTables]

omit [DigitTables] in
/-- A sleep touches no file and lasts at least as long as asked. -/
theorem sleepFor_ensures (asked : Nat) (d : LockPath) :
    Ensures (sleepFor asked) d
      (fun _ d' => d'.file = d.file ∧ d'.faults = d.faults ∧ d.now + asked ≤ d'.now)
      (fun _ _ => False) := by
  unfold Ensures sleepFor
  cases d.sleeps with
  | nil => exact ⟨rfl, rfl, Nat.le_refl _⟩
  | cons s sleeps => exact ⟨rfl, rfl, Nat.le_add_right _ _⟩

/-- **One pass**: the lock is made where nothing was; a stale file goes, or a failure is used up; a
    pause goes by; or the pass raises `OSError`, or what the verdict on the file raises. -/
theorem lockPass_ensures (host : Host) {contents : Str} {b : Bytes}
    (hb : writeText host.windows contents = .ok b) (deadline : Nat) (d : LockPath) :
    Ensures (lockPass host contents deadline) d
      (fun r d' => match r with
        | some c => c = contents ∧ d.file = none ∧ SameInstant d d' ∧ d'.file = some ⟨b, d.wall⟩
        | none => ∃ f, d.file = some f ∧
          ((SameInstant d d' ∧ verdict host f d.now d.wall = .ok true ∧
              (d'.file = none ∨ (d'.file = some f ∧ d'.faults.length < d.faults.length))) ∨
            (d'.file = some f ∧ d'.faults <:+ d.faults ∧ d.now < deadline ∧
              d.now + lockPause ≤ d'.now ∧
              (verdict host f d.now d.wall = .ok false ∨ d.faults ≠ []))))
      (fun e d' => (e = cannotAcquire ∧ d.faults ≠ []) ∨
        ∃ f, d.file = some f ∧ (verdict host f d.now d.wall = .error e ∨
          (e = storageBusy ∧ SameInstant d d' ∧ d'.file = some f ∧
            (verdict host f d.now d.wall = .ok false ∨ d.faults ≠ [])))) := by
  refine Ensures.bind ((createLock_ensures host hb d).mono (fun _ _ h => h) fun _ _ h => Or.inl h)
    fun made d₁ h => ?_
  obtain ⟨hsame, h⟩ := h
  -- the pass ends with the lock, with a stale file judged, or in a pause
  cases made with
  | true =>
    rw [if_pos rfl] at h ⊢
    exact ⟨rfl, h.1, hsame, h.2⟩
  | false =>
    rw [if_neg (by decide)] at h ⊢
    obtain ⟨f, hf⟩ := Option.isSome_iff_exists.mp h.1
    have hf₁ : d₁.file = some f := h.2.trans hf
    have hreclaim := reclaim_ensures host hf₁
    rw [hsame.now, hsame.wall] at hreclaim
    refine Ensures.bind (hreclaim.mono (fun _ _ h => h) fun _ _ he => Or.inr ⟨f, hf, Or.inl he⟩)
      fun again d₂ h => ?_
    obtain ⟨hsame₂, h⟩ := h
    have hle := hsame.faults.length_le
    have hsame₂ := hsame.trans hsame₂
    -- the source goes round at once after a stale file
    cases again with
    | true =>
      rw [if_pos rfl] at h ⊢
      exact ⟨f, hf, Or.inl ⟨hsame₂, h.1, h.2.imp id fun h => ⟨h.1, by omega⟩⟩⟩
    | false =>
      rw [if_neg (by decide)] at h ⊢
      obtain ⟨hf₂, hverdict⟩ := h
      have hquiet : verdict host f d.now d.wall = .ok false ∨ d.faults ≠ [] :=
        hverdict.imp id fun h hnil => h (List.suffix_nil.mp (hnil ▸ hsame.faults))
      refine Ensures.bind_ok (run_get d₂) ?_
      -- the deadline is looked at only after a lock that is not stale
      by_cases hdeadline : deadline ≤ d₂.now
      · rw [if_pos hdeadline]
        exact Or.inr ⟨f, hf, Or.inr ⟨rfl, hsame₂, hf₂, hquiet⟩⟩
      · rw [if_neg hdeadline]
        refine Ensures.bind ((sleepFor_ensures lockPause d₂).mono (fun _ _ h => h) fun _ _ h => h.elim)
          fun _ d₃ h => ?_
        have hnow := hsame₂.now
        exact ⟨f, hf, Or.inr ⟨h.1.trans hf₂, h.2.1 ▸ hsame₂.faults, by omega, by omega, hquiet⟩⟩

/-! ## Runs -/

omit [DigitTables] in
/-- The three lines of a lock are printable ASCII. -/
theorem lockContents_plain (pid : Nat) (token : Bytes) :
    IsPlain lockHeader ∧ IsPlain (str (toString pid)) ∧ IsPlain (hexStr token) := by
  refine ⟨by decide +kernel, fun c hc => ?_, isPlain_hexStr token⟩
  have hdigit := isAsciiDigit_iff.mp (List.all_eq_true.mp (all_isAsciiDigit_toString pid) c hc)
  omega

omit [DigitTables] in
/-- What a process writes into its lock is read back. -/
theorem lockContents_written (windows : Bool) (pid : Nat) (token : Bytes) :
    ∃ b, writeText windows (lockContents pid token) = .ok b ∧
      readText b = .ok (lockContents pid token) := by
  obtain ⟨hheader, hpid, htoken⟩ := lockContents_plain pid token
  -- header, PID and token are printable ASCII, so the file is read as it was written
  have hchars : ∀ c ∈ lockContents pid token, c = 10 ∨ (32 ≤ c.val ∧ c.val < 127) := by
    intro c hc
    rcases List.mem_append.mp hc with hc | hc
    · exact Or.inr (hheader c hc)
    rcases List.mem_cons.mp hc with rfl | hc
    · exact Or.inl rfl
    rcases List.mem_append.mp hc with hc | hc
    · exact Or.inr (hpid c hc)
    rcases List.mem_cons.mp hc with rfl | hc
    · exact Or.inl rfl
    rcases List.mem_append.mp hc with hc | hc
    · exact Or.inr (htoken c hc)
    · exact Or.inl (List.mem_singleton.mp hc)
  refine readText_writeText windows (fun c hc => ?_) fun hcr => ?_
  · rw [isSurrogate, Bool.and_eq_false_iff, decide_eq_false_iff_not]
    rcases hchars c hc with rfl | h
    · exact Or.inl (by decide)
    · exact Or.inl (by omega)
  · rcases hchars 13 hcr with h | h
    · exact absurd h (by decide)
    · exact absurd h.1 (by decide)

/-- The three lines, with a PID line that passes the test: the number is converted. -/
theorem lockPid_accepted {contents pid token : Str} (hlines : splitlines contents = [lockHeader, pid, token])
    (hpid : isdigit pid = true) (htoken : token ≠ []) :
    lockPid contents = (toInt pid >>= fun n => .ok (some n)) := by
  rw [lockPid, hlines]
  exact if_pos ⟨rfl, hpid, htoken⟩

/-- Everything else is a lock of an unknown owner. -/
theorem lockPid_unknown {contents : Str} (h : ¬ ∃ pid token, splitlines contents =
    [lockHeader, pid, token] ∧ isdigit pid = true ∧ token ≠ []) : lockPid contents = .ok none := by
  unfold lockPid
  split
  · rename_i header pid token hlines
    refine if_neg fun hc => h ⟨pid, token, ?_, hc.2⟩
    rw [hlines, hc.1]
  · rfl

omit [DigitTables] in
/-- The contents a process writes are three lines: header, PID, token. -/
theorem splitlines_lockContents (pid : Nat) (token : Bytes) :
    splitlines (lockContents pid token) = [lockHeader, str (toString pid), hexStr token] := by
  obtain ⟨hheader, hpid, htoken⟩ := lockContents_plain pid token
  rw [lockContents, splitlines_line hheader.noBreak, splitlines_line hpid.noBreak,
    splitlines_line htoken.noBreak]
  rfl

omit [DigitTables] in
/-- The text of a lock as `Slhwid/Lock.lean` has it. -/
def LockText.contents : LockText Nat Bytes → Str
  | .empty => []
  | .entry pid token => lockContents pid token

/-- **The PID of a lock text is what `_read_lock` finds in its contents.** -/
theorem lockPid_contents : ∀ text : LockText Nat Bytes,
    (∀ pid token, text = .entry pid token → pid < 2 ^ 32 ∧ token ≠ []) →
    lockPid text.contents = .ok text.pid := by
  intro text h
  cases text with
  | empty => rfl
  | entry pid token =>
    obtain ⟨hpid, htoken⟩ := h pid token rfl
    have hdigits := all_isAsciiDigit_toString pid
    have hlen : (str (toString pid)).length ≤ 10 := length_toString_le (by decide) (by omega)
    show lockPid (lockContents pid token) = .ok (some pid)
    rw [lockPid_accepted (splitlines_lockContents pid token) (isdigit_ascii (toString_ne_nil pid) hdigits)
      (fun hnil => htoken (hexStr_inj hnil)), toInt_ascii hdigits, if_neg (by omega), ok_bind,
      asciiValue_toString]

omit [DigitTables] in
/-- Two lock texts with the same contents are the same. -/
theorem LockText.contents_inj : ∀ {text text' : LockText Nat Bytes}, text.contents = text'.contents →
    text = text' := by
  intro text text' h
  have hne : ∀ pid token, lockContents pid token ≠ [] := fun pid token hnil => by
    have hlines := splitlines_lockContents pid token
    rw [hnil] at hlines
    cases hlines
  cases text with
  | empty =>
    cases text' with
    | empty => rfl
    | entry pid token => exact absurd h.symm (hne pid token)
  | entry pid token =>
    cases text' with
    | empty => exact absurd h (hne pid token)
    | entry pid' token' =>
      have hlines := congrArg splitlines h
      rw [LockText.contents, LockText.contents, splitlines_lockContents, splitlines_lockContents] at hlines
      obtain ⟨_, htail⟩ := List.cons.inj hlines
      obtain ⟨hpid, htail⟩ := List.cons.inj htail
      have hvalue := congrArg asciiValue hpid
      rw [asciiValue_toString, asciiValue_toString] at hvalue
      rw [hvalue, hexStr_inj (List.cons.inj htail).1]

omit [DigitTables] in
/-- The lock of a process is at the path, and the call has returned its contents. -/
structure Acquired (pid : Nat) (token : Bytes) (contents : Str) (d : LockPath) : Prop where
  /-- The contents are the process's own .. -/
  contents_eq : contents = lockContents pid token
  /-- .. and are in the file. -/
  file : ∃ f, d.file = some f ∧ readText f.bytes = .ok contents

omit [DigitTables] in
/-- **The release returns**, and takes the lock away unless it is kept from it. -/
theorem Acquired.release {pid : Nat} {token : Bytes} {contents : Str} {d : LockPath}
    (h : Acquired pid token contents d) :
    Ensures (removeIfUnchanged contents) d (fun _ d' => d.faults = [] → d'.file = none)
      (fun _ _ => False) := by
  obtain ⟨f, hf, htext⟩ := h.file
  unfold Ensures
  rw [removeIfUnchanged_run hf htext]
  intro hnil
  have hstruck : d.struck = false := by rw [LockPath.struck, hnil]; rfl
  have hnext : d.next.struck = false := by
    show d.faults.tail.headD false = false
    rw [hnil]
    rfl
  rw [hstruck, hnext]
  rfl

/-- What the loop has left before a deadline: failures, a file, and pauses. -/
def LockPath.passesLeft (deadline : Nat) (d : LockPath) : Nat :=
  d.faults.length + (if d.file.isSome then 1 else 0) + (deadline - d.now + (lockPause - 1)) / lockPause

omit [DigitTables] in
/-- A file that goes, or a failure that is used up, leaves less. -/
theorem LockPath.passesLeft_lt_gone {deadline : Nat} {s s' : LockPath} {f : LockEntry}
    (hf : s.file = some f) (hsame : SameInstant s s')
    (h : s'.file = none ∨ (s'.file = some f ∧ s'.faults.length < s.faults.length)) :
    s'.passesLeft deadline < s.passesLeft deadline := by
  have hle := hsame.faults.length_le
  rw [LockPath.passesLeft, LockPath.passesLeft, hsame.now, hf]
  rcases h with hnone | ⟨hsome, hlt⟩
  · rw [hnone]
    simp only [Option.isSome_some, Option.isSome_none, if_true, Bool.false_eq_true, if_false]
    omega
  · rw [hsome]
    omega

omit [DigitTables] in
/-- A pause before the deadline leaves less. -/
theorem LockPath.passesLeft_lt_slept {deadline : Nat} {s s' : LockPath} {f : LockEntry}
    (hf : s.file = some f) (hf' : s'.file = some f) (hfaults : s'.faults <:+ s.faults)
    (hbefore : s.now < deadline) (hslept : s.now + lockPause ≤ s'.now) :
    s'.passesLeft deadline < s.passesLeft deadline := by
  have hle := hfaults.length_le
  rw [lockPause] at hslept
  rw [LockPath.passesLeft, LockPath.passesLeft, hf, hf', lockPause]
  omega

/-- **The loop ends**, whatever it finds: it never goes round more often than it has left. -/
theorem lockLoop_ends (host : Host) {contents : Str} {b : Bytes}
    (hb : writeText host.windows contents = .ok b) (deadline : Nat) {n : Nat} {d : LockPath}
    (hn : d.passesLeft deadline < n) :
    ∀ d', forever (lockPass host contents deadline) n d ≠ .ok none d' := by
  have hends : Ensures (forever (lockPass host contents deadline) n) d
      (fun r _ => ∃ a, r = some a ∧ True) (fun _ _ => True) := by
    refine forever_ensures (I := fun _ => True) (μ := LockPath.passesLeft deadline)
      (Q := fun _ _ => True) (fun s _ => ?_) trivial hn
    refine (lockPass_ensures host hb deadline s).mono (fun r s' h => ?_) fun _ _ _ => trivial
    cases r with
    | some c => trivial
    | none =>
      obtain ⟨f, hf, ⟨hsame, _, hgone⟩ | ⟨hkept, hsuffix, hbefore, hslept, _⟩⟩ := h
      · exact ⟨trivial, LockPath.passesLeft_lt_gone hf hsame hgone⟩
      · exact ⟨trivial, LockPath.passesLeft_lt_slept hf hkept hsuffix hbefore hslept⟩
  intro d' hrun
  obtain ⟨a, ha, _⟩ := hends.of_ok hrun
  cases ha

omit [DigitTables] in
/-- The passes of an acquisition are enough for its whole wait. -/
theorem LockPath.passesLeft_lt_passes (d : LockPath) : d.passesLeft (d.now + lockWait) < d.passes := by
  have hwait : lockWait = 30000000000 := rfl
  have hfile : (if d.file.isSome then 1 else 0) ≤ 1 := by split <;> omega
  rw [LockPath.passesLeft, LockPath.passes, lockPause]
  omega

/-- **The passes do not matter**: a loop that may go round more often does the same. -/
theorem acquireLock_passes (host : Host) (pid : Nat) (token : Bytes) {d : LockPath} {n : Nat}
    (hn : d.passes ≤ n) :
    forever (lockPass host (lockContents pid token) (d.now + lockWait)) n d =
      forever (lockPass host (lockContents pid token) (d.now + lockWait)) d.passes d := by
  obtain ⟨b, hb, _⟩ := lockContents_written host.windows pid token
  exact forever_stable hn (lockLoop_ends host hb _ d.passesLeft_lt_passes)

/-- **A file whose verdict never raises**: the call returns with the lock at an instant at which the
    file is found stale, or raises `OSError`; without failures of its own, because the file is still
    there at the deadline and is not stale. -/
theorem acquireLock_ensures (host : Host) (pid : Nat) (token : Bytes) {d : LockPath} {f : LockEntry}
    (hf : d.file = some f) (hreads : ∀ now wall e, verdict host f now wall ≠ .error e) :
    Ensures (acquireLock host pid token) d
      (fun contents d' => Acquired pid token contents d' ∧ verdict host f d'.now d'.wall = .ok true)
      (fun e d' => e.isOSError = true ∧ (d.faults = [] → e = storageBusy ∧ d'.file = some f ∧
        verdict host f d'.now d'.wall = .ok false)) := by
  obtain ⟨b, hb, hread⟩ := lockContents_written host.windows pid token
  refine Ensures.bind ((makeDirectory_ensures d).mono (fun _ _ h => h) fun e _ h =>
    ⟨by rw [h.1]; rfl, fun hnil => absurd hnil h.2⟩) fun _ d₁ hd₁ => ?_
  refine Ensures.bind_ok (run_get d₁) ?_
  -- the file is as it was, or it has just been found stale and is gone
  let Inv : LockPath → Prop := fun s => s.faults <:+ d.faults ∧
    (s.file = some f ∨ (s.file = none ∧ verdict host f s.now s.wall = .ok true))
  refine Ensures.bind (forever_ensures (I := Inv) (μ := LockPath.passesLeft (d₁.now + lockWait))
    (Q := fun contents s => Acquired pid token contents s ∧
        verdict host f s.now s.wall = .ok true) ?_ ?_ ?_) fun r s h => ?_
  · intro s hs
    obtain ⟨hfaults, hfile⟩ := hs
    have honly : ∀ {g : LockEntry}, s.file = some g → g = f := by
      intro g hg
      rcases hfile with hfile | hfile
      · exact Option.some.inj (hg.symm.trans hfile)
      · rw [hfile.1] at hg; cases hg
    refine (lockPass_ensures host hb (d₁.now + lockWait) s).mono (fun r s' h => ?_) fun e s' h => ?_
    · cases r with
      | some c =>
        obtain ⟨rfl, hnone, hsame, hmade⟩ := h
        have hstale := (hfile.resolve_left (by rw [hnone]; exact fun h => nomatch h)).2
        exact ⟨⟨rfl, _, hmade, hread⟩, by rw [hsame.now, hsame.wall]; exact hstale⟩
      | none =>
        obtain ⟨g, hg, h⟩ := h
        obtain rfl := honly hg
        rcases h with ⟨hsame, hstale, hgone⟩ | ⟨hkept, hsuffix, hbefore, hslept, _⟩
        · refine ⟨⟨hsame.faults.trans hfaults, ?_⟩, LockPath.passesLeft_lt_gone hg hsame hgone⟩
          rw [hsame.now, hsame.wall]
          exact hgone.symm.imp (fun h => h.1) fun h => ⟨h, hstale⟩
        · exact ⟨⟨hsuffix.trans hfaults, Or.inl hkept⟩,
            LockPath.passesLeft_lt_slept hg hkept hsuffix hbefore hslept⟩
    · rcases h with ⟨rfl, hne⟩ | ⟨g, hg, h⟩
      · exact ⟨rfl, fun hnil => absurd (List.suffix_nil.mp (hnil ▸ hfaults)) hne⟩
      obtain rfl := honly hg
      rcases h with hraise | ⟨rfl, hsame, hkept, hverdict⟩
      · exact absurd hraise (hreads _ _ _)
      · refine ⟨rfl, fun hnil => ⟨rfl, hkept, ?_⟩⟩
        rw [hsame.now, hsame.wall]
        exact hverdict.resolve_right fun hne => hne (List.suffix_nil.mp (hnil ▸ hfaults))
  · rw [hd₁]
    exact ⟨List.tail_suffix _, Or.inl hf⟩
  · exact d₁.passesLeft_lt_passes
  · obtain ⟨contents, rfl, h⟩ := h
    exact h

/-- **A file whose verdict raises**: so does the call, at once, when no operation fails. -/
theorem acquireLock_escapes (host : Host) (pid : Nat) (token : Bytes) {d : LockPath} {f : LockEntry}
    (hf : d.file = some f) (hquiet : d.faults = []) {e : Exc}
    (hraise : verdict host f d.now d.wall = .error e) :
    Ensures (acquireLock host pid token) d (fun _ _ => False) (fun e' _ => e' = e) := by
  obtain ⟨b, hb, _⟩ := lockContents_written host.windows pid token
  refine Ensures.bind ((makeDirectory_ensures d).mono (fun _ _ h => h) fun e _ h => absurd hquiet h.2)
    fun _ d₁ hd₁ => ?_
  refine Ensures.bind_ok (run_get d₁) ?_
  have hfaults : ¬ d₁.faults ≠ [] := by
    rw [hd₁, not_not]
    show d.faults.tail = []
    rw [hquiet]
    rfl
  have hfile : d₁.file = some f := by rw [hd₁]; exact hf
  have hraise' : verdict host f d₁.now d₁.wall = .error e := by rw [hd₁]; exact hraise
  have hfirst : Ensures (lockPass host (lockContents pid token) (d₁.now + lockWait)) d₁
      (fun _ _ => False) (fun e' _ => e' = e) := by
    refine (lockPass_ensures host hb (d₁.now + lockWait) d₁).mono (fun r s h => ?_) fun e' s h => ?_
    · cases r with
      | some c =>
        rw [hfile] at h
        cases h.2.1
      | none =>
        obtain ⟨g, hg, h⟩ := h
        obtain rfl := Option.some.inj (hfile.symm.trans hg)
        rw [hraise'] at h
        rcases h with ⟨_, hstale, _⟩ | ⟨_, _, _, _, hfresh⟩
        · cases hstale
        · cases hfresh.resolve_right hfaults
    · rcases h with ⟨_, hne⟩ | ⟨g, hg, h⟩
      · exact absurd hne hfaults
      obtain rfl := Option.some.inj (hfile.symm.trans hg)
      rw [hraise'] at h
      rcases h with h | ⟨_, _, _, hfresh⟩
      · exact (Except.error.inj h).symm
      · cases hfresh.resolve_right hfaults
  -- the passes are not used up before the first one
  obtain ⟨n, hn⟩ : ∃ n, d₁.passes = n + 1 := ⟨d₁.faults.length + 601, rfl⟩
  rw [hn]
  refine Ensures.bind (Q := fun _ _ => False) ?_ fun _ _ h => h.elim
  exact Ensures.bind hfirst fun _ _ h => h.elim

end Digits

end Bedrock.Slhwid
