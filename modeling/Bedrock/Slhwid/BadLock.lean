/-
  What the contents of a lock file can do to the caller.

  1. **Store** — a `LockStore` is a `DirStore` whose lock is the `_acquire_lock` of
     `Slhwid/LockFile.lean`.

  2. **Contents** — `WellFormed`: a header line, a PID of ASCII digits and a token.  `Legible` is
     what the code can cope with: UTF-8, and a PID line that `isdigit` accepts is ASCII, no longer
     than `int` converts, and a PID the probe has room for.  The rest either raises something that is
     no `OSError`, or has a PID read from it that it does not have (`not_legible_cases`).

  3. **Result** — `harmless_iff`: a lock file breaks nothing exactly if it is legible, at whatever age
     it is found and however the clocks run.
-/
import Bedrock.Slhwid.CommitReturns
import Bedrock.Slhwid.LockFile

open Lib.Fallible Bedrock.Python

namespace Bedrock.Slhwid

/-! ## A store with its lock file -/

/-- A directory, its lock file, and the process that uses them; `token` is the one it draws. -/
structure LockStore where
  /-- The directory. -/
  disk : Disk
  /-- The lock's path and clocks. -/
  lock : LockPath
  /-- What the machine answers about PIDs. -/
  host : Host
  /-- The process itself .. -/
  pid : Nat
  /-- .. and the token it draws. -/
  token : Bytes

/-- Run an operation on the files. -/
def onDisk {α : Type} (m : EStateM Exc Disk α) : EStateM Exc LockStore α := fun s =>
  match m s.disk with
  | .ok a d => .ok a { s with disk := d }
  | .error e d => .error e { s with disk := d }

/-- Run an operation on the lock file. -/
def onLock {α : Type} (m : LockM α) : EStateM Exc LockStore α := fun s =>
  match m s.lock with
  | .ok a l => .ok a { s with lock := l }
  | .error e l => .error e { s with lock := l }

/-- What a disk operation guarantees on the disk it guarantees on the whole store. -/
theorem onDisk_ensures {α : Type} {m : EStateM Exc Disk α} {s : LockStore} {Q : α → Prop} {E : Exc → Prop}
    (h : Ensures m s.disk (fun a _ => Q a) (fun e _ => E e)) :
    Ensures (onDisk m) s (fun a _ => Q a) (fun e _ => E e) := by
  unfold Ensures onDisk at *
  cases hrun : m s.disk with
  | ok a d => rw [hrun] at h; exact h
  | error e d => rw [hrun] at h; exact h

/-- The same of an operation on the lock file. -/
theorem onLock_ensures {α : Type} {m : LockM α} {s : LockStore} {Q : α → Prop} {E : Exc → Prop}
    (h : Ensures m s.lock (fun a _ => Q a) (fun e _ => E e)) :
    Ensures (onLock m) s (fun a _ => Q a) (fun e _ => E e) := by
  unfold Ensures onLock at *
  cases hrun : m s.lock with
  | ok a l => rw [hrun] at h; exact h
  | error e l => rw [hrun] at h; exact h

/-- What `commit` does not catch, and a caller of `_acquire_lock` does not expect. -/
theorem isCaught_of_isValueError {e : Exc} (h : e.isValueError = true) : isCaught e = false := by
  cases e with
  | valueError _ => rfl
  | unicodeDecodeError => rfl
  | unicodeEncodeError => rfl
  | jsonDecodeError => rfl
  | _ => cases h

section Digits

variable [DigitTables]

/-- `DirStore` with its lock file. -/
instance lockStore : Store LockStore where
  acquire := do
    let s ← get
    let _ ← onLock (acquireLock s.host s.pid s.token)
  readSlstore := onDisk Store.readSlstore
  writeSlstore value := onDisk (Store.writeSlstore value)
  readHelper hid := onDisk (Store.readHelper hid)
  writeHelper hid blob := onDisk (Store.writeHelper hid blob)

/-- The lock of a store raises what `_acquire_lock` raises. -/
theorem acquire_lockStore {s : LockStore} {Q : Prop} {E : Exc → Prop}
    (h : Ensures (acquireLock s.host s.pid s.token) s.lock (fun _ _ => Q) (fun e _ => E e)) :
    Ensures (Store.acquire : EStateM Exc LockStore Unit) s (fun _ _ => Q) (fun e _ => E e) := by
  refine Ensures.bind (Q := fun x s' => x = s ∧ s' = s) ⟨rfl, rfl⟩ fun x s' hx => ?_
  obtain ⟨rfl, rfl⟩ := hx
  exact Ensures.bind (onLock_ensures (Q := fun _ => Q) h) fun _ _ hq => hq

/-- What the operations of the locked store raise is caught where the program catches. -/
theorem lockStore_catches : Catches LockStore where
  readHelper hid s := by
    refine onDisk_ensures (Q := fun _ => True) (E := fun e => isCaught e = true) ?_
    unfold Ensures
    rw [readHelper_run]
    by_cases hfree : s.disk.fault = .none
    · rw [if_pos hfree]
      trivial
    · rw [if_neg hfree]
      rfl
  writeHelper hid blob s := by
    refine onDisk_ensures (Q := fun _ => True) (E := fun e => isCaught e = true) ?_
    refine (writeFile_ensures (helperFile hid) blob s.disk).mono (fun _ _ _ => trivial) fun e _ h => ?_
    rw [isCaught, h.2]
    rfl

/-! ## Contents -/

/-- A header line, an ASCII decimal PID and a token that is not empty. -/
def WellFormed (b : Bytes) : Prop :=
  ∃ text pid token, readText b = .ok text ∧ splitlines text = [lockHeader, pid, token] ∧ pid ≠ [] ∧
    pid.all isAsciiDigit = true ∧ token ≠ []

/-- Nothing in the contents is more than the code can cope with. -/
def Legible (host : Host) (b : Bytes) : Prop :=
  ∃ text, readText b = .ok text ∧ ∀ pid token, splitlines text = [lockHeader, pid, token] →
    isdigit pid = true → token ≠ [] →
      pid.all isAsciiDigit = true ∧ pid.length ≤ 4300 ∧ asciiValue pid < host.pidLimit

/-- The text has the three lines, with a PID line that passes the test. -/
def NamesPid (text pid : Str) : Prop :=
  ∃ token, splitlines text = [lockHeader, pid, token] ∧ isdigit pid = true ∧ token ≠ []

/-- Contents that name a PID are read as that PID, if the digits convert. -/
theorem lockReading_of_namesPid {b : Bytes} {text pid : Str} (htext : readText b = .ok text)
    (h : NamesPid text pid) : lockReading b = (toInt pid >>= fun n => .ok (text, some n)) := by
  obtain ⟨token, hlines, hpid, htoken⟩ := h
  rw [lockReading, htext, ok_bind, lockPid_accepted hlines hpid htoken]
  cases toInt pid with
  | ok n => rfl
  | error e => rfl

theorem lockReading_of_not_namesPid {b : Bytes} {text : Str} (htext : readText b = .ok text)
    (h : ∀ pid, ¬ NamesPid text pid) : lockReading b = .ok (text, none) := by
  rw [lockReading, htext, ok_bind, lockPid_unknown fun ⟨pid, token, hp⟩ => h pid ⟨token, hp⟩]
  rfl

/-- **The verdict on a legible file never raises.** -/
theorem Legible.verdict_ne_error {host : Host} {f : LockEntry} (h : Legible host f.bytes) (now : Nat)
    (wall : Int) (e : Exc) : verdict host f now wall ≠ .error e := by
  obtain ⟨text, htext, h⟩ := h
  by_cases hnames : ∃ pid, NamesPid text pid
  · obtain ⟨pid, hpid⟩ := hnames
    obtain ⟨token, hlines, hdigit, htoken⟩ := id hpid
    obtain ⟨hascii, hlen, hlt⟩ := h pid token hlines hdigit htoken
    have hreading := lockReading_of_namesPid htext hpid
    rw [toInt_ascii hascii, if_neg (by omega), ok_bind] at hreading
    rw [verdict_of_reading host now wall hreading, staleness]
    rcases processIsAlive_cases host now (asciiValue pid) with ⟨_, alive, halive⟩ | ⟨hbig, _⟩
    · rw [halive]
      intro h
      cases h
    · omega
  · have hreading := lockReading_of_not_namesPid htext (not_exists.mp hnames)
    rw [verdict_of_reading host now wall hreading]
    intro h
    cases h

/-- **A legible file that is not well-formed has no PID.** -/
theorem Legible.unknown {host : Host} {b : Bytes} (h : Legible host b) (hbad : ¬ WellFormed b) :
    ∃ text, lockReading b = .ok (text, none) := by
  obtain ⟨text, htext, h⟩ := h
  refine ⟨text, lockReading_of_not_namesPid htext fun pid hpid => hbad ?_⟩
  obtain ⟨token, hlines, hdigit, htoken⟩ := hpid
  obtain ⟨hascii, _⟩ := h pid token hlines hdigit htoken
  refine ⟨text, pid, token, htext, hlines, fun hnil => ?_, hascii, htoken⟩
  rw [hnil] at hdigit
  cases hdigit

/-- **An illegible file** raises something that nobody catches, whenever it is looked at, or has a
    PID read from it although it is not well-formed. -/
theorem not_legible_cases {host : Host} {f : LockEntry} (h : ¬ Legible host f.bytes) :
    (∃ e, isCaught e = false ∧ ∀ now wall, verdict host f now wall = .error e) ∨
      (¬ WellFormed f.bytes ∧ ∃ text n, lockReading f.bytes = .ok (text, some n)) := by
  cases htext : readText f.bytes with
  | error e =>
    refine Or.inl ⟨e, ?_, fun now wall => ?_⟩
    · rw [readText_error htext]
      rfl
    · rw [verdict, lockReading, htext]
      rfl
  | ok text =>
  obtain ⟨pid, token, hlines, hdigit, htoken, hbad⟩ : ∃ pid token,
      splitlines text = [lockHeader, pid, token] ∧ isdigit pid = true ∧ token ≠ [] ∧
      ¬ (pid.all isAsciiDigit = true ∧ pid.length ≤ 4300 ∧ asciiValue pid < host.pidLimit) := by
    by_contra hnone
    refine h ⟨text, htext, fun pid token hlines hdigit htoken => ?_⟩
    by_contra hbad
    exact hnone ⟨pid, token, hlines, hdigit, htoken, hbad⟩
  have hreading := lockReading_of_namesPid htext ⟨token, hlines, hdigit, htoken⟩
  cases hint : toInt pid with
  | error e =>
    rw [hint, error_bind] at hreading
    refine Or.inl ⟨e, isCaught_of_isValueError (toInt_error hint), fun now wall => ?_⟩
    rw [verdict, hreading]
    rfl
  | ok n =>
    rw [hint, ok_bind] at hreading
    by_cases hascii : pid.all isAsciiDigit = true
    · -- an ASCII number that was converted is too large for the probe
      rw [toInt_ascii hascii] at hint
      split_ifs at hint with hlong
      obtain rfl := Except.ok.inj hint
      have hlarge : host.pidLimit ≤ asciiValue pid := by
        by_contra hsmall
        exact hbad ⟨hascii, by omega, by omega⟩
      refine Or.inl ⟨if host.windows then .argumentError else .overflowError, ?_, fun now wall => ?_⟩
      · split <;> rfl
      · rw [verdict_of_reading host now wall hreading, staleness]
        rcases processIsAlive_cases host now (asciiValue pid) with ⟨hlt, _⟩ | ⟨_, hraise⟩
        · omega
        · rw [hraise]
          rfl
    · refine Or.inr ⟨?_, text, n, hreading⟩
      rintro ⟨text', pid', token', htext', hlines', _, hascii', _⟩
      apply hascii
      obtain rfl := Except.ok.inj (htext.symm.trans htext')
      have hsame := List.cons.inj (hlines.symm.trans hlines')
      rw [(List.cons.inj hsame.2).1]
      exact hascii'

/-! ## What the caller sees -/

/-- The call acquires the lock, and gives it back when asked to, or raises `OSError`. -/
def AcquiresOrOSError (pid : Nat) (token : Bytes) : EStateM.Result Exc LockPath Str → Prop
  | .ok contents d => Acquired pid token contents d ∧ ∃ d', removeIfUnchanged contents d = .ok () d'
  | .error e _ => e.isOSError = true

/-- The lock is taken once the file is past its grace, not before; a call on which no operation fails
    gives up only on a file that is within it, and leaves it alone. -/
def ReclaimedAfterGrace (f : LockEntry) (faults : List Bool) : EStateM.Result Exc LockPath Str → Prop
  | .ok _ d => unknownLockGrace ≤ d.wall - f.mtime
  | .error e d => faults = [] → e = storageBusy ∧ d.file = some f ∧ d.wall - f.mtime < unknownLockGrace

/-- The file `f` at the path, and these failures ahead. -/
def LockPath.holding (d : LockPath) (f : LockEntry) (faults : List Bool) : LockPath :=
  { d with file := some f, faults := faults }

variable [Sha256]

/-- **The lock file `f` breaks nothing** for process `pid` at the clocks of `d`: the lock is acquired
    or `OSError` raised; if the file is not well-formed its owner is unknown, and it is reclaimed after
    its grace; and the commit of a session that `prepare` returned, or that has no key any more,
    returns. -/
structure Harmless (host : Host) (pid : Nat) (token : Bytes) (d : LockPath) (f : LockEntry) : Prop where
  /-- The acquisition returns or raises `OSError`. -/
  acquires : ∀ faults, AcquiresOrOSError pid token (acquireLock host pid token (d.holding f faults))
  /-- A file that names no PID is reclaimed once its grace is over. -/
  unknown : ¬ WellFormed f.bytes → (∃ text, lockReading f.bytes = .ok (text, none)) ∧
    ∀ faults, ReclaimedAfterGrace f faults (acquireLock host pid token (d.holding f faults))
  /-- A commit over it returns. -/
  commits : ∀ (s : Session) (faults : List Bool) (disk : Disk) (source : Bytes),
    Prepared s ∨ s.key = none →
      (s.commit (⟨⟨disk, d.holding f faults, host, pid, token⟩, source⟩ : World LockStore)).2.1 = .ok ()

/-- **The code copes with a lock file exactly if it is legible**: for every content, age, clock and
    platform. -/
theorem harmless_iff (host : Host) (pid : Nat) (token : Bytes) (d : LockPath) (f : LockEntry) :
    Harmless host pid token d f ↔ Legible host f.bytes := by
  constructor
  · -- a file that is not legible breaks a promise: its verdict raises, or a PID is read from it
    -- although it is not well-formed
    intro h
    by_contra hbad
    rcases not_legible_cases hbad with ⟨e, he, hraise⟩ | ⟨hwell, text, n, hreading⟩
    · have hescape := acquireLock_escapes host pid token (d := d.holding f []) rfl rfl (hraise _ _)
      have hcall := h.acquires []
      cases hrun : acquireLock host pid token (d.holding f []) with
      | ok contents d' => exact hescape.of_ok hrun
      | error e' d' =>
        rw [hrun, hescape.of_error hrun] at hcall
        have hos : e.isOSError = true := hcall
        rw [isCaught, hos] at he
        cases he
    · obtain ⟨⟨text', hnone⟩, _⟩ := h.unknown hwell
      rw [hreading] at hnone
      cases hnone
  · -- on a legible file the verdict never raises, so `acquireLock_ensures` says how the call ends
    intro h
    have hcall : ∀ faults, _ := fun faults =>
      acquireLock_ensures host pid token (d := d.holding f faults) rfl h.verdict_ne_error
    refine ⟨fun faults => ?_, fun hbad => ⟨h.unknown hbad, fun faults => ?_⟩,
      fun s faults disk source hs => ?_⟩
    · cases hrun : acquireLock host pid token (d.holding f faults) with
      | ok contents d' =>
        obtain ⟨hacq, _⟩ := (hcall faults).of_ok hrun
        refine ⟨hacq, ?_⟩
        cases hrelease : removeIfUnchanged contents d' with
        | ok u d'' => exact ⟨d'', rfl⟩
        | error e d'' => exact (hacq.release.of_error hrelease).elim
      | error e d' => exact ((hcall faults).of_error hrun).1
    · obtain ⟨text, hreading⟩ := h.unknown hbad
      -- contents without a PID are judged by their age alone
      have hverdict : ∀ now wall, verdict host f now wall =
          .ok (decide (unknownLockGrace ≤ wall - f.mtime)) := fun now wall =>
        verdict_of_reading host now wall hreading
      cases hrun : acquireLock host pid token (d.holding f faults) with
      | ok contents d' =>
        obtain ⟨_, hstale⟩ := (hcall faults).of_ok hrun
        rw [hverdict] at hstale
        have hpast := of_decide_eq_true (Except.ok.inj hstale)
        exact hpast
      | error e d' =>
        intro hquiet
        obtain ⟨rfl, hfile, hfresh⟩ := ((hcall faults).of_error hrun).2 hquiet
        rw [hverdict] at hfresh
        have hwithin := of_decide_eq_false (Except.ok.inj hfresh)
        exact ⟨rfl, hfile, by omega⟩
    · -- a commit catches what the lock raises, once that is an `OSError`
      rcases hs with hs | hkey
      · refine commit_returns lockStore_catches hs (acquire_lockStore (Q := True) ?_)
        refine (hcall faults).mono (fun _ _ _ => trivial) fun e _ he => ?_
        rw [isCaught, he.1]
        rfl
      · rw [commit_of_key_none hkey]

end Digits

/-! ## Bad lock files -/

/-- Some of the Unicode tables: besides ASCII, the superscripts `²`, `³` and `¹`, which are digits
    without a decimal value, and the Arabic-Indic digits, which have one. -/
@[reducible] def sampleDigits : DigitTables where
  isDigitChar c := isAsciiDigit c || c ∈ ([0xB2, 0xB3, 0xB9] : List CodePoint) ||
    (0x660 ≤ c.val && c.val ≤ 0x669)
  decimal c := if isAsciiDigit c then some (c.val - 48)
    else if 0x660 ≤ c.val ∧ c.val ≤ 0x669 then some (c.val - 0x660) else none
  isDigitChar_of_decimal c v h := by
    split_ifs at h with hascii harabic
    · rw [hascii]
      rfl
    · rw [decide_eq_true harabic.1, decide_eq_true harabic.2, Bool.and_true, Bool.or_true]
  isDigitChar_ascii c hc := by
    have hsuper : ¬ c ∈ ([0xB2, 0xB3, 0xB9] : List CodePoint) := by
      intro hmem
      have hval : 128 ≤ c.val := by
        rcases List.mem_cons.mp hmem with rfl | hmem
        · decide
        rcases List.mem_cons.mp hmem with rfl | hmem
        · decide
        · rw [List.mem_singleton.mp hmem]
          decide
      omega
    have harabic : ¬ 0x660 ≤ c.val := by omega
    rw [decide_eq_false hsuper, decide_eq_false harabic, Bool.false_and, Bool.or_false, Bool.or_false]
    exact isAsciiDigit_iff
  decimal_ascii c hlo hhi := if_pos (isAsciiDigit_iff.mpr ⟨hlo, hhi⟩)

/-- A POSIX machine on which no other process is alive. -/
def posixHost : Host where
  windows := false
  kill _ _ := .failed
  openProcess _ _ := .refused 87

/-- Nothing at the path, and the clocks an hour after their start. -/
def quietPath : LockPath := ⟨none, 3600 * second, 3600 * second, [], []⟩

/-- A lock file with this PID line. -/
def lockFileOf (pidLine : Bytes) : Bytes := bytesOf "SLHwidLockV1\n" ++ pidLine ++ bytesOf "\ntoken\n"

/-- A byte that is not UTF-8, and PID lines that are no ASCII PIDs or too large a number: `²`, `٣` and
    `2147483648`. -/
def badLocks : List Bytes :=
  [[0xFF], lockFileOf [0xC2, 0xB2], lockFileOf [0xD9, 0xA3], lockFileOf (bytesOf "2147483648")]

/-- A lock of digits that are no PID of this host cannot be read. -/
theorem not_legible_of_pid [DigitTables] {host : Host} {b : Bytes} {text pid token : Str}
    (htext : readText b = .ok text) (hlines : splitlines text = [lockHeader, pid, token])
    (hdigit : isdigit pid = true) (htoken : token ≠ [])
    (hbad : ¬ (pid.all isAsciiDigit = true ∧ pid.length ≤ 4300 ∧ asciiValue pid < host.pidLimit)) :
    ¬ Legible host b := by
  rintro ⟨text', htext', h⟩
  obtain rfl := Except.ok.inj (htext.symm.trans htext')
  exact hbad (h pid token hlines hdigit htoken)

/-- **Lock files that break the caller**, and what the first of them does to every open session. -/
theorem badLocks_harmful :
    (∀ b ∈ badLocks, ¬ @Harmless sampleDigits sampleHash posixHost 1 [7] quietPath ⟨b, 0⟩) ∧
    ∀ (s : Session) (k : Limbs) (disk : Disk) (source : Bytes), s.key = some k → s.committed = false →
      (@Session.commit LockStore sampleHash (@lockStore sampleDigits) s
        ⟨⟨disk, quietPath.holding ⟨[0xFF], 0⟩ [], posixHost, 1, [7]⟩, source⟩).2.1 =
          .error .unicodeDecodeError := by
  -- the first of them does not even decode
  have hundecodable : readText [0xFF] = .error .unicodeDecodeError := by decide
  constructor
  · intro b hb hharmless
    have hlegible := (@harmless_iff sampleDigits sampleHash posixHost 1 [7] quietPath ⟨b, 0⟩).mp hharmless
    -- the others decode to three lines with a PID that passes `isdigit`
    have hpid : ∀ (pidLine : Bytes) (pid : Str),
        readText (lockFileOf pidLine) = .ok (lockHeader ++ 10 :: (pid ++ 10 :: str "token\n")) →
        splitlines (lockHeader ++ 10 :: (pid ++ 10 :: str "token\n")) = [lockHeader, pid, str "token"] →
        @isdigit sampleDigits pid = true →
        ¬ (pid.all isAsciiDigit = true ∧ pid.length ≤ 4300 ∧ asciiValue pid < posixHost.pidLimit) →
        b ≠ lockFileOf pidLine := fun pidLine pid htext hlines hdigit hbad heq => by
      subst heq
      exact @not_legible_of_pid sampleDigits posixHost _ _ _ _ htext hlines hdigit (by decide) hbad hlegible
    rcases List.mem_cons.mp hb with rfl | hb
    · obtain ⟨text, htext, _⟩ := hlegible
      rw [hundecodable] at htext
      cases htext
    rcases List.mem_cons.mp hb with hb | hb
    · exact hpid _ [0xB2] (by decide +kernel) (by decide +kernel) (by decide +kernel)
        (by decide +kernel) hb
    rcases List.mem_cons.mp hb with hb | hb
    · exact hpid _ [0x663] (by decide +kernel) (by decide +kernel) (by decide +kernel)
        (by decide +kernel) hb
    · exact hpid _ (str "2147483648") (by decide +kernel) (by decide +kernel) (by decide +kernel)
        (by decide +kernel) (List.mem_singleton.mp hb)
  · intro s k disk source hkey hopen
    refine @commit_escapes sampleHash LockStore (@lockStore sampleDigits) s k hkey hopen _ _ rfl ?_
    refine @acquire_lockStore sampleDigits _ False _ ?_
    exact @acquireLock_escapes sampleDigits posixHost 1 [7] (quietPath.holding ⟨[0xFF], 0⟩ [])
      ⟨[0xFF], 0⟩ rfl rfl _ rfl

end Bedrock.Slhwid
