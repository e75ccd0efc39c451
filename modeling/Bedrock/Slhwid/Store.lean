/-
  `slhwid/_store.py`, what a store offers to the rest, and `DirStore`.

  1. **Interface** — `Store σ`: the lock and the four operations, as programs over whatever state the
     store keeps.  `prepare` and `commit` are written against it.

  2. **Files** — `Dir` is the directory of a `DirStore`; its `log` is a history variable, the writes
     that took effect, oldest first.  A read or a write may fail: the script `faults` of a `Disk` says
     which of the next operations do, a write either before or after the new contents are in place
     (`os.replace` is atomic, but the `chmod` behind it can raise too).

  3. **Effects** — what each operation does to the disk, whatever fails: `readFile_run`,
     `writeFile_run`.
-/
import Bedrock.Slhwid.Derive

open Lib.Fallible Bedrock.Python

namespace Bedrock.Slhwid

/-- `_Store`, with the `lock` both stores have. -/
class Store (σ : Type) where
  /-- The lock is taken. -/
  acquire : EStateM Exc σ Unit
  /-- The stored secret, if there is one. -/
  readSlstore : EStateM Exc σ (Option Bytes)
  /-- The secret is stored. -/
  writeSlstore : Bytes → EStateM Exc σ Unit
  /-- The helper, and whether one was there. -/
  readHelper : Str → EStateM Exc σ (Bytes × Bool)
  /-- The helper is stored. -/
  writeHelper : Str → Bytes → EStateM Exc σ Unit

/-- What the file of the stored secret begins with. -/
def slstorePrefix : Bytes := bytesOf "SLSTOR1"

/-- `_unwrap_slstore`. -/
def unwrapSlstore (data : Bytes) : Except Exc Bytes := do
  raiseIf (data.length ≠ slstorePrefix.length + 32)
    (.corruptHelperError [.lit "slhwid: store secret has the wrong size"])
  raiseIf (data.take slstorePrefix.length ≠ slstorePrefix)
    (.corruptHelperError [.lit "slhwid: store secret prefix mismatch"])
  return data.drop slstorePrefix.length

/-- What is unwrapped was a prefixed secret of 32 bytes. -/
theorem unwrapSlstore_eq_ok {data v : Bytes} :
    unwrapSlstore data = .ok v ↔ data = slstorePrefix ++ v ∧ v.length = 32 := by
  have hlen : slstorePrefix.length = 7 := rfl
  constructor
  · intro h
    obtain ⟨_, hsize, h⟩ := bind_eq_ok.mp h
    obtain ⟨_, hpre, h⟩ := bind_eq_ok.mp h
    obtain rfl := Except.ok.inj h
    rw [raiseIf_eq_ok, not_not] at hsize hpre
    refine ⟨?_, by rw [List.length_drop, hsize, hlen]⟩
    conv_lhs => rw [← List.take_append_drop slstorePrefix.length data, hpre]
  · rintro ⟨rfl, hv⟩
    have hsize : ¬ (slstorePrefix ++ v).length ≠ slstorePrefix.length + 32 := by
      rw [List.length_append, hv, not_not]
    have hpre : ¬ (slstorePrefix ++ v).take slstorePrefix.length ≠ slstorePrefix := by
      rw [List.take_left, not_not]
    rw [unwrapSlstore, raiseIf_neg hsize, ok_bind, raiseIf_neg hpre, ok_bind, List.drop_left]
    rfl

/-! ## A directory -/

/-- What happens to one operation on the file system. -/
inductive Fault
  /-- The operation works. -/
  | none
  /-- It raises and has done nothing. -/
  | before
  /-- It has done its work and raises. -/
  | after
  deriving DecidableEq, Repr

/-- The files of a directory, and the writes that made them. -/
structure Dir where
  /-- The values by file name. -/
  files : Dict Bytes
  /-- History: every write, oldest first. -/
  log : List (Str × Bytes)

/-- The directory, and the failures that are still to come. -/
structure Disk where
  /-- The directory. -/
  dir : Dir
  /-- What the next operations come to. -/
  faults : List Fault

/-- The new contents are in place. -/
def Dir.write (d : Dir) (name : Str) (data : Bytes) : Dir :=
  ⟨d.files.insert name data, d.log ++ [(name, data)]⟩

@[simp] theorem Dir.lookup_write_self (d : Dir) (name : Str) (data : Bytes) :
    (d.write name data).files.lookup name = some data := AList.lookup_insert _

theorem Dir.lookup_write_ne (d : Dir) {name other : Str} (data : Bytes) (h : other ≠ name) :
    (d.write name data).files.lookup other = d.files.lookup other := AList.lookup_insert_ne h

/-- The failure of the next file operation. -/
def nextFault : EStateM Exc Disk Fault := fun d =>
  match d.faults with
  | [] => .ok .none d
  | f :: fs => .ok f { d with faults := fs }

/-- What a failing operation raises. -/
def ioError : Exc := .osError [.lit "I/O error"]

/-- Read a file; `none` is `FileNotFoundError`. -/
def readFile (name : Str) : EStateM Exc Disk (Option Bytes) := do
  let f ← nextFault
  if f ≠ .none then throw ioError
  let d ← get
  return d.dir.files.lookup name

/-- `DirStore._write`. -/
def writeFile (name : Str) (data : Bytes) : EStateM Exc Disk Unit := do
  let f ← nextFault
  if f = .before then throw ioError
  modify fun d => { d with dir := d.dir.write name data }
  if f = .after then throw ioError

/-- The name of the file of the stored secret .. -/
def slstoreFile : Str := str "slstore.bin"

/-- .. and of a helper's. -/
def helperFile (helperId : Str) : Str := str "hwid-" ++ helperId ++ str ".bin"

/-- `DirStore`. -/
instance : Store Disk where
  acquire := do
    let f ← nextFault
    if f ≠ .none then throw (.osError [.lit "slhwid: storage is busy; retry the operation"])
  readSlstore := do
    match ← readFile slstoreFile with
    | some data => return some (← lift (unwrapSlstore data))
    | none => return none
  writeSlstore value := writeFile slstoreFile (slstorePrefix ++ value)
  readHelper helperId := do
    match ← readFile (helperFile helperId) with
    | some data => return (data, true)
    | none => return ([], false)
  writeHelper helperId blob := writeFile (helperFile helperId) blob

/-! ## Effects -/

/-- The disk behind an operation that left the files alone: one fault of the script is used up. -/
def Disk.next (d : Disk) : Disk := { d with faults := d.faults.tail }

/-- The fault that strikes the next operation. -/
def Disk.fault (d : Disk) : Fault := d.faults.headD .none

/-- Asking for the next failure uses it up. -/
theorem nextFault_run (d : Disk) : nextFault d = .ok d.fault d.next := by
  obtain ⟨dir, faults⟩ := d
  cases faults with
  | nil => rfl
  | cons f fs => rfl

/-- A read changes nothing, and what it returns is what is stored. -/
theorem readFile_run (name : Str) (d : Disk) : readFile name d =
    if d.fault = .none then .ok (d.dir.files.lookup name) d.next else .error ioError d.next := by
  refine (run_bind_ok (nextFault_run d) _).trans ?_
  cases d.fault with
  | none => rfl
  | before => rfl
  | after => rfl

/-- A write puts exactly its data in place, or raises — and then it may have done so too. -/
theorem writeFile_run (name : Str) (data : Bytes) (d : Disk) : writeFile name data d =
    match d.fault with
    | .none => .ok () ⟨d.dir.write name data, d.next.faults⟩
    | .before => .error ioError d.next
    | .after => .error ioError ⟨d.dir.write name data, d.next.faults⟩ := by
  refine (run_bind_ok (nextFault_run d) _).trans ?_
  cases d.fault with
  | none => rfl
  | before => rfl
  | after => rfl

/-- **A write** has happened if it returns; if it raises, it has happened or not, and the exception is
    an `OSError`. -/
theorem writeFile_ensures (name : Str) (data : Bytes) (d : Disk) :
    Ensures (writeFile name data) d (fun _ d' => d'.dir = d.dir.write name data ∧ d'.faults = d.faults.tail)
      (fun e d' => (d'.dir = d.dir ∨ d'.dir = d.dir.write name data) ∧ e.isOSError = true) := by
  unfold Ensures
  rw [writeFile_run]
  cases d.fault with
  | none => exact ⟨rfl, rfl⟩
  | before => exact ⟨Or.inl rfl, rfl⟩
  | after => exact ⟨Or.inr rfl, rfl⟩

end Bedrock.Slhwid
