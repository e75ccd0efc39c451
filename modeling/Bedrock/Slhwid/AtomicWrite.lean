/-
  `slhwid/_store.py`: `DirStore._write`, one system call at a time.

  1. **Files** — a file has the bytes a reader sees, and is on the disk or not: behind a power loss a file
     that was not synced may hold anything.  `mkstemp` makes hidden names, the stored ones are not.

  2. **Writers** — any number of calls of `_write`, by any processes, each between two of its system calls
     (`WriteAt`).  Every call may raise, a write may put only a part in place before it does, and a
     process may be killed anywhere.  Random names are not drawn twice.

  3. **Atomic** (`writes_atomic`) — at every moment each stored file holds what the replaces so far have
     put there, in full and on the disk: the old contents or the new ones, never a part or a mixture.
     The crux is `Phase`: what the temporary file of a writer holds at each place.

  4. **Tidy** (`writes_leave_nothing`) — where nothing is killed and every unlink works, no temporary file
     stays behind, whatever else raises.

  5. **Refinement** (`write_alone`) — a call that runs alone does to the stored files what `writeFile` does
     under one of its three faults, so that what is verified with `writeFile` holds of the system
     calls.
-/
import Bedrock.Lib.Transition
import Bedrock.Python.Json
import Bedrock.Slhwid.Store

open Lib.Fallible Lib.Transition Bedrock.Python

namespace Bedrock.Slhwid

/-! ## Files and names -/

/-- A file: its bytes, and whether they would survive a power failure. -/
structure FsFile where
  bytes : Bytes
  /-- The bytes are on the disk. -/
  synced : Bool
  deriving DecidableEq

/-- `.name`. -/
def isHidden (name : Str) : Bool := name.head? = some (chr '.')

/-- `tempfile.mkstemp(prefix=f".{name}.", suffix=".tmp")`, with its random part. -/
def tempName (name random : Str) : Str := chr '.' :: name ++ chr '.' :: random ++ str ".tmp"

theorem isHidden_tempName (name random : Str) : isHidden (tempName name random) = true :=
  decide_eq_true rfl

/-- A name the store keeps its values under. -/
structure StoredName where
  name : Str
  visible : isHidden name = false
  deriving DecidableEq

/-- The name of the stored secret .. -/
def StoredName.slstore : StoredName := ⟨slstoreFile, by decide +kernel⟩

/-- .. and that of a helper. -/
def StoredName.helper (helperId : Str) : StoredName :=
  ⟨helperFile helperId, decide_eq_false (show ¬ some (chr 'h') = some (chr '.') by decide)⟩

theorem StoredName.ne_of_hidden (n : StoredName) {name : Str} (h : isHidden name = true) :
    n.name ≠ name := by
  rintro rfl
  rw [n.visible] at h
  cases h

/-! ## Writers -/

/-- Where a call of `_write` stands: in front of the system call named here, with its temporary name. -/
inductive WriteAt
  /-- At the start; no temporary file yet. -/
  | mkstemp
  /-- The temporary file is empty. -/
  | fchmod (tmp : Str)
  /-- In the write loop. -/
  | write (tmp : Str)
  /-- All bytes are written. -/
  | fsync (tmp : Str)
  /-- All bytes are on the disk. -/
  | close (tmp : Str)
  /-- The temporary file is complete and closed. -/
  | replace (tmp : Str)
  /-- In the `finally`, with the exception on its way. -/
  | unlink (tmp : Str) (pending : Option Exc)
  /-- At the end; the new value is in place. -/
  | chmod

/-- A call of `_write` under way: what it writes, and where in the code it stands. -/
structure Writer where
  /-- Ghost: the number of the call. -/
  call : Nat
  /-- The name it writes to. -/
  target : StoredName
  /-- The bytes it writes. -/
  data : Bytes
  /-- The system call in front of it. -/
  place : WriteAt

/-- Ghost: what a call came to. -/
structure FinishedWrite where
  /-- The number of the call. -/
  call : Nat
  target : StoredName
  data : Bytes
  /-- It returned, or what it raised. -/
  result : Except Exc Unit

/-- The directory with the calls that are writing to it. -/
structure Fs where
  /-- The file under each name. -/
  files : Str → Option FsFile
  /-- The calls under way. -/
  writers : Nat → Option Writer
  /-- Ghost: the calls that were made, oldest first. -/
  started : List (StoredName × Bytes)
  /-- Ghost: the temporary names that were made. -/
  used : List Str
  /-- Ghost: the replaces that took place, oldest first. -/
  replaced : List (Nat × StoredName × Bytes)
  /-- Ghost: the calls that returned or raised, oldest first. -/
  finished : List FinishedWrite

/-- What a system call comes to: an exception or none, the random part `mkstemp` draws, and how many
    bytes are in place when a write returns or raises. -/
structure Syscall where
  /-- The exception it raises, if it does. -/
  raises : Option Exc
  /-- What `mkstemp` draws for the name. -/
  random : Str
  /-- How much of a write is in place behind it. -/
  amount : Nat

/-- A call starts, goes on by one system call, or its process is killed. -/
inductive FsAction
  /-- A call of `_write` begins. -/
  | call (i : Nat) (target : StoredName) (data : Bytes)
  /-- Its next system call. -/
  | go (i : Nat) (c : Syscall)
  /-- The process is killed. -/
  | crash (i : Nat)

namespace Fs

/-- The file of this name is now this one, or gone. -/
def setFile (fs : Fs) (name : Str) (f : Option FsFile) : Fs :=
  { fs with files := Function.update fs.files name f }

/-- The call goes on to another place. -/
def move (fs : Fs) (i : Nat) (w : Writer) (place : WriteAt) : Fs :=
  { fs with writers := Function.update fs.writers i (some { w with place := place }) }

/-- The call returns or raises. -/
def finish (fs : Fs) (i : Nat) (w : Writer) (result : Except Exc Unit) : Fs :=
  { fs with
    writers := Function.update fs.writers i none
    finished := fs.finished ++ [⟨w.call, w.target, w.data, result⟩] }

/-- `os.replace`. -/
def rename (fs : Fs) (w : Writer) (tmp : Str) : Fs :=
  { fs with
    files := Function.update (Function.update fs.files w.target.name (fs.files tmp)) tmp none
    replaced := fs.replaced ++ [(w.call, w.target, w.data)] }

/-- `mkstemp` tries another name where one is taken. -/
def makeTemp (fs : Fs) (i : Nat) (w : Writer) (tmp : Str) : Fs :=
  match fs.files tmp with
  | some _ => fs
  | none => ({ fs with used := tmp :: fs.used }.setFile tmp (some ⟨[], false⟩)).move i w (.fchmod tmp)

/-- The next system call of a writer. -/
def go (fs : Fs) (i : Nat) (w : Writer) (c : Syscall) : Fs :=
  match w.place with
  | .mkstemp =>
    match c.raises with
    | some e => fs.finish i w (.error e)
    | none => fs.makeTemp i w (tempName w.target.name c.random)
  | .fchmod tmp =>
    match c.raises with
    | some e => fs.move i w (.unlink tmp (some e))
    | none => fs.move i w (.write tmp)
  | .write tmp =>
    let fs := fs.setFile tmp (some ⟨w.data.take c.amount, false⟩)
    match c.raises with
    | some e => fs.move i w (.unlink tmp (some e))
    | none => if w.data.length ≤ c.amount then fs.move i w (.fsync tmp) else fs
  | .fsync tmp =>
    match c.raises with
    | some e => fs.move i w (.unlink tmp (some e))
    | none => (fs.setFile tmp ((fs.files tmp).map fun f => { f with synced := true })).move i w (.close tmp)
  | .close tmp =>
    match c.raises with
    | some e => fs.move i w (.unlink tmp (some e))
    | none => fs.move i w (.replace tmp)
  | .replace tmp =>
    match c.raises with
    | some e => fs.move i w (.unlink tmp (some e))
    | none => (fs.rename w tmp).move i w (.unlink tmp none)
  | .unlink tmp pending =>
    match c.raises with
    | some e => fs.finish i w (.error e)
    | none =>
      -- `FileNotFoundError` is passed over
      let fs := fs.setFile tmp none
      match pending with
      | some e => fs.finish i w (.error e)
      | none => fs.move i w .chmod
  | .chmod =>
    match c.raises with
    | some e => fs.finish i w (.error e)
    | none => fs.finish i w (.ok ())

end Fs

/-- One system call, or one kill. -/
def fsStep (fs : Fs) : FsAction → Fs
  | .call i target data =>
    match fs.writers i with
    | some _ => fs
    | none =>
      { fs with
        started := fs.started ++ [(target, data)]
        writers := Function.update fs.writers i (some ⟨fs.started.length, target, data, .mkstemp⟩) }
  | .go i c =>
    match fs.writers i with
    | some w => fs.go i w c
    | none => fs
  | .crash i => { fs with writers := Function.update fs.writers i none }

/-! ## What a writer holds -/

/-- The temporary name a writer works with. -/
def WriteAt.temp : WriteAt → Option Str
  | .mkstemp | .chmod => none
  | .fchmod tmp | .write tmp | .fsync tmp | .close tmp | .replace tmp | .unlink tmp _ => some tmp

/-- The replace has taken place. -/
def WriteAt.isReplaced : WriteAt → Bool
  | .unlink _ none | .chmod => true
  | _ => false

/-- **What the temporary file holds** at each place. -/
def Phase (files : Str → Option FsFile) (data : Bytes) : WriteAt → Prop
  | .fsync tmp => ∃ synced, files tmp = some ⟨data, synced⟩
  | .close tmp | .replace tmp => files tmp = some ⟨data, true⟩
  | _ => True

/-- What a call knows of its temporary file depends on that file alone. -/
theorem Phase.congr {files files' : Str → Option FsFile} {data : Bytes} {place : WriteAt}
    (hsame : ∀ tmp, place.temp = some tmp → files' tmp = files tmp) (h : Phase files data place) :
    Phase files' data place := by
  cases place with
  | fsync tmp =>
    obtain ⟨synced, hfile⟩ := h
    exact ⟨synced, (hsame tmp rfl).trans hfile⟩
  | close tmp => exact (hsame tmp rfl).trans h
  | replace tmp => exact (hsame tmp rfl).trans h
  | mkstemp => trivial
  | fchmod tmp => trivial
  | write tmp => trivial
  | unlink tmp pending => trivial
  | chmod => trivial

/-- The directory after these replaces, one after the other. -/
def replacedDir (d : Dir) (replaced : List (Nat × StoredName × Bytes)) : Dir :=
  replaced.foldl (fun d r => d.write r.2.1.name r.2.2) d

/-- The stored files are those of `d`, all of them on the disk. -/
def Shows (fs : Fs) (d : Dir) : Prop :=
  ∀ n : StoredName, fs.files n.name = (d.files.lookup n.name).map fun bytes => ⟨bytes, true⟩

/-- Who works with which temporary name, and under which number. -/
structure Owners (fs : Fs) : Prop where
  /-- Temporary names are hidden ones. -/
  hidden : ∀ tmp ∈ fs.used, isHidden tmp = true
  /-- A writer's temporary name is one that was made. -/
  used : ∀ i w tmp, fs.writers i = some w → w.place.temp = some tmp → tmp ∈ fs.used
  /-- No two writers have the same temporary name. -/
  distinct : ∀ i j w w' tmp, fs.writers i = some w → fs.writers j = some w' →
    w.place.temp = some tmp → w'.place.temp = some tmp → i = j
  /-- A writer knows the number of its call. -/
  calls : ∀ i w, fs.writers i = some w → fs.started[w.call]? = some (w.target, w.data)
  /-- No two writers have the same number. -/
  distinctCalls : ∀ i j w w', fs.writers i = some w → fs.writers j = some w' → w.call = w'.call → i = j

/-- The invariant of the runs. -/
structure FsInv (d : Dir) (fs : Fs) : Prop extends Owners fs where
  /-- The temporary file holds what its writer's place says. -/
  phase : ∀ i w, fs.writers i = some w → Phase fs.files w.data w.place
  /-- The visible files are those of the replaces so far, in their order. -/
  shows : Shows fs (replacedDir d fs.replaced)
  /-- A replace wrote what its call was given. -/
  replacedCalls : ∀ r ∈ fs.replaced, fs.started[r.1]? = some r.2
  /-- No call replaces twice. -/
  once : (fs.replaced.map Prod.fst).Nodup
  /-- A writer in front of its replace has not replaced .. -/
  before : ∀ i w, fs.writers i = some w → w.place.isReplaced = false → ∀ r ∈ fs.replaced, r.1 ≠ w.call
  /-- .. and one behind it has. -/
  behind : ∀ i w, fs.writers i = some w → w.place.isReplaced = true →
    (w.call, w.target, w.data) ∈ fs.replaced
  /-- A call that returned has replaced. -/
  finished : ∀ f ∈ fs.finished, f.result = .ok () → (f.call, f.target, f.data) ∈ fs.replaced

/-! ### The owners -/

/-- A call after an update is the one that was updated or an old one. -/
theorem writer_of_update {writers : Nat → Option Writer} {i j : Nat} {o : Option Writer} {w : Writer}
    (h : Function.update writers i o j = some w) :
    (j = i ∧ o = some w) ∨ (j ≠ i ∧ writers j = some w) := by
  by_cases hj : j = i
  · subst hj
    rw [Function.update_self] at h
    exact Or.inl ⟨rfl, h⟩
  · rw [Function.update_of_ne hj] at h
    exact Or.inr ⟨hj, h⟩

theorem getElem?_of_prefix {α : Type} {xs ys : List α} {n : Nat} {x : α} (h : xs <+: ys)
    (hx : xs[n]? = some x) : ys[n]? = some x := by
  obtain ⟨zs, rfl⟩ := h
  exact (List.getElem?_append_left (List.getElem?_eq_some_iff.mp hx).1).trans hx

/-- A writer takes a place with a temporary name nobody else works with. -/
theorem Owners.set {fs : Fs} (h : Owners fs) {i : Nat} {w : Writer} {files : Str → Option FsFile}
    {used : List Str} {started : List (StoredName × Bytes)}
    {replaced : List (Nat × StoredName × Bytes)}
    (hused : ∀ tmp ∈ used, isHidden tmp = true) (hkept : ∀ tmp ∈ fs.used, tmp ∈ used)
    (htemp : ∀ tmp, w.place.temp = some tmp → tmp ∈ used ∧
      ∀ j w', fs.writers j = some w' → w'.place.temp = some tmp → j = i)
    (hcalls : fs.started <+: started) (hcall : started[w.call]? = some (w.target, w.data))
    (hnumber : ∀ j w', fs.writers j = some w' → w'.call = w.call → j = i) :
    Owners ⟨files, Function.update fs.writers i (some w), started, used, replaced, fs.finished⟩ where
  -- each field looks at one writer or at two: the one that changed, or one of the others as it was
  hidden := hused
  used j w' tmp hw' htmp := by
    rcases writer_of_update hw' with ⟨rfl, heq⟩ | ⟨-, g⟩
    · obtain rfl := Option.some.inj heq
      exact (htemp tmp htmp).1
    · exact hkept tmp (h.used j w' tmp g htmp)
  distinct j k w₁ w₂ tmp h₁ h₂ ht₁ ht₂ := by
    rcases writer_of_update h₁ with ⟨rfl, heq₁⟩ | ⟨-, g₁⟩
    · obtain rfl := Option.some.inj heq₁
      rcases writer_of_update h₂ with ⟨rfl, -⟩ | ⟨-, g₂⟩
      · rfl
      · exact ((htemp tmp ht₁).2 k w₂ g₂ ht₂).symm
    · rcases writer_of_update h₂ with ⟨rfl, heq₂⟩ | ⟨-, g₂⟩
      · obtain rfl := Option.some.inj heq₂
        exact (htemp tmp ht₂).2 j w₁ g₁ ht₁
      · exact h.distinct j k w₁ w₂ tmp g₁ g₂ ht₁ ht₂
  calls j w' hw' := by
    rcases writer_of_update hw' with ⟨-, heq⟩ | ⟨-, g⟩
    · obtain rfl := Option.some.inj heq
      exact hcall
    · exact getElem?_of_prefix hcalls (h.calls j w' g)
  distinctCalls j k w₁ w₂ h₁ h₂ hsame := by
    rcases writer_of_update h₁ with ⟨rfl, heq₁⟩ | ⟨-, g₁⟩
    · obtain rfl := Option.some.inj heq₁
      rcases writer_of_update h₂ with ⟨rfl, -⟩ | ⟨-, g₂⟩
      · rfl
      · exact (hnumber k w₂ g₂ hsame.symm).symm
    · rcases writer_of_update h₂ with ⟨rfl, heq₂⟩ | ⟨-, g₂⟩
      · obtain rfl := Option.some.inj heq₂
        exact hnumber j w₁ g₁ hsame
      · exact h.distinctCalls j k w₁ w₂ g₁ g₂ hsame

/-- A writer goes on with its temporary name or without one. -/
theorem Owners.move {fs : Fs} (h : Owners fs) {i : Nat} {w : Writer} (hw : fs.writers i = some w)
    {place : WriteAt} (htemp : ∀ tmp, place.temp = some tmp → w.place.temp = some tmp)
    (files : Str → Option FsFile) (replaced : List (Nat × StoredName × Bytes)) :
    Owners ⟨files, Function.update fs.writers i (some { w with place := place }), fs.started, fs.used,
      replaced, fs.finished⟩ := by
  refine h.set h.hidden (fun _ h => h) (fun tmp htmp => ⟨?_, fun j w' hw' htmp' => ?_⟩) (List.prefix_refl _)
    (h.calls i w hw) (fun j w' hw' hsame => h.distinctCalls j i w' w hw' hw hsame)
  · exact h.used i w tmp hw (htemp tmp htmp)
  · exact h.distinct j i w' w tmp hw' hw htmp' (htemp tmp htmp)

/-! ## The steps -/

/-- A writer changes its own temporary file. -/
theorem FsInv.setFile {d : Dir} {fs : Fs} (h : FsInv d fs) {i : Nat} {w : Writer}
    (hw : fs.writers i = some w) {tmp : Str} (htmp : w.place.temp = some tmp) {f : Option FsFile}
    (hphase : Phase (Function.update fs.files tmp f) w.data w.place) : FsInv d (fs.setFile tmp f) where
  toOwners := ⟨h.hidden, h.used, h.distinct, h.calls, h.distinctCalls⟩
  phase j w' hw' := by
    by_cases hj : j = i
    · subst hj
      obtain rfl := Option.some.inj (hw.symm.trans hw')
      exact hphase
    · refine (h.phase j w' hw').congr fun tmp' htmp' => ?_
      have hne : tmp' ≠ tmp := by
        rintro rfl
        exact hj (h.distinct j i w' w tmp' hw' hw htmp' htmp)
      exact Function.update_of_ne hne f fs.files
  shows n := by
    have hne := n.ne_of_hidden (h.hidden tmp (h.used i w tmp hw htmp))
    exact (Function.update_of_ne hne f fs.files).trans (h.shows n)
  replacedCalls := h.replacedCalls
  once := h.once
  before := h.before
  behind := h.behind
  finished := h.finished

/-- A writer goes to another place. -/
theorem FsInv.move {d : Dir} {fs : Fs} (h : FsInv d fs) {i : Nat} {w : Writer}
    (hw : fs.writers i = some w) {place : WriteAt}
    (htemp : ∀ tmp, place.temp = some tmp → w.place.temp = some tmp)
    (hreplaced : place.isReplaced = w.place.isReplaced) (hphase : Phase fs.files w.data place) :
    FsInv d (fs.move i w place) where
  toOwners := h.toOwners.move hw htemp fs.files fs.replaced
  -- the writer that moves has its new phase; the others see the same files
  phase j w' hw' := by
    rcases writer_of_update hw' with ⟨-, heq⟩ | ⟨-, g⟩
    · obtain rfl := Option.some.inj heq
      exact hphase
    · exact h.phase j w' g
  shows := h.shows
  replacedCalls := h.replacedCalls
  once := h.once
  before j w' hw' hrep := by
    rcases writer_of_update hw' with ⟨-, heq⟩ | ⟨-, g⟩
    · obtain rfl := Option.some.inj heq
      exact h.before i w hw (hreplaced.symm.trans hrep)
    · exact h.before j w' g hrep
  behind j w' hw' hrep := by
    rcases writer_of_update hw' with ⟨-, heq⟩ | ⟨-, g⟩
    · obtain rfl := Option.some.inj heq
      exact h.behind i w hw (hreplaced.symm.trans hrep)
    · exact h.behind j w' g hrep
  finished := h.finished

/-- A writer is gone. -/
theorem FsInv.leave {d : Dir} {fs : Fs} (h : FsInv d fs) (i : Nat) :
    FsInv d { fs with writers := Function.update fs.writers i none } := by
  have hback : ∀ {j : Nat} {w : Writer}, Function.update fs.writers i none j = some w →
      fs.writers j = some w := by
    intro j w hw
    rcases writer_of_update hw with ⟨-, heq⟩ | ⟨-, hw⟩
    · cases heq
    · exact hw
  exact {
    hidden := h.hidden
    used := fun j w tmp hw => h.used j w tmp (hback hw)
    distinct := fun j k w w' tmp hw hw' => h.distinct j k w w' tmp (hback hw) (hback hw')
    calls := fun j w hw => h.calls j w (hback hw)
    distinctCalls := fun j k w w' hw hw' => h.distinctCalls j k w w' (hback hw) (hback hw')
    phase := fun j w hw => h.phase j w (hback hw)
    shows := h.shows
    replacedCalls := h.replacedCalls
    once := h.once
    before := fun j w hw => h.before j w (hback hw)
    behind := fun j w hw => h.behind j w (hback hw)
    finished := h.finished }

/-- A call ends; it returns only behind the replace. -/
theorem FsInv.finish {d : Dir} {fs : Fs} (h : FsInv d fs) {i : Nat} {w : Writer}
    (hw : fs.writers i = some w) {result : Except Exc Unit}
    (hresult : result = .ok () → w.place.isReplaced = true) : FsInv d (fs.finish i w result) := by
  have hleft := h.leave i
  refine ⟨⟨hleft.hidden, hleft.used, hleft.distinct, hleft.calls, hleft.distinctCalls⟩, hleft.phase,
    hleft.shows, hleft.replacedCalls, hleft.once, hleft.before, hleft.behind, ?_⟩
  intro f hf hok
  rcases List.mem_append.mp hf with hf | hf
  · exact h.finished f hf hok
  · obtain rfl := List.mem_singleton.mp hf
    exact h.behind i w hw (hresult hok)

/-- A call starts. -/
theorem FsInv.call {d : Dir} {fs : Fs} (h : FsInv d fs) (i : Nat) (target : StoredName) (data : Bytes) :
    FsInv d { fs with
      started := fs.started ++ [(target, data)]
      writers := Function.update fs.writers i (some ⟨fs.started.length, target, data, .mkstemp⟩) } where
  toOwners := by
    refine h.toOwners.set h.hidden (fun _ h => h) (fun tmp htmp => ?_) (List.prefix_append _ _)
      List.getElem?_concat_length (fun j w' hw' hsame => ?_)
    · cases htmp
    · -- a new call has a number that no earlier one has
      exact absurd hsame (List.getElem?_eq_some_iff.mp (h.calls j w' hw')).1.ne
  phase j w hw := by
    rcases writer_of_update hw with ⟨-, heq⟩ | ⟨-, hw⟩
    · obtain rfl := Option.some.inj heq
      trivial
    · exact h.phase j w hw
  shows := h.shows
  replacedCalls r hr := getElem?_of_prefix (List.prefix_append _ _) (h.replacedCalls r hr)
  once := h.once
  before j w hw hrep := by
    rcases writer_of_update hw with ⟨-, heq⟩ | ⟨-, hw⟩
    · obtain rfl := Option.some.inj heq
      exact fun r hr => (List.getElem?_eq_some_iff.mp (h.replacedCalls r hr)).1.ne
    · exact h.before j w hw hrep
  behind j w hw hrep := by
    rcases writer_of_update hw with ⟨-, heq⟩ | ⟨-, hw⟩
    · obtain rfl := Option.some.inj heq
      cases hrep
    · exact h.behind j w hw hrep
  finished := h.finished

/-- `mkstemp` makes a file under a name nobody used. -/
theorem FsInv.makeTemp {d : Dir} {fs : Fs} (h : FsInv d fs) {i : Nat} {w : Writer}
    (hw : fs.writers i = some w) (hplace : w.place = .mkstemp) {tmp : Str}
    (hhidden : isHidden tmp = true) (hfresh : tmp ∉ fs.used) : FsInv d (fs.makeTemp i w tmp) := by
  unfold Fs.makeTemp
  cases hfile : fs.files tmp with
  | some f => exact h
  | none =>
    -- the name was never drawn, so no other call has a file of that name
    have hothers : ∀ j w' tmp', fs.writers j = some w' → w'.place.temp = some tmp' → tmp' ≠ tmp := by
      rintro j w' tmp' hw' htmp' rfl
      exact hfresh (h.used j w' tmp' hw' htmp')
    have hfirst : w.place.isReplaced = false := by
      rw [hplace]
      rfl
    have howners : Owners ((Fs.setFile { fs with used := tmp :: fs.used } tmp
        (some ⟨[], false⟩)).move i w (.fchmod tmp)) := by
      refine h.toOwners.set (fun name hname => ?_) (fun _ h => List.mem_cons_of_mem _ h)
        (fun tmp' htmp' => ?_) (List.prefix_refl _) (h.calls i w hw)
        (fun j w' hw' hsame => h.distinctCalls j i w' w hw' hw hsame)
      · rcases List.mem_cons.mp hname with rfl | hname
        · exact hhidden
        · exact h.hidden name hname
      · obtain rfl := Option.some.inj htmp'
        exact ⟨List.mem_cons_self, fun j w' hw' ht => absurd rfl (hothers j w' _ hw' ht)⟩
    refine ⟨howners, ?_, ?_, h.replacedCalls, h.once, ?_, ?_, h.finished⟩
    · intro j w' hw'
      rcases writer_of_update hw' with ⟨-, heq⟩ | ⟨-, g⟩
      · obtain rfl := Option.some.inj heq
        trivial
      · refine (h.phase j w' g).congr fun tmp' htmp' => ?_
        exact Function.update_of_ne (hothers j w' tmp' g htmp') _ fs.files
    · -- a hidden name is none of the stored ones
      intro n
      exact (Function.update_of_ne (n.ne_of_hidden hhidden) _ fs.files).trans (h.shows n)
    · intro j w' hw' hrep
      rcases writer_of_update hw' with ⟨-, heq⟩ | ⟨-, g⟩
      · obtain rfl := Option.some.inj heq
        exact h.before i w hw hfirst
      · exact h.before j w' g hrep
    · intro j w' hw' hrep
      rcases writer_of_update hw' with ⟨-, heq⟩ | ⟨-, g⟩
      · obtain rfl := Option.some.inj heq
        cases hrep
      · exact h.behind j w' g hrep

theorem replacedDir_append (d : Dir) (replaced : List (Nat × StoredName × Bytes)) (call : Nat)
    (target : StoredName) (data : Bytes) : replacedDir d (replaced ++ [(call, target, data)]) =
      (replacedDir d replaced).write target.name data := List.foldl_append

/-- **The replace** puts complete, synced contents in place. -/
theorem FsInv.rename {d : Dir} {fs : Fs} (h : FsInv d fs) {i : Nat} {w : Writer}
    (hw : fs.writers i = some w) {tmp : Str} (hplace : w.place = .replace tmp) :
    FsInv d ((fs.rename w tmp).move i w (.unlink tmp none)) := by
  have htmp : w.place.temp = some tmp := by
    rw [hplace]
    rfl
  have hfirst : w.place.isReplaced = false := by
    rw [hplace]
    rfl
  -- here the phase of the writer pays: its temporary file holds the data in full, synced
  have hfull : fs.files tmp = some ⟨w.data, true⟩ := by
    have hphase := h.phase i w hw
    rw [hplace] at hphase
    exact hphase
  have hhidden := h.hidden tmp (h.used i w tmp hw htmp)
  have howners := @Owners.move fs h.toOwners i w hw (.unlink tmp none) (fun tmp' h' => h' ▸ htmp)
    (Function.update (Function.update fs.files w.target.name (fs.files tmp)) tmp none)
    (fs.replaced ++ [(w.call, w.target, w.data)])
  refine ⟨howners, ?_, ?_, ?_, ?_, ?_, ?_, ?_⟩
  · -- the other writers have other temporary files, and none of theirs is a stored name
    intro j w' hw'
    rcases writer_of_update hw' with ⟨-, heq⟩ | ⟨hj, g⟩
    · obtain rfl := Option.some.inj heq
      trivial
    · refine (h.phase j w' g).congr fun tmp' htmp' => ?_
      have hne : tmp' ≠ tmp := by
        rintro rfl
        exact hj (h.distinct j i w' w tmp' g hw htmp' htmp)
      have hvisible := w.target.ne_of_hidden (h.hidden tmp' (h.used j w' tmp' g htmp'))
      exact (Function.update_of_ne hne _ _).trans (Function.update_of_ne hvisible.symm _ _)
  · -- a reader sees the data under the target, and the old file under every other name
    intro n
    have hne := n.ne_of_hidden hhidden
    show Function.update (Function.update fs.files w.target.name (fs.files tmp)) tmp none n.name = _
    rw [Function.update_of_ne hne]
    show _ = ((replacedDir d (fs.replaced ++ [(w.call, w.target, w.data)])).files.lookup n.name).map _
    rw [replacedDir_append]
    by_cases hn : n.name = w.target.name
    · rw [hn, Function.update_self, Dir.lookup_write_self, hfull]
      rfl
    · rw [Function.update_of_ne hn, Dir.lookup_write_ne _ _ hn]
      exact h.shows n
  · intro r hr
    rcases List.mem_append.mp hr with hr | hr
    · exact h.replacedCalls r hr
    · rw [List.mem_singleton.mp hr]
      exact h.calls i w hw
  · -- this call has not replaced anything before
    show ((fs.replaced ++ [(w.call, w.target, w.data)]).map Prod.fst).Nodup
    rw [List.map_append]
    refine List.nodup_append.mpr ⟨h.once, List.nodup_singleton _, fun call hcall call' hcall' => ?_⟩
    obtain ⟨r, hr, rfl⟩ := List.mem_map.mp hcall
    rw [List.mem_singleton.mp hcall']
    exact h.before i w hw hfirst r hr
  · intro j w' hw' hrep r hr
    rcases writer_of_update hw' with ⟨-, heq⟩ | ⟨hj, g⟩
    · obtain rfl := Option.some.inj heq
      cases hrep
    · rcases List.mem_append.mp hr with hr | hr
      · exact h.before j w' g hrep r hr
      · rw [List.mem_singleton.mp hr]
        exact fun hsame => hj (h.distinctCalls j i w' w g hw hsame.symm)
  · -- from now on this one is on record
    intro j w' hw' hrep
    rcases writer_of_update hw' with ⟨-, heq⟩ | ⟨-, g⟩
    · obtain rfl := Option.some.inj heq
      exact List.mem_append_right _ (List.mem_singleton_self _)
    · exact List.mem_append_left _ (h.behind j w' g hrep)
  · exact fun f hf hok => List.mem_append_left _ (h.finished f hf hok)

/-- Random names are not drawn twice. -/
def FreshName (fs : Fs) : FsAction → Prop
  | .go i c => ∀ w, fs.writers i = some w → w.place = .mkstemp →
    tempName w.target.name c.random ∉ fs.used
  | _ => True

/-- **One system call** keeps the invariant. -/
theorem FsInv.go {d : Dir} {fs : Fs} (h : FsInv d fs) {i : Nat} {w : Writer}
    (hw : fs.writers i = some w) (c : Syscall)
    (hfresh : w.place = .mkstemp → tempName w.target.name c.random ∉ fs.used) :
    FsInv d (fs.go i w c) := by
  obtain ⟨call, target, data, place⟩ := w
  have hphase := h.phase i _ hw
  unfold Fs.go
  cases place with
  | mkstemp =>
    dsimp only
    cases c.raises with
    | some e => exact h.finish hw (by rintro ⟨⟩)
    | none => exact h.makeTemp hw rfl (isHidden_tempName _ _) (hfresh rfl)
  | fchmod tmp =>
    dsimp only
    cases c.raises with
    | some e => exact h.move hw (fun _ ht => ht) rfl trivial
    | none => exact h.move hw (fun _ ht => ht) rfl trivial
  -- what was written so far may be a part; the phase behind `write` says nothing until all is written
  | write tmp =>
    have hwritten : FsInv d (fs.setFile tmp (some ⟨data.take c.amount, false⟩)) := h.setFile hw rfl trivial
    dsimp only
    cases c.raises with
    | some e => exact hwritten.move hw (fun _ ht => ht) rfl trivial
    | none =>
      dsimp only
      split
      · -- the last piece is written: now the file is full
        rename_i hall
        refine hwritten.move hw (fun _ ht => ht) rfl ⟨false, ?_⟩
        show Function.update fs.files tmp _ tmp = _
        rw [Function.update_self, List.take_of_length_le hall]
      · exact hwritten
  | fsync tmp =>
    obtain ⟨synced, hfile⟩ := hphase
    dsimp only at hfile ⊢
    cases c.raises with
    | some e => exact h.move hw (fun _ ht => ht) rfl trivial
    | none =>
      dsimp only
      rw [hfile]
      have hfull : Function.update fs.files tmp (some ⟨data, true⟩) tmp = some ⟨data, true⟩ :=
        Function.update_self ..
      exact (h.setFile hw rfl ⟨true, hfull⟩).move hw (fun _ ht => ht) rfl hfull
  | close tmp =>
    dsimp only
    cases c.raises with
    | some e => exact h.move hw (fun _ ht => ht) rfl trivial
    | none => exact h.move hw (fun _ ht => ht) rfl hphase
  -- `os.replace` is the one step at which a stored file changes
  | replace tmp =>
    dsimp only
    cases c.raises with
    | some e => exact h.move hw (fun _ ht => ht) rfl trivial
    | none => exact h.rename hw rfl
  -- the `finally` of the source: the file is gone by `replace` already, or unlinked here
  | unlink tmp pending =>
    have hcleaned : FsInv d (fs.setFile tmp none) := h.setFile hw rfl trivial
    dsimp only
    cases c.raises with
    | some e => exact h.finish hw (by rintro ⟨⟩)
    | none =>
      dsimp only
      cases pending with
      | some e => exact hcleaned.finish hw (by rintro ⟨⟩)
      | none => exact hcleaned.move hw (by rintro _ ⟨⟩) rfl trivial
  | chmod =>
    dsimp only
    cases c.raises with
    | some e => exact h.finish hw (by rintro ⟨⟩)
    | none => exact h.finish hw fun _ => rfl

/-- **Every step keeps the invariant**, if the random names are fresh. -/
theorem FsInv.step {d : Dir} {fs : Fs} (h : FsInv d fs) (a : FsAction) (hfresh : FreshName fs a) :
    FsInv d (fsStep fs a) := by
  cases a with
  | call i target data =>
    unfold fsStep
    dsimp only
    cases fs.writers i with
    | some w => exact h
    | none => exact h.call i target data
  | go i c =>
    unfold fsStep
    dsimp only
    cases hw : fs.writers i with
    | some w => exact h.go hw c (hfresh w hw)
    | none => exact h
  | crash i => exact h.leave i

/-! ## Runs -/

/-- No call was made yet, and `d` is stored. -/
structure Quiet (d : Dir) (fs : Fs) : Prop where
  /-- No call is under way .. -/
  writers : ∀ i, fs.writers i = none
  /-- .. and none was made. -/
  started : fs.started = []
  used : fs.used = []
  replaced : fs.replaced = []
  finished : fs.finished = []
  /-- The directory is the given one. -/
  shows : Shows fs d

/-- A directory without calls satisfies it. -/
theorem Quiet.inv {d : Dir} {fs : Fs} (h : Quiet d fs) : FsInv d fs := by
  have hnone : ∀ {i : Nat} {w : Writer} {P : Prop}, fs.writers i = some w → P := by
    intro i w P hw
    rw [h.writers] at hw
    cases hw
  have hshows : Shows fs (replacedDir d fs.replaced) := by
    rw [h.replaced]
    exact h.shows
  refine ⟨⟨?_, fun _ _ _ hw => hnone hw, fun _ _ _ _ _ hw => hnone hw, fun _ _ hw => hnone hw,
    fun _ _ _ _ hw => hnone hw⟩, fun _ _ hw => hnone hw, hshows, ?_, ?_, fun _ _ hw => hnone hw,
    fun _ _ hw => hnone hw, ?_⟩
  · rw [h.used]
    exact fun _ htmp => absurd htmp List.not_mem_nil
  · rw [h.replaced]
    exact fun _ hr => absurd hr List.not_mem_nil
  · rw [h.replaced]
    exact List.nodup_nil
  · rw [h.finished]
    exact fun _ hf => absurd hf List.not_mem_nil

/-- **The invariant holds along every run.** -/
theorem Quiet.inv_run {d : Dir} {fs : Fs} (h : Quiet d fs) {acts : List FsAction}
    (hok : Along fsStep FreshName fs acts) : FsInv d (run fsStep fs acts) := by
  have hstep : ∀ fs a, FsInv d fs → FreshName fs a → FsInv d (fsStep fs a) :=
    fun _ a hinv => hinv.step a
  exact Along.inv hstep hok h.inv

/-- **Stored files change as a whole**: whatever raises and whichever processes are killed, at every
    moment the stored files are what a series of complete replaces makes of the first ones, all of them
    on the disk; each call has replaced at most once, its own file with its own data, and a call that
    returned has. -/
theorem writes_atomic {d : Dir} {fs₀ : Fs} (hquiet : Quiet d fs₀) {acts : List FsAction}
    (hok : Along fsStep FreshName fs₀ acts) :
    Shows (run fsStep fs₀ acts) (replacedDir d (run fsStep fs₀ acts).replaced) ∧
      (∀ r ∈ (run fsStep fs₀ acts).replaced, (run fsStep fs₀ acts).started[r.1]? = some r.2) ∧
      ((run fsStep fs₀ acts).replaced.map Prod.fst).Nodup ∧
      ∀ f ∈ (run fsStep fs₀ acts).finished, f.result = .ok () →
        (f.call, f.target, f.data) ∈ (run fsStep fs₀ acts).replaced := by
  have h := hquiet.inv_run hok
  exact ⟨h.shows, h.replacedCalls, h.once, h.finished⟩

/-- An empty directory. -/
def emptyFs : Fs := ⟨fun _ => none, fun _ => none, [], [], [], []⟩

theorem emptyFs_quiet : Quiet ⟨∅, []⟩ emptyFs :=
  ⟨fun _ => rfl, rfl, rfl, rfl, rfl, fun _ => rfl⟩

/-- A process is killed with a part of its file written; another one writes the same file. -/
def sampleKilled : List FsAction :=
  [.call 0 .slstore [1, 2], .go 0 ⟨none, str "a", 0⟩, .go 0 ⟨none, [], 0⟩, .go 0 ⟨none, [], 1⟩,
    .call 1 .slstore [3], .go 1 ⟨none, str "b", 0⟩, .crash 0, .go 1 ⟨none, [], 0⟩, .go 1 ⟨none, [], 1⟩,
    .go 1 ⟨none, [], 0⟩, .go 1 ⟨none, [], 0⟩, .go 1 ⟨none, [], 0⟩]

/-- The names in the sample run are fresh. -/
theorem sampleKilled_fresh : Along fsStep FreshName emptyFs sampleKilled := by
  refine ⟨trivial, ?_, ?_, ?_, trivial, ?_, trivial, ?_, ?_, ?_, ?_, ?_, trivial⟩
  · rintro w ⟨⟩ -
    decide
  · rintro w ⟨⟩ ⟨⟩
  · rintro w ⟨⟩ ⟨⟩
  · rintro w ⟨⟩ -
    decide
  · rintro w ⟨⟩ ⟨⟩
  · rintro w ⟨⟩ ⟨⟩
  · rintro w ⟨⟩ ⟨⟩
  · rintro w ⟨⟩ ⟨⟩
  · rintro w ⟨⟩ ⟨⟩

/-- The killed call has changed nothing; the other one's bytes are stored. -/
theorem writes_atomic_killed :
    (run fsStep emptyFs sampleKilled).files slstoreFile = some ⟨[3], true⟩ ∧
      (run fsStep emptyFs sampleKilled).replaced = [(1, .slstore, [3])] := by
  have h := (writes_atomic emptyFs_quiet sampleKilled_fresh).1 .slstore
  have hreplaced : (run fsStep emptyFs sampleKilled).replaced = [(1, .slstore, [3])] := rfl
  rw [hreplaced] at h
  exact ⟨h.trans rfl, hreplaced⟩

/-! ## Temporary files -/

/-- No process is killed, and an unlink raises nothing but `FileNotFoundError`. -/
def Orderly (fs : Fs) : FsAction → Prop
  | .call _ _ _ => True
  | .go i c => ∀ w tmp pending, fs.writers i = some w → w.place = .unlink tmp pending → c.raises = none
  | .crash _ => False

/-- The temporary files there are belong to writers; `f₀` are the files of the start. -/
structure Tidy (f₀ : Str → Option FsFile) (fs : Fs) : Prop where
  /-- A hidden file that was there before is untouched. -/
  kept : ∀ name, isHidden name = true → name ∉ fs.used → fs.files name = f₀ name
  /-- A temporary name is one that was free. -/
  made : ∀ name ∈ fs.used, f₀ name = none
  /-- It is gone again, or its writer is still at work. -/
  owned : ∀ name ∈ fs.used, fs.files name = none ∨
    ∃ i w, fs.writers i = some w ∧ w.place.temp = some name

variable {f₀ : Str → Option FsFile} {fs : Fs} {i : Nat} {w : Writer}

/-- A call may change its own temporary file. -/
theorem Tidy.setFile (h : Tidy f₀ fs) (howners : Owners fs) (hw : fs.writers i = some w) {tmp : Str}
    (htmp : w.place.temp = some tmp) (f : Option FsFile) : Tidy f₀ (fs.setFile tmp f) where
  kept name hhidden hname := by
    have hne : name ≠ tmp := fun heq => hname (heq ▸ howners.used i w tmp hw htmp)
    exact (Function.update_of_ne hne f fs.files).trans (h.kept name hhidden hname)
  made := h.made
  owned name hname := by
    by_cases hne : name = tmp
    · exact Or.inr ⟨i, w, hw, hne ▸ htmp⟩
    · exact (h.owned name hname).imp (Function.update_of_ne hne f fs.files).trans id

/-- A writer gives its temporary name up only when the file is gone. -/
theorem Tidy.setWriter (h : Tidy f₀ fs) (hw : fs.writers i = some w) {o : Option Writer}
    (ho : ∀ tmp, w.place.temp = some tmp → fs.files tmp = none ∨
      ∃ w', o = some w' ∧ w'.place.temp = some tmp)
    (started : List (StoredName × Bytes)) (replaced : List (Nat × StoredName × Bytes))
    (finished : List FinishedWrite) :
    Tidy f₀ ⟨fs.files, Function.update fs.writers i o, started, fs.used, replaced, finished⟩ where
  kept := h.kept
  made := h.made
  owned name hname := by
    rcases h.owned name hname with hgone | ⟨j, w', hw', htemp⟩
    · exact Or.inl hgone
    · by_cases hj : j = i
      · subst hj
        obtain rfl := Option.some.inj (hw.symm.trans hw')
        refine (ho name htemp).imp id ?_
        rintro ⟨w', rfl, htemp'⟩
        exact ⟨j, w', Function.update_self .., htemp'⟩
      · exact Or.inr ⟨j, w', (Function.update_of_ne hj o fs.writers).trans hw', htemp⟩

theorem Tidy.move (h : Tidy f₀ fs) (hw : fs.writers i = some w) {place : WriteAt}
    (htemp : ∀ tmp, w.place.temp = some tmp → fs.files tmp = none ∨ place.temp = some tmp) :
    Tidy f₀ (fs.move i w place) :=
  h.setWriter hw (fun tmp htmp => (htemp tmp htmp).imp id fun hplace => ⟨_, rfl, hplace⟩) _ _ _

theorem Tidy.finish (h : Tidy f₀ fs) (hw : fs.writers i = some w)
    (htemp : ∀ tmp, w.place.temp = some tmp → fs.files tmp = none) (result : Except Exc Unit) :
    Tidy f₀ (fs.finish i w result) :=
  h.setWriter hw (fun tmp htmp => Or.inl (htemp tmp htmp)) _ _ _

theorem Tidy.makeTemp (h : Tidy f₀ fs) (hw : fs.writers i = some w) (hplace : w.place = .mkstemp)
    {tmp : Str} (hhidden : isHidden tmp = true) (hfresh : tmp ∉ fs.used) :
    Tidy f₀ (fs.makeTemp i w tmp) := by
  unfold Fs.makeTemp
  cases hfile : fs.files tmp with
  | some f => exact h
  | none =>
    refine ⟨fun name hname hunused => ?_, fun name hname => ?_, fun name hname => ?_⟩
    · -- a hidden name that was never used is as it was at the beginning
      have hne : name ≠ tmp := fun heq => hunused (heq ▸ List.mem_cons_self)
      exact (Function.update_of_ne hne _ fs.files).trans
        (h.kept name hname fun hused => hunused (List.mem_cons_of_mem _ hused))
    · rcases List.mem_cons.mp hname with rfl | hname
      · exact (h.kept name hhidden hfresh).symm.trans hfile
      · exact h.made name hname
    · -- the new file is owned by its writer; the others keep theirs
      rcases List.mem_cons.mp hname with rfl | hname
      · exact Or.inr ⟨i, _, Function.update_self .., rfl⟩
      · have hne : name ≠ tmp := fun heq => hfresh (heq ▸ hname)
        rcases h.owned name hname with hgone | ⟨j, w', hw', htemp⟩
        · exact Or.inl ((Function.update_of_ne hne _ fs.files).trans hgone)
        · have hj : j ≠ i := by
            rintro rfl
            obtain rfl := Option.some.inj (hw.symm.trans hw')
            rw [hplace] at htemp
            cases htemp
          exact Or.inr ⟨j, w', (Function.update_of_ne hj _ fs.writers).trans hw', htemp⟩

theorem Tidy.rename (h : Tidy f₀ fs) (howners : Owners fs) (hw : fs.writers i = some w) {tmp : Str}
    (htmp : w.place.temp = some tmp) : Tidy f₀ (fs.rename w tmp) where
  kept name hhidden hname := by
    have hne : name ≠ tmp := fun heq => hname (heq ▸ howners.used i w tmp hw htmp)
    exact (Function.update_of_ne hne _ _).trans
      ((Function.update_of_ne (w.target.ne_of_hidden hhidden).symm _ _).trans (h.kept name hhidden hname))
  made := h.made
  owned name hname := by
    by_cases hne : name = tmp
    · exact Or.inr ⟨i, w, hw, hne ▸ htmp⟩
    · have hvisible := (w.target.ne_of_hidden (howners.hidden name hname)).symm
      exact (h.owned name hname).imp
        ((Function.update_of_ne hne _ _).trans (Function.update_of_ne hvisible _ _)).trans id

/-- So every system call keeps the directory tidy, if the unlink of a failing call does its work. -/
theorem Tidy.go (h : Tidy f₀ fs) (howners : Owners fs) (hw : fs.writers i = some w) (c : Syscall)
    (hfresh : w.place = .mkstemp → tempName w.target.name c.random ∉ fs.used)
    (hunlinked : ∀ tmp pending, w.place = .unlink tmp pending → c.raises = none) :
    Tidy f₀ (fs.go i w c) := by
  obtain ⟨call, target, data, place⟩ := w
  unfold Fs.go
  -- call by call: the temporary file is made, stays in the writer's hands, and goes at `unlink`
  cases place with
  | mkstemp =>
    dsimp only
    cases c.raises with
    | some e => exact h.finish hw (by rintro _ ⟨⟩) _
    | none => exact h.makeTemp hw rfl (isHidden_tempName _ _) (hfresh rfl)
  | fchmod tmp =>
    dsimp only
    cases c.raises with
    | some e => exact h.move hw fun _ => Or.inr
    | none => exact h.move hw fun _ => Or.inr
  | write tmp =>
    have hwritten := h.setFile howners hw rfl (some ⟨data.take c.amount, false⟩)
    dsimp only
    cases c.raises with
    | some e => exact hwritten.move hw fun _ => Or.inr
    | none =>
      dsimp only
      split
      · exact hwritten.move hw fun _ => Or.inr
      · exact hwritten
  | fsync tmp =>
    dsimp only
    cases c.raises with
    | some e => exact h.move hw fun _ => Or.inr
    | none => exact (h.setFile howners hw rfl _).move hw fun _ => Or.inr
  | close tmp =>
    dsimp only
    cases c.raises with
    | some e => exact h.move hw fun _ => Or.inr
    | none => exact h.move hw fun _ => Or.inr
  | replace tmp =>
    dsimp only
    cases c.raises with
    | some e => exact h.move hw fun _ => Or.inr
    | none => exact (h.rename howners hw rfl).move hw fun _ => Or.inr
  | unlink tmp pending =>
    have hcleaned := h.setFile howners hw rfl none
    have hgone : ∀ name, some tmp = some name → (fs.setFile tmp none).files name = none := by
      rintro name ⟨⟩
      exact Function.update_self ..
    -- the condition of the run: this unlink does its work
    dsimp only
    rw [hunlinked tmp pending rfl]
    cases pending with
    | some e => exact hcleaned.finish hw hgone _
    | none => exact hcleaned.move hw fun name hname => Or.inl (hgone name hname)
  | chmod =>
    dsimp only
    cases c.raises with
    | some e => exact h.finish hw (by rintro _ ⟨⟩) _
    | none => exact h.finish hw (by rintro _ ⟨⟩) _

theorem Tidy.step (h : Tidy f₀ fs) (howners : Owners fs) (a : FsAction) (hfresh : FreshName fs a)
    (horderly : Orderly fs a) : Tidy f₀ (fsStep fs a) := by
  cases a with
  | call i target data =>
    unfold fsStep
    dsimp only
    cases hi : fs.writers i with
    | some w => exact h
    | none =>
      refine ⟨h.kept, h.made, fun name hname => (h.owned name hname).imp id ?_⟩
      rintro ⟨j, w, hw, htemp⟩
      have hj : j ≠ i := by
        rintro rfl
        rw [hi] at hw
        cases hw
      exact ⟨j, w, (Function.update_of_ne hj _ fs.writers).trans hw, htemp⟩
  | go i c =>
    unfold fsStep
    dsimp only
    cases hw : fs.writers i with
    | some w => exact h.go howners hw c (hfresh w hw) fun tmp pending => horderly w tmp pending hw
    | none => exact h
  | crash i => exact horderly.elim

/-- **Nothing is left behind**: where no process is killed and no unlink fails, the directory has no
    more hidden files than at the start once all calls are over, whatever else raised. -/
theorem writes_leave_nothing {d : Dir} {fs₀ : Fs} (hquiet : Quiet d fs₀) {acts : List FsAction}
    (hok : Along fsStep (fun fs a => FreshName fs a ∧ Orderly fs a) fs₀ acts)
    (hover : ∀ i, (run fsStep fs₀ acts).writers i = none) {name : Str} (hhidden : isHidden name = true) :
    (run fsStep fs₀ acts).files name = fs₀.files name := by
  have hfirst : Tidy fs₀.files fs₀ := by
    refine ⟨fun _ _ _ => rfl, ?_, ?_⟩
    · rw [hquiet.used]
      exact fun _ hname => absurd hname List.not_mem_nil
    · rw [hquiet.used]
      exact fun _ hname => absurd hname List.not_mem_nil
  have hstep : ∀ fs a, FsInv d fs ∧ Tidy fs₀.files fs → FreshName fs a ∧ Orderly fs a →
      FsInv d (fsStep fs a) ∧ Tidy fs₀.files (fsStep fs a) := by
    rintro fs a ⟨h, htidy⟩ ⟨hfresh, horderly⟩
    exact ⟨h.step a hfresh, htidy.step h.toOwners a hfresh horderly⟩
  obtain ⟨-, htidy⟩ := Along.inv hstep hok ⟨hquiet.inv, hfirst⟩
  by_cases hname : name ∈ (run fsStep fs₀ acts).used
  · rw [htidy.made name hname]
    rcases htidy.owned name hname with hgone | ⟨i, w, hw, -⟩
    · exact hgone
    · rw [hover] at hw
      cases hw
  · exact htidy.kept name hhidden hname

/-- The disk is full in the middle of a write. -/
def sampleFull : List FsAction :=
  [.call 0 .slstore [1, 2], .go 0 ⟨none, str "a", 0⟩, .go 0 ⟨none, [], 0⟩, .go 0 ⟨some ioError, [], 1⟩,
    .go 0 ⟨none, [], 0⟩]

/-- In the sample run the names are fresh, nothing is killed and no unlink fails. -/
theorem sampleFull_orderly :
    Along fsStep (fun fs a => FreshName fs a ∧ Orderly fs a) emptyFs sampleFull := by
  refine ⟨⟨trivial, trivial⟩, ⟨?_, ?_⟩, ⟨?_, ?_⟩, ⟨?_, ?_⟩, ⟨?_, ?_⟩, trivial⟩
  · rintro w ⟨⟩ -
    decide
  · rintro w tmp pending ⟨⟩ ⟨⟩
  · rintro w ⟨⟩ ⟨⟩
  · rintro w tmp pending ⟨⟩ ⟨⟩
  · rintro w ⟨⟩ ⟨⟩
  · rintro w tmp pending ⟨⟩ ⟨⟩
  · rintro w ⟨⟩ ⟨⟩
  · rintro w tmp pending ⟨⟩ -
    rfl

theorem sampleFull_over (i : Nat) : (run fsStep emptyFs sampleFull).writers i = none := by
  cases i with
  | zero => rfl
  | succ i => rfl

/-- **A full disk leaves no temporary file.** -/
theorem writes_leave_nothing_full :
    (run fsStep emptyFs sampleFull).files (tempName slstoreFile (str "a")) = none :=
  writes_leave_nothing emptyFs_quiet sampleFull_orderly sampleFull_over (isHidden_tempName _ _)

/-! ## Refinement -/

/-- A system call starts no other call. -/
theorem go_started (fs : Fs) (i : Nat) (w : Writer) (c : Syscall) : (fs.go i w c).started = fs.started := by
  obtain ⟨call, target, data, place⟩ := w
  unfold Fs.go Fs.makeTemp
  cases place <;> dsimp only <;> repeat' split
  all_goals rfl

/-- A step that starts no call. -/
def StartsNone (_ : Fs) : FsAction → Prop
  | .call _ _ _ => False
  | _ => True

/-- Nor does any step but a start. -/
theorem started_step (fs : Fs) (a : FsAction) (h : StartsNone fs a) : (fsStep fs a).started = fs.started := by
  cases a with
  | call i target data => exact h.elim
  | go i c =>
    unfold fsStep
    dsimp only
    cases fs.writers i with
    | some w => exact go_started fs i w c
    | none => rfl
  | crash i => rfl

/-- A list of equal pairs with different names has at most one. -/
theorem eq_nil_or_singleton {α β : Type} {x : α × β} {xs : List (α × β)} (hall : ∀ y ∈ xs, y = x)
    (hdistinct : (xs.map Prod.fst).Nodup) : xs = [] ∨ xs = [x] := by
  cases xs with
  | nil => exact Or.inl rfl
  | cons y ys =>
    obtain rfl := hall y List.mem_cons_self
    cases ys with
    | nil => exact Or.inr rfl
    | cons z zs =>
      obtain rfl := hall z (List.mem_cons_of_mem _ List.mem_cons_self)
      exact absurd List.mem_cons_self (List.nodup_cons.mp hdistinct).1

/-- A call alone has replaced its file or nothing. -/
theorem replaced_alone {d : Dir} (h : FsInv d fs) {target : StoredName} {data : Bytes}
    (hstarted : fs.started = [(target, data)]) :
    fs.replaced = [] ∨ fs.replaced = [(0, target, data)] := by
  refine eq_nil_or_singleton ?_ h.once
  rintro ⟨call, t, bytes⟩ hr
  have hcall := h.replacedCalls _ hr
  rw [hstarted] at hcall
  obtain ⟨hlt, heq⟩ := List.getElem?_eq_some_iff.mp hcall
  obtain rfl := Nat.lt_one_iff.mp hlt
  exact congrArg (Prod.mk 0) heq.symm

/-- **One call** of `_write`, alone, acts on the stored files as `writeFile` does under one of its
    faults, and it returns only where `writeFile` does. -/
theorem write_alone {d : Dir} {fs₀ : Fs} (hquiet : Quiet d fs₀) (i : Nat) (target : StoredName)
    (data : Bytes) {acts : List FsAction}
    (hfresh : Along fsStep FreshName fs₀ (.call i target data :: acts))
    (halone : Along fsStep StartsNone (fsStep fs₀ (.call i target data)) acts) :
    ∃ fault, Ensures (writeFile target.name data) ⟨d, [fault]⟩
      (fun _ disk => Shows (run fsStep fs₀ (.call i target data :: acts)) disk.dir ∧
        ∃ f ∈ (run fsStep fs₀ (.call i target data :: acts)).finished, f.result = .ok ())
      (fun _ disk => Shows (run fsStep fs₀ (.call i target data :: acts)) disk.dir ∧
        ¬ ∃ f ∈ (run fsStep fs₀ (.call i target data :: acts)).finished, f.result = .ok ()) := by
  have h := hquiet.inv_run hfresh
  have hfirst : (fsStep fs₀ (.call i target data)).started = [(target, data)] := by
    unfold fsStep
    dsimp only
    rw [hquiet.writers, hquiet.started]
    rfl
  have hkept : ∀ fs a, fs.started = [(target, data)] → StartsNone fs a →
      (fsStep fs a).started = [(target, data)] := fun fs a hs ha => (started_step fs a ha).trans hs
  have hstarted := Along.inv hkept halone hfirst
  have hshows := h.shows
  -- the call has replaced its target, or has not
  rcases replaced_alone h hstarted with hreplaced | hreplaced
  · rw [hreplaced] at hshows
    refine ⟨.before, hshows, ?_⟩
    rintro ⟨f, hf, hok⟩
    have hmem := h.finished f hf hok
    rw [hreplaced] at hmem
    cases hmem
  · rw [hreplaced] at hshows
    -- behind the replace the call may still raise: then the write has happened, and is not reported
    by_cases hreturned : ∃ f ∈ (run fsStep fs₀ (.call i target data :: acts)).finished, f.result = .ok ()
    · exact ⟨.none, hshows, hreturned⟩
    · exact ⟨.after, hshows, hreturned⟩

end Bedrock.Slhwid
