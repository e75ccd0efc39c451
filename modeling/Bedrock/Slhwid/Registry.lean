/-
  `slhwid/_store.py`: `RegistryStore`, and which of its writes survive a launch.

  1. **Hives** — HKLM and HKCU hold named binary values; each can be read, and may refuse writes.  An
     instance pins one hive (`_selected_root`) by the five-way rule of `_select_root`: a complete pair
     of helper and secret first, HKLM before HKCU.

  2. **Operations** — `RegistryStore` is an instance of `Store`.  `readHelper_run_registry`
     and `writeSelected_eq_ok` say what the two helper operations do: a write goes to the pinned hive, and
     to the first writable one if that hive refuses.

  3. **Durability** — `registry_durable_iff`: a helper that was written is what the next instance
     reads, except where the write fell back to a hive that the rule of the NEXT instance passes over
     (`Stranded`).
-/
import Bedrock.Slhwid.Store

open Lib.Fallible Bedrock.Python

namespace Bedrock.Slhwid

/-! ## Two hives -/

/-- `_HKLM_SOFTWARE_SYSTEMLOCKER` and `_HKCU_SOFTWARE_SYSTEMLOCKER`. -/
inductive Root
  | hklm | hkcu
  deriving DecidableEq

/-- The values of one `SOFTWARE\SystemLocker` key, and whether it may be written. -/
structure Hive where
  /-- None is empty: `winreg` reads an empty `REG_BINARY` as `None`, and no write of the store leaves
      one. -/
  values : Dict Bytes
  /-- Whether the process may write there. -/
  writable : Bool

/-- The two hives of a Windows machine. -/
structure Registry where
  hklm : Hive
  hkcu : Hive

/-- A hive, by its root. -/
def Registry.hive (r : Registry) : Root → Hive
  | .hklm => r.hklm
  | .hkcu => r.hkcu

/-- `_read`. -/
def Registry.read (r : Registry) (root : Root) (name : Str) : Option Bytes :=
  (r.hive root).values.lookup name

/-- A value is written into a hive .. -/
def Hive.set (h : Hive) (name : Str) (data : Bytes) : Hive := { h with values := h.values.insert name data }

/-- .. or into one of the two. -/
def Registry.set (r : Registry) (root : Root) (name : Str) (data : Bytes) : Registry :=
  match root with
  | .hklm => { r with hklm := r.hklm.set name data }
  | .hkcu => { r with hkcu := r.hkcu.set name data }

/-- What was written is read. -/
@[simp] theorem Registry.read_set_self (r : Registry) (root : Root) (name : Str) (data : Bytes) :
    (r.set root name data).read root name = some data := by
  cases root with
  | hklm => exact AList.lookup_insert _
  | hkcu => exact AList.lookup_insert _

/-- Another value keeps its contents. -/
theorem Registry.read_set_of_ne {name other : Str} (h : other ≠ name) (r : Registry) (root root' : Root)
    (data : Bytes) : (r.set root name data).read root' other = r.read root' other := by
  cases root with
  | hklm =>
    cases root' with
    | hklm => exact AList.lookup_insert_ne h
    | hkcu => rfl
  | hkcu =>
    cases root' with
    | hklm => rfl
    | hkcu => exact AList.lookup_insert_ne h

/-- The other hive keeps its contents. -/
theorem Registry.read_set_other {root root' : Root} (h : root' ≠ root) (r : Registry)
    (name other : Str) (data : Bytes) : (r.set root name data).read root' other = r.read root' other := by
  cases root with
  | hklm =>
    cases root' with
    | hklm => exact absurd rfl h
    | hkcu => rfl
  | hkcu =>
    cases root' with
    | hklm => rfl
    | hkcu => exact absurd rfl h

/-! ## The store -/

/-- An instance of `RegistryStore`: what it sees, the hive it has pinned, and whether the lock in its
    lock directory can be had. -/
structure RegistryStore where
  /-- The two hives. -/
  registry : Registry
  /-- The hive the launch has settled on. -/
  selected : Option Root
  /-- Whether the lock in its lock directory can be had. -/
  lockFree : Bool

/-- The name of the stored secret .. -/
def slstoreName : Str := str "SLStore"

/-- .. and that of a helper's value. -/
def helperName (helperId : Str) : Str := str "HWID-" ++ helperId

/-- They are different values. -/
theorem slstoreName_ne (helperId : Str) : slstoreName ≠ helperName helperId := by
  intro h
  have hhead := congrArg List.head? h
  revert hhead
  show (some _ : Option CodePoint) ≠ some _
  decide

/-- The rule of `_select_root`, on what the two hives hold. -/
def Registry.choose (r : Registry) (name : Str) : Option Root :=
  let lmHelper := if name ≠ [] then r.read .hklm name else none
  let cuHelper := if name ≠ [] then r.read .hkcu name else none
  let lmStore := r.read .hklm slstoreName
  let cuStore := r.read .hkcu slstoreName
  if lmHelper.isSome ∧ lmStore.isSome ∨ name = [] ∧ lmStore.isSome then some .hklm
  else if cuHelper.isSome ∧ cuStore.isSome ∨ name = [] ∧ cuStore.isSome then some .hkcu
  else if lmHelper.isSome ∨ lmStore.isSome then some .hklm
  else if cuHelper.isSome ∨ cuStore.isSome then some .hkcu
  else none

/-- `_select_root`. -/
def selectRoot (name : Str) : EStateM Exc RegistryStore (Option Root) := do
  let s ← get
  if s.selected.isSome then return s.selected
  set { s with selected := s.registry.choose name }
  return s.registry.choose name

/-- `_write`. -/
def writeValue (root : Root) (name : Str) (data : Bytes) : EStateM Exc RegistryStore Bool := do
  let s ← get
  if (s.registry.hive root).writable then
    set { s with registry := s.registry.set root name data }
    return true
  return false

/-- The loop of `_write_selected` over the candidates. -/
def writeCandidates (name : Str) (data : Bytes) : List Root → EStateM Exc RegistryStore Unit
  | [] => throw (.osError [.lit "slhwid: registry write failed"])
  | candidate :: rest => do
    if ← writeValue candidate name data then
      modify fun s => { s with selected := some candidate }
    else writeCandidates name data rest

/-- The first `if` of `_write_selected`. -/
def writePinned (root : Option Root) (name : Str) (data : Bytes) : EStateM Exc RegistryStore Bool :=
  match root with
  | some root => writeValue root name data
  | none => pure false

/-- `_write_selected`. -/
def writeSelected (name : Str) (data : Bytes) : EStateM Exc RegistryStore Unit := do
  let root ← selectRoot []
  if ← writePinned root name data then return ()
  else writeCandidates name data [.hklm, .hkcu]

/-- `_read` on the pinned hive. -/
def readPinned (root : Option Root) (name : Str) : EStateM Exc RegistryStore (Option Bytes) := do
  let s ← get
  return root.bind fun root => s.registry.read root name

/-- `RegistryStore`. -/
instance : Store RegistryStore where
  acquire := do
    let s ← get
    lift (raiseIf (¬ s.lockFree) (.osError [.lit "slhwid: storage is busy; retry the operation"]))
  readSlstore := do
    let root ← selectRoot []
    match ← readPinned root slstoreName with
    | some data => return some (← lift (unwrapSlstore data))
    | none => return none
  writeSlstore value := writeSelected slstoreName (slstorePrefix ++ value)
  readHelper helperId := do
    let root ← selectRoot (helperName helperId)
    match ← readPinned root (helperName helperId) with
    | some blob => return (blob, true)
    | none => return ([], false)
  writeHelper helperId blob := writeSelected (helperName helperId) blob

/-- A launch: a new instance over the hives as they are. -/
def Registry.launch (r : Registry) : RegistryStore := ⟨r, none, true⟩

/-! ## What the operations do -/

/-- The hive that is pinned once `_select_root(name)` has run. -/
def RegistryStore.pinned (s : RegistryStore) (name : Str) : Option Root :=
  match s.selected with
  | some root => some root
  | none => s.registry.choose name

/-- `_select_root` looks, and writes nothing but the choice into the store. -/
theorem selectRoot_run (name : Str) (s : RegistryStore) :
    selectRoot name s = .ok (s.pinned name) { s with selected := s.pinned name } := by
  obtain ⟨registry, selected, lockFree⟩ := s
  cases selected with
  | none => rfl
  | some root => rfl

theorem readPinned_run (root : Option Root) (name : Str) (s : RegistryStore) :
    readPinned root name s = .ok (root.bind fun root => s.registry.read root name) s := rfl

/-- A write succeeds exactly in a hive that takes writes. -/
theorem writeValue_run (root : Root) (name : Str) (data : Bytes) (s : RegistryStore) :
    writeValue root name data s =
      if (s.registry.hive root).writable then
        .ok true { s with registry := s.registry.set root name data }
      else .ok false s := by
  show (if (s.registry.hive root).writable then _ else _ : EStateM Exc RegistryStore Bool) s = _
  by_cases hw : (s.registry.hive root).writable = true
  · rw [if_pos hw, if_pos hw]; rfl
  · rw [if_neg hw, if_neg hw]; rfl

/-- `read_helper` pins a hive and reads there. -/
theorem readHelper_run_registry (helperId : Str) (s : RegistryStore) :
    Store.readHelper helperId s =
      .ok (match (s.pinned (helperName helperId)).bind fun root =>
              s.registry.read root (helperName helperId) with
            | some blob => (blob, true)
            | none => ([], false))
        { s with selected := s.pinned (helperName helperId) } := by
  refine (run_bind_ok (selectRoot_run (helperName helperId) s) _).trans ?_
  refine (run_bind_ok (readPinned_run _ _ _) _).trans ?_
  show (match (s.pinned (helperName helperId)).bind fun root =>
      s.registry.read root (helperName helperId) with
    | some blob => pure (blob, true)
    | none => pure ([], false) : EStateM Exc RegistryStore (Bytes × Bool)) _ = _
  cases (s.pinned (helperName helperId)).bind fun root => s.registry.read root (helperName helperId) with
  | none => rfl
  | some blob => rfl

/-- The hive a write ends up in: the pinned one if it may be written, else the first that may. -/
def Registry.target (r : Registry) (pinned : Option Root) : Option Root :=
  if pinned = some .hklm ∧ r.hklm.writable then some .hklm
  else if pinned = some .hkcu ∧ r.hkcu.writable then some .hkcu
  else if r.hklm.writable then some .hklm
  else if r.hkcu.writable then some .hkcu
  else none

/-- Where the pinned hive refuses, the fallback is the same as without a pin. -/
theorem Registry.target_of_refused {r : Registry} {root : Root} (h : (r.hive root).writable = false) :
    r.target (some root) = r.target none := by
  cases root with
  | hklm =>
    have h' : r.hklm.writable = false := h
    simp [Registry.target, h']
  | hkcu =>
    have h' : r.hkcu.writable = false := h
    simp [Registry.target, h']

theorem Registry.target_of_writable {r : Registry} {root : Root}
    (h : (r.hive root).writable = true) : r.target (some root) = some root := by
  cases root with
  | hklm => exact if_pos ⟨rfl, h⟩
  | hkcu =>
    have h' : r.hkcu.writable = true := h
    simp [Registry.target, h']

/-- Where a write ends up says what could be written. -/
theorem Registry.target_eq_hklm {r : Registry} {pinned : Option Root}
    (h : r.target pinned = some .hklm) :
    r.hklm.writable = true ∧ (r.hkcu.writable = true → pinned ≠ some .hkcu) := by
  unfold Registry.target at h
  by_cases hlm : r.hklm.writable = true
  · refine ⟨hlm, fun hcu hpin => ?_⟩
    rw [hpin, if_neg (by simp), if_pos ⟨rfl, hcu⟩] at h
    cases h
  · rw [if_neg (by simp [hlm])] at h
    split_ifs at h
    all_goals cases h

/-- A write ends in HKCU if HKLM refuses, or if it was pinned. -/
theorem Registry.target_eq_hkcu {r : Registry} {pinned : Option Root}
    (h : r.target pinned = some .hkcu) :
    r.hkcu.writable = true ∧ (r.hklm.writable = true → pinned = some .hkcu) := by
  unfold Registry.target at h
  by_cases hpin : pinned = some .hkcu ∧ r.hkcu.writable = true
  · exact ⟨hpin.2, fun _ => hpin.1⟩
  rw [if_neg hpin] at h
  by_cases hlm : r.hklm.writable = true
  · rw [if_pos hlm, ite_self] at h
    cases h
  · rw [if_neg hlm, if_neg fun hand => hlm hand.2] at h
    by_cases hcu : r.hkcu.writable = true
    · exact ⟨hcu, fun habs => absurd habs hlm⟩
    · rw [if_neg hcu] at h
      cases h

/-- What the loop over the candidates wrote, it wrote into the first hive that takes writes. -/
theorem writeCandidates_eq_ok {name : Str} {data : Bytes} {s s' : RegistryStore}
    (h : writeCandidates name data [.hklm, .hkcu] s = .ok () s') :
    ∃ root, s.registry.target none = some root ∧
      s' = { s with registry := s.registry.set root name data, selected := some root } := by
  obtain ⟨wrote, s₁, hw, h⟩ := run_bind_eq_ok.mp h
  rw [writeValue_run] at hw
  -- the machine's hive is tried first, the user's second
  by_cases hlm : (s.registry.hive .hklm).writable = true
  · rw [if_pos hlm] at hw
    obtain ⟨rfl, rfl⟩ := EStateM.Result.ok.inj hw
    cases h
    have hlm' : s.registry.hklm.writable = true := hlm
    exact ⟨.hklm, by simp [Registry.target, hlm'], rfl⟩
  · rw [if_neg hlm] at hw
    obtain ⟨rfl, rfl⟩ := EStateM.Result.ok.inj hw
    have hlm' : ¬ s.registry.hklm.writable = true := hlm
    obtain ⟨wrote, s₂, hw, h⟩ := run_bind_eq_ok.mp h
    rw [writeValue_run] at hw
    by_cases hcu : (s.registry.hive .hkcu).writable = true
    · rw [if_pos hcu] at hw
      obtain ⟨rfl, rfl⟩ := EStateM.Result.ok.inj hw
      cases h
      have hcu' : s.registry.hkcu.writable = true := hcu
      exact ⟨.hkcu, by simp [Registry.target, hlm', hcu'], rfl⟩
    · rw [if_neg hcu] at hw
      obtain ⟨rfl, rfl⟩ := EStateM.Result.ok.inj hw
      cases h

/-- **A write that returns** put its data into the pinned hive, or into the first writable one, which
    is pinned from then on. -/
theorem writeSelected_eq_ok {name : Str} {data : Bytes} {s s' : RegistryStore}
    (h : writeSelected name data s = .ok () s') :
    ∃ root, s.registry.target (s.pinned []) = some root ∧
      s' = { s with registry := s.registry.set root name data, selected := some root } := by
  rw [writeSelected, run_bind_ok (selectRoot_run [] s)] at h
  obtain ⟨wrote, s₁, hw, h⟩ := run_bind_eq_ok.mp h
  -- without a pin the two are tried in this order; a pinned hive comes before both
  cases hpin : s.pinned [] with
  | none =>
    rw [hpin] at hw
    obtain ⟨rfl, rfl⟩ := EStateM.Result.ok.inj hw
    have hloop : writeCandidates name data [.hklm, .hkcu] { s with selected := none } = .ok () s' := h
    obtain ⟨root, htarget, hset⟩ := writeCandidates_eq_ok hloop
    exact ⟨root, htarget, hset⟩
  | some root =>
    rw [hpin, writePinned, writeValue_run] at hw
    dsimp only at hw
    by_cases hroot : (s.registry.hive root).writable = true
    · rw [if_pos hroot] at hw
      obtain ⟨rfl, rfl⟩ := EStateM.Result.ok.inj hw
      cases h
      exact ⟨root, Registry.target_of_writable hroot, rfl⟩
    · -- the pin is ignored once its hive refuses
      rw [if_neg hroot] at hw
      obtain ⟨rfl, rfl⟩ := EStateM.Result.ok.inj hw
      rw [Registry.target_of_refused (Bool.eq_false_iff.mpr hroot)]
      have hloop : writeCandidates name data [.hklm, .hkcu] { s with selected := some root } =
        .ok () s' := h
      obtain ⟨root, htarget, hset⟩ := writeCandidates_eq_ok hloop
      exact ⟨root, htarget, hset⟩

/-! ## The rule of the next instance -/

/-- The value is there. -/
def Registry.has (r : Registry) (root : Root) (name : Str) : Bool := (r.read root name).isSome

/-- HKLM comes first even when HKCU holds the helper: its own pair is complete, or it holds
    something and the pair of HKCU lacks the secret. -/
def Registry.HklmWins (r : Registry) (name : Str) : Prop :=
  (r.has .hklm name ∧ r.has .hklm slstoreName) ∨
    ((r.has .hklm name ∨ r.has .hklm slstoreName) ∧ ¬ r.has .hkcu slstoreName)

/-- HKCU comes first even when HKLM holds the helper: its pair is complete, that of HKLM lacks the
    secret. -/
def Registry.HkcuWins (r : Registry) (name : Str) : Prop :=
  r.has .hkcu name ∧ r.has .hkcu slstoreName ∧ ¬ r.has .hklm slstoreName

/-- Which hive wins is read off the registry .. -/
instance (r : Registry) (name : Str) : Decidable (r.HklmWins name) :=
  inferInstanceAs (Decidable (_ ∨ _))

/-- .. for either of them. -/
instance (r : Registry) (name : Str) : Decidable (r.HkcuWins name) :=
  inferInstanceAs (Decidable (_ ∧ _))

theorem helperName_ne_nil (helperId : Str) : helperName helperId ≠ [] := List.cons_ne_nil _ _

/-- The five-way rule for a helper. -/
theorem Registry.choose_helper (r : Registry) (helperId : Str) :
    r.choose (helperName helperId) =
      if r.has .hklm (helperName helperId) ∧ r.has .hklm slstoreName then some .hklm
      else if r.has .hkcu (helperName helperId) ∧ r.has .hkcu slstoreName then some .hkcu
      else if r.has .hklm (helperName helperId) ∨ r.has .hklm slstoreName then some .hklm
      else if r.has .hkcu (helperName helperId) ∨ r.has .hkcu slstoreName then some .hkcu
      else none := by
  unfold Registry.choose Registry.has
  simp only [if_pos (helperName_ne_nil helperId), helperName_ne_nil helperId, false_and, or_false]

/-- Where no pair exists there is no secret either. -/
theorem Registry.choose_nil_of_none {r : Registry} {helperId : Str}
    (h : r.choose (helperName helperId) = none) : r.choose [] = none := by
  rw [Registry.choose_helper] at h
  split_ifs at h with _ _ h₃ h₄
  have hlm : ¬ r.has .hklm slstoreName = true := fun hs => h₃ (Or.inr hs)
  have hcu : ¬ r.has .hkcu slstoreName = true := fun hs => h₄ (Or.inr hs)
  unfold Registry.has at hlm hcu
  simp [Registry.choose, hlm, hcu]

theorem Registry.has_set_self (r : Registry) (root : Root) (name : Str) (data : Bytes) :
    (r.set root name data).has root name = true := by
  rw [Registry.has, Registry.read_set_self]
  rfl

theorem Registry.has_set_slstore (r : Registry) (root root' : Root) (helperId : Str) (data : Bytes) :
    (r.set root (helperName helperId) data).has root' slstoreName = r.has root' slstoreName := by
  rw [Registry.has, Registry.read_set_of_ne (slstoreName_ne helperId), Registry.has]

theorem Registry.has_set_other {root root' : Root} (h : root' ≠ root) (r : Registry) (name : Str)
    (data : Bytes) : (r.set root name data).has root' name = r.has root' name := by
  rw [Registry.has, Registry.read_set_other h, Registry.has]

/-- After a write to HKLM the next instance looks there, unless HKCU wins. -/
theorem Registry.choose_set_hklm (r : Registry) (helperId : Str) (blob : Bytes) :
    (r.set .hklm (helperName helperId) blob).choose (helperName helperId) =
      if r.HkcuWins (helperName helperId) then some .hkcu else some .hklm := by
  have hself := r.has_set_self .hklm (helperName helperId) blob
  rw [Registry.choose_helper, Registry.has_set_slstore, Registry.has_set_slstore,
    Registry.has_set_other (show Root.hkcu ≠ Root.hklm by decide)]
  by_cases hlm : r.has .hklm slstoreName = true
  · have hno : ¬ r.HkcuWins (helperName helperId) := fun h => h.2.2 hlm
    rw [if_pos ⟨hself, hlm⟩, if_neg hno]
  · rw [if_neg fun h => hlm h.2, if_pos (Or.inl hself)]
    by_cases hcu : r.has .hkcu (helperName helperId) ∧ r.has .hkcu slstoreName
    · have hwins : r.HkcuWins (helperName helperId) := ⟨hcu.1, hcu.2, hlm⟩
      rw [if_pos hcu, if_pos hwins]
    · have hno : ¬ r.HkcuWins (helperName helperId) := fun h => hcu ⟨h.1, h.2.1⟩
      rw [if_neg hcu, if_neg hno]

/-- After a write to HKCU the next instance looks there, unless HKLM wins. -/
theorem Registry.choose_set_hkcu (r : Registry) (helperId : Str) (blob : Bytes) :
    (r.set .hkcu (helperName helperId) blob).choose (helperName helperId) =
      if r.HklmWins (helperName helperId) then some .hklm else some .hkcu := by
  have hself := r.has_set_self .hkcu (helperName helperId) blob
  rw [Registry.choose_helper, Registry.has_set_slstore, Registry.has_set_slstore,
    Registry.has_set_other (show Root.hklm ≠ Root.hkcu by decide)]
  by_cases hfull : r.has .hklm (helperName helperId) ∧ r.has .hklm slstoreName
  · have hwins : r.HklmWins (helperName helperId) := Or.inl hfull
    rw [if_pos hfull, if_pos hwins]
  · rw [if_neg hfull]
    by_cases hcu : r.has .hkcu slstoreName = true
    · have hno : ¬ r.HklmWins (helperName helperId) := fun h =>
        h.elim hfull fun h => h.2 hcu
      rw [if_pos ⟨hself, hcu⟩, if_neg hno]
    · rw [if_neg fun h => hcu h.2]
      by_cases hsome : r.has .hklm (helperName helperId) ∨ r.has .hklm slstoreName
      · have hwins : r.HklmWins (helperName helperId) := Or.inr ⟨hsome, hcu⟩
        rw [if_pos hsome, if_pos hwins]
      · have hno : ¬ r.HklmWins (helperName helperId) := fun h =>
          h.elim (fun h => hsome (Or.inl h.1)) fun h => hsome h.1
        rw [if_neg hsome, if_pos (Or.inl hself), if_neg hno]

/-- Where HKCU wins the rule already picks it; where HKLM wins it does not pick HKCU. -/
theorem Registry.choose_of_hkcuWins {r : Registry} {helperId : Str}
    (h : r.HkcuWins (helperName helperId)) : r.choose (helperName helperId) = some .hkcu := by
  rw [Registry.choose_helper, if_neg fun hlm => h.2.2 hlm.2, if_pos ⟨h.1, h.2.1⟩]

/-- Where HKLM wins it is chosen. -/
theorem Registry.choose_of_hklmWins {r : Registry} {helperId : Str}
    (h : r.HklmWins (helperName helperId)) : r.choose (helperName helperId) = some .hklm := by
  rw [Registry.choose_helper]
  rcases h with hfull | ⟨hsome, hcu⟩
  · rw [if_pos hfull]
  · rw [if_neg (fun h : r.has .hkcu (helperName helperId) ∧ r.has .hkcu slstoreName => hcu h.2),
      if_pos hsome, ite_self]

/-! ## Durability -/

/-- What the next instance reads. -/
theorem readHelper_launch_iff (r : Registry) (helperId : Str) (blob : Bytes) :
    (∃ s, Store.readHelper helperId r.launch = .ok (blob, true) s) ↔
      ∃ root, r.choose (helperName helperId) = some root ∧ r.read root (helperName helperId) = some blob := by
  have hpin : r.launch.pinned (helperName helperId) = r.choose (helperName helperId) := rfl
  have hreg : r.launch.registry = r := rfl
  rw [readHelper_run_registry, hpin, hreg]
  constructor
  · rintro ⟨s, h⟩
    have hval := (EStateM.Result.ok.inj h).1
    split at hval
    · rename_i b hb
      obtain ⟨root, hroot, hread⟩ := Option.bind_eq_some_iff.mp hb
      refine ⟨root, hroot, hread.trans ?_⟩
      rw [(Prod.mk.inj hval).1]
    · cases (Prod.mk.inj hval).2
  · rintro ⟨root, hroot, hread⟩
    have hb : ((r.choose (helperName helperId)).bind fun root => r.read root (helperName helperId)) =
        some blob := by
      rw [hroot]
      exact hread
    exact ⟨_, by rw [hb]⟩

/-- What was pinned for the helper stays pinned. -/
theorem RegistryStore.pinned_again (s : RegistryStore) (helperId : Str) :
    ({ s with selected := s.pinned (helperName helperId) } : RegistryStore).pinned [] =
      s.pinned (helperName helperId) := by
  unfold RegistryStore.pinned
  cases hsel : s.selected with
  | some root => rfl
  | none =>
    dsimp only
    cases hchoose : s.registry.choose (helperName helperId) with
    | some root => rfl
    | none => exact Registry.choose_nil_of_none hchoose

/-- A write of `blob` by an instance in state `s` is stranded: it goes to one hive — pinned there
    before, or because the other refuses — while the next instance prefers the other hive, which
    holds something else. -/
def Stranded (s : RegistryStore) (helperId : Str) (blob : Bytes) : Prop :=
  (s.registry.hkcu.writable = true ∧ (s.selected = some .hkcu ∨ s.registry.hklm.writable = false) ∧
    s.registry.HklmWins (helperName helperId) ∧
    s.registry.read .hklm (helperName helperId) ≠ some blob) ∨
  (s.registry.hklm.writable = true ∧ (s.selected = some .hklm ∨ s.registry.hkcu.writable = false) ∧
    s.registry.HkcuWins (helperName helperId) ∧
    s.registry.read .hkcu (helperName helperId) ≠ some blob)

/-- **Registry writes are durable exactly where they are not stranded**: after `read_helper` and a
    `write_helper` that returned, a new instance reads the written helper. -/
theorem registry_durable_iff {s s₁ s₂ : RegistryStore} {helperId : Str} {blob : Bytes}
    {before : Bytes × Bool} (hread : Store.readHelper helperId s = .ok before s₁)
    (hwrite : Store.writeHelper helperId blob s₁ = .ok () s₂) :
    (∃ s₃, Store.readHelper helperId s₂.registry.launch = .ok (blob, true) s₃) ↔
      ¬ Stranded s helperId blob := by
  rw [readHelper_run_registry] at hread
  obtain ⟨_, rfl⟩ := EStateM.Result.ok.inj hread
  obtain ⟨root, htarget, hset⟩ := writeSelected_eq_ok hwrite
  rw [RegistryStore.pinned_again] at htarget
  have hset' : s₂.registry = s.registry.set root (helperName helperId) blob := by rw [hset]
  have htarget' : s.registry.target (s.pinned (helperName helperId)) = some root := htarget
  rw [readHelper_launch_iff, hset']
  -- where the helper went; the next launch chooses a hive by what is in them then
  cases root with
  | hklm =>
    obtain ⟨hlm, hfirst⟩ := Registry.target_eq_hklm htarget'
    have hstranded : Stranded s helperId blob ↔ s.registry.HkcuWins (helperName helperId) ∧
        s.registry.read .hkcu (helperName helperId) ≠ some blob := by
      constructor
      · -- the two ways to be stranded, of which one does not fit this hive
        rintro (⟨hcu, hsel | hno, _⟩ | ⟨_, _, hwins, hne⟩)
        · exact absurd (by rw [RegistryStore.pinned, hsel]) (hfirst hcu)
        · rw [hlm] at hno; cases hno
        · exact ⟨hwins, hne⟩
      · rintro ⟨hwins, hne⟩
        refine Or.inr ⟨hlm, ?_, hwins, hne⟩
        by_cases hcu : s.registry.hkcu.writable = true
        · have hpin := hfirst hcu
          unfold RegistryStore.pinned at hpin
          cases hsel : s.selected with
          | none =>
            rw [hsel] at hpin
            -- a pin chosen by this session is the one `choose` gives, and that would be the other hive
            exact absurd (Registry.choose_of_hkcuWins hwins) hpin
          | some root =>
            rw [hsel] at hpin
            cases root with
            | hklm => exact Or.inl rfl
            | hkcu => exact absurd rfl hpin
        · exact Or.inr (Bool.eq_false_iff.mpr hcu)
    -- behind the write the user's hive is chosen only if it was complete before, and this one not
    rw [hstranded, Registry.choose_set_hklm]
    by_cases hwins : s.registry.HkcuWins (helperName helperId)
    · rw [if_pos hwins]
      simp [hwins, Registry.read_set_other (show Root.hkcu ≠ Root.hklm by decide)]
    · rw [if_neg hwins]
      simp [hwins]
  -- the same with the hives exchanged
  | hkcu =>
    obtain ⟨hcu, honly⟩ := Registry.target_eq_hkcu htarget'
    have hstranded : Stranded s helperId blob ↔ s.registry.HklmWins (helperName helperId) ∧
        s.registry.read .hklm (helperName helperId) ≠ some blob := by
      constructor
      · rintro (⟨_, _, hwins, hne⟩ | ⟨hlm, hsel | hno, _⟩)
        · exact ⟨hwins, hne⟩
        · have hpin := honly hlm
          rw [RegistryStore.pinned, hsel] at hpin
          cases hpin
        · rw [hcu] at hno; cases hno
      · rintro ⟨hwins, hne⟩
        refine Or.inl ⟨hcu, ?_, hwins, hne⟩
        by_cases hlm : s.registry.hklm.writable = true
        · have hpin := honly hlm
          unfold RegistryStore.pinned at hpin
          cases hsel : s.selected with
          | none =>
            rw [hsel] at hpin
            rw [Registry.choose_of_hklmWins hwins] at hpin
            cases hpin
          | some root =>
            rw [hsel] at hpin
            exact Or.inl hpin
        · exact Or.inr (Bool.eq_false_iff.mpr hlm)
    -- behind the write the machine's hive is chosen if it has the pair, or is the only one with a part
    -- of it
    rw [hstranded, Registry.choose_set_hkcu]
    by_cases hwins : s.registry.HklmWins (helperName helperId)
    · rw [if_pos hwins]
      simp [hwins, Registry.read_set_other (show Root.hklm ≠ Root.hkcu by decide)]
    · rw [if_neg hwins]
      simp [hwins]

/-! ## An elevated enrollment -/

/-- HKLM holds a pair that an elevated process enrolled; HKCU is empty and writable. -/
def elevated (writable : Bool) : Registry where
  hklm := ⟨AList.insert (helperName (str "device")) [1] (AList.insert slstoreName [2] ∅), writable⟩
  hkcu := ⟨∅, true⟩

/-- A pair over two hives: HKLM holds the helper and refuses writes, HKCU the secret. -/
def refusing : Registry where
  hklm := ⟨AList.insert (helperName (str "device")) [1] ∅, false⟩
  hkcu := ⟨AList.insert slstoreName [2] ∅, true⟩

/-- HKLM is pinned and refuses the write, which falls back to HKCU and makes its pair complete; the next
    launch reads it there. -/
theorem registry_durable_iff_sample :
    ∃ before s₁ s₂ s₃, Store.readHelper (str "device") refusing.launch = .ok before s₁ ∧
      Store.writeHelper (str "device") [3] s₁ = .ok () s₂ ∧
      s₁.selected = some .hklm ∧ s₂.selected = some .hkcu ∧
      Store.readHelper (str "device") s₂.registry.launch = .ok ([3], true) s₃ := by
  have hread : Store.readHelper (str "device") refusing.launch =
      .ok ([1], true) { refusing.launch with selected := some .hklm } := rfl
  have hwrite : Store.writeHelper (str "device") [3]
      { refusing.launch with selected := some Root.hklm } =
      .ok () { refusing.launch with
        registry := refusing.set .hkcu (helperName (str "device")) [3]
        selected := some .hkcu } := rfl
  have hkept : ¬ Stranded refusing.launch (str "device") [3] := by
    rintro (⟨_, _, hwins, _⟩ | ⟨hlm, _⟩)
    · revert hwins
      decide +kernel
    · cases hlm
  obtain ⟨s₃, hs₃⟩ := (registry_durable_iff hread hwrite).mpr hkept
  exact ⟨_, _, _, s₃, hread, hwrite, rfl, rfl, hs₃⟩

/-- **A write can be lost**: a process that is not elevated refreshes the helper; the write falls back
    to HKCU and returns, and the next launch reads the old helper from HKLM. -/
theorem fallback_write_lost :
    ∃ before s₁ s₂, Store.readHelper (str "device") (elevated false).launch = .ok before s₁ ∧
      Store.writeHelper (str "device") [3] s₁ = .ok () s₂ ∧
      ¬ ∃ s₃, Store.readHelper (str "device") s₂.registry.launch = .ok ([3], true) s₃ := by
  have hread : Store.readHelper (str "device") (elevated false).launch =
      .ok ([1], true) { (elevated false).launch with selected := some .hklm } := rfl
  have hwrite : Store.writeHelper (str "device") [3]
      { (elevated false).launch with selected := some Root.hklm } =
      .ok () { (elevated false).launch with
        registry := (elevated false).set .hkcu (helperName (str "device")) [3]
        selected := some .hkcu } := rfl
  refine ⟨_, _, _, hread, hwrite, ?_⟩
  rintro ⟨s₃, hs₃⟩
  have hold : Store.readHelper (str "device")
      ((elevated false).set .hkcu (helperName (str "device")) [3]).launch = .ok ([1], true)
        { ((elevated false).set .hkcu (helperName (str "device")) [3]).launch with
          selected := some .hklm } := rfl
  have hsame := EStateM.Result.ok.inj (hold.symm.trans hs₃)
  exact absurd hsame.1 (by decide)

end Bedrock.Slhwid
