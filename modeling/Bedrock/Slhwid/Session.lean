/-
  `slhwid/__init__.py`: `prepare` and `Session.commit`.

  Both run against a `Store` and a source of random bytes, kept together in `World`.  `prepare`
  either ENROLLS (no helper stored, or `force_reenroll`): a new key, shared over the current v2
  factors — or RECOVERS the key of the stored helper.  `commit` re-shares the session's key over the
  factors seen at prepare time, if the store still holds the helper the session was prepared from.

  `store_path` of the options only selects the store, which is a parameter here.
-/
import Bedrock.Slhwid.Recover
import Bedrock.Slhwid.Store

open Lib.Fallible Bedrock.Python

namespace Bedrock.Slhwid

/-! ## The world of a call -/

/-- A store, and what the byte source has left. -/
structure World (σ : Type) where
  /-- The store. -/
  store : σ
  /-- The random bytes to come. -/
  source : Bytes

/-- The world of one call: its random bytes and its failures. -/
def Dir.world (d : Dir) (source : Bytes) (faults : List Fault) : World Disk := ⟨⟨d, faults⟩, source⟩

/-- A call runs on its world and may raise. -/
abbrev Prog (σ : Type) := EStateM Exc (World σ)

variable {σ α : Type}

/-- Run a store operation. -/
def onStore (m : EStateM Exc σ α) : Prog σ α := fun w =>
  match m w.store with
  | .ok a s => .ok a { w with store := s }
  | .error e s => .error e { w with store := s }

/-- Draw from the source. -/
def onSource (m : DrawM α) : Prog σ α := fun w =>
  match m w.source with
  | .ok a d => .ok a { w with source := d }
  | .error e d => .error e { w with source := d }

/-! ## Options and sessions -/

/-- `Options`: the names the caller wants hard-locked, and whether to enroll again. -/
structure Options where
  /-- `extra_mandatory`. -/
  extraMandatory : List Str := []
  /-- `force_reenroll`. -/
  forceReenroll : Bool := false

/-- `Session`: what a launch hands to its caller, and what its commit needs. -/
structure Session where
  /-- The identifier. -/
  hwid : Str
  /-- Whether this launch enrolled. -/
  fresh : Bool
  /-- The slots that no longer match. -/
  drifted : List Str
  /-- Whether a refresh is due. -/
  pending : Bool
  /-- Whether it was committed. -/
  committed : Bool := false
  /-- The recovered key, until the commit. -/
  key : Option Limbs
  /-- The machine's values at this launch. -/
  factors : Dict Str
  /-- The mandatory slots, in the current version. -/
  mandatory : Finset Str
  /-- The stored helper, as the session knows it. -/
  expectedHelper : Bytes

/-- The helper id of the device, the only one in use. -/
def deviceHelperId : Str := str "device"

/-- `[a-z0-9_]`. -/
def isSlotChar (c : CodePoint) : Bool :=
  (97 ≤ c.val && c.val ≤ 122) || (48 ≤ c.val && c.val ≤ 57) || c.val == 95

/-- `_SLOT_NAME.match(name)`, the pattern `^[a-z][a-z0-9_]{0,31}$`: the `$` also matches in front of
    a newline that ends the string. -/
def matchesSlotName (name : Str) : Bool :=
  match if name.getLast? = some 10 then name.dropLast else name with
  | [] => false
  | c :: rest => (97 ≤ c.val && c.val ≤ 122) && rest.length ≤ 31 && rest.all isSlotChar

/-- One extra mandatory name of the options. -/
def addMandatory (mandatory : Finset Str) (name : Str) : Except Exc (Finset Str) := do
  raiseIf (¬ matchesSlotName name)
    (.ssError [.lit "slhwid: invalid extra mandatory slot name ", .repr name])
  return insert name mandatory

/-- The first lines of `_prepare_with`. -/
def requestedMandatory (extra : List Str) : Except Exc (Finset Str) :=
  extra.foldlM addMandatory {str "slstore"}

section Hashing

variable [Sha256] [Store σ]

/-! ## Enrollment -/

/-- The error of a stored secret that is not 32 bytes long. -/
def wrongSize : Exc := .corruptHelperError [.lit "slhwid: store secret has the wrong size"]

omit [Sha256] in
/-- `_ensure_slstore`. -/
def ensureSlstore : Prog σ Str := do
  match ← onStore Store.readSlstore with
  | some value =>
    lift (raiseIf (value.length ≠ 32) wrongSize)
    return hexStr value
  | none =>
    let value ← onSource (source 32)
    lift (raiseIf (value.length ≠ 32) (.ssError [.lit "slhwid: randomness failed"]))
    onStore (Store.writeSlstore value)
    return hexStr value

/-- `tuple(d.elem() for _ in range(4))`. -/
def drawKey : DrawM Limbs := do
  let a ← drawElem
  let b ← drawElem
  let c ← drawElem
  let e ← drawElem
  return ![a, b, c, e]

/-- `raw_factors["slstore"]`, created if the factors do not report one. -/
def withSlstore (raw : Dict Str) : Prog σ (Dict Str) := do
  if raw.get (str "slstore") ≠ [] then return raw
  let value ← ensureSlstore
  return raw.insert (str "slstore") value

/-- Every requested hard lock has a factor. -/
def checkMandatory (factors : Dict Str) (mandatory : Finset Str) : Except Exc Unit :=
  (sortedSet mandatory).forM fun name => raiseIf (factors.get name = [])
    (.ssError [.lit "slhwid: mandatory factor ", .repr name,
      .lit " is not available on this machine"])

/-- The enrollment branch of `_prepare_locked`. -/
def enroll (raw : Dict Str) (requested : Finset Str) (hid : Str) : Prog σ Session := do
  let raw ← withSlstore raw
  let factors ← lift (projectFactors raw currentNormVersion)
  let mandatory := mapMandatoryToCurrent requested
  lift (checkMandatory factors mandatory)
  let t ← lift (threshold factors.keys.length mandatory.card)
  let k ← onSource drawKey
  let (shares, salt) ← onSource (buildShares k (slotList factors mandatory) t)
  let cw ← lift (checkWord k)
  let blob ← lift (serializeHelper shares mandatory t salt cw currentNormVersion)
  onStore (Store.writeHelper hid blob)
  let hwid ← lift (hwidOf k)
  return { hwid := hwid, fresh := true, drifted := [], pending := false, key := some k,
           factors := factors, mandatory := mandatory, expectedHelper := blob }

/-! ## Recovery -/

/-- What a helper that does not parse is answered with. -/
def reenrollToRecover : Exc :=
  .corruptHelperError [.lit "slhwid: stored helper data is corrupt; re-enroll to recover"]

omit [Sha256] in
/-- The read-only injection of the stored secret. -/
def injectSlstore (raw : Dict Str) : EStateM Exc σ (Dict Str) := do
  match ← Store.readSlstore with
  | some value =>
    lift (raiseIf (value.length ≠ 32) wrongSize)
    return raw.insert (str "slstore") (hexStr value)
  | none => return raw

omit [Store σ] in
/-- Parse the stored helper; corruption is reported with the way out. -/
def parseStored (blob : Bytes) : Except Exc Helper :=
  match parseHelper blob with
  | .ok helper => .ok helper
  | .error e => .error (if e.isCorruptHelperError then reenrollToRecover else e)

omit [Store σ] in
/-- The recovery branch of `_prepare_locked`. -/
def recoverSession (raw : Dict Str) (blob : Bytes) : Except Exc Session := do
  let helper ← parseStored blob
  let recovery ← projectFactors raw helper.normVersion
  let result ← recoverCore blob recovery
  raiseIf (¬ result.ok) (if result.reason = .corrupt then reenrollToRecover
    else .driftError result.present result.needed result.missing (result.reason = .mandatory))
  let factors ← projectFactors raw currentNormVersion
  return { hwid := result.hwid, fresh := false, drifted := result.dead, pending := result.pending,
           key := result.key, factors := factors,
           mandatory := mapMandatoryToCurrent helper.mandatory, expectedHelper := blob }

/-! ## `prepare` -/

omit [Sha256] in
/-- The first `if` of `_prepare_locked`: with a helper to recover and no `slstore` among the factors,
    the stored one is injected. -/
def completeRaw (options : Options) (found : Bool) (raw : Dict Str) : Prog σ (Dict Str) :=
  if found ∧ ¬ options.forceReenroll ∧ raw.get (str "slstore") = [] then onStore (injectSlstore raw)
  else pure raw

/-- `_prepare_locked`. -/
def prepareLocked (options : Options) (raw : Dict Str) (requested : Finset Str) (hid : Str) :
    Prog σ Session := do
  let (blob, found) ← onStore (Store.readHelper hid)
  let raw ← completeRaw options found raw
  if ¬ found ∨ options.forceReenroll then enroll raw requested hid
  else lift (recoverSession raw blob)

/-- `_prepare_with`, given what the collector reported.  The release of the lock neither fails nor
    touches what is stored. -/
def prepareWith (options : Options) (collected : Dict Str) : Prog σ Session := do
  let mandatory ← lift (requestedMandatory options.extraMandatory)
  let raw ← lift (normalizeFactors collected)
  onStore Store.acquire
  prepareLocked options raw mandatory deviceHelperId

/-! ## `commit` -/

/-- The body of the `try` block of `Session.commit`. -/
def commitLocked (s : Session) (k : Limbs) : Prog σ Session := do
  onStore Store.acquire
  let (current, found) ← onStore (Store.readHelper deviceHelperId)
  if ¬ found ∨ current ≠ s.expectedHelper then return s
  match ← onSource (refreshCore k s.factors s.mandatory) with
  | none => return s
  | some blob =>
    onStore (Store.writeHelper deviceHelperId blob)
    return { s with pending := false, drifted := [] }

/-- `Session.commit`: the session afterwards, what was raised, and the world. -/
def Session.commit (s : Session) (w : World σ) : Session × Except Exc Unit × World σ :=
  match s.key with
  | none => (s, .ok (), w)
  | some k =>
    if s.committed then ({ s with key := none }, .ok (), w)
    else
      match commitLocked s k w with
      | .ok s' w' => ({ s' with committed := true, key := none }, .ok (), w')
      | .error e w' =>
        ({ s with committed := true, key := none },
          if e.isOSError || e.isSsError then .ok () else .error e, w')

end Hashing

end Bedrock.Slhwid
