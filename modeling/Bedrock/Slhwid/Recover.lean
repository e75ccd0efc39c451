/-
  `slhwid/core.py`, recovery: from a helper blob and the factors of this launch back to the key.

  1. **The sweep** — `findRecoveringSubset` tries every `t`-point set that contains all mandatory
     points, in `itertools.combinations` order, and keeps the FIRST whose key has the stored check
     word.

  2. **The verdict** — `recoverCore`: gather the points of the slots that are present, sweep, and
     then either report the missing mandatory slots, or diagnose a changed mandatory slot by leaving
     each one out in turn, or sort the slots into live and dead ones.

  3. **The refresh** — `refreshCore` shares the recovered key over the current factors, or writes
     nothing when a hard lock or the threshold rule cannot be met.

  Interpolation divides by differences of coordinates, so all of this can raise where two
  coordinates coincide: hence `Except` throughout.
-/
import Bedrock.Lib.Combinations
import Bedrock.Slhwid.Helper

open Lib.Fallible Lib.Combinations Bedrock.Python

namespace Bedrock.Slhwid

/-- A candidate point: a slot's coordinate under the current factors, its stored share, its name. -/
structure Point where
  /-- The slot's coordinate. -/
  x : Nat
  /-- Its share. -/
  share : Limbs
  /-- Its name. -/
  name : Str
  deriving Inhabited

/-- `_key_from_points`. -/
def keyFromPoints (points : List Point) : Except Exc Limbs :=
  let xs := points.map Point.x
  forLimbs fun limb => lagrangeAtZero xs (points.map fun p => p.share limb)

/-- `_is_mandatory`. -/
def isMandatory (helper : Helper) (name : Str) : Bool :=
  match helper.slots.find? fun s => s.name = name with
  | some s => s.mandatory
  | none => false

/-- Why a recovery failed: `result.reason`. -/
inductive Reason
  | none | corrupt | mandatory | drift
  deriving DecidableEq, Repr

/-- `RecoverResult`: the key if one was found, the drifted slots, and what kept it from recovering. -/
structure RecoverResult where
  /-- Whether a key was found. -/
  ok : Bool := false
  /-- Why not, where none was. -/
  reason : Reason := .none
  key : Option Limbs := none
  hwid : Str := []
  /-- The slots on the curve .. -/
  live : List Str := []
  /-- .. and those off it. -/
  dead : List Str := []
  /-- Whether a refresh is due. -/
  pending : Bool := false
  /-- How many slots had a value. -/
  present : Nat := 0
  /-- How many are needed. -/
  needed : Nat := 0
  /-- What a failure blames. -/
  missing : List Str := []
  deriving DecidableEq

section Hashing

variable [Sha256]

/-! ## The sweep -/

/-- What a sweep finds: the points that recover the key, and the names of the optional ones. -/
abbrev Found := Option (List Point × Finset Str)

/-- One pass of the sweep.  After a match the combination is still visited, but not evaluated. -/
def tryCombo (mandatory optional : List Point) (cw : Bytes) (found : Found) (combo : List Nat) :
    Except Exc Found := do
  let chosen := combo.map fun i => optional[i]!
  let points := mandatory ++ chosen
  if found.isSome then return found
  let key ← keyFromPoints points
  let word ← checkWord key
  return if word = cw then some (points, (chosen.map Point.name).toFinset) else none

/-- `_find_recovering_subset`. -/
def findRecoveringSubset (mandatory optional : List Point) (t : Nat) (cw : Bytes) :
    Except Exc Found := do
  let need := t - mandatory.length
  if need > optional.length then return none
  (combinations need (List.range optional.length)).foldlM (tryCombo mandatory optional cw) none

/-! ## The verdict -/

/-- What the first loop of `recover_core` collects. -/
structure Gathered where
  /-- The points every candidate set has .. -/
  mandatory : List Point
  /-- .. and those it chooses from. -/
  optional : List Point
  /-- The mandatory slots without a value. -/
  missing : List Str
  /-- How many slots have one. -/
  present : Nat

/-- One pass of that loop. -/
def gatherSlot (factors : Dict Str) (salt : Nat) (g : Gathered) (slot : HelperSlot) :
    Except Exc Gathered := do
  let value := factors.get slot.name
  if value = [] then
    return if slot.mandatory then { g with missing := g.missing ++ [slot.name] } else g
  let x ← deriveX slot.name value salt
  let point : Point := ⟨x, slot.share, slot.name⟩
  return if slot.mandatory then
    { g with present := g.present + 1, mandatory := g.mandatory ++ [point] }
  else { g with present := g.present + 1, optional := g.optional ++ [point] }

/-- One pass of the diagnosis: does the machine recover without the mandatory slot `ms`? -/
def diagnoseSlot (helper : Helper) (merged : List Point) (culprit : Str) (ms : HelperSlot) :
    Except Exc Str := do
  if ¬ ms.mandatory then return culprit
  let mand2 := merged.filter fun p => p.name ≠ ms.name && isMandatory helper p.name
  let opt2 := merged.filter fun p => p.name ≠ ms.name && !isMandatory helper p.name
  if culprit ≠ [] then return culprit
  let found ← findRecoveringSubset mand2 opt2 helper.threshold helper.checkWord
  return if found.isSome then ms.name else culprit

/-- Is the stored share still the value, at the slot's coordinate, of the recovered polynomials? -/
def onCurve (points : List Point) (xq : Nat) (share : Limbs) : Except Exc Bool :=
  let xs := points.map Point.x
  [0, 1, 2, 3].allM fun limb => do
    let v ← evaluateAt xs (points.map fun p => p.share limb) xq
    return v == share limb

/-- One pass of the last loop: the live and the dead slots so far. -/
def classifySlot (factors : Dict Str) (salt : Nat) (mandatory points : List Point)
    (subset : Finset Str) (acc : List Str × List Str) (slot : HelperSlot) :
    Except Exc (List Str × List Str) := do
  let (live, dead) := acc
  if slot.name ∈ subset ∨ mandatory.any fun p => p.name = slot.name then
    return (live ++ [slot.name], dead)
  let value := factors.get slot.name
  if value = [] then return (live, dead ++ [slot.name])
  let xq ← deriveX slot.name value salt
  let alive ← onCurve points xq slot.share
  return if alive then (live ++ [slot.name], dead) else (live, dead ++ [slot.name])

/-- The verdict on gathered points that no subset recovers. -/
def failedResult (helper : Helper) (g : Gathered) (culprit : Str) : RecoverResult :=
  if culprit ≠ [] then
    { reason := .mandatory, present := g.present, needed := helper.threshold, missing := [culprit] }
  else { reason := .drift, present := g.present, needed := helper.threshold }

/-- `recover_core` on a parsed helper. -/
def recoverHelper (helper : Helper) (factors : Dict Str) : Except Exc RecoverResult := do
  let g ← helper.slots.foldlM (gatherSlot factors helper.salt) ⟨[], [], [], 0⟩
  let found ← findRecoveringSubset g.mandatory g.optional helper.threshold helper.checkWord
  if g.missing ≠ [] then
    return { reason := .mandatory, present := g.present, needed := helper.threshold,
             missing := g.missing }
  match found with
  | none =>
    let culprit ← helper.slots.foldlM (diagnoseSlot helper (g.mandatory ++ g.optional)) []
    return failedResult helper g culprit
  | some (points, subset) =>
    let k ← keyFromPoints points
    let (live, dead) ← helper.slots.foldlM
      (classifySlot factors helper.salt g.mandatory points subset) ([], [])
    let hwid ← hwidOf k
    return { ok := true, key := some k, hwid := hwid, live := sortStrs live, dead := sortStrs dead,
             pending := dead ≠ [] }

/-- `recover_core`: a blob that does not parse is a verdict too, but only where the parser raised
    `CorruptHelperError`. -/
def recoverCore (blob : Bytes) (factors : Dict Str) : Except Exc RecoverResult :=
  match parseHelper blob with
  | .error e => if e.isCorruptHelperError then .ok { reason := .corrupt } else .error e
  | .ok helper => recoverHelper helper factors

/-! ## The refresh -/

/-- `refresh_core`: the new blob, or nothing written. -/
def refreshCore (k : Limbs) (factors : Dict Str) (mandatory : Finset Str) : DrawM (Option Bytes) := do
  if ∃ name ∈ mandatory, factors.get name = [] then return none
  let slots := slotList factors mandatory
  let m := (slots.filter Slot.mandatory).length
  match threshold slots.length m with
  | .error e => if e.isSsError then return none else throw e
  | .ok t =>
    let (shares, salt) ← buildShares k slots t
    let cw ← lift (checkWord k)
    let blob ← lift (serializeHelper shares mandatory t salt cw currentNormVersion)
    return some blob

end Hashing

end Bedrock.Slhwid
