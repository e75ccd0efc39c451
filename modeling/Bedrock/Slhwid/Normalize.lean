/-
  `slhwid/core.py`, normalization: from the raw signals a collector reports to the factor slots a
  helper is enrolled over.

  1. **Signals** — `normalize` folds one value, `isSaneFactor` decides whether it is kept, and
     `normalizeFactors` does both over the whole map.  A value that cannot be encoded makes the
     sanity check itself raise.

  2. **Slots** — `projectFactors` selects the frozen v1 names, or the v2 direct names plus one hash
     per group of correlated signals.

  3. **Hard locks** — `currentMandatoryName` carries a v1 or raw signal name to its v2 slot.

  What later layers use: the slots are always names of their schema with nonempty values
  (`projectFactors_spec`), each computed from its own signals (`projectFactors_get`), every value that
  got this far can be encoded (`normalizeFactors_encode`), and the mapping leaves v2 names alone
  (`currentMandatoryName_of_current`).
-/
import Bedrock.Slhwid.Derive

open Lib.Fallible Bedrock.Python

namespace Bedrock.Slhwid

/-! ## Folding one value -/

/-- The code points `str.strip()` removes. -/
def isSpace (c : CodePoint) : Bool :=
  let n := c.val
  (9 ≤ n && n ≤ 13) || (28 ≤ n && n ≤ 32) || n == 0x85 || n == 0xA0 || n == 0x1680 ||
    (0x2000 ≤ n && n ≤ 0x200A) || n == 0x2028 || n == 0x2029 || n == 0x202F || n == 0x205F ||
    n == 0x3000

/-- `s.strip()`. -/
def strip (s : Str) : Str := ((s.dropWhile isSpace).reverse.dropWhile isSpace).reverse

/-- `translate` with the table `A-Z` to `a-z`. -/
def foldAscii (s : Str) : Str :=
  s.map fun c => if 65 ≤ c.val ∧ c.val ≤ 90 then Fin.ofNat _ (c.val + 32) else c

/-- `s.replace(ch, "")`. -/
def remove (ch : Str) (s : Str) : Str := s.filter fun c => c ∉ ch

/-- `normalize`: without NULs, trimmed, in lower case as far as ASCII goes; an address also without its
    separators. -/
def normalize (name raw : Str) : Str :=
  let value := foldAscii (strip (raw.filter fun c => c.val ≠ 0))
  if name = str "mac" ∨ name = str "nic_identity" then remove (str "-") (remove (str ":") value)
  else value

/-! ## Sanity -/

/-- `PLACEHOLDERS`: what firmware reports where it has nothing to report. -/
def placeholders : List Str := [
  [], str "0", str "none", str "unknown", str "default", str "default string",
  str "to be filled by o.e.m.", str "not specified", str "not available", str "not applicable",
  str "not present", str "n/a", str "na", str "null", str "system serial number", str "asset tag",
  str "no asset tag", str "123456789", str "0123456789", str "example"]

/-- The signals that name one device, and so must not be a pattern that many devices have. -/
def identifierFactors : List Str := [
  str "machine_guid", str "product_uuid", str "system_uuid", str "board_serial",
  str "system_serial", str "chassis_serial", str "disk_serial", str "volume_id", str "tpm_ek",
  str "memory_modules", str "nic_identity", str "battery_serial", str "monitor_edid"]

/-- `is_missing`. -/
def isMissing (value : Str) : Bool := strip value ∈ placeholders

/-- One hexadecimal digit, in either case. -/
def isHexDigit (c : CodePoint) : Bool :=
  (48 ≤ c.val && c.val ≤ 57) || (97 ≤ c.val && c.val ≤ 102) || (65 ≤ c.val && c.val ≤ 70)

/-- Hexadecimal digits only. -/
def isHex (value : Str) : Bool := value.all isHexDigit

/-- `char.isascii() and char.isalnum()`. -/
def isAsciiAlnum (c : CodePoint) : Bool :=
  (48 ≤ c.val && c.val ≤ 57) || (97 ≤ c.val && c.val ≤ 122) || (65 ≤ c.val && c.val ≤ 90)

/-- `_is_degenerate_identifier`: zeros all over, or `f`. -/
def isDegenerateIdentifier (value : Str) : Bool :=
  let compact := value.filter isAsciiAlnum
  4 ≤ compact.length && (compact.all (fun c => c.val == 48) || compact.all (fun c => c.val == 102))

/-- `_is_uuid_like`. -/
def isUuidLike (value : Str) : Bool :=
  let validLength := value.length == 32 ||
    (value.length == 36 && [8, 13, 18, 23].all fun i => value[i]? == (str "-")[0]?)
  let compact := remove (str "-") value
  validLength && compact.length == 32 && isHex compact && !isDegenerateIdentifier compact &&
    compact != str "12345678123412341234123456789abc"

/-- `0` to `9`. -/
def isDigit (c : CodePoint) : Bool := 48 ≤ c.val && c.val ≤ 57

/-- `int(value)` of a string of ASCII digits. -/
def decimalValue (value : Str) : Nat := value.foldl (fun acc c => 10 * acc + (c.val - 48)) 0

/-- `is_sane_factor`: the only step that can raise is the `encode` that measures the value. -/
def isSaneFactor (name value : Str) : Except Exc Bool := do
  if value = [] then return false
  let encoded ← encodeUtf8 value
  if encoded.length > 4096 ∨ isMissing value then return false
  if name = str "ram_total" then
    return value.all isDigit && decide (decimalValue value ≥ 128 * 1024 * 1024)
  if name = str "machine_guid" ∨ name = str "product_uuid" ∨ name = str "system_uuid" then
    return isUuidLike value
  if name = str "slstore" then
    return value.length == 64 && isHex value && !isDegenerateIdentifier value
  if name = str "tpm_ek" then
    return value.length == 64 && isHex value
  if name = str "mac" ∨ name = str "nic_identity" then
    return (value.splitOn (str "|")[0]!).all fun part =>
      part.length == 12 && isHex part && !isDegenerateIdentifier part
  if name ∈ identifierFactors then
    return (value.splitOn (str "|")[0]!).all fun part =>
      !isMissing part && !isDegenerateIdentifier part
  return true

/-- One item of `normalize_factors`. -/
def normalizeItem (out : Dict Str) (item : (_ : Str) × Str) : Except Exc (Dict Str) := do
  let nv := normalize item.1 item.2
  let sane ← isSaneFactor item.1 nv
  return if sane then out.insert item.1 nv else out

/-- `normalize_factors`: one pass over the `dict`, in its order. -/
def normalizeFactors (raw : Dict Str) : Except Exc (Dict Str) :=
  raw.entries.foldlM normalizeItem ∅

/-! ## The slots of a schema -/

/-- The schema of the first release .. -/
def legacyNormVersion : Nat := 1

/-- .. and the one that new helpers are written in. -/
def currentNormVersion : Nat := 2

/-- The slots of a v1 helper: the signals themselves. -/
def legacyFactorNames : List Str := [
  str "slstore", str "machine_guid", str "product_uuid", str "board_serial", str "cpu_id",
  str "disk_serial", str "mac", str "ram_total", str "volume_id", str "computer_name",
  str "firmware", str "gpu_id", str "monitor_edid", str "os_build"]

/-- The slots of a v2 helper that are a signal .. -/
def currentDirectFactorNames : List Str := [
  str "slstore", str "machine_guid", str "cpu_id", str "disk_serial", str "ram_total",
  str "volume_id", str "firmware", str "tpm_ek", str "memory_modules", str "nic_identity",
  str "battery_serial"]

/-- .. and those that are hashed of several. -/
def currentFactorGroups : List (Str × List Str) := [
  (str "platform_identity",
    [str "system_uuid", str "board_serial", str "system_serial", str "chassis_serial"]),
  (str "display_group", [str "gpu_id", str "monitor_edid"]),
  (str "software_environment", [str "computer_name", str "os_build"])]

/-- The slot names a helper of this schema may carry. -/
def allowedNames (normVersion : Nat) : List Str :=
  if normVersion = legacyNormVersion then legacyFactorNames
  else currentDirectFactorNames ++ currentFactorGroups.map Prod.fst

/-- `{name: raw[name] for name in names if raw.get(name)}`. -/
def pick (raw : Dict Str) (names : List Str) : Dict Str :=
  names.foldl (fun out name => if raw.get name ≠ [] then out.insert name (raw.get name) else out) ∅

section Hashing

variable [Sha256]

/-- The bytes one member adds to a group's encoding. -/
def groupMember (raw : Dict Str) (encoded : Bytes) (member : Str) : Except Exc Bytes := do
  let name ← encodeAscii member
  let value ← encodeUtf8 (raw.get member)
  return encoded ++ name ++ [0] ++ value ++ [0]

/-- `_group_value`: absent members are encoded as empty; a group with no member has no value. -/
def groupValue (name : Str) (members : List Str) (raw : Dict Str) : Except Exc Str := do
  let nameBytes ← encodeAscii name
  let encoded ← members.foldlM (groupMember raw) (bytesOf "SL-HWID-GROUP2" ++ [0] ++ nameBytes ++ [0])
  return if members.any fun member => raw.get member ≠ [] then hexStr (sha256 encoded) else []

/-- One group of the v2 projection. -/
def addGroup (raw : Dict Str) (out : Dict Str) (group : Str × List Str) : Except Exc (Dict Str) := do
  let value ← groupValue group.1 group.2 raw
  return if value ≠ [] then out.insert group.1 value else out

/-- `project_factors`: the slots of a schema, computed from the signals. -/
def projectFactors (raw : Dict Str) (normVersion : Nat) : Except Exc (Dict Str) := do
  if normVersion = legacyNormVersion then return pick raw legacyFactorNames
  raiseIf (normVersion ≠ currentNormVersion)
    (.ssError [.lit "slhwid: unsupported factor schema ", .int normVersion])
  currentFactorGroups.foldlM (addGroup raw) (pick raw currentDirectFactorNames)

end Hashing

/-! ## Hard-lock names -/

/-- `current_mandatory_name`: the v2 slot that a hard lock of this name is a lock on. The lists are the
    source's own, and are not those of `currentFactorGroups`. -/
def currentMandatoryName (name : Str) : Str :=
  if name ∈ [str "product_uuid", str "board_serial", str "system_uuid", str "system_serial",
      str "chassis_serial"] then str "platform_identity"
  else if name ∈ [str "gpu_id", str "monitor_edid"] then str "display_group"
  else if name ∈ [str "computer_name", str "os_build"] then str "software_environment"
  else if name = str "mac" then str "nic_identity"
  else name

/-- `map_mandatory_to_current`. -/
def mapMandatoryToCurrent (names : Finset Str) : Finset Str := names.image currentMandatoryName

/-- The slot names of both schemas, read off the tables. -/
theorem slotName_table :
    (∀ n ∈ legacyFactorNames, isAscii n = true ∧ 0 < n.length ∧ n.length ≤ 20) ∧
    ∀ n ∈ allowedNames currentNormVersion, currentMandatoryName n = n ∧
      isAscii n = true ∧ 0 < n.length ∧ n.length ≤ 20 := by
  decide +kernel

/-- **v2 names are fixed points** of the mapping. -/
theorem currentMandatoryName_of_current {name : Str} (h : name ∈ allowedNames currentNormVersion) :
    currentMandatoryName name = name := (slotName_table.2 name h).1

theorem slstore_mem_map {names : Finset Str} (h : str "slstore" ∈ names) :
    str "slstore" ∈ mapMandatoryToCurrent names :=
  Finset.mem_image.mpr ⟨str "slstore", h, by decide +kernel⟩

/-- The mapping leaves a v2 set of hard locks alone. -/
theorem mapMandatoryToCurrent_eq_self {names : Finset Str}
    (h : ∀ n ∈ names, n ∈ allowedNames currentNormVersion) :
    mapMandatoryToCurrent names = names := by
  ext n
  rw [mapMandatoryToCurrent, Finset.mem_image]
  constructor
  · rintro ⟨n', hn', rfl⟩
    rwa [currentMandatoryName_of_current (h n' hn')]
  · intro hn
    exact ⟨n, hn, currentMandatoryName_of_current (h n hn)⟩

/-! ## What is in a projection -/

/-- A slot name is ASCII. -/
theorem allowedNames_ascii {v : Nat} {name : Str} (h : name ∈ allowedNames v) :
    isAscii name = true := by
  unfold allowedNames at h
  split at h
  · exact (slotName_table.1 name h).1
  · exact (slotName_table.2 name h).2.1

theorem allowedNames_length_lt {v : Nat} {name : Str} (h : name ∈ allowedNames v) :
    0 < name.length ∧ name.length ≤ 20 := by
  unfold allowedNames at h
  split at h
  · exact (slotName_table.1 name h).2
  · exact (slotName_table.2 name h).2.2

theorem length_allowedNames (v : Nat) : (allowedNames v).length = 14 := by
  unfold allowedNames
  split <;> rfl

/-- A dictionary whose keys are names of `l` and whose values are nonempty. -/
def SlotsIn (l : List Str) (d : Dict Str) : Prop := ∀ n ∈ d, n ∈ l ∧ d.get n ≠ []

theorem Dict.get_insert_self (d : Dict Str) (n v : Str) : Dict.get (d.insert n v) n = v := by
  rw [Dict.get, AList.lookup_insert]; rfl

theorem Dict.get_insert_ne {n n' : Str} (h : n' ≠ n) (d : Dict Str) (v : Str) :
    Dict.get (d.insert n v) n' = d.get n' := by
  rw [Dict.get, AList.lookup_insert_ne h]; rfl

theorem SlotsIn.empty (l : List Str) : SlotsIn l ∅ := fun n hn => absurd hn (AList.notMem_empty n)

theorem SlotsIn.insert {l : List Str} {d : Dict Str} (h : SlotsIn l d) {n v : Str} (hn : n ∈ l)
    (hv : v ≠ []) : SlotsIn l (d.insert n v) := by
  intro n' hn'
  by_cases hnn : n' = n
  · subst hnn
    rw [Dict.get_insert_self]; exact ⟨hn, hv⟩
  · rw [Dict.get_insert_ne hnn]
    exact h n' ((AList.mem_insert d).mp hn' |>.resolve_left hnn)

theorem SlotsIn.pick (raw : Dict Str) {l : List Str} (names : List Str) (h : ∀ n ∈ names, n ∈ l) :
    SlotsIn l (pick raw names) := by
  unfold Slhwid.pick
  suffices hgen : ∀ (out : Dict Str), SlotsIn l out → SlotsIn l (names.foldl
      (fun out name => if raw.get name ≠ [] then out.insert name (raw.get name) else out) out) from
    hgen ∅ (SlotsIn.empty l)
  induction names with
  | nil => intro out hout; exact hout
  | cons name names ih =>
    intro out hout
    rw [List.foldl_cons]
    refine ih (fun n hn => h n (List.mem_cons_of_mem name hn)) _ ?_
    split
    · rename_i hv
      exact hout.insert (h name (List.mem_cons_self ..)) hv
    · exact hout

/-- One group adds at most its own slot, and a nonempty one. -/
theorem addGroup_eq_ok [Sha256] {raw out out' : Dict Str} {group : Str × List Str}
    (h : addGroup raw out group = .ok out') :
    out' = out ∨ ∃ value, value ≠ [] ∧ out' = out.insert group.1 value := by
  obtain ⟨value, _, h⟩ := bind_eq_ok.mp h
  obtain rfl := Except.ok.inj h
  by_cases hvalue : value = []
  · exact Or.inl (if_neg (not_not.mpr hvalue))
  · exact Or.inr ⟨value, hvalue, if_pos hvalue⟩

/-- **A projection only has slots of its schema**, none of them empty. -/
theorem projectFactors_spec [Sha256] {raw d : Dict Str} {v : Nat}
    (h : projectFactors raw v = .ok d) : SlotsIn (allowedNames v) d := by
  rw [projectFactors] at h
  split at h
  · rename_i hv
    obtain rfl := Except.ok.inj h
    refine SlotsIn.pick raw _ fun n hn => ?_
    rwa [allowedNames, if_pos hv]
  · rename_i hv
    obtain ⟨_, _, h⟩ := bind_eq_ok.mp h
    have hnames : allowedNames v = currentDirectFactorNames ++ currentFactorGroups.map Prod.fst :=
      if_neg hv
    rw [hnames]
    refine foldlM_inv (fun _ out => SlotsIn _ out) (fun _ g out out' hg hout hstep => ?_)
      (SlotsIn.pick raw _ fun n hn => List.mem_append_left _ hn) h
    obtain rfl | ⟨value, hvalue, rfl⟩ := addGroup_eq_ok hstep
    · exact hout
    · exact hout.insert (List.mem_append_right _ (List.mem_map_of_mem hg)) hvalue

/-- What `pick` picks is the signal itself, for the names it is given. -/
theorem get_pick (raw : Dict Str) (names : List Str) (n : Str) :
    (pick raw names).get n = if n ∈ names then raw.get n else [] := by
  unfold pick
  -- over the names, with the dictionary so far
  suffices hgen : ∀ (names : List Str) (out : Dict Str), (names.foldl (fun out name =>
      if raw.get name ≠ [] then out.insert name (raw.get name) else out) out).get n =
      if n ∈ names ∧ raw.get n ≠ [] then raw.get n else out.get n by
    have hempty : Dict.get ∅ n = [] := rfl
    rw [hgen, hempty]
    by_cases hraw : raw.get n = []
    · simp [hraw]
    · simp [hraw]
  intro names
  induction names with
  | nil => intro out; simp
  | cons name names ih =>
    intro out
    rw [List.foldl_cons, ih]
    -- a name met again writes the same value once more
    by_cases hn : n ∈ names ∧ raw.get n ≠ []
    · rw [if_pos hn, if_pos ⟨List.mem_cons_of_mem _ hn.1, hn.2⟩]
    · rw [if_neg hn]
      by_cases hname : n = name
      · subst hname
        by_cases hraw : raw.get n = []
        · simp [hraw]
        · rw [if_pos hraw, Dict.get_insert_self, if_pos ⟨List.mem_cons_self .., hraw⟩]
      · have hno : ¬ (n ∈ name :: names ∧ raw.get n ≠ []) := fun h =>
          hn ⟨(List.mem_cons.mp h.1).resolve_left hname, h.2⟩
        rw [if_neg hno]
        by_cases hraw : raw.get name ≠ []
        · rw [if_pos hraw]; exact Dict.get_insert_ne hname _ _
        · rw [if_neg hraw]

/-- Both schemas have `slstore` as it was reported. -/
theorem projectFactors_slstore [Sha256] {raw d : Dict Str} {v : Nat}
    (h : projectFactors raw v = .ok d) : d.get (str "slstore") = raw.get (str "slstore") := by
  rw [projectFactors] at h
  split at h
  · obtain rfl := Except.ok.inj h
    rw [get_pick, if_pos (by decide +kernel)]
  · obtain ⟨_, _, h⟩ := bind_eq_ok.mp h
    have hgroups : ∀ g ∈ currentFactorGroups, str "slstore" ≠ g.1 := by decide +kernel
    refine foldlM_inv (fun _ out => Dict.get out (str "slstore") = raw.get (str "slstore"))
      (fun _ g out out' hg hout hstep => ?_) ?_ h
    · obtain rfl | ⟨value, _, rfl⟩ := addGroup_eq_ok hstep
      · exact hout
      · rw [Dict.get_insert_ne (hgroups g hg)]
        exact hout
    · rw [get_pick, if_pos (by decide +kernel)]

section Hashing

variable [Sha256]

/-! ## Slot by slot -/

/-- What the groups add: their own slots, and nothing else. -/
theorem addGroups_get {raw F : Dict Str} : ∀ {groups : List (Str × List Str)} {out : Dict Str},
    (groups.map Prod.fst).Nodup → groups.foldlM (addGroup raw) out = .ok F →
    (∀ n, n ∉ groups.map Prod.fst → F.get n = out.get n) ∧
    ∀ g ∈ groups, ∃ value, groupValue g.1 g.2 raw = .ok value ∧
      F.get g.1 = if value ≠ [] then value else out.get g.1 := by
  intro groups
  induction groups with
  | nil =>
    intro out _ h
    obtain rfl := Except.ok.inj h
    exact ⟨fun _ _ => rfl, fun g hg => absurd hg List.not_mem_nil⟩
  | cons g rest ih =>
    intro out hnd h
    -- the names of the groups are pairwise different, so no group overwrites another
    rw [List.map_cons, List.nodup_cons] at hnd
    rw [List.foldlM_cons] at h
    obtain ⟨out', hstep, hrun⟩ := bind_eq_ok.mp h
    obtain ⟨value, hvalue, hstep⟩ := bind_eq_ok.mp hstep
    obtain rfl := Except.ok.inj hstep
    obtain ⟨hother, hgroup⟩ := ih hnd.2 hrun
    -- one pass: the group's value, if there is one, and nothing else
    have hout : ∀ n, Dict.get (if value ≠ [] then out.insert g.1 value else out) n =
        if n = g.1 ∧ value ≠ [] then value else out.get n := fun n => by
      by_cases hv : value ≠ []
      · rw [if_pos hv]
        by_cases hn : n = g.1
        · rw [if_pos ⟨hn, hv⟩, hn, Dict.get_insert_self]
        · rw [if_neg fun h => hn h.1, Dict.get_insert_ne hn]
      · rw [if_neg hv, if_neg fun h => hv h.2]
    constructor
    · intro n hn
      rw [List.map_cons, List.mem_cons, not_or] at hn
      rw [hother n hn.2, hout, if_neg fun h => hn.1 h.1]
    · intro g' hg'
      rcases List.mem_cons.mp hg' with rfl | hg'
      · refine ⟨value, hvalue, ?_⟩
        rw [hother _ hnd.1, hout]
        by_cases hv : value ≠ []
        · rw [if_pos hv, if_pos ⟨rfl, hv⟩]
        · rw [if_neg hv, if_neg fun h => hv h.2]
      · obtain ⟨value', hvalue', hget⟩ := hgroup g' hg'
        refine ⟨value', hvalue', ?_⟩
        have hne : g'.1 ≠ g.1 := fun heq => hnd.1 (heq ▸ List.mem_map_of_mem hg')
        rw [hget, hout, if_neg (show ¬ (g'.1 = g.1 ∧ value ≠ []) from fun h => hne h.1)]

/-- **The v2 projection, slot by slot**: a direct slot is its signal, a group's slot its hash. -/
theorem projectFactors_get {raw F : Dict Str} (h : projectFactors raw currentNormVersion = .ok F) :
    (∀ n ∈ currentDirectFactorNames, F.get n = raw.get n) ∧
    ∀ g ∈ currentFactorGroups, groupValue g.1 g.2 raw = .ok (F.get g.1) := by
  have hnames : (currentFactorGroups.map Prod.fst).Nodup ∧
      (∀ n ∈ currentDirectFactorNames, n ∉ currentFactorGroups.map Prod.fst) ∧
      ∀ g ∈ currentFactorGroups, g.1 ∉ currentDirectFactorNames := by decide +kernel
  obtain ⟨hnd, hdirect, hgroups⟩ := hnames
  obtain ⟨_, _, hrun⟩ := bind_eq_ok.mp h
  obtain ⟨hother, hgroup⟩ := addGroups_get hnd hrun
  constructor
  · intro n hn
    rw [hother n (hdirect n hn), get_pick, if_pos hn]
  · intro g hg
    obtain ⟨value, hvalue, hget⟩ := hgroup g hg
    rw [hvalue, hget, get_pick, if_neg (hgroups g hg)]
    by_cases hv : value = []
    · rw [if_neg (not_not.mpr hv), hv]
    · rw [if_pos hv]

/-- The signals that a v2 slot is computed from: the direct names and the members of the groups. -/
def SlotSignal (signal : Str) : Prop :=
  signal ∈ currentDirectFactorNames ∨ ∃ g ∈ currentFactorGroups, signal ∈ g.2

omit [Sha256] in
/-- The encoding of a group depends on its members alone. -/
theorem foldlM_groupMember_congr {raw raw' : Dict Str} : ∀ {members : List Str},
    (∀ m ∈ members, raw'.get m = raw.get m) → ∀ b,
    members.foldlM (groupMember raw') b = members.foldlM (groupMember raw) b := by
  intro members
  induction members with
  | nil => intro _ b; rfl
  | cons m rest ih =>
    intro h b
    rw [List.foldlM_cons, List.foldlM_cons, groupMember, groupMember, h m List.mem_cons_self]
    exact congrArg _ (funext fun b' => ih (fun m' hm' => h m' (List.mem_cons_of_mem m hm')) b')

/-- A group depends on its members only. -/
theorem groupValue_congr {raw raw' : Dict Str} {name : Str} {members : List Str}
    (h : ∀ m ∈ members, raw'.get m = raw.get m) :
    groupValue name members raw' = groupValue name members raw := by
  have hany : (members.any fun member => raw'.get member ≠ []) =
      members.any fun member => raw.get member ≠ [] := by
    rw [Bool.eq_iff_iff, List.any_eq_true, List.any_eq_true]
    exact exists_congr fun m => and_congr_right fun hm => by rw [h m hm]
  unfold groupValue
  rw [hany]
  simp only [foldlM_groupMember_congr h]

/-- **The projection reads slot signals only.** -/
theorem projectFactors_congr {raw raw' : Dict Str}
    (h : ∀ n, SlotSignal n → raw'.get n = raw.get n) :
    projectFactors raw' currentNormVersion = projectFactors raw currentNormVersion := by
  have hpick : pick raw' currentDirectFactorNames = pick raw currentDirectFactorNames :=
    List.foldl_ext _ _ _ fun out n hn => by rw [h n (Or.inl hn)]
  have hgroups : ∀ (groups : List (Str × List Str)), (∀ g ∈ groups, g ∈ currentFactorGroups) →
      ∀ out, groups.foldlM (addGroup raw') out = groups.foldlM (addGroup raw) out := by
    intro groups
    induction groups with
    | nil => intro _ out; rfl
    | cons g rest ih =>
      intro hmem out
      rw [List.foldlM_cons, List.foldlM_cons, addGroup, addGroup,
        groupValue_congr fun m hm => h m (Or.inr ⟨g, hmem g List.mem_cons_self, hm⟩)]
      exact congrArg _ (funext fun out' => ih (fun g' hg' => hmem g' (List.mem_cons_of_mem g hg')) out')
  have hcur : ¬ currentNormVersion = legacyNormVersion := by decide
  rw [projectFactors, if_neg hcur, projectFactors, if_neg hcur, hpick, hgroups _ fun _ hg => hg]

end Hashing

/-! ## What can be encoded -/

/-- Stripping keeps every character that is no white space. -/
theorem mem_strip {s : Str} {c : CodePoint} (hc : isSpace c = false) : c ∈ strip s ↔ c ∈ s := by
  have hdrop : ∀ l : Str, c ∈ l.dropWhile isSpace ↔ c ∈ l := by
    intro l
    induction l with
    | nil => exact Iff.rfl
    | cons a l ih =>
      by_cases ha : isSpace a = true
      · rw [List.dropWhile_cons_of_pos ha, ih, List.mem_cons]
        constructor
        · exact Or.inr
        · rintro (rfl | h)
          · rw [hc] at ha; cases ha
          · exact h
      · rw [List.dropWhile_cons_of_neg ha]
  rw [strip, List.mem_reverse, hdrop, List.mem_reverse, hdrop]

/-- Normalizing neither adds a surrogate nor drops one. -/
theorem canEncode_normalize (name raw : Str) : CanEncode (normalize name raw) ↔ CanEncode raw := by
  -- no step of `normalize` makes or removes a surrogate
  have hplain : ∀ c : CodePoint, isSurrogate c = true →
      c.val ≠ 0 ∧ isSpace c = false ∧ c ∉ str "-" ∧ c ∉ str ":" ∧ ¬ (65 ≤ c.val ∧ c.val ≤ 90) := by
    intro c hc
    rw [isSurrogate, Bool.and_eq_true, decide_eq_true_eq, decide_eq_true_eq] at hc
    have hne : ∀ d : CodePoint, d.val < 0xD800 → c ≠ d := fun d hd h => by
      rw [h] at hc; omega
    refine ⟨by omega, ?_, ?_, ?_, by omega⟩
    · simp only [isSpace, Bool.or_eq_false_iff, Bool.and_eq_false_iff, decide_eq_false_iff_not,
        beq_eq_false_iff_ne]
      omega
    · intro h
      exact hne _ (by decide) (List.mem_singleton.mp h)
    · intro h
      exact hne _ (by decide) (List.mem_singleton.mp h)
  have hfold : ∀ (l : Str) (c : CodePoint), isSurrogate c = true → (c ∈ foldAscii l ↔ c ∈ l) := by
    intro l c hc
    rw [foldAscii, List.mem_map]
    constructor
    · -- a capital letter is lowered to a letter, which is none
      rintro ⟨d, hd, rfl⟩
      split at hc
      · rename_i hup
        have hsmall : (Fin.ofNat 0x110000 (d.val + 32)).val = d.val + 32 :=
          Nat.mod_eq_of_lt (by omega)
        rw [isSurrogate, hsmall] at hc
        simp at hc
        omega
      · rename_i hup
        rw [if_neg hup]
        exact hd
    · intro h
      exact ⟨c, h, if_neg (hplain c hc).2.2.2.2⟩
  have hmem : ∀ c : CodePoint, isSurrogate c = true → (c ∈ normalize name raw ↔ c ∈ raw) := by
    intro c hc
    obtain ⟨hnul, hspace, hdash, hcolon, _⟩ := hplain c hc
    have hvalue : c ∈ foldAscii (strip (raw.filter fun c => c.val ≠ 0)) ↔ c ∈ raw := by
      rw [hfold _ c hc, mem_strip hspace, List.mem_filter]
      simp [hnul]
    have hremove : ∀ (ch l : Str), c ∉ ch → (c ∈ remove ch l ↔ c ∈ l) := fun ch l hch => by
      rw [remove, List.mem_filter]
      simp [hch]
    unfold normalize
    dsimp only
    split
    · rw [hremove _ _ hdash, hremove _ _ hcolon, hvalue]
    · exact hvalue
  constructor
  · intro h c hc
    rw [← Bool.not_eq_true]
    intro hsur
    have hno := h c ((hmem c hsur).mpr hc)
    rw [hsur] at hno; cases hno
  · intro h c hc
    rw [← Bool.not_eq_true]
    intro hsur
    have hno := h c ((hmem c hsur).mp hc)
    rw [hsur] at hno; cases hno

/-- The sanity check raises exactly where a value cannot be encoded. -/
theorem isSaneFactor_ok {name value : Str} (h : CanEncode value) :
    ∃ b, isSaneFactor name value = .ok b := by
  obtain ⟨bytes, hbytes⟩ := encodeUtf8_ok h
  unfold isSaneFactor
  by_cases hnil : value = []
  · exact ⟨false, by rw [if_pos hnil]; rfl⟩
  rw [if_neg hnil, hbytes, ok_bind]
  split_ifs
  all_goals exact ⟨_, rfl⟩

/-- The sanity check returns only on text that can be encoded. -/
theorem isSaneFactor_eq_ok {name value : Str} {b : Bool} (h : isSaneFactor name value = .ok b) :
    CanEncode value := by
  unfold isSaneFactor at h
  by_cases hnil : value = []
  · rw [hnil]
    exact fun c hc => absurd hc List.not_mem_nil
  rw [if_neg hnil] at h
  obtain ⟨bytes, hbytes, _⟩ := bind_eq_ok.mp h
  exact encodeUtf8_eq_ok hbytes

theorem isSaneFactor_eq_error {name value : Str} {e : Exc} (h : isSaneFactor name value = .error e) :
    e = .unicodeEncodeError := by
  unfold isSaneFactor at h
  by_cases hnil : value = []
  · rw [if_pos hnil] at h; cases h
  rw [if_neg hnil] at h
  rcases bind_eq_error.mp h with h | ⟨_, _, h⟩
  · exact encodeUtf8_eq_error h
  · split_ifs at h
    all_goals cases h

/-- Every value of the dictionary can be encoded. -/
def ValuesEncode (d : Dict Str) : Prop := ∀ n, CanEncode (d.get n)

theorem ValuesEncode.empty : ValuesEncode ∅ := fun _ _ hc => absurd hc List.not_mem_nil

theorem ValuesEncode.insert {d : Dict Str} (h : ValuesEncode d) (n : Str) {v : Str}
    (hv : CanEncode v) : ValuesEncode (d.insert n v) := by
  intro n'
  by_cases hn : n' = n
  · subst hn
    rw [Dict.get_insert_self]
    exact hv
  · rw [Dict.get_insert_ne hn]
    exact h n'

/-- **Normalizing returns exactly on encodable signals**, and then with encodable values. -/
theorem normalizeFactors_ok {raw : Dict Str} (h : ∀ item ∈ raw.entries, CanEncode item.2) :
    ∃ nf, normalizeFactors raw = .ok nf := by
  obtain ⟨nf, hnf, _⟩ := foldlM_ok normalizeItem (fun _ _ => True) (l := raw.entries) (s := ∅)
    (fun _ item out hitem _ => by
      obtain ⟨b, hb⟩ : ∃ b, isSaneFactor item.1 (normalize item.1 item.2) = .ok b :=
        isSaneFactor_ok ((canEncode_normalize _ _).mpr (h item hitem))
      exact ⟨_, by rw [normalizeItem, hb]; rfl, trivial⟩) trivial
  exact ⟨nf, hnf⟩

/-- **A normalization that returned** has seen only values that can be encoded, and gives only such. -/
theorem normalizeFactors_encode {raw nf : Dict Str} (h : normalizeFactors raw = .ok nf) :
    (∀ item ∈ raw.entries, CanEncode item.2) ∧ ValuesEncode nf := by
  refine foldlM_inv (fun seen out =>
      (∀ item : (_ : Str) × Str, item ∈ seen → CanEncode item.2) ∧ ValuesEncode out)
    (fun seen (item : (_ : Str) × Str) out out' _ hinv hstep => ?_)
    ⟨fun _ hi => absurd hi List.not_mem_nil, ValuesEncode.empty⟩ h
  obtain ⟨hseen, hout⟩ := hinv
  unfold normalizeItem at hstep
  obtain ⟨b, hb, hstep⟩ := bind_eq_ok.mp hstep
  obtain rfl := Except.ok.inj hstep
  have henc := isSaneFactor_eq_ok hb
  constructor
  · intro item' hitem
    rcases List.mem_append.mp hitem with hold | hnew
    · exact hseen item' hold
    · rw [List.mem_singleton.mp hnew]
      exact (canEncode_normalize _ _).mp henc
  · cases b with
    | true => exact hout.insert _ henc
    | false => exact hout

/-- What it raises otherwise is `UnicodeEncodeError`, for the whole map. -/
theorem normalizeFactors_eq_error {raw : Dict Str} {e : Exc} (h : normalizeFactors raw = .error e) :
    e = .unicodeEncodeError := by
  refine foldlM_error (P := (· = Exc.unicodeEncodeError)) (fun item _ out e hstep => ?_) h
  rcases bind_eq_error.mp hstep with h | ⟨_, _, h⟩
  · exact isSaneFactor_eq_error h
  · cases h

/-- What is kept of one reported value. -/
def keptSignal (name raw : Str) : Option Str :=
  match isSaneFactor name (normalize name raw) with
  | .ok true => some (normalize name raw)
  | _ => none

/-- One pass writes the signal under its own name if it is kept, and touches no other. -/
theorem normalizeItem_eq_ok {out out' : Dict Str} {item : (_ : Str) × Str}
    (h : normalizeItem out item = .ok out') (n : Str) :
    out'.lookup n = if n = item.1 then (keptSignal n item.2).or (out.lookup n) else out.lookup n := by
  obtain ⟨b, hb, h⟩ := bind_eq_ok.mp h
  obtain rfl := Except.ok.inj h
  by_cases hn : n = item.1
  · rw [if_pos hn, hn, keptSignal, hb]
    cases b with
    | true => exact AList.lookup_insert _
    | false => rfl
  · rw [if_neg hn]
    cases b with
    | true => exact AList.lookup_insert_ne hn
    | false => rfl

/-- **Signals are normalized one by one.** -/
theorem normalizeFactors_lookup {raw nf : Dict Str} (h : normalizeFactors raw = .ok nf) (n : Str) :
    nf.lookup n = (raw.lookup n).bind (keptSignal n) := by
  -- over the items, with the dictionary so far
  suffices hgen : ∀ (l : List ((_ : Str) × Str)) (out : Dict Str), l.NodupKeys →
      l.foldlM normalizeItem out = .ok nf →
      nf.lookup n = ((l.dlookup n).bind (keptSignal n)).or (out.lookup n) by
    rw [hgen raw.entries ∅ raw.nodupKeys h, AList.lookup_empty, Option.or_none]
    rfl
  intro l
  induction l with
  | nil =>
    intro out _ hrun
    obtain rfl := Except.ok.inj hrun
    rfl
  | cons item rest ih =>
    intro out hnd hrun
    obtain ⟨hfirst, hrest⟩ := List.nodupKeys_cons.mp hnd
    rw [List.foldlM_cons] at hrun
    obtain ⟨out', hstep, hrun⟩ := bind_eq_ok.mp hrun
    rw [ih out' hrest hrun, normalizeItem_eq_ok hstep]
    by_cases hn : n = item.1
    · subst hn
      rw [if_pos rfl, List.dlookup_eq_none.mpr hfirst, List.dlookup_cons_eq]
      rfl
    · rw [if_neg hn, List.dlookup_cons_ne _ _ hn]

/-- A kept signal is not empty. -/
theorem keptSignal_ne_nil {name raw v : Str} (h : keptSignal name raw = some v) : v ≠ [] := by
  unfold keptSignal at h
  split at h
  · rename_i hsane
    obtain rfl := Option.some.inj h
    intro hnil
    rw [isSaneFactor, if_pos hnil] at hsane
    cases hsane
  · cases h

/-- No normalized value is empty. -/
theorem normalizeFactors_ne_nil {raw nf : Dict Str} (h : normalizeFactors raw = .ok nf) {n : Str}
    (hn : n ∈ nf) : nf.get n ≠ [] := by
  obtain ⟨v, hv⟩ := Option.isSome_iff_exists.mp (AList.lookup_isSome.mpr hn)
  have hkept := hv
  rw [normalizeFactors_lookup h] at hkept
  obtain ⟨raw', _, hraw⟩ := Option.bind_eq_some_iff.mp hkept
  rw [Dict.get, hv]
  exact keptSignal_ne_nil hraw

/-- **CanEncode factors can be projected** to either schema. -/
theorem projectFactors_ok [Sha256] {raw : Dict Str} (h : ValuesEncode raw) {v : Nat}
    (hv : v = legacyNormVersion ∨ v = currentNormVersion) :
    ∃ d, projectFactors raw v = .ok d := by
  -- the legacy schema only picks; the current one also composes the groups
  by_cases hlegacy : v = legacyNormVersion
  · exact ⟨pick raw legacyFactorNames, if_pos hlegacy⟩
  have hnames : ∀ g ∈ currentFactorGroups, isAscii g.1 = true ∧ ∀ m ∈ g.2, isAscii m = true := by
    decide +kernel
  have hgroup : ∀ g ∈ currentFactorGroups, ∃ value, groupValue g.1 g.2 raw = .ok value := by
    intro g hg
    obtain ⟨hname, hmembers⟩ := hnames g hg
    unfold groupValue
    rw [encodeAscii_ok hname, ok_bind]
    -- member by member: the name is ASCII, the value can be encoded
    obtain ⟨bytes, hbytes, _⟩ := foldlM_ok (groupMember raw) (fun _ _ => True) (l := g.2)
      (s := bytesOf "SL-HWID-GROUP2" ++ [0] ++ g.1.map (fun c => UInt8.ofNat c.val) ++ [0])
      (fun _ m bytes hm _ => by
        obtain ⟨value, hvalue⟩ := encodeUtf8_ok (h m)
        rw [groupMember, encodeAscii_ok (hmembers m hm), ok_bind, hvalue, ok_bind]
        exact ⟨_, rfl, trivial⟩) trivial
    rw [hbytes, ok_bind]
    exact ⟨_, rfl⟩
  rw [projectFactors, if_neg hlegacy,
    raiseIf_neg (not_not.mpr (hv.resolve_left hlegacy)), ok_bind]
  obtain ⟨d, hd, _⟩ := foldlM_ok (addGroup raw) (fun _ _ => True) (l := currentFactorGroups)
    (s := pick raw currentDirectFactorNames) (fun _ g out hg _ => by
      obtain ⟨value, hvalue⟩ := hgroup g hg
      rw [addGroup, hvalue, ok_bind]
      exact ⟨_, rfl, trivial⟩) trivial
  exact ⟨d, hd⟩

end Bedrock.Slhwid
