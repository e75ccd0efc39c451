/-
  `hwid/_linux.py`: the factors of a Linux machine, in terms of what the machine answers.

  1. **Machine** — a collector only asks: for the bytes of a file, the names in a directory, the output of
     a command, the interfaces.  A `Machine` has one answer to each `Query`, the same one whenever it is
     asked; `none` is an `OSError`, and for a command also one of `subprocess`.

  2. **Factors** — the machine id is required (`collect` raises without one), the others degrade to
     nothing.  The exceptions of `_mac_address` are not caught here: an interface list that cannot be
     read and a name that cannot be encoded take the whole collection down.
-/
import Bedrock.Lib.Escape
import Bedrock.Python.Decode
import Bedrock.Python.Json
import Bedrock.Slhwid.Normalize

open Lib.Escape Lib.Fallible Bedrock.Python
open Bedrock.Slhwid (strip isSpace)

namespace Bedrock.Hwid

/-! ## Machine -/

/-- What a collector asks. -/
inductive Query
  /-- `os.uname().nodename`. -/
  | nodename
  /-- The names in `socket.if_nameindex()`. -/
  | interfaces
  /-- `socket.socket(socket.AF_INET, socket.SOCK_DGRAM)`. -/
  | socket
  /-- `fcntl.ioctl(.., SIOCGIFHWADDR, request)`. -/
  | hardwareAddress (request : Bytes)
  /-- `open(path, "rb").read()`. -/
  | read (path : Str)
  /-- The names in `Path(path).iterdir()`. -/
  | list (path : Str)
  /-- `glob.glob(pattern)`: the names in place of the component with the wildcards. -/
  | glob (pattern : Str)
  /-- `subprocess.run(args, capture_output=True, timeout=3)`. -/
  | command (args : List Str)
  deriving DecidableEq

/-- `subprocess.CompletedProcess`. -/
structure Completed where
  returncode : Int
  stdout : Bytes
  stderr : Bytes

/-- What each query is answered with; `none` is an exception of the operating system. -/
abbrev Query.Answer : Query → Type
  | .nodename => Str
  | .interfaces => Option (List Str)
  | .socket => Bool
  | .hardwareAddress _ => Option Bytes
  | .read _ => Option Bytes
  | .list _ => Option (List Str)
  | .glob _ => List Str
  | .command _ => Option Completed

/-- **A machine**: an answer to every query. -/
abbrev Machine := (q : Query) → q.Answer

/-- What a collector raises. -/
inductive Failure
  | runtimeError (message : String)
  | osError
  | python (e : Exc)
  deriving DecidableEq

/-- The text of a file opened with `encoding="utf-8", errors="replace"`. -/
def replacedText (b : Bytes) : Str := universalNewlines false (decodeUtf8Replace b)

/-- `_read_trimmed`. -/
def readTrimmed (m : Machine) (path : Str) : Str :=
  match m (.read path) with
  | none => []
  | some b => strip (replacedText b)

/-- `if value:`. -/
def nonempty (value : Str) : Option Str := if value = [] then none else some value

/-- `if value: factors[slot] = value`. -/
def put (factors : Dict Str) (slot : Str) (value : Option Str) : Dict Str :=
  match value with
  | none => factors
  | some v => factors.insert slot v

/-- A signal of another name stays as it is. -/
theorem lookup_put_ne {F : Dict Str} {slot k : Str} (h : k ≠ slot) (value : Option Str) :
    (put F slot value).lookup k = F.lookup k := by
  cases value with
  | none => rfl
  | some v => exact AList.lookup_insert_ne h

/-! ## Factors -/

/-- The names of network devices that are no hardware. -/
def virtualPrefixes : List Str := [
  str "veth", str "docker", str "br-", str "tun", str "tap", str "tailscale", str "zt", str "wg",
  str "lo", str "virbr"]

/-- The serial number a line of `/proc/cpuinfo` gives. -/
def serialLine (line : Str) : Option Str :=
  if chr ':' ∈ line ∧ strip (splitFirst (chr ':') line).1 = str "Serial" then
    some (strip (splitFirst (chr ':') line).2)
  else none

/-- `_cpu_serial`. -/
def cpuSerial (m : Machine) : Str :=
  match m (.read (str "/proc/cpuinfo")) with
  | none => []
  | some b => ((splitlines (replacedText b)).findSome? serialLine).getD []

/-- Where the serial number of a block device may be. -/
def serialPaths (device : Str) : List Str :=
  [str "/device/ident", str "/device/serial", str "/serial"].map fun file =>
    str "/sys/block/" ++ device ++ file

/-- `name.startswith(("loop", "ram", "dm-"))`. -/
def isPseudoDevice (name : Str) : Bool :=
  [str "loop", str "ram", str "dm-"].any fun start => start.isPrefixOf name

/-- `_disk_serial`. -/
def diskSerial (m : Machine) : Str :=
  match m (.list (str "/sys/block")) with
  | none => []
  | some names =>
    (((sortStrs names).filter fun name => !isPseudoDevice name).findSome? fun name =>
      (serialPaths name).findSome? fun path => nonempty (readTrimmed m path)).getD []

/-- `":".join(f"{byte:02x}" for byte in mac)`. -/
def macText (mac : Bytes) : Str := List.intercalate (str ":") (mac.map hexByte)

/-- `struct.pack("256s", name)`. -/
def packName (name : Bytes) : Bytes := (name ++ List.replicate 256 0).take 256

/-- What one interface gives. -/
def interfaceMac (m : Machine) (name : Str) : Except Exc (Option Str) :=
  if (virtualPrefixes.any fun start => start.isPrefixOf name) ∨ m .socket = false then .ok none
  else do
    let encoded ← encodeUtf8 (name.take 15)
    match m (.hardwareAddress (packName encoded)) with
    | none => return none
    | some answer =>
      let mac := slice answer 18 24
      return if mac.length = 6 ∧ mac.any (fun x => x ≠ 0) then some (macText mac) else none

/-- The first address there is. -/
def firstMac (m : Machine) : List Str → Except Exc Str
  | [] => .ok []
  | name :: names => do
    match ← interfaceMac m name with
    | some mac => return mac
    | none => firstMac m names

/-- `_mac_address`. -/
def macAddress (m : Machine) : Except Failure Str :=
  match m .interfaces with
  | none => .error .osError
  | some names => (firstMac m (names.drop 1)).mapError .python

/-- The machine id, from the first file that has one. -/
def machineId (m : Machine) : Str :=
  let machineId := readTrimmed m (str "/etc/machine-id")
  if machineId = [] then readTrimmed m (str "/var/lib/dbus/machine-id") else machineId

/-- The factors in the source's order. -/
def assemble (m : Machine) (mac : Str) : Dict Str :=
  let factors := put ∅ (str "machine_guid") (some (machineId m))
  let factors := put factors (str "product_uuid")
    (nonempty (readTrimmed m (str "/sys/class/dmi/id/product_uuid")))
  let factors := put factors (str "board_serial")
    (nonempty (readTrimmed m (str "/sys/class/dmi/id/board_serial")))
  let factors := put factors (str "cpu_id") (nonempty (cpuSerial m))
  let factors := put factors (str "disk_serial") (nonempty (diskSerial m))
  put factors (str "mac") (nonempty mac)

/-- `collect`. -/
def collect (m : Machine) : Except Failure (Dict Str) :=
  if machineId m = [] then .error (.runtimeError "hwid: /etc/machine-id unavailable")
  else do return assemble m (← macAddress m)

/-- **The legacy collector returns** exactly where there is a machine id and the MAC does not raise. -/
theorem collect_eq_ok {m : Machine} {d : Dict Str} : collect m = .ok d ↔
    machineId m ≠ [] ∧ ∃ mac, macAddress m = .ok mac ∧ d = assemble m mac := by
  unfold collect
  split
  · rename_i hnone
    constructor
    · rintro ⟨⟩
    · exact fun h => absurd hnone h.1
  · rename_i hsome
    constructor
    · intro h
      obtain ⟨mac, hmac, h⟩ := bind_eq_ok.mp h
      exact ⟨hsome, mac, hmac, (Except.ok.inj h).symm⟩
    · rintro ⟨_, mac, hmac, rfl⟩
      rw [hmac]
      rfl

/-- An address the collector takes is one of an interface. -/
theorem firstMac_eq_ok {m : Machine} {mac : Str} : ∀ {names : List Str}, firstMac m names = .ok mac →
    mac = [] ∨ ∃ name ∈ names, interfaceMac m name = .ok (some mac) := by
  intro names
  induction names with
  | nil =>
    intro h
    exact Or.inl (Except.ok.inj h).symm
  | cons name names ih =>
    intro h
    obtain ⟨found, hfound, h⟩ := bind_eq_ok.mp h
    cases found with
    | some v =>
      obtain rfl := Except.ok.inj h
      exact Or.inr ⟨name, List.mem_cons_self, hfound⟩
    | none =>
      rcases ih h with hnil | ⟨other, hother, hmac⟩
      · exact Or.inl hnil
      · exact Or.inr ⟨other, List.mem_cons_of_mem name hother, hmac⟩

/-- The address of an interface is written in one way. -/
theorem interfaceMac_eq_ok {m : Machine} {name mac : Str} (h : interfaceMac m name = .ok (some mac)) :
    ∃ address, mac = macText address := by
  unfold interfaceMac at h
  split at h
  · cases h
  · obtain ⟨encoded, _, h⟩ := bind_eq_ok.mp h
    cases hanswer : m (.hardwareAddress (packName encoded)) with
    | none =>
      rw [hanswer] at h
      cases h
    | some answer =>
      rw [hanswer] at h
      have h := Except.ok.inj h
      split at h
      · exact ⟨_, (Option.some.inj h).symm⟩
      · cases h

theorem macAddress_eq_ok {m : Machine} {mac : Str} (h : macAddress m = .ok mac) :
    mac = [] ∨ ∃ address, mac = macText address := by
  unfold macAddress at h
  cases hnames : m .interfaces with
  | none =>
    rw [hnames] at h
    cases h
  | some names =>
    rw [hnames] at h
    dsimp only at h
    cases hfirst : firstMac m (names.drop 1) with
    | error e =>
      rw [hfirst] at h
      cases h
    | ok v =>
      rw [hfirst] at h
      obtain rfl := Except.ok.inj h
      rcases firstMac_eq_ok hfirst with hnil | ⟨_, _, hmac⟩
      · exact Or.inl hnil
      · exact Or.inr (interfaceMac_eq_ok hmac)

end Bedrock.Hwid
