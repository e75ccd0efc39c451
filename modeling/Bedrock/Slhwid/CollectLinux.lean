/-
  `slhwid/_collect_linux.py`: the signals of a Linux machine.

  1. **Sources** — files of procfs and sysfs, `/etc/os-release`, `findmnt`, `dmidecode`, the host name, and
     the legacy collector, of which any exception is passed over.

  2. **Exceptions** — a source that is not there gives no signal.  Only texts that are decoded strictly
     raise: `/proc/meminfo`, `/etc/os-release`, the files of the PCI devices and the commands.  The
     handlers name `OSError`, which a decoding error is not.

  3. **Surrogates** — every codec of the collector makes text that can be encoded again; the host name
     alone is as the system gives it.  So what a launch needs of a machine is `Readable`, and a host name
     that can be encoded (`collection_completes_iff`).
-/
import Bedrock.Hwid.Linux
import Bedrock.Lib.Backtrack
import Bedrock.Python.Re
import Bedrock.Slhwid.MultiInstance
import Bedrock.Slhwid.Projection

open Lib.Backtrack Lib.Delimited Lib.Escape Lib.Fallible Bedrock.Python
open Bedrock.Hwid (Machine Query Completed Failure nonempty put lookup_put_ne readTrimmed)

namespace Bedrock.Slhwid

/-! ## Patterns -/

/-- A text, symbol by symbol. -/
def literal (text : String) : List (Piece CodePoint) := (str text).map fun c => .one fun d => d = c

/-- `re.IGNORECASE`, for an ASCII letter: with its other case, and the characters that fold to `i` and `s`. -/
def sameLetter (c d : CodePoint) : Bool :=
  foldAscii [c] = foldAscii [d] || (foldAscii [c] = str "i" && (d = 0x130 || d = 0x131)) ||
    (foldAscii [c] = str "s" && d = 0x17F)

/-- A text in upper or lower case. -/
def anyCase (text : String) : List (Piece CodePoint) := (str text).map fun c => .one (sameLetter c)

/-- `\s+`. -/
def spaces : List (Piece CodePoint) := [.one isSpace, .many isSpace]

/-- `MemTotal:\s+(\d+)\s+kB`. -/
def memTotalPattern [DigitTables] : Pattern CodePoint where
  before := literal "MemTotal:" ++ spaces
  group := [.one fun c => (decimal c).isSome, .many fun c => (decimal c).isSome]
  after := spaces ++ literal "kB"

/-- `(?mi)^\s*Serial Number:\s*(\S.*)$`. -/
def serialPattern : Pattern CodePoint where
  before := .lineStart :: .many isSpace :: anyCase "Serial Number:" ++ [.many isSpace]
  group := [.one fun c => !isSpace c, .many fun c => c ≠ newline]
  after := [.lineEnd]

/-- `(?m)^PRETTY_NAME="?([^"\n]+)"?`. -/
def prettyNamePattern : Pattern CodePoint where
  before := .lineStart :: literal "PRETTY_NAME=" ++ [.maybe fun c => c = chr '\x22']
  group := [.one fun c => c ≠ chr '\x22' && c ≠ newline, .many fun c => c ≠ chr '\x22' && c ≠ newline]
  after := [.maybe fun c => c = chr '\x22']

/-! ## Readers -/

/-- `_run`; both outputs are decoded before the return code is looked at. -/
def runCommand [LocaleCodec] (m : Machine) (args : List Str) : Except Exc Str :=
  match m (.command args) with
  | none => .ok []
  | some c => do
    let stdout ← LocaleCodec.decode c.stdout
    let _ ← LocaleCodec.decode c.stderr
    return if c.returncode = 0 then strip (universalNewlines false stdout) else []

/-- `_read(path, binary=True)`. -/
def readBinary (m : Machine) (path : Str) : Bytes := (m (.read path)).getD []

/-- `open(path, encoding="ascii", errors="replace").read().strip()`. -/
def readAsciiReplace (m : Machine) (path : Str) : Str :=
  match m (.read path) with
  | none => []
  | some b => strip (universalNewlines false (decodeAsciiReplace b))

/-- `open(path, encoding="ascii").read()`. -/
def readAscii (m : Machine) (path : Str) : Except Exc (Option Str) :=
  match m (.read path) with
  | none => .ok none
  | some b => do return some (universalNewlines false (← decodeAscii b))

/-- `sorted(glob.glob(directory + pattern + suffix))`, each path by the name in place of the pattern. -/
def globbed (m : Machine) (directory pattern suffix : String) : List Str :=
  (m (.glob (str directory ++ str pattern ++ str suffix))).insertionSort fun a b =>
    str directory ++ a ++ str suffix ≤ str directory ++ b ++ str suffix

/-- `str(n)`, of at most 4300 digits. -/
def intStr (n : Nat) : Except Exc Str :=
  if (str (toString n)).length > 4300 then
    .error (.valueError "Exceeds the limit (4300 digits) for integer string conversion")
  else .ok (str (toString n))

/-! ## Signals -/

/-- `os.uname().nodename`, unless it is empty. -/
def computerName (m : Machine) : Option Str := nonempty (m .nodename)

/-- The bytes of memory: the first `MemTotal` line of `/proc/meminfo`, in kilobytes. A file that is not
    there has no such line. -/
def ramTotal [DigitTables] (m : Machine) : Except Exc (Option Str) := do
  match memTotalPattern.search newline ((← readAscii m (str "/proc/meminfo")).getD []) with
  | none => return none
  | some digits => return some (← intStr ((← toInt digits) * 1024))

/-- The UUID of the root file system, from `findmnt`. -/
def volumeId [LocaleCodec] (m : Machine) : Except Exc (Option Str) := do
  return nonempty (← runCommand m [str "findmnt", str "-no", str "UUID", str "/"])

/-- The serial numbers of the memory modules, from `dmidecode`. -/
def memoryModules [LocaleCodec] (m : Machine) : Except Exc (Option Str) := do
  let serials := serialPattern.findAll newline
    (← runCommand m [str "dmidecode", str "--type", str "memory"])
  return if serials = [] then none else some (multiInstance serials)

/-- The permanent address of a network device. -/
def nicAddress (m : Machine) (device : Str) : Option Str :=
  let value := readTrimmed m (str "/sys/class/net/" ++ device ++ str "/perm_address")
  if value = str "00:00:00:00:00:00" then none else nonempty value

/-- The permanent addresses of the network devices. -/
def nicIdentity (m : Machine) : Option Str :=
  nonempty (multiInstance ((globbed m "/sys/class/net/" "*" "/device").filterMap (nicAddress m)))

/-- The serial numbers of the batteries. -/
def batterySerial (m : Machine) : Option Str :=
  nonempty (multiInstance ((globbed m "/sys/class/power_supply/" "BAT*" "/serial_number").filterMap
    fun battery =>
      nonempty (readTrimmed m (str "/sys/class/power_supply/" ++ battery ++ str "/serial_number"))))

/-- The endorsement key of the TPM, hashed; the first of its two files that has anything in it counts.
    -/
def tpmEk [Sha256] (m : Machine) : Option Str :=
  [str "/sys/class/tpm/tpm0/device/ek_pub", str "/sys/class/tpm/tpm0/ek_pub"].findSome? fun path =>
    if readBinary m path = [] then none else some (hexStr (sha256 (readBinary m path)))

/-- The pretty name in `/etc/os-release`. -/
def osBuild (m : Machine) : Except Exc (Option Str) :=
  match m (.read (str "/etc/os-release")) with
  | none => .ok none
  | some b => do return prettyNamePattern.search newline (← readText b)

/-- `"|".join(sorted(values))`, if there are any. -/
def joined (values : List Str) : Option Str :=
  if values = [] then none else some (List.intercalate (str "|") (sortStrs values))

/-- The EDID blocks of the monitors, each as hexadecimal text. -/
def monitorEdid (m : Machine) : Option Str :=
  joined ((globbed m "/sys/class/drm/" "card*-*" "/edid").filterMap fun connector =>
    let data := readBinary m (str "/sys/class/drm/" ++ connector ++ str "/edid")
    if data = [] then none else some (hexStr data))

/-- A file in the directory of a PCI device. -/
def pciPath (device : Str) (file : String) : Str := str "/sys/bus/pci/devices/" ++ device ++ str file

/-- A file of a PCI device. -/
def readPci (m : Machine) (device : Str) (file : String) : Except Exc (Option Str) := do
  return (← readAscii m (pciPath device file)).map strip

/-- The identity of a PCI device, if it is a display controller. -/
def displayController (m : Machine) (device : Str) : Except Exc (Option Str) := do
  match ← readPci m device "/class" with
  | none => return none
  | some klass =>
    if !(str "0x03").isPrefixOf klass then return none
    else
      match ← readPci m device "/vendor" with
      | none => return none
      | some vendor =>
        match ← readPci m device "/device" with
        | none => return none
        | some product => return some (vendor ++ str ":" ++ product)

/-- The display controllers. One file that is not ASCII ends the whole collection. -/
def gpuId (m : Machine) : Except Exc (Option Str) := do
  return joined (← (globbed m "/sys/bus/pci/devices/" "*" "/class").mapM (displayController m)).reduceOption

/-- `if value and slot not in factors: factors[slot] = value`. -/
def putNew (factors : Dict Str) (slot : Str) (value : Option Str) : Dict Str :=
  if slot ∈ factors then factors else put factors slot value

/-- `factors.update(legacy_collect())`, whatever it raises. -/
def legacyFactors (m : Machine) : Dict Str :=
  match Hwid.collect m with
  | .ok factors => factors
  | .error _ => ∅

/-- A text file of the DMI table. -/
def dmi (m : Machine) (file : String) : Str := readTrimmed m (str "/sys/class/dmi/id/" ++ str file)

/-- The signals in the source's order; those whose sources may raise are given. -/
def assemble [Sha256] (m : Machine) (ram volume modules os gpus : Option Str) : Dict Str :=
  let factors := legacyFactors m
  let factors := put factors (str "computer_name") (computerName m)
  let factors := put factors (str "ram_total") ram
  let factors := put factors (str "volume_id") volume
  -- a value of the legacy collector stays: a v1 helper was made of it
  let factors := putNew factors (str "firmware")
    (nonempty (readAsciiReplace m (str "/sys/class/dmi/id/bios_version")))
  let factors := putNew factors (str "machine_guid")
    (nonempty (readAsciiReplace m (str "/etc/machine-id")))
  let factors := putNew factors (str "board_serial")
    (nonempty (readAsciiReplace m (str "/sys/class/dmi/id/board_serial")))
  -- the raw signals of the second schema
  let factors := put factors (str "system_uuid") (nonempty (dmi m "product_uuid"))
  let factors := put factors (str "system_serial") (nonempty (dmi m "product_serial"))
  let factors := put factors (str "chassis_serial") (nonempty (dmi m "chassis_serial"))
  let factors := put factors (str "memory_modules") modules
  let factors := put factors (str "nic_identity") (nicIdentity m)
  let factors := put factors (str "battery_serial") (batterySerial m)
  let factors := put factors (str "tpm_ek") (tpmEk m)
  let factors := put factors (str "os_build") os
  let factors := put factors (str "monitor_edid") (monitorEdid m)
  put factors (str "gpu_id") gpus

/-- `collect`: five of the sources may raise. -/
def collectLinux [LocaleCodec] [DigitTables] [Sha256] (m : Machine) : Except Exc (Dict Str) := do
  let ram ← ramTotal m
  let volume ← volumeId m
  let modules ← memoryModules m
  let os ← osBuild m
  let gpus ← gpuId m
  return assemble m ram volume modules os gpus

/-! ## What comes out of a collection -/

/-- A collection that returns has got something from each of the five sources that may raise, and is
    assembled of that. -/
theorem collectLinux_eq_ok [LocaleCodec] [DigitTables] [Sha256] {m : Machine} {d : Dict Str} :
    collectLinux m = .ok d ↔
    ∃ ram volume modules os gpus, ramTotal m = .ok ram ∧ volumeId m = .ok volume ∧
      memoryModules m = .ok modules ∧ osBuild m = .ok os ∧ gpuId m = .ok gpus ∧
      d = assemble m ram volume modules os gpus := by
  constructor
  · intro h
    obtain ⟨ram, hram, h⟩ := bind_eq_ok.mp h
    obtain ⟨volume, hvolume, h⟩ := bind_eq_ok.mp h
    obtain ⟨modules, hmodules, h⟩ := bind_eq_ok.mp h
    obtain ⟨os, hos, h⟩ := bind_eq_ok.mp h
    obtain ⟨gpus, hgpus, h⟩ := bind_eq_ok.mp h
    exact ⟨ram, volume, modules, os, gpus, hram, hvolume, hmodules, hos, hgpus, (Except.ok.inj h).symm⟩
  · rintro ⟨ram, volume, modules, os, gpus, hram, hvolume, hmodules, hos, hgpus, rfl⟩
    rw [collectLinux, hram, ok_bind, hvolume, ok_bind, hmodules, ok_bind, hos, ok_bind, hgpus, ok_bind]
    rfl

/-- An exception of a collection comes from one of five sources. -/
theorem collectLinux_error [LocaleCodec] [DigitTables] [Sha256] {m : Machine} {e : Exc}
    (h : collectLinux m = .error e) :
    ramTotal m = .error e ∨ volumeId m = .error e ∨ memoryModules m = .error e ∨
      osBuild m = .error e ∨ gpuId m = .error e := by
  rcases bind_eq_error.mp h with h | ⟨_, _, h⟩
  · exact Or.inl h
  rcases bind_eq_error.mp h with h | ⟨_, _, h⟩
  · exact Or.inr (Or.inl h)
  rcases bind_eq_error.mp h with h | ⟨_, _, h⟩
  · exact Or.inr (Or.inr (Or.inl h))
  rcases bind_eq_error.mp h with h | ⟨_, _, h⟩
  · exact Or.inr (Or.inr (Or.inr (Or.inl h)))
  rcases bind_eq_error.mp h with h | ⟨_, _, h⟩
  · exact Or.inr (Or.inr (Or.inr (Or.inr h)))
  · cases h

/-! ### Strict texts -/

/-- The file is ASCII, if it is there. -/
def AsciiFile (m : Machine) (path : Str) : Prop :=
  ∀ b, m (.read path) = some b → ∀ x ∈ b, x.toNat < 0x80

/-- The file is UTF-8, if it is there. -/
def Utf8File (m : Machine) (path : Str) : Prop :=
  ∀ b, m (.read path) = some b → ∃ s, decodeUtf8 b = .ok s

/-- What the command writes is text of the locale, if it runs. -/
def TextCommand [LocaleCodec] (m : Machine) (args : List Str) : Prop :=
  ∀ c, m (.command args) = some c →
    (∃ s, LocaleCodec.decode c.stdout = .ok s) ∧ ∃ s, LocaleCodec.decode c.stderr = .ok s

/-- The strict reader returns exactly on a file that is ASCII or not there. -/
theorem readAscii_returns {m : Machine} {path : Str} :
    (∃ text, readAscii m path = .ok text) ↔ AsciiFile m path := by
  unfold readAscii AsciiFile
  cases m (.read path) with
  | none => simp
  | some b =>
    constructor
    · rintro ⟨text, h⟩ _ ⟨⟩ x hx
      obtain ⟨s, hs, -⟩ := bind_eq_ok.mp h
      unfold decodeAscii at hs
      split at hs
      · rename_i hall
        exact of_decide_eq_true (List.all_eq_true.mp hall x hx)
      · cases hs
    · intro h
      have hall : (b.all fun x => x.toNat < 128) = true :=
        List.all_eq_true.mpr fun x hx => decide_eq_true (h b rfl x hx)
      dsimp only
      rw [decodeAscii, if_pos hall]
      exact ⟨_, rfl⟩

/-- Otherwise it raises `UnicodeDecodeError`, which `except OSError` does not catch. -/
theorem readAscii_error {m : Machine} {path : Str} {e : Exc} (h : readAscii m path = .error e) :
    e = .unicodeDecodeError := by
  unfold readAscii at h
  cases hread : m (.read path) with
  | none =>
    rw [hread] at h
    cases h
  | some b =>
    rw [hread] at h
    rcases bind_eq_error.mp h with h | ⟨_, _, h⟩
    · exact (decodeAscii_eq_error h).1
    · cases h

/-- A command gives a text exactly if both of its outputs are text of the locale. -/
theorem runCommand_returns [LocaleCodec] {m : Machine} {args : List Str} :
    (∃ text, runCommand m args = .ok text) ↔ TextCommand m args := by
  unfold runCommand TextCommand
  cases m (.command args) with
  | none => simp
  | some c =>
    constructor
    · rintro ⟨text, h⟩ _ ⟨⟩
      obtain ⟨out, hout, h⟩ := bind_eq_ok.mp h
      obtain ⟨err, herr, -⟩ := bind_eq_ok.mp h
      exact ⟨⟨out, hout⟩, err, herr⟩
    · intro h
      obtain ⟨⟨out, hout⟩, err, herr⟩ := h c rfl
      dsimp only
      rw [hout, ok_bind, herr, ok_bind]
      exact ⟨_, rfl⟩

/-- The only exception of `_run` that gets out is `UnicodeDecodeError`. -/
theorem runCommand_error [LocaleCodec] {m : Machine} {args : List Str} {e : Exc}
    (h : runCommand m args = .error e) : e = .unicodeDecodeError := by
  unfold runCommand at h
  cases hrun : m (.command args) with
  | none =>
    rw [hrun] at h
    cases h
  | some c =>
    rw [hrun] at h
    rcases bind_eq_error.mp h with h | ⟨_, _, h⟩
    · exact LocaleCodec.decode_error _ _ h
    · rcases bind_eq_error.mp h with h | ⟨_, _, h⟩
      · exact LocaleCodec.decode_error _ _ h
      · cases h

/-! ### The five sources -/

/-- The amount of memory can be read, multiplied and written. -/
structure TotalReadable [DigitTables] (m : Machine) : Prop where
  ascii : AsciiFile m (str "/proc/meminfo")
  digits : ∀ text digits, readAscii m (str "/proc/meminfo") = .ok text →
    memTotalPattern.search newline (text.getD []) = some digits →
    digits.length ≤ 4300 ∧ (str (toString (asciiValue digits * 1024))).length ≤ 4300

/-- What the strict reader returns is ASCII. -/
theorem readAscii_ascii {m : Machine} {path : Str} {text : Option Str}
    (h : readAscii m path = .ok text) : ∀ c ∈ text.getD [], c.val < 128 := by
  unfold readAscii at h
  cases hread : m (.read path) with
  | none =>
    rw [hread] at h
    obtain rfl := Except.ok.inj h
    exact fun c hc => absurd hc List.not_mem_nil
  | some b =>
    rw [hread] at h
    obtain ⟨s, hs, h⟩ := bind_eq_ok.mp h
    obtain rfl := Except.ok.inj h
    intro c hc
    rcases mem_universalNewlines hc with rfl | hc
    · decide
    · exact isAscii_iff.mp (decodeAscii_eq_ok hs).1 c hc

/-- The digits of an ASCII text that the pattern captures are `0` to `9`. -/
theorem memTotal_digits [DigitTables] {text digits : Str} (hascii : ∀ c ∈ text, c.val < 128)
    (h : memTotalPattern.search newline text = some digits) : digits.all isAsciiDigit = true := by
  obtain ⟨hspells, hsymbols⟩ := search_captures h
  obtain ⟨c, v, rfl, hc, hv⟩ := spells_one_many.mp hspells
  have hdecimal : ∀ d ∈ c :: v, (decimal d).isSome = true := fun d hd => by
    rcases List.mem_cons.mp hd with rfl | hd
    · exact hc
    · exact hv d hd
  refine List.all_eq_true.mpr fun d hd => ?_
  obtain ⟨n, hn⟩ := Option.isSome_iff_exists.mp (hdecimal d hd)
  exact isAsciiDigit_iff.mpr ((DigitTables.isDigitChar_ascii d (hascii d (hsymbols d hd))).mp
    (DigitTables.isDigitChar_of_decimal d n hn))

/-- `str` of an integer has a limit on the digits. -/
theorem intStr_returns {n : Nat} : (∃ s, intStr n = .ok s) ↔ (str (toString n)).length ≤ 4300 := by
  unfold intStr
  split
  · rename_i hlong
    constructor
    · rintro ⟨s, h⟩
      cases h
    · intro h
      omega
  · rename_i hshort
    exact ⟨fun _ => Nat.le_of_not_gt hshort, fun _ => ⟨_, rfl⟩⟩

/-- **The amount of memory** is returned exactly where the file is ASCII and neither `int` nor `str`
    meets its limit. -/
theorem ramTotal_returns [DigitTables] {m : Machine} : (∃ v, ramTotal m = .ok v) ↔ TotalReadable m := by
  constructor
  · -- left to right: every read and conversion on the way has succeeded
    rintro ⟨v, h⟩
    obtain ⟨text, htext, h⟩ := bind_eq_ok.mp h
    refine ⟨readAscii_returns.mp ⟨text, htext⟩, fun text' digits htext' hdigits => ?_⟩
    obtain rfl := Except.ok.inj (htext.symm.trans htext')
    rw [hdigits] at h
    obtain ⟨n, hn, h⟩ := bind_eq_ok.mp h
    obtain ⟨s, hs, -⟩ := bind_eq_ok.mp h
    rw [toInt_ascii (memTotal_digits (readAscii_ascii htext) hdigits)] at hn
    split at hn
    · cases hn
    · rename_i hlen
      obtain rfl := Except.ok.inj hn
      exact ⟨Nat.le_of_not_gt hlen, intStr_returns.mp ⟨s, hs⟩⟩
  · -- right to left: they succeed one after the other
    intro h
    obtain ⟨text, htext⟩ := readAscii_returns.mpr h.ascii
    unfold ramTotal
    rw [htext, ok_bind]
    -- a file without the line gives no value, and raises nothing
    cases hdigits : memTotalPattern.search newline (text.getD []) with
    | none => exact ⟨none, rfl⟩
    | some digits =>
      obtain ⟨hlen, hstr⟩ := h.digits text digits htext hdigits
      obtain ⟨s, hs⟩ := intStr_returns.mpr hstr
      dsimp only
      rw [toInt_ascii (memTotal_digits (readAscii_ascii htext) hdigits), if_neg (Nat.not_lt.mpr hlen),
        ok_bind, hs, ok_bind]
      exact ⟨some s, rfl⟩

/-- What else it raises is a `ValueError`: of the decoder, of `int` or of `str`. -/
theorem ramTotal_error [DigitTables] {m : Machine} {e : Exc} (h : ramTotal m = .error e) :
    e.isValueError = true := by
  rcases bind_eq_error.mp h with h | ⟨text, htext, h⟩
  · rw [readAscii_error h]
    rfl
  · cases hdigits : memTotalPattern.search newline (text.getD []) with
    | none =>
      rw [hdigits] at h
      cases h
    | some digits =>
      rw [hdigits] at h
      rcases bind_eq_error.mp h with h | ⟨n, _, h⟩
      · exact toInt_error h
      · rcases bind_eq_error.mp h with h | ⟨_, _, h⟩
        · unfold intStr at h
          split at h
          · obtain rfl := Except.error.inj h
            rfl
          · cases h
        · cases h

/-- The pretty name is returned exactly where the file is UTF-8 or not there. -/
theorem osBuild_returns {m : Machine} :
    (∃ v, osBuild m = .ok v) ↔ Utf8File m (str "/etc/os-release") := by
  unfold osBuild Utf8File
  cases m (.read (str "/etc/os-release")) with
  | none => simp
  | some b =>
    constructor
    · rintro ⟨v, h⟩ _ ⟨⟩
      obtain ⟨text, htext, -⟩ := bind_eq_ok.mp h
      obtain ⟨s, hs, -⟩ := bind_eq_ok.mp htext
      exact ⟨s, hs⟩
    · intro h
      obtain ⟨s, hs⟩ := h b rfl
      dsimp only
      rw [readText, hs, ok_bind]
      exact ⟨_, rfl⟩

/-- The files of a PCI device that are looked at are ASCII. -/
structure ControllerReadable (m : Machine) (device : Str) : Prop where
  klass : AsciiFile m (pciPath device "/class")
  vendor : ∀ klass, readPci m device "/class" = .ok (some klass) →
    (str "0x03").isPrefixOf klass = true →
    AsciiFile m (pciPath device "/vendor")
  product : ∀ klass vendor, readPci m device "/class" = .ok (some klass) →
    (str "0x03").isPrefixOf klass = true → readPci m device "/vendor" = .ok (some vendor) →
    AsciiFile m (pciPath device "/device")

/-- A file of a PCI device is read like every strict text. -/
theorem readPci_returns {m : Machine} {device : Str} {file : String} :
    (∃ text, readPci m device file = .ok text) ↔ AsciiFile m (pciPath device file) := by
  rw [← readAscii_returns]
  constructor
  · rintro ⟨text, h⟩
    obtain ⟨t, ht, -⟩ := bind_eq_ok.mp h
    exact ⟨t, ht⟩
  · rintro ⟨t, ht⟩
    rw [readPci, ht, ok_bind]
    exact ⟨_, rfl⟩

/-- The vendor and the device file count only behind the class of a display controller, and the device
    file only where there is a vendor file. -/
theorem displayController_returns {m : Machine} {device : Str} :
    (∃ v, displayController m device = .ok v) ↔ ControllerReadable m device := by
  constructor
  · rintro ⟨v, h⟩
    obtain ⟨klass, hklass, h⟩ := bind_eq_ok.mp h
    -- the vendor is read only of a display controller, the product only if there is a vendor
    have hvendor : ∀ k, klass = some k → (str "0x03").isPrefixOf k = true →
        ∃ vendor, readPci m device "/vendor" = .ok vendor ∧
          (∀ w, vendor = some w → ∃ product, readPci m device "/device" = .ok product) := by
      rintro k rfl hdisplay
      dsimp only at h
      rw [hdisplay, if_neg (by decide)] at h
      obtain ⟨vendor, hv, h⟩ := bind_eq_ok.mp h
      refine ⟨vendor, hv, ?_⟩
      rintro w rfl
      obtain ⟨product, hp, -⟩ := bind_eq_ok.mp h
      exact ⟨product, hp⟩
    refine ⟨readPci_returns.mp ⟨klass, hklass⟩, fun k hk hdisplay => ?_, fun k w hk hdisplay hw => ?_⟩
    · obtain ⟨vendor, hv, -⟩ := hvendor k (Except.ok.inj (hklass.symm.trans hk)) hdisplay
      exact readPci_returns.mp ⟨vendor, hv⟩
    · obtain ⟨vendor, hv, hproduct⟩ := hvendor k (Except.ok.inj (hklass.symm.trans hk)) hdisplay
      exact readPci_returns.mp (hproduct w (Except.ok.inj (hv.symm.trans hw)))
  · intro h
    obtain ⟨klass, hklass⟩ := readPci_returns.mpr h.klass
    unfold displayController
    rw [hklass, ok_bind]
    -- what is missing on the way is skipped, not reported
    cases klass with
    | none => exact ⟨none, rfl⟩
    | some k =>
      dsimp only
      cases hdisplay : (str "0x03").isPrefixOf k with
      | false => exact ⟨none, rfl⟩
      | true =>
        obtain ⟨vendor, hvendor⟩ := readPci_returns.mpr (h.vendor k hklass hdisplay)
        rw [if_neg (by decide), hvendor, ok_bind]
        cases vendor with
        | none => exact ⟨none, rfl⟩
        | some w =>
          obtain ⟨product, hproduct⟩ := readPci_returns.mpr (h.product k w hklass hdisplay hvendor)
          dsimp only
          rw [hproduct, ok_bind]
          cases product with
          | none => exact ⟨none, rfl⟩
          | some p => exact ⟨some (w ++ str ":" ++ p), rfl⟩

/-- A file of a PCI device raises nothing but `UnicodeDecodeError`. -/
theorem readPci_error {m : Machine} {device : Str} {file : String} {e : Exc}
    (h : readPci m device file = .error e) : e = .unicodeDecodeError := by
  rcases bind_eq_error.mp h with h | ⟨_, _, h⟩
  · exact readAscii_error h
  · cases h

/-- Nor does a whole device. -/
theorem displayController_error {m : Machine} {device : Str} {e : Exc}
    (h : displayController m device = .error e) : e = .unicodeDecodeError := by
  rcases bind_eq_error.mp h with h | ⟨klass, _, h⟩
  · exact readPci_error h
  cases klass with
  | none => cases h
  | some k =>
    dsimp only at h
    split at h
    · cases h
    rcases bind_eq_error.mp h with h | ⟨vendor, _, h⟩
    · exact readPci_error h
    cases vendor with
    | none => cases h
    | some w =>
      rcases bind_eq_error.mp h with h | ⟨product, _, h⟩
      · exact readPci_error h
      cases product with
      | none => cases h
      | some p => cases h

/-- **The display controllers** are returned exactly where every PCI device can be looked at, one with a
    class file that is no controller included. -/
theorem gpuId_returns {m : Machine} : (∃ v, gpuId m = .ok v) ↔
    ∀ device ∈ globbed m "/sys/bus/pci/devices/" "*" "/class", ControllerReadable m device := by
  unfold gpuId
  rcases mapM_cases (f := displayController m) (globbed m "/sys/bus/pci/devices/" "*" "/class") with
    ⟨found, hfound, hall⟩ | ⟨device, hdevice, e, he, hfail⟩
  · rw [hfound, ok_bind]
    exact ⟨fun _ device hdevice => displayController_returns.mp (hall device hdevice),
      fun _ => ⟨_, rfl⟩⟩
  · rw [hfail, error_bind]
    constructor
    · rintro ⟨v, h⟩
      cases h
    · intro h
      obtain ⟨v, hv⟩ := displayController_returns.mpr (h device hdevice)
      rw [he] at hv
      cases hv

/-- What the loop over the devices raises is that of the first device that raises. -/
theorem gpuId_error {m : Machine} {e : Exc} (h : gpuId m = .error e) : e = .unicodeDecodeError := by
  rcases bind_eq_error.mp h with h | ⟨_, _, h⟩
  · rcases mapM_cases (f := displayController m) (globbed m "/sys/bus/pci/devices/" "*" "/class") with
      ⟨found, hfound, _⟩ | ⟨device, _, e', he, hfail⟩
    · rw [hfound] at h
      cases h
    · obtain rfl := Except.error.inj (hfail.symm.trans h)
      exact displayController_error he
  · cases h

/-- What a collection needs of the machine: every text that is decoded strictly can be decoded. -/
structure Readable [LocaleCodec] [DigitTables] (m : Machine) : Prop where
  total : TotalReadable m
  findmnt : TextCommand m [str "findmnt", str "-no", str "UUID", str "/"]
  dmidecode : TextCommand m [str "dmidecode", str "--type", str "memory"]
  osRelease : Utf8File m (str "/etc/os-release")
  controllers :
    ∀ device ∈ globbed m "/sys/bus/pci/devices/" "*" "/class", ControllerReadable m device

/-- A signal that is made of one command fails only with the command. -/
theorem command_returns [LocaleCodec] {m : Machine} {α : Type} {args : List Str} {f : Str → α} :
    (∃ v, (do return f (← runCommand m args) : Except Exc α) = .ok v) ↔ TextCommand m args := by
  rw [← runCommand_returns]
  constructor
  · rintro ⟨v, h⟩
    obtain ⟨text, htext, -⟩ := bind_eq_ok.mp h
    exact ⟨text, htext⟩
  · rintro ⟨text, htext⟩
    exact ⟨f text, by rw [htext]; rfl⟩

/-- **A collection returns** exactly on a readable machine. -/
theorem collectLinux_returns_iff [LocaleCodec] [DigitTables] [Sha256] {m : Machine} :
    (∃ d, collectLinux m = .ok d) ↔ Readable m := by
  constructor
  · rintro ⟨d, h⟩
    obtain ⟨ram, volume, modules, os, gpus, hram, hvolume, hmodules, hos, hgpus, -⟩ :=
      collectLinux_eq_ok.mp h
    exact ⟨ramTotal_returns.mp ⟨ram, hram⟩, command_returns.mp ⟨volume, hvolume⟩,
      command_returns.mp ⟨modules, hmodules⟩, osBuild_returns.mp ⟨os, hos⟩,
      gpuId_returns.mp ⟨gpus, hgpus⟩⟩
  · intro h
    obtain ⟨ram, hram⟩ := ramTotal_returns.mpr h.total
    obtain ⟨volume, hvolume⟩ : ∃ v, volumeId m = .ok v := command_returns.mpr h.findmnt
    obtain ⟨modules, hmodules⟩ : ∃ v, memoryModules m = .ok v := command_returns.mpr h.dmidecode
    obtain ⟨os, hos⟩ := osBuild_returns.mpr h.osRelease
    obtain ⟨gpus, hgpus⟩ := gpuId_returns.mpr h.controllers
    exact ⟨_, collectLinux_eq_ok.mpr
      ⟨ram, volume, modules, os, gpus, hram, hvolume, hmodules, hos, hgpus, rfl⟩⟩

/-- **What a collection raises is a `ValueError`**, whichever of the five sources it is. -/
theorem collectLinux_isValueError [LocaleCodec] [DigitTables] [Sha256] {m : Machine} {e : Exc}
    (h : collectLinux m = .error e) : e.isValueError = true := by
  have hcommand : ∀ {α : Type} {args : List Str} {f : Str → α},
      (do return f (← runCommand m args) : Except Exc α) = .error e → e.isValueError = true := by
    intro α args f h
    rcases bind_eq_error.mp h with h | ⟨_, _, h⟩
    · rw [runCommand_error h]
      rfl
    · cases h
  rcases collectLinux_error h with h | h | h | h | h
  · exact ramTotal_error h
  · exact hcommand h
  · exact hcommand h
  · unfold osBuild at h
    cases hread : m (.read (str "/etc/os-release")) with
    | none =>
      rw [hread] at h
      cases h
    | some b =>
      rw [hread] at h
      rcases bind_eq_error.mp h with h | ⟨_, _, h⟩
      · rw [readText_error h]
        rfl
      · cases h
  · rw [gpuId_error h]
    rfl

/-! ### Surrogates -/

theorem canEncode_sub {s t : Str} (hs : CanEncode s) (h : ∀ c ∈ t, c ∈ s) : CanEncode t :=
  fun c hc => hs c (h c hc)

theorem canEncode_strip {s : Str} (hs : CanEncode s) : CanEncode (strip s) :=
  canEncode_sub hs fun _ => mem_of_mem_strip

/-- A join can be encoded if its items and the separator can. -/
theorem canEncode_join {sep : Str} {values : List Str} (hsep : CanEncode sep)
    (h : ∀ v ∈ values, CanEncode v) : CanEncode (List.intercalate sep values) := by
  intro c hc
  rcases mem_intercalate hc with hc | ⟨v, hv, hc⟩
  · exact hsep c hc
  · exact h v hv c hc

/-- The value can be encoded, if there is one. -/
def Encodes (value : Option Str) : Prop := ∀ v, value = some v → CanEncode v

/-- An empty text is no signal; any other is as it was. -/
theorem encodes_nonempty {s : Str} (hs : CanEncode s) : Encodes (nonempty s) := by
  intro v hv
  unfold nonempty at hv
  split at hv
  · cases hv
  · obtain rfl := Option.some.inj hv
    exact hs

/-- A new signal that can be encoded keeps that of all of them. -/
theorem ValuesEncode.put {F : Dict Str} (h : ValuesEncode F) (slot : Str) {value : Option Str}
    (hv : Encodes value) : ValuesEncode (put F slot value) := by
  cases value with
  | none => exact h
  | some v => exact h.insert slot (hv v rfl)

/-- So does one that gives way to an older signal. -/
theorem ValuesEncode.putNew {F : Dict Str} (h : ValuesEncode F) (slot : Str) {value : Option Str}
    (hv : Encodes value) : ValuesEncode (putNew F slot value) := by
  unfold Slhwid.putNew
  split
  · exact h
  · exact h.put slot hv

/-- `errors="replace"` makes no surrogates. -/
theorem readTrimmed_encodes (m : Machine) (path : Str) : CanEncode (readTrimmed m path) := by
  unfold Hwid.readTrimmed
  cases m (.read path) with
  | none => exact canEncode_nil
  | some b => exact canEncode_strip (universalNewlines_canEncode (decodeUtf8Replace_canEncode b) _)

/-- Nor does it for ASCII. -/
theorem readAsciiReplace_encodes (m : Machine) (path : Str) : CanEncode (readAsciiReplace m path) := by
  unfold readAsciiReplace
  cases m (.read path) with
  | none => exact canEncode_nil
  | some b => exact canEncode_strip (universalNewlines_canEncode (decodeAsciiReplace_canEncode b) _)

/-- Strict ASCII has none anyway. -/
theorem readAscii_encodes {m : Machine} {path : Str} {text : Option Str}
    (h : readAscii m path = .ok text) : Encodes text := by
  rintro s rfl c hc
  have hlow := readAscii_ascii h c hc
  rw [isSurrogate, Bool.and_eq_false_iff, decide_eq_false_iff_not]
  omega

/-- The locale's codec makes none either: this is part of what `LocaleCodec` promises. -/
theorem runCommand_encodes [LocaleCodec] {m : Machine} {args : List Str} {text : Str}
    (h : runCommand m args = .ok text) : CanEncode text := by
  unfold runCommand at h
  cases hrun : m (.command args) with
  | none =>
    rw [hrun] at h
    obtain rfl := Except.ok.inj h
    exact canEncode_nil
  | some c =>
    rw [hrun] at h
    obtain ⟨out, hout, h⟩ := bind_eq_ok.mp h
    obtain ⟨_, _, h⟩ := bind_eq_ok.mp h
    obtain rfl := Except.ok.inj h
    split
    · exact canEncode_strip (universalNewlines_canEncode (LocaleCodec.decode_canEncode _ _ hout) _)
    · exact canEncode_nil

/-- Several instances are joined with `|`, which can be encoded. -/
theorem multiInstance_encodes {values : List Str} (h : ∀ v ∈ values, CanEncode v) :
    CanEncode (multiInstance values) := by
  refine canEncode_join (canEncode_cons (by decide) canEncode_nil) fun v hv => ?_
  rw [mem_sortStrs, List.mem_filter] at hv
  exact h v hv.1

/-- The same holds of the plain join. -/
theorem joined_encodes {values : List Str} (h : ∀ v ∈ values, CanEncode v) : Encodes (joined values) := by
  intro v hv
  unfold joined at hv
  split at hv
  · cases hv
  · obtain rfl := Option.some.inj hv
    refine canEncode_join (canEncode_cons (by decide) canEncode_nil) fun w hw => ?_
    rw [mem_sortStrs] at hw
    exact h w hw

/-! The legacy collector. -/

/-- The lines of a text consist of its characters. -/
theorem mem_splitlines {c : CodePoint} : ∀ {s : Str} {afterCr : Bool} {line : Str},
    line ∈ splitlinesAfter afterCr s → c ∈ line → c ∈ s := by
  intro s
  induction s with
  | nil => intro _ _ h; cases h
  | cons d s ih =>
    intro afterCr line h hc
    unfold splitlinesAfter at h
    split_ifs at h
    · exact List.mem_cons_of_mem d (ih h hc)
    · rcases List.mem_cons.mp h with rfl | h
      · cases hc
      · exact List.mem_cons_of_mem d (ih h hc)
    · cases hlines : splitlinesAfter false s with
      | nil =>
        rw [hlines] at h
        obtain rfl := List.mem_singleton.mp h
        obtain rfl := List.mem_singleton.mp hc
        exact List.mem_cons_self
      | cons first rest =>
        rw [hlines] at h
        have hsub : ∀ l ∈ first :: rest, c ∈ l → c ∈ s := fun l hl => ih (hlines ▸ hl)
        rcases List.mem_cons.mp h with rfl | h
        · rcases List.mem_cons.mp hc with rfl | hc
          · exact List.mem_cons_self
          · exact List.mem_cons_of_mem d (hsub first List.mem_cons_self hc)
        · exact List.mem_cons_of_mem d (hsub line (List.mem_cons_of_mem first h) hc)

/-- So does what stands behind the first separator. -/
theorem mem_of_mem_splitFirst {sep c : CodePoint} : ∀ {s : Str},
    c ∈ (splitFirst sep s).2 → c ∈ s := by
  intro s
  induction s with
  | nil => intro h; cases h
  | cons d s ih =>
    intro h
    unfold splitFirst at h
    split at h
    · exact List.mem_cons_of_mem d h
    · exact List.mem_cons_of_mem d (ih h)

/-- The processor's serial number is the end of a line of `/proc/cpuinfo`. -/
theorem cpuSerial_encodes (m : Machine) : CanEncode (Hwid.cpuSerial m) := by
  unfold Hwid.cpuSerial
  cases m (.read (str "/proc/cpuinfo")) with
  | none => exact canEncode_nil
  | some b =>
    dsimp only
    cases hfound : (splitlines (Hwid.replacedText b)).findSome? Hwid.serialLine with
    | none => exact canEncode_nil
    | some v =>
      obtain ⟨line, hline, hv⟩ := List.exists_of_findSome?_eq_some hfound
      unfold Hwid.serialLine at hv
      split at hv
      · obtain rfl := Option.some.inj hv
        refine canEncode_strip (canEncode_sub ?_ fun _ => mem_of_mem_splitFirst)
        exact canEncode_sub (universalNewlines_canEncode (decodeUtf8Replace_canEncode b) _)
          fun _ => mem_splitlines hline
      · cases hv

/-- The disk's is the text of a file, replaced where it is not UTF-8. -/
theorem diskSerial_encodes (m : Machine) : CanEncode (Hwid.diskSerial m) := by
  unfold Hwid.diskSerial
  cases m (.list (str "/sys/block")) with
  | none => exact canEncode_nil
  | some names =>
    dsimp only
    cases hfound : ((sortStrs names).filter fun name => !Hwid.isPseudoDevice name).findSome? fun name =>
        (Hwid.serialPaths name).findSome? fun path => nonempty (readTrimmed m path) with
    | none => exact canEncode_nil
    | some v =>
      obtain ⟨name, _, hv⟩ := List.exists_of_findSome?_eq_some hfound
      obtain ⟨path, _, hv⟩ := List.exists_of_findSome?_eq_some hv
      exact encodes_nonempty (readTrimmed_encodes m path) v hv

/-- A hardware address is written in hexadecimal digits and colons. -/
theorem macText_encodes (mac : Bytes) : CanEncode (Hwid.macText mac) := by
  refine canEncode_join (canEncode_cons (by decide) canEncode_nil) fun v hv => ?_
  obtain ⟨x, _, rfl⟩ := List.mem_map.mp hv
  have hx := canEncode_hexStr [x]
  rwa [hexStr, List.flatMap_singleton] at hx

theorem macAddress_encodes {m : Machine} {mac : Str} (h : Hwid.macAddress m = .ok mac) : CanEncode mac := by
  rcases Hwid.macAddress_eq_ok h with rfl | ⟨address, rfl⟩
  · exact canEncode_nil
  · exact macText_encodes address

/-- The machine id is one of two files. -/
theorem machineId_encodes (m : Machine) : CanEncode (Hwid.machineId m) := by
  unfold Hwid.machineId
  dsimp only
  split
  · exact readTrimmed_encodes m _
  · exact readTrimmed_encodes m _

/-- **The legacy signals can be encoded**, all six of them. -/
theorem legacyFactors_encodes (m : Machine) : ValuesEncode (legacyFactors m) := by
  unfold legacyFactors
  cases hcollect : Hwid.collect m with
  | error e => exact ValuesEncode.empty
  | ok d =>
    obtain ⟨_, mac, hmac, rfl⟩ := Hwid.collect_eq_ok.mp hcollect
    refine ValuesEncode.put (ValuesEncode.put (ValuesEncode.put (ValuesEncode.put (ValuesEncode.put
      (ValuesEncode.put ValuesEncode.empty _ ?_) _ ?_) _ ?_) _ ?_) _ ?_) _ ?_
    · rintro v ⟨⟩
      exact machineId_encodes m
    · exact encodes_nonempty (readTrimmed_encodes m _)
    · exact encodes_nonempty (readTrimmed_encodes m _)
    · exact encodes_nonempty (cpuSerial_encodes m)
    · exact encodes_nonempty (diskSerial_encodes m)
    · exact encodes_nonempty (macAddress_encodes hmac)

/-! The signals. -/

/-- The amount of memory is made of digits. -/
theorem ramTotal_encodes [DigitTables] {m : Machine} {value : Option Str} (h : ramTotal m = .ok value) :
    Encodes value := by
  rintro v rfl
  obtain ⟨text, _, h⟩ := bind_eq_ok.mp h
  cases hdigits : memTotalPattern.search newline (text.getD []) with
  | none =>
    rw [hdigits] at h
    cases h
  | some digits =>
    rw [hdigits] at h
    obtain ⟨n, _, h⟩ := bind_eq_ok.mp h
    obtain ⟨s, hs, h⟩ := bind_eq_ok.mp h
    obtain rfl := Option.some.inj (Except.ok.inj h)
    unfold intStr at hs
    split at hs
    · cases hs
    · obtain rfl := Except.ok.inj hs
      intro c hc
      obtain ⟨_, hhi⟩ := isAsciiDigit_iff.mp (List.all_eq_true.mp (all_isAsciiDigit_toString _) c hc)
      rw [isSurrogate, Bool.and_eq_false_iff, decide_eq_false_iff_not]
      omega

/-- A serial number is a piece of the command's output. -/
theorem memoryModules_encodes [LocaleCodec] {m : Machine} {value : Option Str}
    (h : memoryModules m = .ok value) : Encodes value := by
  obtain ⟨text, htext, h⟩ := bind_eq_ok.mp h
  have h := Except.ok.inj h
  split at h
  · subst h
    rintro v ⟨⟩
  · subst h
    rintro v ⟨⟩
    exact multiInstance_encodes fun serial hserial =>
      canEncode_sub (runCommand_encodes htext) (findAll_captures hserial).2

/-- A network address is the text of a file. -/
theorem nicIdentity_encodes (m : Machine) : Encodes (nicIdentity m) := by
  refine encodes_nonempty (multiInstance_encodes fun v hv => ?_)
  obtain ⟨device, _, hv⟩ := List.mem_filterMap.mp hv
  unfold nicAddress at hv
  dsimp only at hv
  split at hv
  · cases hv
  · exact encodes_nonempty (readTrimmed_encodes m _) v hv

theorem batterySerial_encodes (m : Machine) : Encodes (batterySerial m) := by
  refine encodes_nonempty (multiInstance_encodes fun v hv => ?_)
  obtain ⟨battery, _, hv⟩ := List.mem_filterMap.mp hv
  exact encodes_nonempty (readTrimmed_encodes m _) v hv

/-- A digest is hexadecimal text. -/
theorem tpmEk_encodes [Sha256] (m : Machine) : Encodes (tpmEk m) := by
  intro v hv
  obtain ⟨path, _, hv⟩ := List.exists_of_findSome?_eq_some hv
  split at hv
  · cases hv
  · obtain rfl := Option.some.inj hv
    exact canEncode_hexStr _

/-- The pretty name is a piece of a file that was decoded strictly. -/
theorem osBuild_encodes {m : Machine} {value : Option Str} (h : osBuild m = .ok value) : Encodes value := by
  rintro v rfl
  unfold osBuild at h
  cases hread : m (.read (str "/etc/os-release")) with
  | none =>
    rw [hread] at h
    cases h
  | some b =>
    rw [hread] at h
    obtain ⟨text, htext, h⟩ := bind_eq_ok.mp h
    obtain ⟨s, hs, htext⟩ := bind_eq_ok.mp htext
    obtain rfl := Except.ok.inj htext
    have hsearch := Except.ok.inj h
    exact canEncode_sub (universalNewlines_canEncode (decodeUtf8_canEncode hs) _)
      (search_captures hsearch).2

/-- An EDID block is hexadecimal text. -/
theorem monitorEdid_encodes (m : Machine) : Encodes (monitorEdid m) := by
  refine joined_encodes fun v hv => ?_
  obtain ⟨connector, _, hv⟩ := List.mem_filterMap.mp hv
  dsimp only at hv
  split at hv
  · cases hv
  · obtain rfl := Option.some.inj hv
    exact canEncode_hexStr _

/-- A file of a PCI device is ASCII. -/
theorem readPci_encodes {m : Machine} {device : Str} {file : String} {value : Option Str}
    (h : readPci m device file = .ok value) : Encodes value := by
  rintro v rfl
  obtain ⟨text, htext, h⟩ := bind_eq_ok.mp h
  obtain ⟨t, rfl, rfl⟩ := Option.map_eq_some_iff.mp (Except.ok.inj h)
  exact canEncode_strip (readAscii_encodes htext t rfl)

/-- The identity of a controller is two such texts and a colon. -/
theorem displayController_encodes {m : Machine} {device : Str} {value : Option Str}
    (h : displayController m device = .ok value) : Encodes value := by
  rintro v rfl
  obtain ⟨klass, _, h⟩ := bind_eq_ok.mp h
  cases klass with
  | none => cases h
  | some k =>
    dsimp only at h
    split at h
    · cases h
    obtain ⟨vendor, hvendor, h⟩ := bind_eq_ok.mp h
    cases vendor with
    | none => cases h
    | some w =>
      obtain ⟨product, hproduct, h⟩ := bind_eq_ok.mp h
      cases product with
      | none => cases h
      | some p =>
        obtain rfl := Option.some.inj (Except.ok.inj h)
        intro c hc
        rcases List.mem_append.mp hc with hc | hc
        · rcases List.mem_append.mp hc with hc | hc
          · exact readPci_encodes hvendor w rfl c hc
          · exact canEncode_cons (by decide) canEncode_nil c hc
        · exact readPci_encodes hproduct p rfl c hc

/-- The controllers are joined as they are. -/
theorem gpuId_encodes {m : Machine} {value : Option Str} (h : gpuId m = .ok value) : Encodes value := by
  obtain ⟨found, hfound, h⟩ := bind_eq_ok.mp h
  obtain rfl := Except.ok.inj h
  refine joined_encodes fun v hv => ?_
  obtain ⟨device, hdevice⟩ := exists_of_mem_mapM hfound (some v) (List.reduceOption_mem_iff.mp hv)
  exact displayController_encodes hdevice v rfl

/-- The volume id is the output of a command. -/
theorem volumeId_encodes [LocaleCodec] {m : Machine} {value : Option Str} (h : volumeId m = .ok value) :
    Encodes value := by
  obtain ⟨text, htext, h⟩ := bind_eq_ok.mp h
  obtain rfl := Except.ok.inj h
  exact encodes_nonempty (runCommand_encodes htext)

/-- **The signals can be encoded**, if the host name can. -/
theorem collectLinux_encodes [LocaleCodec] [DigitTables] [Sha256] {m : Machine} {d : Dict Str}
    (h : collectLinux m = .ok d) (hname : CanEncode (m .nodename)) : ValuesEncode d := by
  obtain ⟨ram, volume, modules, os, gpus, hram, hvolume, hmodules, hos, hgpus, rfl⟩ :=
    collectLinux_eq_ok.mp h
  unfold assemble
  dsimp only
  refine .put ?_ _ (gpuId_encodes hgpus)
  refine .put ?_ _ (monitorEdid_encodes m)
  refine .put ?_ _ (osBuild_encodes hos)
  refine .put ?_ _ (tpmEk_encodes m)
  refine .put ?_ _ (batterySerial_encodes m)
  refine .put ?_ _ (nicIdentity_encodes m)
  refine .put ?_ _ (memoryModules_encodes hmodules)
  refine .put ?_ _ (encodes_nonempty (readTrimmed_encodes m _))
  refine .put ?_ _ (encodes_nonempty (readTrimmed_encodes m _))
  refine .put ?_ _ (encodes_nonempty (readTrimmed_encodes m _))
  refine .putNew ?_ _ (encodes_nonempty (readAsciiReplace_encodes m _))
  refine .putNew ?_ _ (encodes_nonempty (readAsciiReplace_encodes m _))
  refine .putNew ?_ _ (encodes_nonempty (readAsciiReplace_encodes m _))
  refine .put ?_ _ (volumeId_encodes hvolume)
  refine .put ?_ _ (ramTotal_encodes hram)
  exact (legacyFactors_encodes m).put _ (encodes_nonempty hname)

/-! ### The host name -/

/-- A signal of another name stays as it is. -/
theorem lookup_putNew_ne {F : Dict Str} {slot k : Str} (h : k ≠ slot) (value : Option Str) :
    (putNew F slot value).lookup k = F.lookup k := by
  unfold putNew
  split
  · rfl
  · exact lookup_put_ne h value

/-- A host name that there is gets into the signals as it is. -/
theorem lookup_computerName [LocaleCodec] [DigitTables] [Sha256] {m : Machine} {d : Dict Str}
    (h : collectLinux m = .ok d) (hname : m .nodename ≠ []) :
    d.lookup (str "computer_name") = some (m .nodename) := by
  obtain ⟨ram, volume, modules, os, gpus, _, _, _, _, _, rfl⟩ := collectLinux_eq_ok.mp h
  unfold assemble
  dsimp only
  -- no later signal has this name
  rw [lookup_put_ne (by decide +kernel), lookup_put_ne (by decide +kernel), lookup_put_ne (by decide +kernel),
    lookup_put_ne (by decide +kernel), lookup_put_ne (by decide +kernel), lookup_put_ne (by decide +kernel),
    lookup_put_ne (by decide +kernel), lookup_put_ne (by decide +kernel), lookup_put_ne (by decide +kernel),
    lookup_put_ne (by decide +kernel), lookup_putNew_ne (by decide +kernel),
    lookup_putNew_ne (by decide +kernel), lookup_putNew_ne (by decide +kernel),
    lookup_put_ne (by decide +kernel), lookup_put_ne (by decide +kernel)]
  have hvalue : computerName m = some (m .nodename) := if_neg hname
  rw [hvalue]
  exact AList.lookup_insert _

/-- **`normalize_factors(collect())` completes** exactly where every strictly decoded text can be decoded
    and the host name can be encoded; all else a machine may lack costs signals, never the launch.  What
    it raises otherwise is a `ValueError`. -/
theorem collection_completes_iff [LocaleCodec] [DigitTables] [Sha256] {m : Machine} :
    ((∃ nf, (do normalizeFactors (← collectLinux m)) = .ok nf) ↔ Readable m ∧ CanEncode (m .nodename)) ∧
      ∀ e, (do normalizeFactors (← collectLinux m)) = .error e → e.isValueError = true := by
  refine ⟨⟨?_, ?_⟩, ?_⟩
  · rintro ⟨nf, h⟩
    obtain ⟨d, hd, hnf⟩ := bind_eq_ok.mp h
    refine ⟨collectLinux_returns_iff.mp ⟨d, hd⟩, ?_⟩
    -- an empty host name is no signal; any other is a value that was encoded
    by_cases hname : m .nodename = []
    · rw [hname]
      exact canEncode_nil
    · have hlookup := lookup_computerName hd hname
      exact (normalizeFactors_encode hnf).1 ⟨str "computer_name", m .nodename⟩
        (List.of_mem_dlookup hlookup)
  · rintro ⟨hreadable, hname⟩
    obtain ⟨d, hd⟩ := collectLinux_returns_iff.mpr hreadable
    have hvalues : ∀ item ∈ d.entries, CanEncode item.2 := by
      rintro ⟨name, value⟩ hitem
      have hlookup : d.lookup name = some value := List.mem_dlookup d.nodupKeys hitem
      have hget := collectLinux_encodes hd hname name
      rw [Dict.get, hlookup] at hget
      exact hget
    obtain ⟨nf, hnf⟩ := normalizeFactors_ok hvalues
    exact ⟨nf, by rw [hd]; exact hnf⟩
  · intro e h
    rcases bind_eq_error.mp h with h | ⟨d, _, h⟩
    · exact collectLinux_isValueError h
    · rw [normalizeFactors_eq_error h]
      rfl

end Bedrock.Slhwid
