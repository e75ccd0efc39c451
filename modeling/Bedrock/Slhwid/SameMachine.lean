/-
  The same machine with other parts: where a signal comes from, and what a launch behind a repair returns.

  1. **Sources** — `Query.signals` says which signals an answer can show up in; `sources k` are the
     questions behind the signal `k`.

  2. **Locality** — what a source gives depends on its own answers only (Mathlib's `DependsOn`), and a
     signal that lists devices not on their names either (`Renamed`): kernels number network interfaces,
     batteries, monitors and graphics cards as they find them.  So two collections agree on each signal
     that was `Kept` (`collectLinux_kept`).

  3. **The result** — slots whose signals were kept are as they were, and the launch finds the key again
     if the hard locks and a threshold of slots are among them (`replaced_parts`).
-/
import Bedrock.Slhwid.BadLock
import Bedrock.Slhwid.CollectLinux
import Bedrock.Slhwid.GradualDrift

open Lib.Fallible Bedrock.Python

namespace Bedrock.Hwid

/-! ## Sources -/

/-- A signal that lists devices: its directory, the pattern of their names, and the file they must have. -/
structure Listing where
  signal : String
  directory : String
  pattern : String
  suffix : String
  deriving DecidableEq

/-- The directories whose devices are a signal, each with the glob that lists them. -/
def listings : List Listing := [
  ⟨"nic_identity", "/sys/class/net/", "*", "/device"⟩,
  ⟨"battery_serial", "/sys/class/power_supply/", "BAT*", "/serial_number"⟩,
  ⟨"monitor_edid", "/sys/class/drm/", "card*-*", "/edid"⟩,
  ⟨"gpu_id", "/sys/bus/pci/devices/", "*", "/class"⟩]

/-- The files with a path of their own. -/
def fixedFiles : List (String × String) := [
  ("/etc/machine-id", "machine_guid"), ("/var/lib/dbus/machine-id", "machine_guid"),
  ("/sys/class/dmi/id/product_uuid", "product_uuid"), ("/sys/class/dmi/id/product_uuid", "system_uuid"),
  ("/sys/class/dmi/id/board_serial", "board_serial"), ("/sys/class/dmi/id/bios_version", "firmware"),
  ("/sys/class/dmi/id/product_serial", "system_serial"),
  ("/sys/class/dmi/id/chassis_serial", "chassis_serial"),
  ("/proc/cpuinfo", "cpu_id"), ("/proc/meminfo", "ram_total"), ("/etc/os-release", "os_build"),
  ("/sys/class/tpm/tpm0/device/ek_pub", "tpm_ek"), ("/sys/class/tpm/tpm0/ek_pub", "tpm_ek")]

/-- The files below these directories. -/
def directories : List (String × String) :=
  ("/sys/block/", "disk_serial") :: listings.map fun l => (l.directory, l.signal)

/-- The signals that read files below a directory. -/
def directorySignals (path : Str) : List Str :=
  (directories.filter fun d => (str d.1).isPrefixOf path).map fun d => str d.2

/-- The signals an answer can show up in. -/
def Query.signals : Query → List Str
  | .nodename => [str "computer_name"]
  | .interfaces => [str "mac"]
  | .socket => [str "mac"]
  | .hardwareAddress _ => [str "mac"]
  | .list _ => [str "disk_serial"]
  | .glob pattern => directorySignals pattern
  | .command args => if args.head? = some (str "findmnt") then [str "volume_id"] else [str "memory_modules"]
  | .read path =>
    ((fixedFiles.filter fun f => str f.1 = path).map fun f => str f.2) ++ directorySignals path

/-- What is asked for a signal. -/
def sources (k : Str) : Set Query := {q | k ∈ q.signals}

/-- Whether a query is a source of a signal is read off the query. -/
instance (k : Str) (q : Query) : Decidable (q ∈ sources k) := inferInstanceAs (Decidable (k ∈ q.signals))

theorem mem_directorySignals {directory signal : String} (h : (directory, signal) ∈ directories)
    (rest : Str) : str signal ∈ directorySignals (str directory ++ rest) :=
  List.mem_map.mpr ⟨(directory, signal), List.mem_filter.mpr
    ⟨h, List.isPrefixOf_iff_prefix.mpr (List.prefix_append _ _)⟩, rfl⟩

/-- A file below a directory. -/
theorem read_mem_sources {directory signal : String} (h : (directory, signal) ∈ directories)
    (device file : Str) : .read (str directory ++ device ++ file) ∈ sources (str signal) := by
  rw [List.append_assoc]
  exact List.mem_append_right _ (mem_directorySignals h _)

/-- A file with a path of its own. -/
theorem fixed_mem_sources {path signal : String} (h : (path, signal) ∈ fixedFiles) :
    .read (str path) ∈ sources (str signal) :=
  List.mem_append_left _ (List.mem_map.mpr ⟨(path, signal), List.mem_filter.mpr
    ⟨h, decide_eq_true rfl⟩, rfl⟩)

/-- The signals that list no devices. -/
def unlisted : List String :=
  fixedFiles.map Prod.snd ++ ["computer_name", "mac", "disk_serial", "volume_id", "memory_modules"]

theorem unlisted_ne : ∀ k ∈ unlisted, ∀ l ∈ listings, str l.signal ≠ str k := by decide +kernel

theorem mem_unlisted_of_fixed {path signal : String} (h : (path, signal) ∈ fixedFiles) :
    signal ∈ unlisted := List.mem_append_left _ (List.mem_map.mpr ⟨(path, signal), h, rfl⟩)

/-! ## Locality -/

/-- The trimmed text of a file depends on the file alone. -/
theorem readTrimmed_congr {m m' : Machine} {path path' : Str} (h : m (.read path) = m' (.read path')) :
    readTrimmed m path = readTrimmed m' path' := by
  rw [readTrimmed, readTrimmed, h]
  cases m' (.read path') with
  | none => rfl
  | some b => rfl

/-- The machine id reads its two files. -/
theorem machineId_dependsOn : DependsOn machineId (sources (str "machine_guid")) := by
  intro m m' hsame
  have hread : ∀ {path : String}, (path, "machine_guid") ∈ fixedFiles →
      readTrimmed m (str path) = readTrimmed m' (str path) :=
    fun hpath => readTrimmed_congr (hsame _ (fixed_mem_sources hpath))
  rw [machineId, machineId, hread (by simp [fixedFiles]), hread (by simp [fixedFiles])]

theorem cpuSerial_dependsOn : DependsOn cpuSerial (sources (str "cpu_id")) := by
  intro m m' hsame
  rw [cpuSerial, cpuSerial,
    hsame (.read (str "/proc/cpuinfo")) (fixed_mem_sources (by simp [fixedFiles]))]

theorem diskSerial_dependsOn : DependsOn diskSerial (sources (str "disk_serial")) := by
  intro m m' hsame
  have hone : ∀ name, ((serialPaths name).findSome? fun path => nonempty (readTrimmed m path)) =
      (serialPaths name).findSome? fun path => nonempty (readTrimmed m' path) := by
    intro name
    rw [← List.head?_filterMap, ← List.head?_filterMap, List.filterMap_congr fun path hpath => ?_]
    obtain ⟨file, _, rfl⟩ := List.mem_map.mp hpath
    rw [readTrimmed_congr (hsame _ (read_mem_sources List.mem_cons_self name file))]
  rw [diskSerial, diskSerial, hsame (.list (str "/sys/block")) List.mem_cons_self, funext hone]

theorem macAddress_dependsOn : DependsOn macAddress (sources (str "mac")) := by
  intro m m' hsame
  have hone : ∀ name, interfaceMac m name = interfaceMac m' name := by
    intro name
    rw [interfaceMac, interfaceMac, hsame .socket List.mem_cons_self]
    split
    · rfl
    · cases encodeUtf8 (name.take 15) with
      | error e => rfl
      | ok encoded =>
        rw [ok_bind, ok_bind, hsame (.hardwareAddress (packName encoded)) List.mem_cons_self]
  have hfirst : ∀ names, firstMac m names = firstMac m' names := by
    intro names
    induction names with
    | nil => rfl
    | cons name names ih => rw [firstMac, firstMac, hone, ih]
  rw [macAddress, macAddress, hsame .interfaces List.mem_cons_self]
  cases m' .interfaces with
  | none => rfl
  | some names =>
    dsimp only
    rw [hfirst]

/-! ## Devices under other names -/

/-- The names of the devices. -/
def Listing.devices (l : Listing) (m : Machine) : List Str :=
  m (.glob (str l.directory ++ str l.pattern ++ str l.suffix))

/-- The same devices are there, under other names or in another order. -/
def Listing.Renamed (l : Listing) (m m' : Machine) : Prop :=
  ∃ rename : Str → Str, (l.devices m').Perm ((l.devices m).map rename) ∧
    ∀ device ∈ l.devices m, ∀ file,
      m' (.read (str l.directory ++ rename device ++ file)) = m (.read (str l.directory ++ device ++ file))

/-- **A signal was kept**: its sources answer as before, or list the same devices. -/
def Kept (m m' : Machine) (k : Str) : Prop :=
  (∀ q ∈ sources k, m q = m' q) ∨ ∃ l ∈ listings, str l.signal = k ∧ l.Renamed m m'

/-- A kept signal without a listing has all of its sources unchanged. -/
theorem Kept.spared {m m' : Machine} {k : String} (h : Kept m m' (str k)) (hk : k ∈ unlisted) :
    ∀ q ∈ sources (str k), m q = m' q := by
  rcases h with h | ⟨l, hl, hsignal, _⟩
  · exact h
  · exact absurd hsignal (unlisted_ne k hk l hl)

theorem Kept.file {m m' : Machine} {path signal : String} (h : Kept m m' (str signal))
    (hfile : (path, signal) ∈ fixedFiles) : m (.read (str path)) = m' (.read (str path)) :=
  h.spared (mem_unlisted_of_fixed hfile) _ (fixed_mem_sources hfile)

/-- Devices whose files are as before are the same ones, under the same names. -/
theorem Kept.renamed {m m' : Machine} {l : Listing} (hl : l ∈ listings) (h : Kept m m' (str l.signal)) :
    l.Renamed m m' := by
  have hdirectory : (l.directory, l.signal) ∈ directories :=
    List.mem_cons_of_mem _ (List.mem_map.mpr ⟨l, hl, rfl⟩)
  rcases h with h | ⟨l', hl', hsignal, h⟩
  · refine ⟨id, ?_, fun device _ file => (h _ (read_mem_sources hdirectory device file)).symm⟩
    have hglob : .glob (str l.directory ++ str l.pattern ++ str l.suffix) ∈ sources (str l.signal) := by
      rw [List.append_assoc]
      exact mem_directorySignals hdirectory _
    rw [List.map_id, Listing.devices, Listing.devices, h _ hglob]
  · have hinj : ∀ l ∈ listings, ∀ l' ∈ listings, str l'.signal = str l.signal → l' = l := by
      decide +kernel
    rwa [← hinj l hl l' hl' hsignal]

/-- A value that is read from the files of a device does not depend on its name. -/
theorem Listing.Renamed.filterMap {l : Listing} {m m' : Machine} (h : l.Renamed m m') {α : Type}
    {value : Machine → Str → Option α}
    (hvalue : ∀ device device', (∀ file, m' (.read (str l.directory ++ device' ++ file)) =
      m (.read (str l.directory ++ device ++ file))) → value m' device' = value m device) :
    ((l.devices m').filterMap (value m')).Perm ((l.devices m).filterMap (value m)) := by
  obtain ⟨rename, hperm, hfiles⟩ := h
  refine (hperm.filterMap _).trans ?_
  rw [List.filterMap_map, List.filterMap_congr fun device hdevice => ?_]
  exact hvalue device (rename device) (hfiles device hdevice)

/-! ## The legacy collector -/

/-- An added signal keeps what two maps agree on, if it is itself the same on both. -/
theorem put_congr {F F' : Dict Str} {k slot : Str} {value value' : Option Str}
    (h : F.lookup k = F'.lookup k) (hvalue : k = slot → value = value') :
    (put F slot value).lookup k = (put F' slot value').lookup k := by
  by_cases hk : k = slot
  · obtain rfl := hvalue hk
    subst hk
    cases value with
    | none => exact h
    | some v => rw [put, put, AList.lookup_insert, AList.lookup_insert]
  · rw [lookup_put_ne hk, lookup_put_ne hk, h]

/-- **Collections agree** on the signals that were kept. -/
theorem collect_kept {m m' : Machine} {d d' : Dict Str} (hd : collect m = .ok d) (hd' : collect m' = .ok d')
    {k : Str} (h : Kept m m' k) : d.lookup k = d'.lookup k := by
  obtain ⟨_, mac, hmac, rfl⟩ := collect_eq_ok.mp hd
  obtain ⟨_, mac', hmac', rfl⟩ := collect_eq_ok.mp hd'
  have hread : ∀ {path signal : String}, k = str signal → (path, signal) ∈ fixedFiles →
      nonempty (readTrimmed m (str path)) = nonempty (readTrimmed m' (str path)) := by
    rintro path signal rfl hfile
    rw [readTrimmed_congr (h.file hfile)]
  refine put_congr (put_congr (put_congr (put_congr (put_congr (put_congr rfl ?_) ?_) ?_) ?_) ?_) ?_
  · rintro rfl
    rw [machineId_dependsOn (h.spared (by simp [unlisted, fixedFiles]))]
  · exact fun hk => hread hk (by simp [fixedFiles])
  · exact fun hk => hread hk (by simp [fixedFiles])
  · rintro rfl
    rw [cpuSerial_dependsOn (h.spared (by simp [unlisted, fixedFiles]))]
  · rintro rfl
    rw [diskSerial_dependsOn (h.spared (by simp [unlisted]))]
  · rintro rfl
    have hsame := macAddress_dependsOn (h.spared (by simp [unlisted]))
    rw [hmac, hmac'] at hsame
    rw [Except.ok.inj hsame]

end Bedrock.Hwid

namespace Bedrock.Slhwid

open Bedrock.Hwid

/-! ## The other signals -/

/-- A command is a source of its own. -/
theorem runCommand_dependsOn [LocaleCodec] {k : Str} (args : List Str) (h : .command args ∈ sources k) :
    DependsOn (fun m => runCommand m args) (sources k) := by
  intro m m' hsame
  dsimp only
  rw [runCommand, runCommand, hsame _ h]

theorem computerName_dependsOn : DependsOn computerName (sources (str "computer_name")) := by
  intro m m' hsame
  rw [computerName, computerName, hsame .nodename List.mem_cons_self]

theorem ramTotal_dependsOn [DigitTables] : DependsOn ramTotal (sources (str "ram_total")) := by
  intro m m' hsame
  rw [ramTotal, ramTotal, readAscii, readAscii,
    hsame (.read (str "/proc/meminfo")) (fixed_mem_sources (by simp [fixedFiles]))]

/-- The volume id is one command. -/
theorem volumeId_dependsOn [LocaleCodec] : DependsOn volumeId (sources (str "volume_id")) := by
  intro m m' hsame
  have hrun := runCommand_dependsOn [str "findmnt", str "-no", str "UUID", str "/"] (by decide +kernel) hsame
  dsimp only at hrun
  rw [volumeId, volumeId, hrun]

/-- So are the memory modules. -/
theorem memoryModules_dependsOn [LocaleCodec] : DependsOn memoryModules (sources (str "memory_modules")) := by
  intro m m' hsame
  have hrun := runCommand_dependsOn [str "dmidecode", str "--type", str "memory"] (by decide +kernel) hsame
  dsimp only at hrun
  rw [memoryModules, memoryModules, hrun]

theorem readAsciiReplace_congr {m m' : Machine} {path : Str} (h : m (.read path) = m' (.read path)) :
    readAsciiReplace m path = readAsciiReplace m' path := by
  rw [readAsciiReplace, readAsciiReplace, h]

/-- The endorsement key is in one of two files. -/
theorem tpmEk_dependsOn [Sha256] : DependsOn tpmEk (sources (str "tpm_ek")) := by
  intro m m' hsame
  have hread : ∀ path, (path, "tpm_ek") ∈ fixedFiles →
      readBinary m (str path) = readBinary m' (str path) := by
    intro path hpath
    rw [readBinary, readBinary, hsame _ (fixed_mem_sources hpath)]
  unfold tpmEk
  rw [List.findSome?_cons, List.findSome?_cons, List.findSome?_cons, List.findSome?_cons,
    hread "/sys/class/tpm/tpm0/device/ek_pub" (by simp [fixedFiles]),
    hread "/sys/class/tpm/tpm0/ek_pub" (by simp [fixedFiles]), List.findSome?_nil, List.findSome?_nil]

theorem osBuild_dependsOn : DependsOn osBuild (sources (str "os_build")) := by
  intro m m' hsame
  rw [osBuild, osBuild,
    hsame (.read (str "/etc/os-release")) (fixed_mem_sources (by simp [fixedFiles]))]

/-! ## Listed devices -/

theorem sortStrs_perm {L L' : List Str} (h : L.Perm L') : sortStrs L = sortStrs L' :=
  List.Perm.eq_of_pairwise (fun a b _ _ (hab : a ≤ b) (hba : b ≤ a) => le_antisymm hab hba)
    (List.pairwise_insertionSort _ _) (List.pairwise_insertionSort _ _)
    ((List.perm_insertionSort _ _).trans (h.trans (List.perm_insertionSort _ _).symm))

/-- A sorted join forgets it too: the devices may be found in any order. -/
theorem joined_perm {L L' : List Str} (h : L.Perm L') : joined L = joined L' := by
  have hnil : L = [] ↔ L' = [] := by rw [← List.length_eq_zero_iff, h.length_eq, List.length_eq_zero_iff]
  unfold joined
  rw [sortStrs_perm h]
  exact if_congr hnil rfl rfl

/-- What is read of the devices of a listing. -/
theorem globbed_perm {l : Listing} {m m' : Machine} (h : l.Renamed m m') {α : Type}
    (value : Machine → Str → Option α)
    (hvalue : ∀ device device', (∀ file, m' (.read (str l.directory ++ device' ++ file)) =
      m (.read (str l.directory ++ device ++ file))) → value m' device' = value m device) :
    ((globbed m l.directory l.pattern l.suffix).filterMap (value m)).Perm
      ((globbed m' l.directory l.pattern l.suffix).filterMap (value m')) :=
  ((List.perm_insertionSort _ _).filterMap _).trans
    ((h.filterMap hvalue).symm.trans ((List.perm_insertionSort _ _).filterMap _).symm)

/-- **The same network devices** under other names give the same signal. -/
theorem nicIdentity_renamed {m m' : Machine}
    (h : (⟨"nic_identity", "/sys/class/net/", "*", "/device"⟩ : Listing).Renamed m m') :
    nicIdentity m = nicIdentity m' := by
  have hperm := globbed_perm h nicAddress fun device device' hfiles => by
    have hsame := readTrimmed_congr (hfiles (str "/perm_address"))
    dsimp only at hsame
    rw [nicAddress, nicAddress, hsame]
  rw [nicIdentity, nicIdentity, multiInstance_perm hperm]

/-- The same batteries do. -/
theorem batterySerial_renamed {m m' : Machine}
    (h : (⟨"battery_serial", "/sys/class/power_supply/", "BAT*", "/serial_number"⟩ : Listing).Renamed
      m m') :
    batterySerial m = batterySerial m' := by
  have hperm := globbed_perm h (fun m battery =>
      nonempty (readTrimmed m (str "/sys/class/power_supply/" ++ battery ++ str "/serial_number")))
    fun device device' hfiles => congrArg nonempty (readTrimmed_congr (hfiles (str "/serial_number")))
  rw [batterySerial, batterySerial, multiInstance_perm hperm]

/-- The same monitors do, on whichever connectors. -/
theorem monitorEdid_renamed {m m' : Machine}
    (h : (⟨"monitor_edid", "/sys/class/drm/", "card*-*", "/edid"⟩ : Listing).Renamed m m') :
    monitorEdid m = monitorEdid m' := by
  have hperm := globbed_perm h (fun m connector =>
      let data := readBinary m (str "/sys/class/drm/" ++ connector ++ str "/edid")
      if data = [] then none else some (hexStr data))
    fun device device' hfiles => by
      dsimp only
      rw [readBinary, readBinary, hfiles (str "/edid")]
  rw [monitorEdid, monitorEdid, joined_perm hperm]

/-- A device of the bus is a display controller, if its files can be read. -/
def controllerOf (m : Machine) (device : Str) : Option Str :=
  match displayController m device with
  | .ok found => found
  | .error _ => none

/-- Where the loop over the PCI devices returns, its result is a filtered list of the devices. -/
theorem gpuId_eq {m : Machine} {gpus : Option Str} (h : gpuId m = .ok gpus) :
    gpus = joined ((globbed m "/sys/bus/pci/devices/" "*" "/class").filterMap (controllerOf m)) := by
  obtain ⟨found, hfound, h⟩ := bind_eq_ok.mp h
  obtain rfl := Except.ok.inj h
  obtain ⟨_, rfl⟩ := mapM_eq_ok (g := controllerOf m)
    (fun device _ value hvalue => by rw [controllerOf, hvalue]) hfound
  rw [List.reduceOption, List.filterMap_map]
  rfl

/-- The strict text of a file depends on the file alone. -/
theorem readAscii_congr {m m' : Machine} {path path' : Str} (h : m (.read path) = m' (.read path')) :
    readAscii m path = readAscii m' path' := by
  rw [readAscii, readAscii, h]
  cases m' (.read path') with
  | none => rfl
  | some b => rfl

/-- The identity of a PCI device depends on the files in its directory, not on its address. -/
theorem displayController_congr {m m' : Machine} {device device' : Str}
    (hfiles : ∀ file, m' (.read (str "/sys/bus/pci/devices/" ++ device' ++ file)) =
      m (.read (str "/sys/bus/pci/devices/" ++ device ++ file))) :
    displayController m' device' = displayController m device := by
  have hread : ∀ file, readPci m' device' file = readPci m device file := fun file => by
    have hsame : readAscii m' (pciPath device' file) = readAscii m (pciPath device file) :=
      readAscii_congr (hfiles (str file))
    rw [readPci, readPci, hsame]
  simp only [displayController, hread]

/-- The same graphics cards in other slots give the same signal, if both collections return. -/
theorem gpuId_renamed {m m' : Machine} {gpus gpus' : Option Str} (hgpus : gpuId m = .ok gpus)
    (hgpus' : gpuId m' = .ok gpus')
    (h : (⟨"gpu_id", "/sys/bus/pci/devices/", "*", "/class"⟩ : Listing).Renamed m m') : gpus = gpus' := by
  have hperm := globbed_perm h controllerOf fun device device' hfiles => by
    rw [controllerOf, controllerOf, displayController_congr hfiles]
  rw [gpuId_eq hgpus, gpuId_eq hgpus', joined_perm hperm]

/-! ## Collections -/

/-- The legacy collector returns on both machines or on neither. -/
def SameLegacy (m m' : Machine) : Prop := (∃ d, Hwid.collect m = .ok d) ↔ ∃ d, Hwid.collect m' = .ok d

/-- **The legacy signals of a kept name agree** on both machines: the collector returned on both or on
    neither, and then reads the same sources. -/
theorem legacyFactors_kept {m m' : Machine} (hlegacy : SameLegacy m m') {k : Str} (h : Kept m m' k) :
    (legacyFactors m).lookup k = (legacyFactors m').lookup k := by
  unfold legacyFactors
  cases hd : Hwid.collect m with
  | ok d =>
    obtain ⟨d', hd'⟩ := hlegacy.mp ⟨d, hd⟩
    rw [hd']
    exact collect_kept hd hd' h
  | error e =>
    cases hd' : Hwid.collect m' with
    | error e' => rfl
    | ok d' =>
      obtain ⟨d, hok⟩ := hlegacy.mpr ⟨d', hd'⟩
      rw [hd] at hok
      cases hok

/-- A signal that gives way to an older one keeps the agreement too. -/
theorem putNew_congr {F F' : Dict Str} {k slot : Str} {value value' : Option Str}
    (h : F.lookup k = F'.lookup k) (hvalue : k = slot → value = value') :
    (putNew F slot value).lookup k = (putNew F' slot value').lookup k := by
  by_cases hk : k = slot
  · subst hk
    have hmem : k ∈ F ↔ k ∈ F' := by rw [← AList.lookup_isSome, ← AList.lookup_isSome, h]
    unfold putNew
    by_cases hin : k ∈ F
    · rw [if_pos hin, if_pos (hmem.mp hin), h]
    · rw [if_neg hin, if_neg fun hin' => hin (hmem.mpr hin')]
      exact put_congr h hvalue
  · rw [lookup_putNew_ne hk, lookup_putNew_ne hk, h]

theorem str_append (a b : String) : str (a ++ b) = str a ++ str b := by
  rw [str, String.toList_append, List.map_append]
  rfl

/-- **Collections agree** on the signals that were kept. -/
theorem collectLinux_kept [LocaleCodec] [DigitTables] [Sha256] {m m' : Machine} {d d' : Dict Str}
    (hd : collectLinux m = .ok d) (hd' : collectLinux m' = .ok d') (hlegacy : SameLegacy m m') {k : Str}
    (h : Kept m m' k) : d.lookup k = d'.lookup k := by
  obtain ⟨ram, volume, modules, os, gpus, hram, hvolume, hmodules, hos, hgpus, rfl⟩ :=
    collectLinux_eq_ok.mp hd
  obtain ⟨ram', volume', modules', os', gpus', hram', hvolume', hmodules', hos', hgpus', rfl⟩ :=
    collectLinux_eq_ok.mp hd'
  -- a source that reads only kept queries returns the same on both machines
  have hreturned : ∀ {f : Machine → Except Exc (Option Str)} {v v' : Option Str},
      DependsOn f (sources k) → (∀ q ∈ sources k, m q = m' q) → f m = .ok v → f m' = .ok v' →
      v = v' := by
    intro f v v' hf hsame hv hv'
    exact Except.ok.inj (hv.symm.trans ((hf hsame).trans hv'))
  have hdmi : ∀ {file signal : String}, k = str signal →
      ("/sys/class/dmi/id/" ++ file, signal) ∈ fixedFiles →
      nonempty (dmi m file) = nonempty (dmi m' file) := by
    rintro file signal rfl hfile
    rw [dmi, dmi, ← str_append, readTrimmed_congr (h.file hfile)]
  have htext : ∀ {path signal : String}, k = str signal → (path, signal) ∈ fixedFiles →
      nonempty (readAsciiReplace m (str path)) = nonempty (readAsciiReplace m' (str path)) := by
    rintro path signal rfl hfile
    rw [readAsciiReplace_congr (h.file hfile)]
  -- the dictionary is assembled signal by signal, and so is the comparison
  unfold assemble
  refine put_congr (put_congr (put_congr (put_congr (put_congr (put_congr (put_congr (put_congr (put_congr
    (put_congr (putNew_congr (putNew_congr (putNew_congr (put_congr (put_congr (put_congr
      (legacyFactors_kept hlegacy h) ?_) ?_) ?_) ?_) ?_) ?_) ?_) ?_) ?_) ?_) ?_) ?_) ?_) ?_) ?_) ?_
  · rintro rfl
    exact computerName_dependsOn (h.spared (by simp [unlisted]))
  · rintro rfl
    exact hreturned ramTotal_dependsOn (h.spared (by simp [unlisted, fixedFiles])) hram hram'
  · rintro rfl
    exact hreturned volumeId_dependsOn (h.spared (by simp [unlisted])) hvolume hvolume'
  · exact fun hk => htext hk (by simp [fixedFiles])
  · exact fun hk => htext hk (by simp [fixedFiles])
  · exact fun hk => htext hk (by simp [fixedFiles])
  · exact fun hk => hdmi hk (by simp [fixedFiles])
  · exact fun hk => hdmi hk (by simp [fixedFiles])
  · exact fun hk => hdmi hk (by simp [fixedFiles])
  · rintro rfl
    exact hreturned memoryModules_dependsOn (h.spared (by simp [unlisted])) hmodules hmodules'
  · rintro rfl
    exact nicIdentity_renamed (h.renamed (by simp [listings]))
  · rintro rfl
    exact batterySerial_renamed (h.renamed (by simp [listings]))
  · rintro rfl
    exact tpmEk_dependsOn (h.spared (by simp [unlisted, fixedFiles]))
  · rintro rfl
    exact hreturned osBuild_dependsOn (h.spared (by simp [unlisted, fixedFiles])) hos hos'
  · rintro rfl
    exact monitorEdid_renamed (h.renamed (by simp [listings]))
  · rintro rfl
    exact gpuId_renamed hgpus hgpus' (h.renamed (by simp [listings]))

/-! ## Slots -/

/-- The signals behind a slot of a schema. -/
def signalsOf (normVersion : Nat) (slot : Str) : List Str :=
  if normVersion = legacyNormVersion then [slot] else slotMembers slot

/-- Every signal behind the slot was kept. -/
def SlotKept (m m' : Machine) (normVersion : Nat) (slot : Str) : Prop :=
  ∀ k ∈ signalsOf normVersion slot, Kept m m' k

/-- No answer shows up in `slstore`: the secret is no signal of the machine. -/
theorem kept_slstore (m m' : Machine) : Kept m m' (str "slstore") := by
  -- no source of a signal is read for the secret, which the store keeps
  have hname : ∀ k ∈ unlisted ++ listings.map Listing.signal, str k ≠ str "slstore" := by decide +kernel
  have hplain : ∀ k ∈ unlisted, str "slstore" ∉ [str k] := fun k hk hmem =>
    hname k (List.mem_append_left _ hk) (List.mem_singleton.mp hmem).symm
  have hbelow : ∀ path, str "slstore" ∉ directorySignals path := by
    intro path hmem
    obtain ⟨d, hd, hsignal⟩ := List.mem_map.mp hmem
    rcases List.mem_cons.mp (List.mem_filter.mp hd).1 with rfl | hd
    · exact hname "disk_serial" (by simp [unlisted]) hsignal
    · obtain ⟨l, hl, rfl⟩ := List.mem_map.mp hd
      exact hname l.signal (List.mem_append_right _ (List.mem_map_of_mem hl)) hsignal
  refine Or.inl fun q hq => absurd hq ?_
  cases q with
  | nodename => exact hplain "computer_name" (by simp [unlisted])
  | interfaces | socket => exact hplain "mac" (by simp [unlisted])
  | hardwareAddress _ => exact hplain "mac" (by simp [unlisted])
  | list _ => exact hplain "disk_serial" (by simp [unlisted])
  | glob pattern => exact hbelow pattern
  | command args =>
    show str "slstore" ∉ if args.head? = some (str "findmnt") then [str "volume_id"] else
      [str "memory_modules"]
    split
    · exact hplain "volume_id" (by simp [unlisted])
    · exact hplain "memory_modules" (by simp [unlisted])
  | read path =>
    intro hmem
    rcases List.mem_append.mp hmem with hmem | hmem
    · obtain ⟨f, hf, hsignal⟩ := List.mem_map.mp hmem
      exact hname f.2 (List.mem_append_left _ (mem_unlisted_of_fixed (List.mem_filter.mp hf).1)) hsignal
    · exact hbelow path hmem

/-- **A kept slot** is as it was. -/
theorem projectFactors_kept [Sha256] {raw raw' F G : Dict Str} {v : Nat} (hF : projectFactors raw v = .ok F)
    (hG : projectFactors raw' v = .ok G) {slot : Str}
    (h : ∀ k ∈ signalsOf v slot, raw'.get k = raw.get k) : G.get slot = F.get slot := by
  by_cases hv : v = legacyNormVersion
  · rw [projectFactors, if_pos hv] at hF hG
    obtain rfl := Except.ok.inj hF
    obtain rfl := Except.ok.inj hG
    rw [signalsOf, if_pos hv] at h
    rw [get_pick, get_pick, h slot List.mem_cons_self]
  · by_cases hcurrent : v = currentNormVersion
    · subst hcurrent
      exact slot_local hF hG h
    · rw [projectFactors, if_neg hv] at hF
      obtain ⟨_, hraise, _⟩ := bind_eq_ok.mp hF
      exact absurd hcurrent (raiseIf_eq_ok.mp hraise)

/-- **A launch on the other machine** sees the kept slots as they were. -/
theorem sees_kept [LocaleCodec] [DigitTables] [Sha256] {files : Dict Bytes} {m m' : Machine}
    {collected collected' : Dict Str} (hd : collectLinux m = .ok collected)
    (hd' : collectLinux m' = .ok collected') (hname : CanEncode (m' .nodename)) (hlegacy : SameLegacy m m')
    {v : Nat} {F : Dict Str} (hsees : Sees files collected v F) :
    ∃ G, Sees files collected' v G ∧ ∀ slot, SlotKept m m' v slot → G.get slot = F.get slot := by
  obtain ⟨nf, hnf, hhas, hF⟩ := hsees
  obtain ⟨nf', hnf'⟩ : ∃ nf', (do normalizeFactors (← collectLinux m')) = .ok nf' :=
    collection_completes_iff.1.mpr ⟨collectLinux_returns_iff.mp ⟨_, hd'⟩, hname⟩
  rw [hd', ok_bind] at hnf'
  have hget : ∀ k, Kept m m' k → nf'.get k = nf.get k := fun k hk => by
    rw [Dict.get, Dict.get, normalizeFactors_lookup hnf, normalizeFactors_lookup hnf',
      collectLinux_kept hd hd' hlegacy hk]
  have hv : v = legacyNormVersion ∨ v = currentNormVersion := by
    by_cases hlegacy : v = legacyNormVersion
    · exact Or.inl hlegacy
    · rw [projectFactors, if_neg hlegacy] at hF
      obtain ⟨_, hraise, _⟩ := bind_eq_ok.mp hF
      exact Or.inr (not_not.mp (raiseIf_eq_ok.mp hraise))
  obtain ⟨G, hG⟩ := projectFactors_ok (launchRaw_encode (normalizeFactors_encode hnf').2) hv
  refine ⟨G, ⟨nf', hnf', ?_, hG⟩, fun slot hslot => ?_⟩
  · rw [HasSlstore, hget _ (kept_slstore m m')]
    exact hhas
  · exact projectFactors_kept hF hG fun k hk => launchRaw_same (hget k (hslot k hk))

/-- **An enrollment** is from what its launch saw. -/
theorem Enrolled.sees [Sha256] {nf : Dict Str} {d d' : Dir} {s : Session}
    (h : Enrolled nf deviceFile d d' s) {collected : Dict Str}
    (hnf : normalizeFactors collected = .ok nf) :
    Sees d'.files collected currentNormVersion s.factors := by
  obtain ⟨d₁, _, rfl, hhas, hF⟩ := h.stored
  have hsecret : (d₁.write deviceFile s.expectedHelper).files.lookup slstoreFile =
      d₁.files.lookup slstoreFile := Dir.lookup_write_ne _ _ slstoreFile_ne
  refine ⟨nf, hnf, ?_, ?_⟩
  · rw [HasSlstore, hsecret]
    exact hhas
  · rw [launchRaw_congr nf hsecret]
    exact hF

/-- **The same machine with other parts.**  The stored helper is shared over what the machine `m` shows,
    and the machine `m'` keeps every hard-locked slot and a threshold of all slots; everything else of it
    may be replaced, taken out or found under another name.  Then a launch on `m'` returns the identifier
    and leaves the directory as it is, if no two slots of `m'` lie at one coordinate. -/
theorem replaced_parts [LocaleCodec] [DigitTables] [Sha256] {d : Dir} {k : Limbs} {F : Dict Str}
    {blob : Bytes} {h : Helper} (hshared : SharedOver d k F blob h) (hcw : NoCheckWordCollision k)
    {m m' : Machine} {collected : Dict Str} (hd : collectLinux m = .ok collected)
    (hsees : Sees d.files collected h.normVersion F) (hreadable : Readable m')
    (hname : CanEncode (m' .nodename)) (hlegacy : SameLegacy m m')
    (hlocks : ∀ n ∈ h.mandatory, SlotKept m m' h.normVersion n) {kept : List Str} (hnodup : kept.Nodup)
    (hkept : ∀ n ∈ kept, n ∈ F ∧ SlotKept m m' h.normVersion n) (henough : h.threshold ≤ kept.length)
    (hdistinct : ∀ collected' G, collectLinux m' = .ok collected' →
      Sees d.files collected' h.normVersion G → DistinctCoordinates F.keys G h.salt)
    {extra : List Str} {M : Finset Str} (hM : requestedMandatory extra = .ok M) (source : Bytes) :
    ∃ collected' session, collectLinux m' = .ok collected' ∧
      prepareWith ⟨extra, false⟩ collected' (d.world source []) = .ok session (d.world source []) ∧
      session.hwid = hwidStr k ∧ session.key = some k := by
  obtain ⟨collected', hd'⟩ := collectLinux_returns_iff.mpr hreadable
  obtain ⟨G, hG, hslots⟩ := sees_kept hd hd' hname hlegacy hsees
  have hsubset : kept ⊆ F.keys.filter fun n => G.get n = F.get n := fun n hn =>
    List.mem_filter.mpr ⟨AList.mem_keys.mp (hkept n hn).1, decide_eq_true (hslots n (hkept n hn).2)⟩
  have hnear : Near h F G := {
    locks := fun n hn => hslots n (hlocks n hn)
    enough := henough.trans (hnodup.subperm hsubset).length_le
    distinct := hdistinct collected' G hd' hG }
  obtain ⟨session, hsession, hid, hkey, _⟩ := hshared.launch hcw hM hG hnear source
  exact ⟨collected', session, hd', hsession, hid, hkey⟩

/-! ## A repair -/

theorem exists_of_isOk {ε α : Type} {x : Except ε α} (h : x.isOk = true) : ∃ a, x = .ok a := by
  cases x with
  | ok a => exact ⟨a, rfl⟩
  | error e => cases h

/-- A locale with UTF-8. -/
@[reducible] def sampleLocale : LocaleCodec where
  decode := decodeUtf8
  decode_error := fun _ _ => decodeUtf8_error
  decode_canEncode := fun _ _ => decodeUtf8_canEncode

/-- The files of the sample machine. -/
def sampleFiles : List (String × String) := [
  ("/etc/machine-id", "8d1e6f0c4b7a4c199a530f2e6d7c8b1a\n"),
  ("/etc/os-release", "NAME=Debian\nPRETTY_NAME=\"Debian 12\"\n"),
  ("/proc/cpuinfo", "processor\t: 0\nSerial\t\t: genuine-158\n"),
  ("/proc/meminfo", "MemTotal:       16384000 kB\nMemFree:   81 kB\n"),
  ("/sys/class/dmi/id/bios_version", "1.14.0\n"),
  ("/sys/class/dmi/id/board_serial", "pf-2231\n"),
  ("/sys/class/tpm/tpm0/ek_pub", "endorsement"),
  ("/sys/class/power_supply/BAT0/serial_number", "cell-7731\n"),
  ("/sys/class/drm/card0-eDP-1/edid", "panel-19")]

/-- A machine without root: `dmidecode` and the permanent addresses are not there. -/
def sampleMachine : Machine
  | .nodename => str "workshop"
  | .interfaces => some [str "lo"]
  | .socket => true
  | .hardwareAddress _ => none
  | .read path => (sampleFiles.find? fun f => str f.1 = path).map fun f => bytesOf f.2
  | .list _ => none
  | .glob pattern =>
    if pattern = str "/sys/class/power_supply/BAT*/serial_number" then [str "BAT0"]
    else if pattern = str "/sys/class/drm/card*-*/edid" then [str "card0-eDP-1"]
    else []
  | .command _ => none

/-- It comes back with another board and another firmware. -/
def sampleRepaired : Machine := Function.update (Function.update sampleMachine
  (.read (str "/sys/class/dmi/id/board_serial")) (some (bytesOf "pf-9907\n")))
  (.read (str "/sys/class/dmi/id/bios_version")) (some (bytesOf "2.0.3\n"))

/-- What is collected, if the collection returns. -/
def collectedOf (m : Machine) : Dict Str :=
  match @collectLinux sampleLocale sampleDigits sampleHash m with
  | .ok d => d
  | .error _ => ∅

/-- The slots that the repair does not touch. -/
def sampleKept : List Str := [
  str "slstore", str "machine_guid", str "cpu_id", str "ram_total", str "tpm_ek", str "battery_serial",
  str "display_group", str "software_environment"]

/-- The first launch on the sample machine. -/
def sampleInstall : Action := .prepare ⟨[], false⟩ (collectedOf sampleMachine) (List.replicate 400 7) []

/-- The sample machine after the first launch of an application. -/
def sampleInstalled : Sys := @step sampleHash sampleEmpty sampleInstall

/-- The collection of a sample machine, evaluated. -/
theorem collectedOf_ok {m : Machine}
    (h : (@collectLinux sampleLocale sampleDigits sampleHash m).isOk = true) :
    @collectLinux sampleLocale sampleDigits sampleHash m = .ok (collectedOf m) := by
  obtain ⟨d, hd⟩ := exists_of_isOk h
  rw [collectedOf, hd]

/-- The repaired machine keeps each of the slots that are counted. -/
theorem sampleRepaired_kept {n : Str} (hn : n ∈ sampleKept) :
    SlotKept sampleMachine sampleRepaired currentNormVersion n := by
  have htable : ∀ n ∈ sampleKept, ∀ k ∈ signalsOf currentNormVersion n,
      .read (str "/sys/class/dmi/id/board_serial") ∉ sources k ∧
        .read (str "/sys/class/dmi/id/bios_version") ∉ sources k := by decide +kernel
  intro k hk
  obtain ⟨hboard, hbios⟩ := htable n hn k hk
  refine Or.inl fun q hq => ?_
  have hneBoard : q ≠ .read (str "/sys/class/dmi/id/board_serial") := fun heq => hboard (heq ▸ hq)
  have hneBios : q ≠ .read (str "/sys/class/dmi/id/bios_version") := fun heq => hbios (heq ▸ hq)
  rw [sampleRepaired, Function.update_of_ne hneBios, Function.update_of_ne hneBoard]

/-- What the first launch enrolled, and from which signals. -/
theorem sampleInstalled_shared : ∃ e k blob h, sampleInstalled.entries = [e] ∧
    @SharedOver sampleHash sampleInstalled.dir k e.session.factors blob h ∧
    @Sees sampleHash sampleInstalled.dir.files (collectedOf sampleMachine) currentNormVersion
      e.session.factors ∧
    e.session.hwid = @hwidStr sampleHash k := by
  let _ := sampleHash
  obtain ⟨session, nf, hentries, hnf, ⟨_, _, _, _, _, _, hfile, _⟩ | ⟨_, henr⟩⟩ | ⟨hentries, _⟩ :=
    step_spec sampleEmpty_initial.inv sampleInstall
  · cases hfile
  · obtain ⟨k, blob, h, hshared, hid⟩ := henr.sharedOver
    refine ⟨⟨session, collectedOf sampleMachine⟩, k, blob, h, hentries, hshared, ?_, hid⟩
    rw [sampleInstalled]
    exact henr.sees hnf
  · have hlen : sampleInstalled.entries.length = 1 := by decide +kernel
    rw [sampleInstalled, hentries] at hlen
    cases hlen

/-- Another board and another firmware: the identifier is the same. -/
theorem replaced_parts_sample : ∃ e collected session, sampleInstalled.entries = [e] ∧
    @collectLinux sampleLocale sampleDigits sampleHash sampleRepaired = .ok collected ∧
    @prepareWith Disk sampleHash _ ⟨[], false⟩ collected (sampleInstalled.dir.world [] []) =
      .ok session (sampleInstalled.dir.world [] []) ∧
    session.hwid = e.session.hwid := by
  let _ := sampleHash
  let _ := sampleLocale
  let _ := sampleDigits
  obtain ⟨e, k, blob, h, hentries, hshared, hsees, hid⟩ := sampleInstalled_shared
  obtain ⟨S⟩ := hshared.splits
  have hd : collectLinux sampleMachine = .ok (collectedOf sampleMachine) :=
    collectedOf_ok (by decide +kernel)
  have hd' : collectLinux sampleRepaired = .ok (collectedOf sampleRepaired) :=
    collectedOf_ok (by decide +kernel)
  have hname : CanEncode (sampleRepaired .nodename) := by
    have hall : ((sampleRepaired .nodename).all fun c => !isSurrogate c) = true := by decide +kernel
    exact fun c hc => Bool.not_eq_true' _ ▸ List.all_eq_true.mp hall c hc
  -- one evaluation: what was kept of the parts still meets the threshold
  have hcheck : (sampleInstalled.entries.all fun e =>
      checks (fun h _ => decide (h.normVersion = currentNormVersion) &&
        decide (h.mandatory = {str "slstore"}) && decide (h.threshold ≤ sampleKept.length) &&
        decide (∀ n ∈ sampleKept, n ∈ e.session.factors) &&
        checks (fun nf _ => checks (fun G _ => decide (DistinctCoordinates e.session.factors.keys G h.salt))
          (lift (projectFactors (launchRaw sampleInstalled.dir.files nf) currentNormVersion) ()))
          (lift (normalizeFactors (collectedOf sampleRepaired)) ()))
        (lift (parseHelper ((sampleInstalled.dir.files.lookup deviceFile).getD [])) ())) = true := by
    decide +kernel
  rw [hentries, List.all_cons, Bool.and_eq_true, hshared.stored, Option.getD_some] at hcheck
  obtain ⟨h₂, _, hparse, hcheck⟩ := exists_of_checks hcheck.1
  obtain rfl : h = h₂ := Except.ok.inj (hshared.parsed.symm.trans (lift_eq_ok.mp hparse).1)
  rw [Bool.and_eq_true, Bool.and_eq_true, Bool.and_eq_true, Bool.and_eq_true, decide_eq_true_eq,
    decide_eq_true_eq, decide_eq_true_eq, decide_eq_true_eq] at hcheck
  obtain ⟨⟨⟨⟨hversion, hmandatory⟩, henough⟩, hslots⟩, hcheck⟩ := hcheck
  obtain ⟨nf, _, hnf, hcheck⟩ := exists_of_checks hcheck
  obtain ⟨G, _, hG, hdistinct⟩ := exists_of_checks hcheck
  have hlegacy : SameLegacy sampleMachine sampleRepaired :=
    iff_of_true (exists_of_isOk (by decide +kernel)) (exists_of_isOk (by decide +kernel))
  have hkept : ∀ n ∈ sampleKept, SlotKept sampleMachine sampleRepaired h.normVersion n := fun n hn => by
    rw [hversion]
    exact sampleRepaired_kept hn
  have hlocks : ∀ n ∈ h.mandatory, SlotKept sampleMachine sampleRepaired h.normVersion n := by
    intro n hn
    rw [hmandatory, Finset.mem_singleton] at hn
    exact hkept n (hn ▸ List.mem_cons_self)
  have hplaced : ∀ collected' G', collectLinux sampleRepaired = .ok collected' →
      Sees sampleInstalled.dir.files collected' h.normVersion G' →
      DistinctCoordinates e.session.factors.keys G' h.salt := by
    rintro collected' G' hcollected' ⟨nf', hnf', _, hG'⟩
    obtain rfl := Except.ok.inj (hd'.symm.trans hcollected')
    obtain rfl := Except.ok.inj ((lift_eq_ok.mp hnf).1.symm.trans hnf')
    rw [hversion] at hG'
    obtain rfl := Except.ok.inj ((lift_eq_ok.mp hG).1.symm.trans hG')
    exact of_decide_eq_true hdistinct
  rw [← hversion] at hsees
  obtain ⟨collected, session, hcollected, hsession, hhwid, _⟩ := replaced_parts hshared
    (sampleHash_noCollision S.key_reduced) hd hsees (collectLinux_returns_iff.mp ⟨_, hd'⟩) hname hlegacy
    hlocks (show sampleKept.Nodup by decide +kernel) (fun n hn => ⟨hslots n hn, hkept n hn⟩) henough
    hplaced (show requestedMandatory [] = .ok _ from rfl) []
  exact ⟨e, collected, session, hentries, hcollected, hsession, hhwid.trans hid.symm⟩

end Bedrock.Slhwid
