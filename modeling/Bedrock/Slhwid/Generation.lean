/-
  Enrolling into the registry: is the pair of helper and secret one generation?

  1. **Two hives, four calls** — an enrollment reads the helper, reads or makes the secret, and writes
     the helper; each call pins a hive or falls back to another one (`ensureSlstore_registry`,
     `enroll_registry`).

  2. **One generation** — `OneGeneration`: the hive of the new helper also holds the secret that the
     helper was dealt with, and the next instance finds a pair with that secret and enrolls no more.

  3. **The defect** — a secret that is only read needs no write permission, the helper does: over a
     pinned hive that refuses writes the helper falls back to the other hive, away from its secret
     (`PairSplits`).  `registry_generation_iff` says that this is the only way.
-/
import Bedrock.Slhwid.Registry
import Bedrock.Slhwid.RunResults

open Lib.Fallible Bedrock.Python

namespace Bedrock.Slhwid

/-! ## The operations on the secret -/

/-- The other of the two hives. -/
def Root.other : Root → Root
  | .hklm => .hkcu
  | .hkcu => .hklm

/-- There are only two of them. -/
theorem Root.eq_other {root root' : Root} (h : root' ≠ root) : root' = root.other := by
  cases root with
  | hklm => cases root' with
    | hklm => exact absurd rfl h
    | hkcu => rfl
  | hkcu => cases root' with
    | hklm => rfl
    | hkcu => exact absurd rfl h

/-- A write does not change what may be written. -/
theorem Registry.writable_set (r : Registry) (root root' : Root) (name : Str) (data : Bytes) :
    ((r.set root name data).hive root').writable = (r.hive root').writable := by
  cases root with
  | hklm => cases root' <;> rfl
  | hkcu => cases root' <;> rfl

/-- A write goes to a hive that accepts it. -/
theorem Registry.target_writable {r : Registry} {pinned : Option Root} {root : Root}
    (h : r.target pinned = some root) : (r.hive root).writable = true := by
  cases root with
  | hklm => exact (Registry.target_eq_hklm h).1
  | hkcu => exact (Registry.target_eq_hkcu h).1

/-- `read_slstore` pins a hive and reads there. -/
theorem readSlstore_run_registry (s : RegistryStore) :
    Store.readSlstore s = match (s.pinned []).bind fun root => s.registry.read root slstoreName with
      | some data => match unwrapSlstore data with
        | .ok v => .ok (some v) { s with selected := s.pinned [] }
        | .error e => .error e { s with selected := s.pinned [] }
      | none => .ok none { s with selected := s.pinned [] } := by
  refine (run_bind_ok (selectRoot_run [] s) _).trans ?_
  refine (run_bind_ok (readPinned_run _ _ _) _).trans ?_
  dsimp only
  cases (s.pinned []).bind fun root => s.registry.read root slstoreName with
  | none => rfl
  | some data =>
    dsimp only
    cases unwrapSlstore data with
    | ok v => rfl
    | error e => rfl

/-- **The secret of an enrollment**: it is in the hive that is pinned from then on, read there, or
    written because the pinned hive held none. -/
theorem ensureSlstore_registry {w w' : World RegistryStore} {value : Str}
    (h : ensureSlstore w = .ok value w') :
    ∃ root v, v.length = 32 ∧ value = hexStr v ∧ w'.store.selected = some root ∧
      w'.store.registry.read root slstoreName = some (slstorePrefix ++ v) ∧
      (w.store.pinned [] = some root ∧ w'.store.registry = w.store.registry ∨
        (w.store.pinned []).bind (fun root => w.store.registry.read root slstoreName) = none ∧
        (w.store.registry.hive root).writable = true ∧
        w'.store.registry = w.store.registry.set root slstoreName (slstorePrefix ++ v)) := by
  obtain ⟨r, w₁, hstore, h⟩ := run_bind_eq_ok.mp h
  obtain ⟨s₁, hread, rfl⟩ := onStore_eq_ok hstore
  rw [readSlstore_run_registry] at hread
  -- without a secret in the pinned hive one is drawn and written, otherwise it is taken over
  cases hstored : (w.store.pinned []).bind fun root => w.store.registry.read root slstoreName with
  | none =>
    rw [hstored] at hread
    obtain ⟨rfl, rfl⟩ := EStateM.Result.ok.inj hread
    obtain ⟨v, w₂, hdraw, h⟩ := run_bind_eq_ok.mp h
    obtain ⟨_, _, hsize, h⟩ := run_bind_eq_ok.mp h
    obtain ⟨_, _, hstore', h⟩ := run_bind_eq_ok.mp h
    obtain ⟨hlen, rfl⟩ := lift_eq_ok.mp hsize
    obtain ⟨s₂, hwrite, rfl⟩ := onStore_eq_ok hstore'
    cases h
    have hw₂ : w₂.store = { w.store with selected := w.store.pinned [] } := by
      cases hdraw
      rfl
    -- the write goes to the pinned hive if that one accepts it, to the other if not
    obtain ⟨root, htarget, rfl⟩ := writeSelected_eq_ok hwrite
    rw [hw₂] at htarget
    refine ⟨root, v, not_not.mp (raiseIf_eq_ok.mp hlen), rfl, rfl, Registry.read_set_self _ _ _ _,
      Or.inr ⟨rfl, Registry.target_writable htarget, ?_⟩⟩
    show w₂.store.registry.set root slstoreName (slstorePrefix ++ v) = _
    rw [hw₂]
  | some data =>
    rw [hstored] at hread
    obtain ⟨root, hroot, hdata⟩ := Option.bind_eq_some_iff.mp hstored
    dsimp only at hread
    -- what is stored must unwrap, or the call would have raised
    cases hunwrap : unwrapSlstore data with
    | error e =>
      rw [hunwrap] at hread
      cases hread
    | ok v =>
      rw [hunwrap] at hread
      obtain ⟨rfl, rfl⟩ := EStateM.Result.ok.inj hread
      obtain ⟨_, _, hlen, h⟩ := run_bind_eq_ok.mp h
      obtain ⟨_, rfl⟩ := lift_eq_ok.mp hlen
      cases h
      obtain ⟨rfl, hv⟩ := unwrapSlstore_eq_ok.mp hunwrap
      exact ⟨root, v, hv, rfl, hroot, hdata, Or.inl ⟨hroot, rfl⟩⟩

section Hashing

variable [Sha256]

/-! ## The enrollment -/

/-- Both writes, and what was dealt between them: the secret `v` is in `root`, the helper goes to
    `target`. -/
structure EnrolledIn (raw : Dict Str) (hid : Str) (s : Session) (s₀ s₁ : RegistryStore) (root target : Root)
    (v : Bytes) (r : Registry) : Prop where
  length : v.length = 32
  /-- The secret the session used is stored under this root. -/
  secret : r.read root slstoreName = some (slstorePrefix ++ v)
  /-- It was there before, or there was none to read and it was written there. -/
  source : s₀.pinned [] = some root ∧ r = s₀.registry ∨
    (s₀.pinned []).bind (fun root => s₀.registry.read root slstoreName) = none ∧
      (s₀.registry.hive root).writable = true ∧
      r = s₀.registry.set root slstoreName (slstorePrefix ++ v)
  /-- The helper goes to the hive that takes writes. -/
  goes : r.target (some root) = some target
  /-- That hive is the one selected from now on. -/
  selected : s₁.selected = some target
  /-- Nothing else changed. -/
  registry : s₁.registry = r.set target (helperName hid) s.expectedHelper
  /-- The session's factors were projected with this secret. -/
  factors : projectFactors (raw.insert (str "slstore") (hexStr v)) currentNormVersion = .ok s.factors
  /-- The helper is a deal of the session's key. -/
  dealt : ∃ k, Dealt k s.factors s.mandatory s.expectedHelper ∧ s.hwid = hwidStr k

/-- **What an enrollment does to the hives.** -/
theorem enroll_registry {raw : Dict Str} (hraw : raw.get (str "slstore") = []) {requested : Finset Str}
    (hreq : str "slstore" ∈ requested) {hid : Str} {w w' : World RegistryStore} {s : Session}
    (h : enroll raw requested hid w = .ok s w') :
    ∃ root target v r, EnrolledIn raw hid s w.store w'.store root target v r := by
  rw [enroll_eq] at h
  obtain ⟨raw', w₁, hsecret, h⟩ := run_bind_eq_ok.mp h
  obtain ⟨p, w₂, hdeal, h⟩ := run_bind_eq_ok.mp h
  obtain ⟨_, w₃, hstore, h⟩ := run_bind_eq_ok.mp h
  obtain ⟨hwid, w₄, hhwid, h⟩ := run_bind_eq_ok.mp h
  cases h
  -- the collector has reported no secret, so the stored one is looked up, or made
  rw [withSlstore, if_neg (not_not.mpr hraw)] at hsecret
  obtain ⟨value, w₁', hensure, hret⟩ := run_bind_eq_ok.mp hsecret
  obtain ⟨rfl, rfl⟩ := EStateM.Result.ok.inj hret
  obtain ⟨root, v, hv, rfl, hsel, hread, hcase⟩ := ensureSlstore_registry hensure
  obtain ⟨⟨hF, _, hdealt⟩, hw₂⟩ := (onSource_ensures (σ := RegistryStore) (w := w₁')
    fun p d' (hp : deal _ _ w₁'.source = .ok p d') => deal_eq_ok hreq hp).of_ok hdeal
  obtain ⟨s₃, hwrite, rfl⟩ := onStore_eq_ok hstore
  obtain ⟨target, htarget, rfl⟩ := writeSelected_eq_ok hwrite
  obtain ⟨hname, rfl⟩ := lift_eq_ok.mp hhwid
  rw [hwidOf_ok hdealt.reduced] at hname
  -- the secret has pinned its hive, and the helper is written to that pin
  have hpinned : w₂.store.pinned [] = some root := by rw [hw₂, RegistryStore.pinned, hsel]
  rw [hpinned, hw₂] at htarget
  exact ⟨root, target, v, w₁'.store.registry, {
    length := hv
    secret := hread
    source := hcase
    goes := htarget
    selected := rfl
    registry := by
      show w₂.store.registry.set target (helperName hid) p.blob = _
      rw [hw₂]
      rfl
    factors := hF
    dealt := ⟨p.key, hdealt, (Except.ok.inj hname).symm⟩ }⟩

/-- An enrolling call on a new instance: the hive of the helper is pinned, then it enrolls. -/
theorem prepareLocked_fresh {o : Options} {raw : Dict Str} {requested : Finset Str} {hid : Str}
    {r : Registry} {source : Bytes} {s : Session} {w : World RegistryStore}
    (h : prepareLocked o raw requested hid ⟨r.launch, source⟩ = .ok s w) (hfresh : s.fresh = true) :
    enroll raw requested hid ⟨⟨r, r.choose (helperName hid), true⟩, source⟩ = .ok s w := by
  obtain ⟨⟨blob, found⟩, hread⟩ : ∃ result, onStore (Store.readHelper hid)
      (⟨r.launch, source⟩ : World RegistryStore) =
      .ok result ⟨⟨r, r.choose (helperName hid), true⟩, source⟩ :=
    ⟨_, onStore_ok (readHelper_run_registry hid r.launch)⟩
  by_cases henroll : found = false ∨ o.forceReenroll = true
  · rw [prepareLocked_enroll hread henroll] at h
    exact h
  · obtain ⟨hfound, hforce⟩ := not_or.mp henroll
    rw [Bool.not_eq_false] at hfound
    rw [Bool.not_eq_true] at hforce
    rw [hfound] at hread
    rw [prepareLocked_recover hread hforce] at h
    obtain ⟨_, _, _, h⟩ := run_bind_eq_ok.mp h
    rw [recoverSession_fresh (lift_eq_ok.mp h).1] at hfresh
    cases hfresh

/-! ## The next instance -/

/-- What the next launch on the same signals does with the hives: it finds a helper and combines it
    with the secret `v`, it enrolls nothing, and from the helper of the session `s` it recovers the
    identifier of `s`. -/
structure NextLaunch (r : Registry) (hid : Str) (raw : Dict Str) (s : Session) (v : Bytes) : Prop where
  /-- It reads a helper, and the secret the enrollment used. -/
  combines : ∃ blob s₁ s₂, Store.readHelper hid r.launch = .ok (blob, true) s₁ ∧
    Store.readSlstore s₁ = .ok (some v) s₂
  /-- It does not enroll again, and leaves the registry as it is. -/
  keeps : ∀ extra requested source,
    Ensures (prepareLocked ⟨extra, false⟩ raw requested hid) (⟨r.launch, source⟩ : World RegistryStore)
      (fun s' w => s'.fresh = false ∧ w.store.registry = r) (fun _ w => w.store.registry = r)
  /-- Where the helper it reads is the session's, it comes to the session's identifier. -/
  recovers : ∀ s₁, Store.readHelper hid r.launch = .ok (s.expectedHelper, true) s₁ →
    ∀ extra requested source, ∃ s' w, prepareLocked ⟨extra, false⟩ raw requested hid
      (⟨r.launch, source⟩ : World RegistryStore) = .ok s' w ∧ s'.hwid = s.hwid

omit [Sha256] in
/-- Reading a helper where the rule leads to one. -/
theorem readHelper_chosen {r : Registry} {hid : Str} {c : Root} {blob : Bytes}
    (hchoose : r.choose (helperName hid) = some c) (hhelper : r.read c (helperName hid) = some blob) :
    Store.readHelper hid r.launch = .ok (blob, true) ⟨r, some c, true⟩ := by
  have hpin : r.launch.pinned (helperName hid) = some c := hchoose
  have hreg : r.launch.registry.read c (helperName hid) = some blob := hhelper
  rw [readHelper_run_registry, hpin, Option.bind_some, hreg]
  rfl

omit [Sha256] in
/-- Once a hive is chosen, the secret is read from that hive. -/
theorem readSlstore_chosen {r : Registry} {c : Root} {v : Bytes} (hv : v.length = 32)
    (hsecret : r.read c slstoreName = some (slstorePrefix ++ v)) :
    Store.readSlstore (⟨r, some c, true⟩ : RegistryStore) = .ok (some v) ⟨r, some c, true⟩ := by
  have hpin : (⟨r, some c, true⟩ : RegistryStore).pinned [] = some c := rfl
  rw [readSlstore_run_registry, hpin, Option.bind_some, hsecret]
  dsimp only
  rw [unwrapSlstore_eq_ok.mpr ⟨rfl, hv⟩]

/-- A launch over a complete pair recovers from it. -/
theorem prepareLocked_pair {r : Registry} {hid : Str} {c : Root} {blob v : Bytes}
    (hchoose : r.choose (helperName hid) = some c) (hhelper : r.read c (helperName hid) = some blob)
    (hv : v.length = 32) (hsecret : r.read c slstoreName = some (slstorePrefix ++ v)) {raw : Dict Str}
    (hraw : raw.get (str "slstore") = []) (extra : List Str) (requested : Finset Str) (source : Bytes) :
    prepareLocked ⟨extra, false⟩ raw requested hid (⟨r.launch, source⟩ : World RegistryStore) =
      lift (recoverSession (raw.insert (str "slstore") (hexStr v)) blob) ⟨⟨r, some c, true⟩, source⟩ := by
  have hread := onStore_ok (w := ⟨r.launch, source⟩) (readHelper_chosen hchoose hhelper)
  have hinject : injectSlstore raw (⟨r, some c, true⟩ : RegistryStore) =
      .ok (raw.insert (str "slstore") (hexStr v)) ⟨r, some c, true⟩ := by
    refine (run_bind_ok (readSlstore_chosen hv hsecret) _).trans ?_
    dsimp only
    rw [raiseIf_neg (not_not.mpr hv), lift_ok_bind]
    rfl
  rw [prepareLocked_recover hread rfl, completeRaw, if_pos ⟨rfl, Bool.false_ne_true, hraw⟩]
  exact run_bind_ok (onStore_ok hinject) _

/-- Where the rule leads to a pair with the secret that a helper was dealt with. -/
theorem nextLaunch_of_pair {r : Registry} {hid : Str} {c : Root} {blob v : Bytes}
    (hchoose : r.choose (helperName hid) = some c) (hhelper : r.read c (helperName hid) = some blob)
    (hv : v.length = 32) (hsecret : r.read c slstoreName = some (slstorePrefix ++ v)) {raw : Dict Str}
    (hraw : raw.get (str "slstore") = []) {s : Session}
    (hF : projectFactors (raw.insert (str "slstore") (hexStr v)) currentNormVersion = .ok s.factors)
    (hdealt : ∃ k, Dealt k s.factors s.mandatory s.expectedHelper ∧ s.hwid = hwidStr k) :
    NextLaunch r hid raw s v where
  combines := ⟨blob, _, _, readHelper_chosen hchoose hhelper, readSlstore_chosen hv hsecret⟩
  keeps := fun extra requested source => by
    unfold Ensures
    rw [prepareLocked_pair hchoose hhelper hv hsecret hraw]
    cases hrec : recoverSession (raw.insert (str "slstore") (hexStr v)) blob with
    | ok s' => exact ⟨recoverSession_fresh hrec, rfl⟩
    | error e => rfl
  recovers := fun s₁ hread extra requested source => by
    rw [readHelper_chosen hchoose hhelper] at hread
    obtain rfl := congrArg Prod.fst (EStateM.Result.ok.inj hread).1
    obtain ⟨k, hdealt, hhwid⟩ := hdealt
    obtain ⟨s', hs', hid', _⟩ := hdealt.recoverSession hF
    rw [prepareLocked_pair hchoose hhelper hv hsecret hraw, hs']
    exact ⟨s', _, rfl, hid'.trans hhwid.symm⟩

omit [Sha256] in
/-- The rule leads to a complete pair: the one at hand, or a complete one of HKLM in front of it. -/
theorem Registry.choose_complete {r : Registry} {hid : Str} {root : Root}
    (hhelper : r.has root (helperName hid)) (hsecret : r.has root slstoreName) :
    r.choose (helperName hid) = some root ∨ root = .hkcu ∧
      r.choose (helperName hid) = some .hklm ∧ r.has .hklm (helperName hid) ∧ r.has .hklm slstoreName := by
  rw [Registry.choose_helper]
  by_cases hlm : r.has .hklm (helperName hid) ∧ r.has .hklm slstoreName
  · rw [if_pos hlm]
    cases root with
    | hklm => exact Or.inl rfl
    | hkcu => exact Or.inr ⟨rfl, rfl, hlm⟩
  · rw [if_neg hlm]
    cases root with
    | hklm => exact absurd ⟨hhelper, hsecret⟩ hlm
    | hkcu => exact Or.inl (if_pos ⟨hhelper, hsecret⟩)

/-! ## One generation -/

/-- The pinned hive holds the new helper and the secret that its `slstore` share was dealt with, and
    the next launch on the same signals sees that secret and enrolls no more. -/
def OneGeneration (raw : Dict Str) (hid : Str) (s : Session) (store : RegistryStore) : Prop :=
  ∃ root v, store.selected = some root ∧
    store.registry.read root (helperName hid) = some s.expectedHelper ∧
    store.registry.read root slstoreName = some (slstorePrefix ++ v) ∧
    s.factors.get (str "slstore") = hexStr v ∧ NextLaunch store.registry hid raw s v

/-- The pair will be split: the hive that the rule pins refuses writes, holds a secret, and the other
    hive does not hold the same one. -/
def PairSplits (r : Registry) (hid : Str) : Prop :=
  ∃ root data, r.choose (helperName hid) = some root ∧ (r.hive root).writable = false ∧
    r.read root slstoreName = some data ∧ r.read root.other slstoreName ≠ some data

omit [Sha256] in
/-- What is pinned for the helper is pinned for the secret. -/
theorem pinned_of_choose (r : Registry) (hid : Str) :
    (⟨r, r.choose (helperName hid), true⟩ : RegistryStore).pinned [] = r.choose (helperName hid) :=
  r.launch.pinned_again hid

/-- The `slstore` factor of the session is the secret of the enrollment. -/
theorem EnrolledIn.slstore {raw : Dict Str} {hid : Str} {s : Session} {s₀ s₁ : RegistryStore}
    {root target : Root} {v : Bytes} {r : Registry} (h : EnrolledIn raw hid s s₀ s₁ root target v r) :
    s.factors.get (str "slstore") = hexStr v := by
  rw [projectFactors_slstore h.factors, Dict.get_insert_self]

/-- The helper leaves the hive of its secret only where that hive refuses writes, and then the secret
    was not made by this enrollment. -/
theorem EnrolledIn.of_ne {raw : Dict Str} {hid : Str} {s : Session} {s₀ s₁ : RegistryStore}
    {root target : Root} {v : Bytes} {r : Registry} (h : EnrolledIn raw hid s s₀ s₁ root target v r)
    (hne : target ≠ root) :
    s₀.pinned [] = some root ∧ r = s₀.registry ∧ (s₀.registry.hive root).writable = false := by
  have hrefuse : ¬ (r.hive root).writable = true := fun hw => by
    have hsame := h.goes
    rw [Registry.target_of_writable hw] at hsame
    exact hne (Option.some.inj hsame).symm
  rcases h.source with ⟨hpin, rfl⟩ | ⟨_, hw, rfl⟩
  · exact ⟨hpin, rfl, Bool.eq_false_iff.mpr hrefuse⟩
  · rw [Registry.writable_set] at hrefuse
    exact absurd hw hrefuse

/-- Where the helper ends up beside its secret, the next launch is right. -/
theorem EnrolledIn.nextLaunch {raw : Dict Str} (hraw : raw.get (str "slstore") = []) {hid : Str}
    {s : Session} {r₀ : Registry} {s₁ : RegistryStore} {root target : Root} {v : Bytes} {r : Registry}
    (h : EnrolledIn raw hid s ⟨r₀, r₀.choose (helperName hid), true⟩ s₁ root target v r)
    (hsecret : s₁.registry.read target slstoreName = some (slstorePrefix ++ v)) :
    NextLaunch s₁.registry hid raw s v := by
  have hhelper : s₁.registry.read target (helperName hid) = some s.expectedHelper := by
    rw [h.registry, Registry.read_set_self]
  have hhas : ∀ {root' name data}, s₁.registry.read root' name = some data →
      s₁.registry.has root' name = true := fun hread => by rw [Registry.has, hread]; rfl
  rcases Registry.choose_complete (hhas hhelper) (hhas hsecret) with hchoose | ⟨rfl, hchoose, hlm, hlm'⟩
  · exact nextLaunch_of_pair hchoose hhelper h.length hsecret hraw h.factors h.dealt
  -- HKLM has an older pair; it was there before, so its secret is the one that was read
  have hbefore : ∀ name, s₁.registry.read .hklm name = r.read .hklm name := fun name => by
    rw [h.registry, Registry.read_set_other (show Root.hklm ≠ .hkcu by decide)]
  have hroot : root = .hklm := by
    by_contra hne
    have hcu : root = .hkcu := by
      cases root with
      | hklm => exact absurd rfl hne
      | hkcu => rfl
    subst hcu
    have hsame : ∀ name, r.read .hklm name = r₀.read .hklm name := fun name => by
      rcases h.source with ⟨_, rfl⟩ | ⟨_, _, rfl⟩
      · rfl
      · exact Registry.read_set_other (by decide) _ _ _ _
    have hold : ∀ name, s₁.registry.has .hklm name = r₀.has .hklm name := fun name => by
      rw [Registry.has, hbefore, hsame, Registry.has]
    rw [hold] at hlm hlm'
    have hchoose₀ : r₀.choose (helperName hid) = some .hklm := by
      rw [Registry.choose_helper, if_pos ⟨hlm, hlm'⟩]
    have hpin := pinned_of_choose r₀ hid
    rw [hchoose₀] at hpin
    rcases h.source with ⟨hcu, _⟩ | ⟨hnone, _⟩
    · rw [hchoose₀, hpin] at hcu
      cases hcu
    · rw [hchoose₀, hpin, Option.bind_some] at hnone
      rw [Registry.has, show r₀.read .hklm slstoreName = none from hnone] at hlm'
      cases hlm'
  obtain ⟨blob, hblob⟩ := Option.isSome_iff_exists.mp hlm
  exact nextLaunch_of_pair hchoose hblob h.length ((hbefore _).trans (hroot ▸ h.secret)) hraw h.factors
    h.dealt

/-- **A registry helper and its secret stay one generation** exactly where the pair is not split: for
    any contents of two readable hives and any write permissions, if a launch enrolls and returns.  No
    collector reports an `slstore` (`hraw`), and every caller requests it (`hreq`). -/
theorem registry_generation_iff {o : Options} {raw : Dict Str} (hraw : raw.get (str "slstore") = [])
    {requested : Finset Str} (hreq : str "slstore" ∈ requested) {hid : Str} {r : Registry}
    {source : Bytes} {s : Session} {w : World RegistryStore}
    (hrun : prepareLocked o raw requested hid ⟨r.launch, source⟩ = .ok s w) (hfresh : s.fresh = true) :
    OneGeneration raw hid s w.store ↔ ¬ PairSplits r hid := by
  obtain ⟨root, target, v, r₁, h⟩ := enroll_registry hraw hreq (prepareLocked_fresh hrun hfresh)
  have hpin := pinned_of_choose r hid
  have hother : ∀ root', w.store.registry.read root' slstoreName = r₁.read root' slstoreName :=
    fun root' => by rw [h.registry, Registry.read_set_of_ne (slstoreName_ne hid)]
  constructor
  · rintro ⟨root', v', hsel, _, hsecret, hslstore, _⟩ ⟨pinned, data, hchoose, hrefuse, hdata, hno⟩
    rw [hchoose] at hpin
    rcases h.source with ⟨hroot, rfl⟩ | ⟨hnone, _⟩
    swap
    · rw [hchoose, hpin, Option.bind_some] at hnone
      rw [show r.read pinned slstoreName = none from hnone] at hdata
      cases hdata
    -- the helper went to the other hive, whose secret is another one
    obtain rfl : pinned = root := by
      rw [hchoose, hpin] at hroot
      exact Option.some.inj hroot
    obtain rfl : target = root' := Option.some.inj (h.selected.symm.trans hsel)
    have htarget : target = pinned.other := Root.eq_other fun heq => by
      have hw := Registry.target_writable h.goes
      rw [heq] at hw
      exact absurd hw (Bool.eq_false_iff.mp hrefuse)
    obtain rfl : v' = v := hexStr_inj (hslstore.symm.trans h.slstore)
    rw [hother, htarget] at hsecret
    exact hno (hsecret.trans (h.secret.symm.trans hdata))
  · intro hno
    have hsecret : w.store.registry.read target slstoreName = some (slstorePrefix ++ v) := by
      rw [hother]
      by_cases hne : target = root
      · rw [hne]
        exact h.secret
      · obtain ⟨hroot, rfl, hrefuse⟩ := h.of_ne hne
        rw [hpin] at hroot
        rw [Root.eq_other hne]
        by_contra hbad
        exact hno ⟨root, _, hroot, hrefuse, h.secret, hbad⟩
    exact ⟨target, v, h.selected, by rw [h.registry, Registry.read_set_self], hsecret, h.slstore,
      h.nextLaunch hraw hsecret⟩

end Hashing

/-! ## Two registries -/

/-- What is left of two enrollments: a secret in each hive, the same; HKLM refuses writes. -/
def sampleRegistry : Registry :=
  ⟨⟨AList.insert slstoreName (slstorePrefix ++ List.replicate 32 7) ∅, false⟩,
    ⟨AList.insert slstoreName (slstorePrefix ++ List.replicate 32 7) ∅, true⟩⟩

/-- The sample machine enrolls there: HKLM is pinned, and its helper goes to HKCU. -/
theorem sampleRegistry_enrolls : ∃ nf s w, normalizeFactors sampleSignals = .ok nf ∧
    nf.get (str "slstore") = [] ∧ @prepareLocked RegistryStore sampleHash _ ⟨[], false⟩ nf
      {str "slstore"} deviceHelperId ⟨sampleRegistry.launch, List.replicate 400 7⟩ = .ok s w ∧
    s.fresh = true ∧ w.store.selected = some .hkcu := by
  let _ := sampleHash
  obtain ⟨nf, _, hnf, hcheck⟩ := exists_of_checks (show checks (fun nf _ =>
    nf.get (str "slstore") == [] && checks (fun (s : Session) w => s.fresh &&
        decide (w.store.selected = some .hkcu))
      (prepareLocked ⟨[], false⟩ nf {str "slstore"} deviceHelperId
        (⟨sampleRegistry.launch, List.replicate 400 7⟩ : World RegistryStore)))
    (lift (normalizeFactors sampleSignals) ()) = true by decide +kernel)
  obtain ⟨hnil, hcheck⟩ := Bool.and_eq_true_iff.mp hcheck
  obtain ⟨s, w, hrun, hcheck⟩ := exists_of_checks hcheck
  obtain ⟨hfresh, hsel⟩ := Bool.and_eq_true_iff.mp hcheck
  exact ⟨nf, s, w, (lift_eq_ok.mp hnf).1, beq_iff_eq.mp hnil, hrun, hfresh, of_decide_eq_true hsel⟩

/-- The secret of HKCU is that of the new helper: the pair is one generation. -/
theorem registry_generation_iff_sample : ∃ nf s w, normalizeFactors sampleSignals = .ok nf ∧
    @prepareLocked RegistryStore sampleHash _ ⟨[], false⟩ nf {str "slstore"} deviceHelperId
      ⟨sampleRegistry.launch, List.replicate 400 7⟩ = .ok s w ∧
    w.store.selected = some .hkcu ∧ @OneGeneration sampleHash nf deviceHelperId s w.store := by
  let _ := sampleHash
  obtain ⟨nf, s, w, hnf, hnil, hrun, hfresh, hsel⟩ := sampleRegistry_enrolls
  refine ⟨nf, s, w, hnf, hrun, hsel,
    (registry_generation_iff hnil (Finset.mem_singleton_self _) hrun hfresh).mpr ?_⟩
  rintro ⟨root, data, -, -, hdata, hno⟩
  cases root with
  | hklm => exact hno hdata
  | hkcu => exact hno hdata

/-- HKLM refuses writes and still holds a secret; HKCU is empty. -/
def splitRegistry : Registry :=
  ⟨⟨AList.insert slstoreName (slstorePrefix ++ List.replicate 32 7) ∅, false⟩, ⟨∅, true⟩⟩

/-- **Helper and secret can be split**: the sample machine enrolls, its helper goes to HKCU, and its
    secret stays in HKLM alone; the next launch on the same signals enrolls again. -/
theorem splitRegistry_splits : ∃ nf s w, normalizeFactors sampleSignals = .ok nf ∧
    @prepareLocked RegistryStore sampleHash _ ⟨[], false⟩ nf {str "slstore"} deviceHelperId
      ⟨splitRegistry.launch, List.replicate 400 9⟩ = .ok s w ∧
    s.fresh = true ∧ ¬ @OneGeneration sampleHash nf deviceHelperId s w.store ∧
    ∃ s' w', @prepareLocked RegistryStore sampleHash _ ⟨[], false⟩ nf {str "slstore"} deviceHelperId
        ⟨w.store.registry.launch, List.replicate 400 8⟩ = .ok s' w' ∧
      s'.fresh = true ∧ s'.hwid ≠ s.hwid := by
  let _ := sampleHash
  obtain ⟨nf, _, hnf, hcheck⟩ := exists_of_checks (show checks (fun nf _ =>
    checks (fun (s : Session) w => s.fresh && decide (w.store.selected = some .hkcu) &&
        decide (w.store.registry.read .hkcu slstoreName = none) &&
        checks (fun (s' : Session) _ => s'.fresh && s'.hwid != s.hwid)
          (prepareLocked ⟨[], false⟩ nf {str "slstore"} deviceHelperId
            (⟨w.store.registry.launch, List.replicate 400 8⟩ : World RegistryStore)))
      (prepareLocked ⟨[], false⟩ nf {str "slstore"} deviceHelperId
        (⟨splitRegistry.launch, List.replicate 400 9⟩ : World RegistryStore)))
    (lift (normalizeFactors sampleSignals) ()) = true by decide +kernel)
  obtain ⟨s, w, hrun, hcheck⟩ := exists_of_checks hcheck
  obtain ⟨hcheck, hnext⟩ := Bool.and_eq_true_iff.mp hcheck
  obtain ⟨hcheck, hnone⟩ := Bool.and_eq_true_iff.mp hcheck
  obtain ⟨hfresh, hsel⟩ := Bool.and_eq_true_iff.mp hcheck
  obtain ⟨s', w', hrun', hcheck'⟩ := exists_of_checks hnext
  obtain ⟨hfresh', hother⟩ := Bool.and_eq_true_iff.mp hcheck'
  refine ⟨nf, s, w, (lift_eq_ok.mp hnf).1, hrun, hfresh, ?_, s', w', hrun', hfresh', bne_iff_ne.mp hother⟩
  rintro ⟨root, v, hroot, _, hsecret, _⟩
  obtain rfl := Option.some.inj (hroot.symm.trans (of_decide_eq_true hsel))
  rw [of_decide_eq_true hnone] at hsecret
  cases hsecret

end Bedrock.Slhwid
