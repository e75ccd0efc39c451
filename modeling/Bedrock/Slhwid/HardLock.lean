/-
  `sl_hwid_extra_mandatory`: does a requested hard lock lock the named signal?

  1. **A changed signal** — its slot changes, whatever the values are (`slot_changed`), and no other
     slot does (`slot_unchanged`).

  2. **A changed slot** — with enough other slots unchanged, recovery names a changed hard lock
     (`Dealt.changed`): from the polynomials to the `DriftError` of `prepare`.

  3. **The defect** — `current_mandatory_name` sends a requested name to a slot, `project_factors`
     computes that slot from its own list of signals, and the two tables disagree: `product_uuid` and
     `mac` lock slots that are not computed from them.  `hardLock_iff` says for which signals the lock
     is real.
-/
import Bedrock.Slhwid.Division
import Bedrock.Slhwid.Projection
import Bedrock.Slhwid.Reenroll

open Lib.Fallible Bedrock.Python

namespace Bedrock.Slhwid

section Hashing

variable [Sha256]

/-! ## One changed signal -/

/-- `raw'` has another value for `signal`, and is `raw` otherwise. -/
structure OtherValue (raw raw' : Dict Str) (signal : Str) : Prop where
  /-- The signal is still there .. -/
  present : signal ∈ raw'
  /-- .. with another value .. -/
  changed : raw'.lookup signal ≠ raw.lookup signal
  /-- .. and all others are as they were. -/
  same : ∀ n, n ≠ signal → raw'.lookup n = raw.lookup n

omit [Sha256] in
theorem OtherValue.get_eq {raw raw' : Dict Str} {signal : Str} (h : OtherValue raw raw' signal) {n : Str}
    (hn : n ≠ signal) : raw'.get n = raw.get n := by
  rw [Dict.get, h.same n hn, Dict.get]

/-- Every other slot keeps its value. -/
theorem slot_unchanged {raw raw' F F' : Dict Str} {signal : Str}
    (hsame : ∀ n, n ≠ signal → raw'.get n = raw.get n)
    (hF : projectFactors raw currentNormVersion = .ok F)
    (hF' : projectFactors raw' currentNormVersion = .ok F') {n : Str}
    (hn : n ≠ currentMandatoryName signal) : F'.get n = F.get n := by
  apply slot_local hF hF'
  intro m hm
  refine hsame m fun heq => hn ?_
  rw [← heq, slot_of_mem_slotMembers hm]

/-- **The slot of a changed signal changes**, unless two encodings of its group collide. -/
theorem slot_changed {raw raw' F F' : Dict Str} {signal : Str} (hslot : SlotSignal signal)
    (hsame : ∀ n, n ≠ signal → raw'.get n = raw.get n) (hpresent : raw'.get signal ≠ [])
    (hchanged : raw'.get signal ≠ raw.get signal)
    (hhash : ∀ g ∈ currentFactorGroups, ∀ e e', groupBytes g.1 g.2 raw = .ok e →
      groupBytes g.1 g.2 raw' = .ok e' → sha256 e = sha256 e' → e = e')
    (hF : projectFactors raw currentNormVersion = .ok F)
    (hF' : projectFactors raw' currentNormVersion = .ok F') :
    F'.get (currentMandatoryName signal) ≠ [] ∧
      F'.get (currentMandatoryName signal) ≠ F.get (currentMandatoryName signal) := by
  obtain ⟨hdirect, hgroup⟩ := projectFactors_get hF
  obtain ⟨hdirect', hgroup'⟩ := projectFactors_get hF'
  -- a direct slot is the signal itself; the slot of a group is a digest of its members
  rcases hslot with hname | ⟨g, hg, hm⟩
  · rw [slot_of_direct hname, hdirect _ hname, hdirect' _ hname]
    exact ⟨hpresent, hchanged⟩
  have hnd : ∀ g ∈ currentFactorGroups, g.2.Nodup := by decide +kernel
  have hvalue := hgroup g hg
  have hvalue' := hgroup' g hg
  rw [groupValue_eq] at hvalue hvalue'
  obtain ⟨e, he, hvalue⟩ := bind_eq_ok.mp hvalue
  obtain ⟨e', he', hvalue'⟩ := bind_eq_ok.mp hvalue'
  -- a group with a present member has a value, and a digest is never empty
  have hany : (g.2.any fun member => raw'.get member ≠ []) = true :=
    List.any_eq_true.mpr ⟨signal, hm, decide_eq_true hpresent⟩
  rw [hany, if_pos rfl] at hvalue'
  have hnew : F'.get g.1 = hexStr (sha256 e') := (Except.ok.inj hvalue').symm
  have hnonempty := hexStr_sha256_ne_nil e'
  rw [slot_of_member hg hm, hnew]
  refine ⟨hnonempty, fun heq => hchanged ?_⟩
  -- an equal digest can only be that of the old members
  have hold : F.get g.1 = hexStr (sha256 e) := by
    have hval := Except.ok.inj hvalue
    by_cases hbefore : (g.2.any fun member => raw.get member ≠ []) = true
    · rw [if_pos hbefore] at hval
      exact hval.symm
    · rw [if_neg hbefore] at hval
      rw [← hval] at heq
      exact absurd heq hnonempty
  have hdigest : sha256 e = sha256 e' := hexStr_inj (hold.symm.trans heq.symm)
  -- no collision on these two inputs: the members were equal, the changed one among them
  obtain rfl := hhash g hg e e' he he' hdigest
  exact groupBytes_inj hm (hnd g hg) (fun n _ hne => hsame n hne) he he'

/-! ## One changed slot -/

/-- The new coordinate of `slot` is that of no other slot, and the stored share of `slot` is not on the
    sharing polynomials there. -/
structure OffCurve (blob : Bytes) (k : Limbs) (F : Dict Str) (M : Finset Str) (slot value : Str) : Prop where
  /-- The new coordinate is none of the others'. -/
  apart : ∀ h, parseHelper blob = .ok h → ∀ n ∈ F, n ≠ slot →
    deriveX n (F.get n) h.salt ≠ deriveX slot value h.salt
  /-- The slot's share misses the polynomials there. -/
  off : ∀ h, parseHelper blob = .ok h → ∀ S : h.Splits k F M, ∀ s ∈ h.slots, s.name = slot →
    ∀ x', deriveX slot value h.salt = .ok x' → ∃ i, (s.share i : ZMod P) ≠ (S.poly i).eval (x' : ZMod P)

/-- The test of the code itself tells: where `on_curve` rejects the stored share at a new coordinate
    that no other slot has, the changed slot is off. -/
theorem OffCurve.of_onCurve {blob : Bytes} {h : Helper} {k : Limbs} {F : Dict Str} {M : Finset Str}
    (hparse : parseHelper blob = .ok h) (S : h.Splits k F M) (hspare : h.threshold < h.slots.length)
    {slot value : Str} {x' : Nat} (hx' : deriveX slot value h.salt = .ok x')
    (hapart : ∀ s ∈ h.slots, s.name ≠ slot → coordinate F h.salt s.name ≠ x')
    (hreject : ∀ s ∈ h.slots, s.name = slot → onCurve ((h.slots.filter fun s => s.name ≠ slot).map
      (pointOf (coordinate F h.salt))) x' s.share = .ok false) :
    OffCurve blob k F M slot value := by
  have hnames : (h.slots.map HelperSlot.name).Nodup := (parseHelper_eq_ok hparse).1.names_nodup
  have hx : ∀ (S : h.Splits k F M), ∀ s ∈ h.slots, coordinate F h.salt s.name = S.x s.name := by
    intro S s hs
    exact coordinate_eq (S.deriveX_eq s hs)
  -- the other points are separated, and as many as the polynomials need
  have hsep : Separated ((h.slots.filter fun s => s.name ≠ slot).map
      (pointOf (coordinate F h.salt))) := by
    refine ⟨fun p hp => ?_, ?_⟩
    · obtain ⟨s, hs, rfl⟩ := List.mem_map.mp hp
      have hs := (List.mem_filter.mp hs).1
      show coordinate F h.salt s.name ≠ 0 ∧ coordinate F h.salt s.name < P
      rw [hx S s hs]
      exact deriveX_range (S.deriveX_eq s hs)
    · rw [List.map_map]
      refine List.Nodup.map_on (fun s hs s' hs' hxx => ?_) ((hnames.of_map _).filter _)
      have hs := (List.mem_filter.mp hs).1
      have hs' := (List.mem_filter.mp hs').1
      have hxx : coordinate F h.salt s.name = coordinate F h.salt s'.name := hxx
      rw [hx S s hs, hx S s' hs'] at hxx
      exact List.inj_on_of_nodup_map hnames hs hs' (S.x_inj s hs s' hs' hxx)
  have hmany : h.threshold ≤ ((h.slots.filter fun s => s.name ≠ slot).map
      (pointOf (coordinate F h.salt))).length := by
    have hleft : h.slots.length - 1 ≤ (h.slots.filter fun s => s.name ≠ slot).length := by
      simpa [List.filter_map, Function.comp_def] using length_filter_notMem_ge hnames {slot}
    rw [List.length_map]
    omega
  refine ⟨fun h₁ hparse₁ n hn hne hxx => ?_, fun h₁ hparse₁ S₁ s hs hslot x₁ hx₁ => ?_⟩
  · obtain rfl : h₁ = h := Except.ok.inj (hparse₁.symm.trans hparse)
    obtain ⟨s, hs, rfl⟩ := List.mem_map.mp (S.mem_iff.mpr hn)
    rw [S.deriveX_eq s hs, hx'] at hxx
    exact hapart s hs hne ((hx S s hs).trans (Except.ok.inj hxx))
  · obtain rfl : h₁ = h := Except.ok.inj (hparse₁.symm.trans hparse)
    obtain rfl : x₁ = x' := Except.ok.inj (hx₁.symm.trans hx')
    by_contra hon
    have hother : ∀ p ∈ (h₁.slots.filter fun s => s.name ≠ slot).map
        (pointOf (coordinate F h₁.salt)), p.OnCurve S₁.poly := by
      intro p hp i
      obtain ⟨s, hs, rfl⟩ := List.mem_map.mp hp
      have hs := (List.mem_filter.mp hs).1
      show (s.share i : ZMod P) = (S₁.poly i).eval (coordinate F h₁.salt s.name : ZMod P)
      rw [hx S₁ s hs]
      exact S₁.on_curve s hs i
    have haccept := (onCurve_iff hsep (fun i => lt_of_lt_of_le (S₁.degree_lt i) (by exact_mod_cast hmany))
      hother x₁ (S₁.share_reduced s hs)).mpr fun i => not_not.mp (not_exists.mp hon i)
    rw [hreject s hs hslot] at haccept
    cases haccept

/-- **A changed hard lock ends in a `DriftError` that names it.** -/
theorem Dealt.changed {k : Limbs} {F : Dict Str} {M : Finset Str} {blob : Bytes} (hd : Dealt k F M blob)
    (hcw : NoCheckWordCollision k) {raw' F' : Dict Str}
    (hF' : projectFactors raw' currentNormVersion = .ok F') {slot : Str} (hslot : slot ∈ M)
    (hsame : ∀ n, n ≠ slot → F'.get n = F.get n) (hne : F'.get slot ≠ [])
    (hcan : CanEncode (F'.get slot)) (hoff : OffCurve blob k F M slot (F'.get slot)) {t : Nat}
    (ht : threshold F.keys.length M.card = .ok t) (hspare : t < F.keys.length) :
    ∃ present needed, Slhwid.recoverSession raw' blob =
       .error (.driftError present needed [slot] true) := by
  obtain ⟨h, hparse, hnorm, _, _, _, _, hrule, ⟨S⟩⟩ := hd.helper
  obtain ⟨_, _, _, _, hF, hMF, _⟩ := hd
  have hvalid := (parseHelper_eq_ok hparse).1
  obtain rfl : h.threshold = t := Except.ok.inj (hrule.symm.trans ht)
  obtain ⟨s₀, hs₀, rfl⟩ := List.mem_map.mp (S.mem_iff.mpr (hMF slot hslot))
  have hm₀ := (S.mandatory s₀ hs₀).mpr hslot
  have hother : ∀ s ∈ h.slots, s ≠ s₀ → F'.get s.name = F.get s.name := fun s hs hne' =>
    hsame _ fun hn => hne' (List.inj_on_of_nodup_map hvalid.names_nodup hs hs₀ hn)
  obtain ⟨x', hx'⟩ := deriveX_value (S.deriveX_eq s₀ hs₀) hcan
  -- all slots but the changed one are left for the leave-one-out sweep
  have hcount : h.threshold ≤
      (h.slots.filter fun s => s.name ≠ s₀.name && present F' s).length := by
    have hleft := length_filter_notMem_ge F.keys_nodup {s₀.name}
    rw [Finset.card_singleton] at hleft
    have hmono : (F.keys.filter fun n => n ∉ ({s₀.name} : Finset Str)).length ≤
        (F.keys.filter fun n => n ≠ s₀.name && F'.get n ≠ []).length := by
      rw [← List.countP_eq_length_filter, ← List.countP_eq_length_filter]
      refine List.countP_mono_left fun n hn hnot => ?_
      have hn' : n ≠ s₀.name := fun heq => of_decide_eq_true hnot (Finset.mem_singleton.mpr heq)
      have hval : F'.get n ≠ [] := by
        rw [hsame n hn']
        exact hF n (AList.mem_keys.mp hn)
      rw [Bool.and_eq_true]
      exact ⟨decide_eq_true hn', decide_eq_true hval⟩
    have hlen := S.length_filter fun n => n ≠ s₀.name && F'.get n ≠ []
    have hslots : (h.slots.filter fun s => s.name ≠ s₀.name && present F' s).length =
        (F.keys.filter fun n => n ≠ s₀.name && F'.get n ≠ []).length := hlen
    omega
  obtain ⟨r, hr, hok, hreason, hmissing⟩ := S.changed_culprit hcw hvalid hs₀ hm₀ (present_iff.mpr hne) hx'
    (fun s hs hss _ hxx => by
      refine hoff.apart h hparse _ (S.mem_iff.mp (List.mem_map_of_mem hs))
        (fun hn => hss (List.inj_on_of_nodup_map hvalid.names_nodup hs hs₀ hn)) ?_
      rw [S.deriveX_eq s hs, hxx, hx'])
    (hoff.off h hparse S s₀ hs₀ rfl x' hx') (fun s hs hss _ => hother s hs hss)
    (fun s hs hss _ => hother s hs hss) hcount
  have hcore : recoverCore blob F' = .ok r := by
    rw [recoverCore, hparse]
    exact hr
  refine ⟨r.present, r.needed, ?_⟩
  rw [Slhwid.recoverSession, parseStored, hparse, ok_bind, hnorm, hF', ok_bind, hcore, ok_bind,
    raiseIf_pos (by rw [hok]; decide), hreason, hmissing, error_bind]
  rfl

/-! ## A requested hard lock -/

/-- SHA-256 does not collide on the values involved, and a changed coordinate is off the polynomials:
    `raw` are the factors of the enrolling launch, `raw'` those of the next one. -/
structure NoCoincidence (s : Session) (k : Limbs) (raw raw' : Dict Str) (slot : Str) : Prop where
  /-- No group hash collides. -/
  groups : ∀ g ∈ currentFactorGroups, ∀ e e', groupBytes g.1 g.2 raw = .ok e →
    groupBytes g.1 g.2 raw' = .ok e' → sha256 e = sha256 e' → e = e'
  /-- The new value of the slot is off the curve. -/
  coordinate : ∀ F', projectFactors raw' currentNormVersion = .ok F' →
    F'.get slot ≠ s.factors.get slot →
    OffCurve s.expectedHelper k s.factors s.mandatory slot (F'.get slot)

/-- **The lock is real**: from the files `d` that the session `s` was enrolled into, a launch whose
    signals differ in the value of `signal` alone raises a `DriftError` with `mandatory`, whatever hard
    locks it asks for, and leaves the files as they are. -/
def Locks (s : Session) (k : Limbs) (nf : Dict Str) (d : Dir) (signal : Str) : Prop :=
  ∀ collected' nf', normalizeFactors collected' = .ok nf' → OtherValue nf nf' signal →
    NoCoincidence s k (launchRaw d.files nf) (launchRaw d.files nf') (currentMandatoryName signal) →
    ∀ extra M source, requestedMandatory extra = .ok M →
      ∃ present needed, prepareWith ⟨extra, false⟩ collected' (d.world source []) =
        .error (.driftError present needed [currentMandatoryName signal] true) (d.world source [])

/-- **Signals that the slots are computed from are locked.** -/
theorem Enrolled.locks {nf : Dict Str} {d d' : Dir} {s : Session} (h : Enrolled nf deviceFile d d' s)
    {collected : Dict Str} (hnf : normalizeFactors collected = .ok nf) {k : Limbs}
    (hkey : s.key = some k) (hcw : NoCheckWordCollision k) {t : Nat}
    (ht : threshold s.factors.keys.length s.mandatory.card = .ok t) (hspare : t < s.factors.keys.length)
    {signal : Str} (hsignal : signal ∈ nf) (hmand : currentMandatoryName signal ∈ s.mandatory)
    (hslot : SlotSignal signal) : Locks s k nf d' signal := by
  intro collected' nf' hnf' hother hno extra M source hM
  obtain ⟨k', hdealt, _, hkey'⟩ := h.dealt
  obtain rfl : k' = k := Option.some.inj (hkey'.symm.trans hkey)
  obtain ⟨hfile, hhas, hproj⟩ := h.found
  have hpresent := normalizeFactors_ne_nil hnf' hother.present
  have hbefore := normalizeFactors_ne_nil hnf hsignal
  have hchanged : nf'.get signal ≠ nf.get signal := fun heq => by
    obtain ⟨v, hv⟩ := Option.isSome_iff_exists.mp (AList.lookup_isSome.mpr hsignal)
    obtain ⟨v', hv'⟩ := Option.isSome_iff_exists.mp (AList.lookup_isSome.mpr hother.present)
    rw [Dict.get, Dict.get, hv, hv'] at heq
    exact hother.changed (by rw [hv, hv']; exact congrArg some heq)
  -- completing the factors keeps the difference
  have hget : (launchRaw d'.files nf).get signal = nf.get signal ∧
      (launchRaw d'.files nf').get signal = nf'.get signal := by
    by_cases heq : signal = str "slstore"
    · rw [heq] at hpresent hbefore
      exact ⟨launchRaw_get (Or.inr hbefore), launchRaw_get (Or.inr hpresent)⟩
    · exact ⟨launchRaw_get (Or.inl heq), launchRaw_get (Or.inl heq)⟩
  have hsame : ∀ n, n ≠ signal → (launchRaw d'.files nf').get n = (launchRaw d'.files nf).get n :=
    fun n hn => launchRaw_same (hother.get_eq hn)
  have hhas' : HasSlstore d'.files nf' := by
    by_cases heq : signal = str "slstore"
    · rw [heq] at hpresent
      exact Or.inl hpresent
    · rw [HasSlstore, hother.get_eq fun h => heq h.symm]
      exact hhas
  have hencode : ValuesEncode (launchRaw d'.files nf') :=
    launchRaw_encode (normalizeFactors_encode hnf').2
  obtain ⟨F', hF'⟩ := projectFactors_ok hencode (Or.inr rfl)
  obtain ⟨hne, hdiff⟩ := slot_changed hslot hsame (by rw [hget.2]; exact hpresent)
    (by rw [hget.1, hget.2]; exact hchanged) hno.groups hproj hF'
  obtain ⟨present, needed, hrec⟩ := hdealt.changed hcw hF' hmand
    (fun n hn => slot_unchanged hsame hproj hF' hn) hne (projectFactors_encode hencode hF' _)
    (hno.coordinate F' hF' hdiff) ht hspare
  refine ⟨present, needed, ?_⟩
  rw [Dir.world, prepareWith_run hM hnf' hfile hhas' source, hrec]
  rfl

/-! ## Signals that no slot is computed from -/

/-- Whether a signal has a slot can be looked up in the tables. -/
instance : DecidablePred SlotSignal := fun _ => inferInstanceAs (Decidable (_ ∨ _))

/-- The names that are sent to a slot which is not computed from them, with two values each. -/
def unreadValues : List (Str × Str × Str) := [
  (str "product_uuid", str "8d1e6f0c-4b7a-4c19-9a53-0f2e6d7c8b1a",
    str "8d1e6f0c-4b7a-4c19-9a53-0f2e6d7c8b1b"),
  (str "mac", str "02429c1f5ab3", str "02429c1f5ab4"),
  (str "platform_identity", str "a", str "b"), (str "display_group", str "a", str "b"),
  (str "software_environment", str "a", str "b")]

omit [Sha256] in
/-- **The two tables disagree on five names.** -/
theorem mem_unreadValues {signal : Str}
    (h : currentMandatoryName signal ∈ allowedNames currentNormVersion) (hno : ¬ SlotSignal signal) :
    ∃ p ∈ unreadValues, p.1 = signal := by
  have htables : (∀ n ∈ [str "product_uuid", str "board_serial", str "system_uuid",
        str "system_serial", str "chassis_serial"], SlotSignal n ∨ ∃ p ∈ unreadValues, p.1 = n) ∧
      (∀ n ∈ [str "gpu_id", str "monitor_edid"], SlotSignal n) ∧
      (∀ n ∈ [str "computer_name", str "os_build"], SlotSignal n) ∧
      (∃ p ∈ unreadValues, p.1 = str "mac") ∧
      ∀ n ∈ allowedNames currentNormVersion, SlotSignal n ∨ ∃ p ∈ unreadValues, p.1 = n := by
    decide +kernel
  obtain ⟨h₁, h₂, h₃, h₄, h₅⟩ := htables
  unfold currentMandatoryName at h
  split_ifs at h with hplatform hdisplay hsoftware hmac
  · exact (h₁ signal hplatform).resolve_left hno
  · exact absurd (h₂ signal hdisplay) hno
  · exact absurd (h₃ signal hsoftware) hno
  · rw [hmac]
    exact h₄
  · exact (h₅ signal h).resolve_left hno

omit [Sha256] in
/-- A signal that survives the clean-up can be encoded. -/
theorem keptSignal_encode {name raw v : Str} (h : keptSignal name raw = some v) : CanEncode raw := by
  unfold keptSignal at h
  split at h
  · rename_i hsane
    exact (canEncode_normalize _ _).mp (isSaneFactor_eq_ok hsane)
  · cases h

omit [Sha256] in
/-- Signals with one value replaced by a sane one. -/
theorem normalizeFactors_insert {collected nf : Dict Str} (hnf : normalizeFactors collected = .ok nf)
    {signal v : Str} (hv : keptSignal signal v = some v) (hne : nf.lookup signal ≠ some v) :
    ∃ nf', normalizeFactors (collected.insert signal v) = .ok nf' ∧ OtherValue nf nf' signal := by
  have hencode : ∀ item ∈ (collected.insert signal v).entries, CanEncode item.2 := fun item hitem => by
    rw [AList.entries_insert] at hitem
    rcases List.mem_cons.mp hitem with rfl | hitem
    · exact keptSignal_encode hv
    · exact (normalizeFactors_encode hnf).1 item ((List.kerase_sublist _ _).subset hitem)
  obtain ⟨nf', hnf'⟩ := normalizeFactors_ok hencode
  have hself : nf'.lookup signal = some v := by
    rw [normalizeFactors_lookup hnf', AList.lookup_insert, Option.bind_some, hv]
  refine ⟨nf', hnf', {
    present := AList.lookup_isSome.mp (by rw [hself]; rfl)
    changed := by rw [hself]; exact hne.symm
    same := fun n hn => ?_ }⟩
  rw [normalizeFactors_lookup hnf', normalizeFactors_lookup hnf, AList.lookup_insert_ne hn]

omit [Sha256] in
/-- Each of the five names can have another value. -/
theorem exists_otherValue {p : Str × Str × Str} (hp : p ∈ unreadValues) {collected nf : Dict Str}
    (hnf : normalizeFactors collected = .ok nf) :
    ∃ collected' nf', normalizeFactors collected' = .ok nf' ∧ OtherValue nf nf' p.1 := by
  have hkept : ∀ p ∈ unreadValues, p.2.1 ≠ p.2.2 ∧ keptSignal p.1 p.2.1 = some p.2.1 ∧
      keptSignal p.1 p.2.2 = some p.2.2 := by decide +kernel
  obtain ⟨hne, hfirst, hsecond⟩ := hkept p hp
  by_cases hold : nf.lookup p.1 = some p.2.1
  · obtain ⟨nf', hnf', hother⟩ := normalizeFactors_insert hnf hsecond (by
      rw [hold]
      exact fun heq => hne (Option.some.inj heq))
    exact ⟨_, nf', hnf', hother⟩
  · obtain ⟨nf', hnf', hother⟩ := normalizeFactors_insert hnf hfirst hold
    exact ⟨_, nf', hnf', hother⟩

/-- **The defect**: a signal that no slot is computed from may change, and the next launch recovers. -/
theorem Enrolled.not_locks {nf : Dict Str} {d d' : Dir} {s : Session}
    (h : Enrolled nf deviceFile d d' s) {collected : Dict Str}
    (hnf : normalizeFactors collected = .ok nf) {k : Limbs} {signal : Str}
    (hmand : currentMandatoryName signal ∈ allowedNames currentNormVersion)
    (hno : ¬ SlotSignal signal) : ¬ Locks s k nf d' signal := by
  intro hlocks
  obtain ⟨p, hp, rfl⟩ := mem_unreadValues hmand hno
  obtain ⟨collected', nf', hnf', hother⟩ := exists_otherValue hp hnf
  have hsame : ∀ n, SlotSignal n → nf'.get n = nf.get n := fun n hn =>
    hother.get_eq fun heq => hno (heq ▸ hn)
  have hraw : ∀ n, SlotSignal n →
      (launchRaw d'.files nf').get n = (launchRaw d'.files nf).get n := fun n hn =>
    launchRaw_same (hsame n hn)
  obtain ⟨_, _, hproj⟩ := h.found
  -- the slots are the same, so there is nothing to collide
  have hfair : NoCoincidence s k (launchRaw d'.files nf) (launchRaw d'.files nf')
      (currentMandatoryName p.1) := {
    groups := fun g hg e e' he he' _ => by
      rw [groupBytes_congr fun m hm => hraw m (Or.inr ⟨g, hg, hm⟩), he] at he'
      exact Except.ok.inj he'
    coordinate := fun F' hF' hne => by
      rw [projectFactors_congr hraw, hproj] at hF'
      rw [Except.ok.inj hF'] at hne
      exact absurd rfl hne }
  have hM : requestedMandatory [] = .ok {str "slstore"} := rfl
  obtain ⟨s', hs', _⟩ := h.relaunch_of_same hnf' hsame hM []
  obtain ⟨_, _, herr⟩ := hlocks collected' nf' hnf' hother hfair [] _ [] hM
  rw [hs'] at herr
  cases herr

/-- **A requested hard lock locks the named signal** exactly where the signal is one that its slot is
    computed from: a v2 direct name, or a member of a v2 group. -/
theorem hardLock_iff {o : Options} {collected nf : Dict Str} (hnf : normalizeFactors collected = .ok nf)
    {w w' : World Disk} {s : Session} (hrun : prepareWith o collected w = .ok s w')
    (hfresh : s.fresh = true) {k : Limbs} (hkey : s.key = some k) (hcw : NoCheckWordCollision k) {t : Nat}
    (ht : threshold s.factors.keys.length s.mandatory.card = .ok t) (hspare : t ≤ s.factors.keys.length - 1)
    {signal : Str} (hextra : signal ∈ o.extraMandatory) (hsignal : signal ∈ nf) :
    Locks s k nf w'.store.dir signal ↔ SlotSignal signal := by
  obtain ⟨nf', hnf', henr, hslots⟩ := prepareWith_fresh hrun hfresh
  obtain rfl : nf' = nf := Except.ok.inj (hnf'.symm.trans hnf)
  have hmand : currentMandatoryName signal ∈ s.mandatory := by
    rw [hslots]
    exact Finset.mem_image_of_mem _ (Finset.mem_insert_of_mem (List.mem_toFinset.mpr hextra))
  have hn := (threshold_spec ht).1
  constructor
  · intro hlocks
    by_contra hno
    obtain ⟨_, ⟨_, _, _, _, _, hMF, _⟩, _⟩ := henr.dealt
    obtain ⟨_, _, hproj⟩ := henr.found
    exact henr.not_locks hnf (projectFactors_spec hproj _ (hMF _ hmand)).1 hno hlocks
  · exact henr.locks hnf hkey hcw ht (by omega) hsignal hmand

end Hashing

/-! ## Two locks -/

/-- The sample machine, which also reports both of its UUIDs. -/
def uuidSignals : Dict Str :=
  (sampleSignals.insert (str "product_uuid") (str "6f1c2b9e-05d7-4e0a-b3f8-91c4a7d2e650")).insert
    (str "system_uuid") (str "c7a90d34-8e12-4b65-9f01-2d3e4f5a6b7c")

/-- Another machine GUID. -/
def otherGuid : Str := str "3b9aca07-17c4-4f8e-8d20-5a1e9c6b7f42"

/-- `OffCurve.of_onCurve`, evaluated. -/
def rejects [Sha256] (h : Helper) (F : Dict Str) (slot value : Str) : Bool :=
  match deriveX slot value h.salt with
  | .ok x' => h.slots.all fun s =>
      if s.name = slot then onCurve ((h.slots.filter fun s => s.name ≠ slot).map
        (pointOf (coordinate F h.salt))) x' s.share = .ok false
      else coordinate F h.salt s.name ≠ x'
  | .error _ => false

/-- So the test, run on a concrete helper, shows the changed slot off the polynomials. -/
theorem offCurve_of_rejects [Sha256] {blob : Bytes} {h : Helper} {k : Limbs} {F : Dict Str}
    {M : Finset Str} (hparse : parseHelper blob = .ok h) (S : h.Splits k F M)
    (hspare : h.threshold < h.slots.length) {slot value : Str} (hr : rejects h F slot value = true) :
    OffCurve blob k F M slot value := by
  unfold rejects at hr
  split at hr
  · rename_i x' hx'
    have hall := fun s hs => List.all_eq_true.mp hr s hs
    refine .of_onCurve hparse S hspare hx' (fun s hs hne => ?_) fun s hs heq => ?_
    · have hs := hall s hs
      rw [if_neg hne] at hs
      exact of_decide_eq_true hs
    · have hs := hall s hs
      rw [if_pos heq] at hs
      exact of_decide_eq_true hs
  · cases hr

/-- Two of its launches, each of which asks for one hard lock. -/
theorem uuidSignals_enroll : ∀ name ∈ [str "machine_guid", str "product_uuid"], ∃ nf s w k t,
    normalizeFactors uuidSignals = .ok nf ∧ name ∈ nf ∧
    @prepareWith Disk sampleHash _ ⟨[name], false⟩ uuidSignals
      (sampleEmpty.dir.world (List.replicate 400 7) []) = .ok s w ∧ s.fresh = true ∧
    s.key = some k ∧ @NoCheckWordCollision sampleHash k ∧
    threshold s.factors.keys.length s.mandatory.card = .ok t ∧ t ≤ s.factors.keys.length - 1 ∧
    ∃ h, @parseHelper sampleHash s.expectedHelper = .ok h ∧
      @rejects sampleHash h s.factors (currentMandatoryName name) otherGuid = true := by
  let _ := sampleHash
  -- one evaluation of both launches
  have hall : ∀ name ∈ [str "machine_guid", str "product_uuid"], checks (fun nf _ =>
      (nf.lookup name).isSome && checks (fun (s : Session) _ => (s.fresh && decide
        (threshold s.factors.keys.length s.mandatory.card = .ok 7 ∧ 7 ≤ s.factors.keys.length - 1)) &&
        checks (fun h _ => rejects h s.factors (currentMandatoryName name) otherGuid)
          (lift (parseHelper s.expectedHelper) ()))
      (prepareWith ⟨[name], false⟩ uuidSignals (sampleEmpty.dir.world (List.replicate 400 7) [])))
    (lift (normalizeFactors uuidSignals) ()) = true := by decide +kernel
  intro name hname
  obtain ⟨nf, _, hnf, hcheck⟩ := exists_of_checks (hall name hname)
  obtain ⟨hpresent, hcheck⟩ := Bool.and_eq_true_iff.mp hcheck
  obtain ⟨s, w, hrun, hcheck⟩ := exists_of_checks hcheck
  obtain ⟨hcheck, hother⟩ := Bool.and_eq_true_iff.mp hcheck
  obtain ⟨hfresh, hcheck⟩ := Bool.and_eq_true_iff.mp hcheck
  obtain ⟨ht, hspare⟩ := of_decide_eq_true hcheck
  obtain ⟨h, _, hparse, hreject⟩ := exists_of_checks hother
  obtain ⟨_, _, henr, _⟩ := prepareWith_fresh hrun hfresh
  obtain ⟨k, hdealt, _, hkey⟩ := henr.dealt
  exact ⟨nf, s, w, k, 7, (lift_eq_ok.mp hnf).1, AList.lookup_isSome.mp hpresent, hrun, hfresh, hkey,
    sampleHash_noCollision hdealt.reduced, ht, hspare, h, (lift_eq_ok.mp hparse).1, hreject⟩

/-- **The machine GUID is locked**: with another one, no value of SHA-256 coincides, and the next launch
    raises the `DriftError` that names it. -/
theorem hardLock_iff_sample : ∃ nf s w k collected' nf' present needed,
    @prepareWith Disk sampleHash _ ⟨[str "machine_guid"], false⟩ uuidSignals
      (sampleEmpty.dir.world (List.replicate 400 7) []) = .ok s w ∧
    normalizeFactors collected' = .ok nf' ∧ OtherValue nf nf' (str "machine_guid") ∧
    @NoCoincidence sampleHash s k (launchRaw w.store.dir.files nf) (launchRaw w.store.dir.files nf')
      (str "machine_guid") ∧
    @prepareWith Disk sampleHash _ ⟨[], false⟩ collected' (w.store.dir.world [] []) =
      .error (.driftError present needed [str "machine_guid"] true) (w.store.dir.world [] []) := by
  let _ := sampleHash
  obtain ⟨nf, s, w, k, t, hnf, hpresent, hrun, hfresh, hkey, hcw, ht, hspare, h, hparse, hreject⟩ :=
    uuidSignals_enroll _ List.mem_cons_self
  have hlocks := (hardLock_iff hnf hrun hfresh hkey hcw ht hspare List.mem_cons_self hpresent).mpr
    (by decide +kernel)
  obtain ⟨nf₁, hnf₁, henr, _⟩ := prepareWith_fresh hrun hfresh
  obtain rfl : nf₁ = nf := Except.ok.inj (hnf₁.symm.trans hnf)
  obtain ⟨k₁, hdealt, _, hkey₁⟩ := henr.dealt
  obtain rfl : k₁ = k := Option.some.inj (hkey₁.symm.trans hkey)
  have hguid : keptSignal (str "machine_guid") otherGuid = some otherGuid := by decide +kernel
  have hnew : nf₁.lookup (str "machine_guid") ≠ some otherGuid := by
    rw [normalizeFactors_lookup hnf]
    decide +kernel
  obtain ⟨nf', hnf', hother⟩ := normalizeFactors_insert hnf hguid hnew
  have hvalue : nf'.get (str "machine_guid") = otherGuid := by
    rw [Dict.get, normalizeFactors_lookup hnf', AList.lookup_insert, Option.bind_some, hguid]
    rfl
  have hraw : ∀ n, n ≠ str "machine_guid" →
      (launchRaw w.store.dir.files nf').get n = (launchRaw w.store.dir.files nf₁).get n := fun n hn =>
    launchRaw_same (hother.get_eq hn)
  -- the machine GUID is in no group, so nothing is hashed but its coordinate
  have hgroups : ∀ g ∈ currentFactorGroups, str "machine_guid" ∉ g.2 := by decide +kernel
  have hno : NoCoincidence s k₁ (launchRaw w.store.dir.files nf₁) (launchRaw w.store.dir.files nf')
      (str "machine_guid") := {
    groups := fun g hg e e' he he' _ => by
      rw [groupBytes_congr fun m hm => hraw m fun heq => hgroups g hg (heq ▸ hm), he] at he'
      exact Except.ok.inj he'
    coordinate := fun F' hF' _ => by
      obtain ⟨hdirect, _⟩ := projectFactors_get hF'
      rw [hdirect _ (by decide +kernel), launchRaw_get (Or.inl (by decide +kernel)), hvalue]
      obtain ⟨h₁, hparse₁, _, _, _, hlen, _, hrule, ⟨S⟩⟩ := hdealt.helper
      obtain rfl : h₁ = h := Except.ok.inj (hparse₁.symm.trans hparse)
      obtain rfl : t = h₁.threshold := Except.ok.inj (ht.symm.trans hrule)
      have hn := (threshold_spec ht).1
      exact offCurve_of_rejects hparse S (by omega) hreject }
  obtain ⟨present, needed, hdrift⟩ := hlocks _ nf' hnf' hother hno [] {str "slstore"} [] rfl
  exact ⟨nf₁, s, w, k₁, _, nf', present, needed, hrun, hnf', hother, hno, hdrift⟩

/-- **The product UUID is not**, although it was asked for and is there: the slot that is locked for it
    is computed from `system_uuid` and three serial numbers. -/
theorem productUuid_not_locked : ∃ nf s w k t, normalizeFactors uuidSignals = .ok nf ∧
    str "product_uuid" ∈ nf ∧ @prepareWith Disk sampleHash _ ⟨[str "product_uuid"], false⟩ uuidSignals
      (sampleEmpty.dir.world (List.replicate 400 7) []) = .ok s w ∧ s.fresh = true ∧
    s.key = some k ∧ @NoCheckWordCollision sampleHash k ∧
    threshold s.factors.keys.length s.mandatory.card = .ok t ∧ t ≤ s.factors.keys.length - 1 ∧
    ¬ @Locks sampleHash s k nf w.store.dir (str "product_uuid") := by
  let _ := sampleHash
  obtain ⟨nf, s, w, k, t, hnf, hpresent, hrun, hfresh, hkey, hcw, ht, hspare, _⟩ :=
    uuidSignals_enroll _ (List.mem_cons_of_mem _ List.mem_cons_self)
  obtain ⟨nf', hnf', henr, _⟩ := prepareWith_fresh hrun hfresh
  obtain rfl : nf' = nf := Except.ok.inj (hnf'.symm.trans hnf)
  exact ⟨nf', s, w, k, t, hnf, hpresent, hrun, hfresh, hkey, hcw, ht, hspare,
    henr.not_locks hnf (by decide +kernel) (by decide +kernel)⟩

end Bedrock.Slhwid
