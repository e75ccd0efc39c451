/-
  Drift is tolerated, tampering is not.

  1. **What an enrollment leaves behind** — `Helper.Splits h k F M`: the shares of the helper `h` are
     the values, at the slots' coordinates under the factors `F`, of polynomials through the key `k`,
     and the slots of `M` are hard-locked.  `Sharing.splits` gets it from `build_shares`.

  2. **One helper, other factors** — `sweep_finds` (enough true points recover) and
     `sweep_finds_nothing` (a false mandatory point spoils every subset) decide the sweep;
     `Splits.recovers` and `Splits.names_culprit` decide the verdict.

  3. **From enrollment to recovery** — `recoverCore_of_drift` and `recoverCore_tampered` state both
     about the code's own pipeline: build, serialize, parse, recover.
-/
import Bedrock.Slhwid.Recovery

open Lib.Fallible Lib.Interpolation Bedrock.Python Polynomial

namespace Bedrock.Slhwid

section Hashing

variable [Sha256]

/-! ## A helper that splits a key -/

/-- The shares of `h` split `k` over the factors `F`, with the slots of `M` hard-locked. -/
structure Helper.Splits (h : Helper) (k : Limbs) (F : Dict Str) (M : Finset Str) where
  /-- the limb polynomials -/
  poly : Fin 4 → (ZMod P)[X]
  degree_lt : ∀ i, (poly i).degree < h.threshold
  eval_zero : ∀ i, (poly i).eval 0 = k i
  /-- the slots' coordinates at enrollment -/
  x : Str → Nat
  deriveX_eq : ∀ s ∈ h.slots, deriveX s.name (F.get s.name) h.salt = .ok (x s.name)
  x_inj : ∀ s ∈ h.slots, ∀ s' ∈ h.slots, x s.name = x s'.name → s.name = s'.name
  on_curve : ∀ s ∈ h.slots, ∀ i, (s.share i : ZMod P) = (poly i).eval (x s.name : ZMod P)
  names : h.slots.map HelperSlot.name = sortedKeys F
  nonempty : ∀ s ∈ h.slots, F.get s.name ≠ []
  mandatory : ∀ s ∈ h.slots, s.mandatory = true ↔ s.name ∈ M
  share_reduced : ∀ s ∈ h.slots, s.share.Reduced
  key_reduced : k.Reduced
  checkWord : h.checkWord = checkWordOf k

/-- What `build_shares` returns is, written into a helper, a split of the key. -/
def Sharing.splits {k : Limbs} {t salt : Nat} {F : Dict Str} {shares : Dict Limbs}
    (S : Sharing k t salt F shares) (hk : k.Reduced) (hF : ∀ n ∈ F, F.get n ≠ []) (M : Finset Str)
    (v : Nat) : (helperOf shares M t salt (checkWordOf k) v).Splits k F M :=
  -- a slot of the new helper is a factor, with the share that was dealt to it
  have hslot : ∀ s ∈ (helperOf shares M t salt (checkWordOf k) v).slots,
      s.name ∈ F ∧ (s.mandatory = true ↔ s.name ∈ M) ∧ shares.lookup s.name = some s.share :=
    fun s hs => by
      obtain ⟨n, hn, rfl⟩ := List.mem_map.mp hs
      have hn := mem_sortedKeys.mp hn
      obtain ⟨share, hlook⟩ := Option.isSome_iff_exists.mp (AList.lookup_isSome.mpr hn)
      exact ⟨(S.mem_shares n).mp hn, decide_eq_true_iff, by rw [hlook, shareOf, hlook]; rfl⟩
  { poly := S.poly
    degree_lt := S.degree_lt
    eval_zero := S.eval_zero
    x := S.x
    deriveX_eq := fun s hs => S.deriveX_eq _ (hslot s hs).1
    x_inj := fun s hs s' hs' hx => S.x_inj _ (hslot s hs).1 _ (hslot s' hs').1 hx
    on_curve := fun s hs => S.on_curve _ _ (hslot s hs).2.2
    names := by
      rw [helperOf_names]
      exact sortedKeys_congr S.mem_shares
    nonempty := fun s hs => hF _ (hslot s hs).1
    mandatory := fun s hs => (hslot s hs).2.1
    share_reduced := fun s hs => S.share_lt _ _ (hslot s hs).2.2
    key_reduced := hk
    checkWord := rfl }

/-- An enrollment over the names of a schema is one the writer accepts. -/
theorem Sharing.writable {k : Limbs} {t salt : Nat} {F : Dict Str} {shares : Dict Limbs}
    (S : Sharing k t salt F shares) {v : Nat}
    (hv : v = legacyNormVersion ∨ v = currentNormVersion) (hsalt : salt < 255)
    (hF : SlotsIn (allowedNames v) F) {M : Finset Str} (hslstore : str "slstore" ∈ M)
    (hM : ∀ n ∈ M, n ∈ F) (hm : M.card < t) (ht : t ≤ F.keys.length) :
    Writable shares M t salt (checkWordOf k) v := by
  have hkeys : sortedKeys shares = sortedKeys F := sortedKeys_congr S.mem_shares
  have hcount : ((sortedKeys shares).filter (· ∈ M)).length = M.card := by
    rw [hkeys]; exact length_filter_sortedKeys hM
  exact {
    norm := hv
    salt_lt := by omega
    allowed := fun n hn => (hF n ((S.mem_shares n).mp hn)).1
    reduced := S.share_lt
    slstore := ⟨(S.mem_shares _).mpr (hM _ hslstore), hslstore⟩
    mandatory_pos := by rw [hcount]; exact Finset.card_pos.mpr ⟨_, hslstore⟩
    mandatory_lt := by rw [hcount]; exact hm
    threshold_le := by rw [hkeys, length_sortedKeys]; exact ht
    length_checkWord := length_checkWordOf k }

/-! ## The sweep, decided by the polynomials -/

/-- **Enough true points recover**: if some candidate set consists of points of the polynomials, the
    sweep finds a set, and the key it gives is the one shared. -/
theorem sweep_finds {mandatory optional : List Point} (hsep : Separated (mandatory ++ optional))
    {poly : Fin 4 → (ZMod P)[X]} {k : Limbs} (hk : k.Reduced) (hcw : NoCheckWordCollision k) {t : Nat}
    (hdeg : ∀ i, (poly i).degree < t) (hzero : ∀ i, (poly i).eval 0 = k i) {c : List Point}
    (hsub : c.Sublist optional) (hlen : c.length = t - mandatory.length)
    (hon : ∀ p ∈ mandatory ++ c, p.OnCurve poly) :
    ∃ points subset, findRecoveringSubset mandatory optional t (checkWordOf k) =
        .ok (some (points, subset)) ∧ Separated points ∧ t ≤ points.length ∧
      points.Sublist (mandatory ++ optional) ∧ keyFromPoints points = .ok k := by
  have hsep' := fun {c : List Point} (h : c.Sublist optional) =>
    hsep.sublist ((List.Sublist.refl mandatory).append h)
  have hrec : Recovering (mandatory ++ c) (checkWordOf k) :=
    ⟨k, keyFromPoints_onCurve (hsep' hsub) hk hdeg hzero
      (by rw [List.length_append, hlen]; omega) hon, hk, rfl⟩
  obtain ⟨found, hfound, hnone, hsome⟩ := findRecoveringSubset_ok t (checkWordOf k) hsep
  cases found with
  | none => exact absurd hrec (hnone rfl c hsub hlen)
  | some f =>
    obtain ⟨points, subset⟩ := f
    obtain ⟨c', hsub', hlen', rfl, _, k', hk', hred, hword⟩ := hsome points subset rfl
    refine ⟨_, subset, hfound, hsep' hsub', ?_, (List.Sublist.refl mandatory).append hsub', ?_⟩
    · rw [List.length_append, hlen']; omega
    · rw [hk', hcw k' hred hword]

/-- Where every point is one of the polynomials the sweep finds a set, and its key is the one shared,
    whatever other keys have the same check word. -/
theorem sweep_finds_shared {mandatory optional : List Point}
    (hsep : Separated (mandatory ++ optional)) {poly : Fin 4 → (ZMod P)[X]} {k : Limbs}
    (hk : k.Reduced) {t : Nat} (hdeg : ∀ i, (poly i).degree < t)
    (hzero : ∀ i, (poly i).eval 0 = k i) (hmany : t ≤ (mandatory ++ optional).length)
    (hon : ∀ p ∈ mandatory ++ optional, p.OnCurve poly) :
    ∃ points subset, findRecoveringSubset mandatory optional t (checkWordOf k) =
        .ok (some (points, subset)) ∧ Separated points ∧ t ≤ points.length ∧
      points.Sublist (mandatory ++ optional) ∧ keyFromPoints points = .ok k := by
  -- every candidate set lies on the polynomials, so any of them gives the key
  have hcandidate : ∀ c, c.Sublist optional → c.length = t - mandatory.length →
      Separated (mandatory ++ c) ∧ t ≤ (mandatory ++ c).length ∧
        (mandatory ++ c).Sublist (mandatory ++ optional) ∧ keyFromPoints (mandatory ++ c) = .ok k := by
    intro c hsub hlen
    have hsub' := (List.Sublist.refl mandatory).append hsub
    have hlen' : t ≤ (mandatory ++ c).length := by rw [List.length_append, hlen]; omega
    exact ⟨hsep.sublist hsub', hlen', hsub', keyFromPoints_onCurve (hsep.sublist hsub') hk hdeg hzero
      hlen' fun p hp => hon p (hsub'.subset hp)⟩
  rw [List.length_append] at hmany
  obtain ⟨found, hfound, hnone, hsome⟩ := findRecoveringSubset_ok t (checkWordOf k) hsep
  -- a sweep without a match would have tried the first candidate, and it recovers
  cases found with
  | none =>
    have hlen : (optional.take (t - mandatory.length)).length = t - mandatory.length :=
      List.length_take_of_le (by omega)
    obtain ⟨_, _, _, hkey⟩ := hcandidate _ (List.take_sublist _ _) hlen
    exact absurd ⟨k, hkey, hk, rfl⟩ (hnone rfl _ (List.take_sublist _ _) hlen)
  | some f =>
    obtain ⟨points, subset⟩ := f
    obtain ⟨c, hsub, hlen, rfl, _⟩ := hsome points subset rfl
    exact ⟨_, subset, hfound, hcandidate c hsub hlen⟩

/-- **A false mandatory point spoils every subset.** -/
theorem sweep_finds_nothing {mandatory optional : List Point}
    (hsep : Separated (mandatory ++ optional)) {poly : Fin 4 → (ZMod P)[X]} {k : Limbs}
    (hcw : NoCheckWordCollision k) {t : Nat} (hdeg : ∀ i, (poly i).degree < t)
    (hzero : ∀ i, (poly i).eval 0 = k i) {bad : Point} (hbad : bad ∈ mandatory)
    (hoff : ¬ bad.OnCurve poly) (hon : ∀ p ∈ mandatory ++ optional, p ≠ bad → p.OnCurve poly) :
    findRecoveringSubset mandatory optional t (checkWordOf k) = .ok none := by
  obtain ⟨found, hfound, _, hsome⟩ := findRecoveringSubset_ok t (checkWordOf k) hsep
  cases found with
  | none => exact hfound
  | some f =>
    obtain ⟨points, subset⟩ := f
    obtain ⟨c, hsub, hlen, rfl, _, k', hk', hred, hword⟩ := hsome points subset rfl
    have hsub' := (List.Sublist.refl mandatory).append hsub
    refine absurd (hcw k' hred hword) (keyFromPoints_tampered (hsep.sublist hsub') hdeg hzero ?_
      (List.mem_append_left c hbad) hoff (fun p hp => hon p (hsub'.subset hp)) hk')
    rw [List.length_append, hlen]; omega

/-! ## One helper, other factors -/

section Splits

variable {h : Helper} {k : Limbs} {F G : Dict Str} {M : Finset Str} {x : Str → Nat}

/-- A slot whose value did not change is present, and its point is still on the polynomials. -/
theorem Helper.Splits.onCurve (S : h.Splits k F M) (hp : Placed h.slots h.salt G x) {s : HelperSlot}
    (hs : s ∈ h.slots) (hsame : G.get s.name = F.get s.name) :
    present G s = true ∧ (pointOf x s).OnCurve S.poly := by
  have hpres : present G s = true := present_iff.mpr (by rw [hsame]; exact S.nonempty s hs)
  have hx : x s.name = S.x s.name := by
    have hG := hp.derive s hs hpres
    rw [hsame, S.deriveX_eq s hs] at hG
    exact (Except.ok.inj hG).symm
  refine ⟨hpres, fun i => ?_⟩
  show (s.share i : ZMod P) = (S.poly i).eval (x s.name : ZMod P)
  rw [hx]
  exact S.on_curve s hs i

/-- With the mandatory slots unchanged, as many unchanged slots as the threshold asks for form a
    candidate set. -/
theorem Helper.Splits.exists_candidate (S : h.Splits k F M) (hp : Placed h.slots h.salt G x)
    (hmand : ∀ s ∈ h.slots, s.mandatory = true → G.get s.name = F.get s.name)
    (hsame : h.threshold ≤ (h.slots.filter fun s => G.get s.name = F.get s.name).length) :
    ∃ c, c.Sublist (optionalPoints x G h.slots) ∧
      c.length = h.threshold - (mandatoryPoints x G h.slots).length ∧
      ∀ p ∈ mandatoryPoints x G h.slots ++ c, p.OnCurve S.poly := by
  let same := h.slots.filter fun s => G.get s.name = F.get s.name
  have hsub : same.Sublist (h.slots.filter (present G)) := by
    have hfilter : same = (h.slots.filter (present G)).filter
        fun s => G.get s.name = F.get s.name := by
      rw [List.filter_filter]
      refine List.filter_congr fun s hs => ?_
      by_cases hsame : G.get s.name = F.get s.name
      · rw [(S.onCurve hp hs hsame).1, Bool.and_true]
      · simp [hsame]
    rw [hfilter]; exact List.filter_sublist
  -- the mandatory ones among the unchanged slots are at most the mandatory points
  have hcount := List.length_eq_length_filter_add (l := same) fun s => s.mandatory
  have hle : (same.filter fun s => s.mandatory).length ≤ (mandatoryPoints x G h.slots).length := by
    rw [mandatoryPoints, List.length_map]
    exact (hsub.filter _).length_le
  let c := ((same.filter fun s => !s.mandatory).map (pointOf x)).take
    (h.threshold - (mandatoryPoints x G h.slots).length)
  refine ⟨c, ?_, ?_, fun p hp' => ?_⟩
  · exact (List.take_sublist _ _).trans ((hsub.filter _).map _)
  · refine List.length_take_of_le ?_
    rw [List.length_map]
    have hsame' : h.threshold ≤ same.length := hsame
    omega
  · rcases List.mem_append.mp hp' with hm | hc
    · obtain ⟨s, hs, rfl⟩ := List.mem_map.mp hm
      obtain ⟨hs, hsm⟩ := List.mem_filter.mp hs
      have hs := (List.mem_filter.mp hs).1
      exact (S.onCurve hp hs (hmand s hs hsm)).2
    · obtain ⟨s, hs, rfl⟩ := List.mem_map.mp ((List.take_sublist _ _).subset hc)
      obtain ⟨hs, hsame⟩ := List.mem_filter.mp (List.mem_filter.mp hs).1
      exact (S.onCurve hp hs (of_decide_eq_true hsame)).2

/-- A found set that gives the key recovers; and when nothing changed, no slot is reported dead. -/
theorem Helper.Splits.recovers_of_found (S : h.Splits k F M) (hp : Placed h.slots h.salt G x)
    (hmand : ∀ s ∈ h.slots, s.mandatory = true → G.get s.name = F.get s.name) {points : List Point}
    {subset : Finset Str}
    (hfound : findRecoveringSubset (mandatoryPoints x G h.slots) (optionalPoints x G h.slots)
      h.threshold (checkWordOf k) = .ok (some (points, subset))) (hsep : Separated points)
    (hmany : h.threshold ≤ points.length)
    (hpts : points.Sublist (mandatoryPoints x G h.slots ++ optionalPoints x G h.slots))
    (hkey : keyFromPoints points = .ok k) :
    ∃ r, recoverHelper h G = .ok r ∧ r.ok = true ∧ r.key = some k ∧ r.hwid = hwidStr k ∧
      ((∀ s ∈ h.slots, G.get s.name = F.get s.name) → r.dead = [] ∧ r.pending = false) := by
  rw [← S.checkWord] at hfound
  have hmiss := missingNames_nil fun s hs hm => (S.onCurve hp hs (hmand s hs hm)).1
  refine ⟨_, recoverHelper_found hp.derive hmiss hfound hsep hkey, rfl, rfl, rfl, fun hall => ?_⟩
  have hpoint : ∀ p ∈ points, p.OnCurve S.poly := fun p hp' => by
    obtain ⟨s', hs', _, rfl⟩ := exists_slot (List.Sublist.refl _) (hpts.subset hp')
    exact (S.onCurve hp hs' (hall s' hs')).2
  -- unchanged slots are present and on the curve, so nothing is left over for `dead`
  have hnil : h.slots.filter
      (!reportedLive x G (mandatoryPoints x G h.slots) points subset ·) = [] := by
    refine List.filter_eq_nil_iff.mpr fun s hs => ?_
    obtain ⟨hpres, hcurve⟩ := S.onCurve hp hs (hall s hs)
    have hdeg : ∀ i, (S.poly i).degree < points.length := fun i =>
      lt_of_lt_of_le (S.degree_lt i) (by exact_mod_cast hmany)
    have halive := (onCurve_iff hsep hdeg hpoint (x s.name) (S.share_reduced s hs)).mpr hcurve
    rw [reportedLive, hpres, decide_eq_true halive, Bool.and_self, Bool.or_true]
    decide
  dsimp only
  rw [hnil]
  exact ⟨rfl, rfl⟩

/-- **Drift is tolerated**: with the mandatory slots unchanged and the threshold met, the key comes
    back; and when nothing changed at all, no slot is reported dead. -/
theorem Helper.Splits.recovers (S : h.Splits k F M) (hcw : NoCheckWordCollision k)
    (hp : Placed h.slots h.salt G x)
    (hmand : ∀ s ∈ h.slots, s.mandatory = true → G.get s.name = F.get s.name)
    (hsame : h.threshold ≤ (h.slots.filter fun s => G.get s.name = F.get s.name).length) :
    ∃ r, recoverHelper h G = .ok r ∧ r.ok = true ∧ r.key = some k ∧ r.hwid = hwidStr k ∧
      ((∀ s ∈ h.slots, G.get s.name = F.get s.name) → r.dead = [] ∧ r.pending = false) := by
  obtain ⟨c, hsub, hlen, hon⟩ := S.exists_candidate hp hmand hsame
  obtain ⟨points, subset, hfound, hsep, hmany, hpts, hkey⟩ := sweep_finds hp.separated S.key_reduced
    hcw S.degree_lt S.eval_zero hsub hlen hon
  exact S.recovers_of_found hp hmand hfound hsep hmany hpts hkey

/-- On the factors it was enrolled over a helper gives its key back without drift. -/
theorem Helper.Splits.recovers_same (S : h.Splits k F M) (hp : Placed h.slots h.salt F x)
    (hle : h.threshold ≤ h.slots.length) :
    ∃ r, recoverHelper h F = .ok r ∧ r.ok = true ∧ r.key = some k ∧ r.hwid = hwidStr k ∧
      r.dead = [] ∧ r.pending = false := by
  have hslot := fun s hs => S.onCurve hp (s := s) hs rfl
  have hperm : (mandatoryPoints x F h.slots ++ optionalPoints x F h.slots).Perm
      (h.slots.map (pointOf x)) := by
    have hall : h.slots.filter (present F) = h.slots :=
      List.filter_eq_self.mpr fun s hs => (hslot s hs).1
    rw [mandatoryPoints, optionalPoints, ← List.map_append, hall]
    exact (List.filter_append_perm _ _).map _
  obtain ⟨points, subset, hfound, hsep, hmany, hpts, hkey⟩ := sweep_finds_shared hp.separated
    S.key_reduced S.degree_lt S.eval_zero (by rwa [hperm.length_eq, List.length_map])
    fun p hpt => by
      obtain ⟨s, hs, rfl⟩ := List.mem_map.mp (hperm.mem_iff.mp hpt)
      exact (hslot s hs).2
  obtain ⟨r, hr, hok, hk, hid, hsame⟩ :=
    S.recovers_of_found hp (fun _ _ _ => rfl) hfound hsep hmany hpts hkey
  exact ⟨r, hr, hok, hk, hid, hsame fun _ _ => rfl⟩

/-- **A missing hard lock is named.** -/
theorem Helper.Splits.names_missing (hp : Placed h.slots h.salt G x) {s₀ : HelperSlot}
    (hs₀ : s₀ ∈ h.slots) (hm₀ : s₀.mandatory = true) (habsent : present G s₀ = false)
    (hmand : ∀ s ∈ h.slots, s ≠ s₀ → s.mandatory = true → present G s = true) :
    ∃ r, recoverHelper h G = .ok r ∧ r.ok = false ∧ r.reason = .mandatory ∧
      r.missing = [s₀.name] := by
  have hnd : h.slots.Nodup := hp.nodup.of_map _
  have hmiss : missingNames G h.slots = [s₀.name] := by
    have hone : h.slots.filter (fun s => s.mandatory && !present G s) = [s₀] := by
      refine List.perm_singleton.mp ((List.perm_ext_iff_of_nodup (hnd.filter _)
        (List.nodup_singleton s₀)).mpr fun s => ?_)
      rw [List.mem_filter, List.mem_singleton, Bool.and_eq_true, Bool.not_eq_true']
      constructor
      · rintro ⟨hs, hm, hpres⟩
        by_contra hne
        rw [hmand s hs hne hm] at hpres
        exact absurd hpres (by decide)
      · rintro rfl
        exact ⟨hs₀, hm₀, habsent⟩
    rw [missingNames, hone]; rfl
  obtain ⟨found, hfound, _⟩ := findRecoveringSubset_ok h.threshold h.checkWord hp.separated
  refine ⟨_, recoverHelper_missing hp.derive (by rw [hmiss]; exact List.cons_ne_nil _ _) hfound, rfl,
    rfl, ?_⟩
  exact hmiss

/-- **A changed hard lock is named**: its false point spoils the sweep and every leave-one-out sweep
    but its own, and that one succeeds on the other slots. -/
theorem Helper.Splits.names_culprit (S : h.Splits k F M) (hcw : NoCheckWordCollision k)
    (hp : Placed h.slots h.salt G x) (hne : ∀ s ∈ h.slots, s.name ≠ []) {s₀ : HelperSlot}
    (hs₀ : s₀ ∈ h.slots) (hm₀ : s₀.mandatory = true) (hpres₀ : present G s₀ = true)
    (hoff : ¬ (pointOf x s₀).OnCurve S.poly)
    (hmand : ∀ s ∈ h.slots, s ≠ s₀ → s.mandatory = true → G.get s.name = F.get s.name)
    (hopt : ∀ s ∈ h.slots, s ≠ s₀ → present G s = true → G.get s.name = F.get s.name)
    (hcount : h.threshold ≤
      (h.slots.filter fun s => s.name ≠ s₀.name && present G s).length) :
    ∃ r, recoverHelper h G = .ok r ∧ r.ok = false ∧ r.reason = .mandatory ∧
      r.missing = [s₀.name] := by
  have hall : ∀ s ∈ h.slots, s.mandatory = true → present G s = true := fun s hs hm => by
    by_cases hss : s = s₀
    · rw [hss]; exact hpres₀
    · exact (S.onCurve hp hs (hmand s hs hss hm)).1
  have hmiss := missingNames_nil hall
  -- every gathered point but the false one lies on the polynomials
  have htrue : ∀ p ∈ mandatoryPoints x G h.slots ++ optionalPoints x G h.slots,
      p ≠ pointOf x s₀ → p.OnCurve S.poly := fun p hp' hpne => by
    obtain ⟨s, hs, hpres, rfl⟩ := exists_slot (List.Sublist.refl _) hp'
    have hss : s ≠ s₀ := fun hss => hpne (by rw [hss])
    exact (S.onCurve hp hs (hopt s hs hss hpres)).2
  have hbad : pointOf x s₀ ∈ mandatoryPoints x G h.slots :=
    List.mem_map_of_mem (List.mem_filter.mpr ⟨List.mem_filter.mpr ⟨hs₀, hpres₀⟩, hm₀⟩)
  have hfound := sweep_finds_nothing hp.separated hcw S.degree_lt S.eval_zero hbad hoff htrue
  rw [← S.checkWord] at hfound
  have hleave := fun n => hp.separated.sublist
    ((List.filter_sublist (p := fun p : Point => p.name ≠ n)).append
      (List.filter_sublist (p := fun p : Point => p.name ≠ n)))
  -- leaving out another mandatory slot keeps the false point
  have hothers : ∀ ms ∈ h.slots, RecoversWithout h x G ms → ms = s₀ := by
    intro ms hms hrec
    by_contra hmsne
    have hname : s₀.name ≠ ms.name := fun hn =>
      hmsne (List.inj_on_of_nodup_map hp.nodup hs₀ hms hn).symm
    have hkeep : pointOf x s₀ ∈
        (mandatoryPoints x G h.slots).filter fun p => p.name ≠ ms.name :=
      List.mem_filter.mpr ⟨hbad, decide_eq_true hname⟩
    have hnone := sweep_finds_nothing (hleave ms.name) hcw S.degree_lt S.eval_zero hkeep hoff
      fun p hp' hpne => htrue p ((List.filter_sublist.append List.filter_sublist).subset hp') hpne
    rw [← S.checkWord] at hnone
    obtain ⟨f, hf⟩ := hrec
    rw [hnone] at hf
    cases hf
  -- leaving out the culprit leaves true points only, and enough of them
  have hself : RecoversWithout h x G s₀ := by
    let mand := (mandatoryPoints x G h.slots).filter fun p => p.name ≠ s₀.name
    let opt := (optionalPoints x G h.slots).filter fun p => p.name ≠ s₀.name
    have hlen : h.threshold ≤ mand.length + opt.length := by
      have hperm : ((mandatoryPoints x G h.slots) ++ (optionalPoints x G h.slots)).Perm
          ((h.slots.filter (present G)).map (pointOf x)) := by
        rw [mandatoryPoints, optionalPoints, ← List.map_append]
        exact (List.filter_append_perm _ _).map _
      have hfilter := (hperm.filter fun p => p.name ≠ s₀.name).length_eq
      rw [List.filter_append, List.length_append, List.filter_map, List.length_map,
        List.filter_filter] at hfilter
      exact le_of_le_of_eq hcount hfilter.symm
    obtain ⟨points, subset, hsweep, _⟩ := sweep_finds (hleave s₀.name) S.key_reduced hcw S.degree_lt
      S.eval_zero (List.take_sublist (h.threshold - mand.length) opt)
      (List.length_take_of_le (by omega)) fun p hp' => by
        have hp'' : p ∈ mand ++ opt :=
          ((List.Sublist.refl mand).append (List.take_sublist _ opt)).subset hp'
        refine htrue p ((List.filter_sublist.append List.filter_sublist).subset hp'') fun heq => ?_
        have hname : p.name ≠ s₀.name := by
          rcases List.mem_append.mp hp'' with hm | ho
          · exact of_decide_eq_true (List.mem_filter.mp hm).2
          · exact of_decide_eq_true (List.mem_filter.mp ho).2
        exact hname (by rw [heq]; rfl)
    rw [← S.checkWord] at hsweep
    exact ⟨_, hsweep⟩
  obtain ⟨culprit, hculprit, ⟨_, hnone⟩ | ⟨ms, hms, _, rfl, hrec⟩⟩ := diagnose_ok hp hne
  · exact absurd hself (hnone s₀ hs₀ hm₀)
  · refine ⟨_, recoverHelper_none hp.derive hmiss hfound hculprit, ?_⟩
    rw [hothers ms hms hrec, failedResult, if_pos (hne s₀ hs₀)]
    exact ⟨rfl, rfl, rfl⟩

/-- A changed hard lock whose new coordinate is no other slot's and lies off the polynomials is
    named, if every other present slot is unchanged. -/
theorem Helper.Splits.changed_culprit (S : h.Splits k F M) (hcw : NoCheckWordCollision k)
    (hvalid : h.Valid) {s₀ : HelperSlot} (hs₀ : s₀ ∈ h.slots) (hm₀ : s₀.mandatory = true)
    (hpres₀ : present G s₀ = true) {x' : Nat}
    (hx' : deriveX s₀.name (G.get s₀.name) h.salt = .ok x')
    (hapart : ∀ s ∈ h.slots, s ≠ s₀ → present G s = true → S.x s.name ≠ x')
    (hoff : ∃ i, (s₀.share i : ZMod P) ≠ (S.poly i).eval (x' : ZMod P))
    (hmand : ∀ s ∈ h.slots, s ≠ s₀ → s.mandatory = true → G.get s.name = F.get s.name)
    (hopt : ∀ s ∈ h.slots, s ≠ s₀ → present G s = true → G.get s.name = F.get s.name)
    (hcount : h.threshold ≤
      (h.slots.filter fun s => s.name ≠ s₀.name && present G s).length) :
    ∃ r, recoverHelper h G = .ok r ∧ r.ok = false ∧ r.reason = .mandatory ∧
      r.missing = [s₀.name] := by
  -- the coordinates of this launch: the changed slot has moved, the others have not
  let x : Str → Nat := fun n => if n = s₀.name then x' else S.x n
  have hx₀ : x s₀.name = x' := if_pos rfl
  have hx : ∀ s ∈ h.slots, s ≠ s₀ → x s.name = S.x s.name := fun s hs hne =>
    if_neg fun hn => hne (List.inj_on_of_nodup_map hvalid.names_nodup hs hs₀ hn)
  have hp : Placed h.slots h.salt G x := {
    nodup := hvalid.names_nodup
    derive := fun s hs hpres => by
      by_cases hss : s = s₀
      · rw [hss, hx₀]; exact hx'
      · rw [hopt s hs hss hpres, hx s hs hss]; exact S.deriveX_eq s hs
    -- two slots at one coordinate: the moved one is apart from the others, and these are from each
    -- other
    inj := fun s hs s' hs' hpres hpres' hxx => by
      by_cases hss : s = s₀
      · by_cases hss' : s' = s₀
        · rw [hss, hss']
        · rw [hss, hx₀, hx s' hs' hss'] at hxx
          exact absurd hxx.symm (hapart s' hs' hss' hpres')
      · by_cases hss' : s' = s₀
        · rw [hss', hx₀, hx s hs hss] at hxx
          exact absurd hxx (hapart s hs hss hpres)
        · rw [hx s hs hss, hx s' hs' hss'] at hxx
          exact S.x_inj s hs s' hs' hxx }
  refine S.names_culprit hcw hp (fun s hs => hvalid.name_ne_nil hs) hs₀ hm₀ hpres₀ (fun hcurve => ?_)
    hmand hopt hcount
  -- at its new coordinate the stored share is off
  obtain ⟨i, hi⟩ := hoff
  have hon : (s₀.share i : ZMod P) = (S.poly i).eval (x s₀.name : ZMod P) := hcurve i
  rw [hx₀] at hon
  exact hi hon

end Splits

/-! ## From enrollment to recovery -/

/-- The slots of a split with a property of their names are as many as the factors with it. -/
theorem Helper.Splits.length_filter {h : Helper} {k : Limbs} {F : Dict Str} {M : Finset Str}
    (S : h.Splits k F M) (p : Str → Bool) :
    (h.slots.filter fun s => p s.name).length = (F.keys.filter p).length := by
  have hperm : (sortedKeys F).Perm F.keys := List.perm_insertionSort (· ≤ ·) F.keys
  rw [← (hperm.filter p).length_eq, ← S.names, List.filter_map, List.length_map]
  rfl

theorem Helper.Splits.mem_iff {h : Helper} {k : Limbs} {F : Dict Str} {M : Finset Str}
    (S : h.Splits k F M) {n : Str} : n ∈ h.slots.map HelperSlot.name ↔ n ∈ F := by
  rw [S.names, mem_sortedKeys]

/-- **`build_shares` and `serialize_helper`**: the helper they produce is written, is read back, and
    splits the key. -/
theorem enrolled {k : Limbs} (hk : k.Reduced) {F : Dict Str} {M : Finset Str} {v : Nat}
    (hv : v = legacyNormVersion ∨ v = currentNormVersion) (hF : SlotsIn (allowedNames v) F)
    (hslstore : str "slstore" ∈ M) (hM : ∀ n ∈ M, n ∈ F) {t : Nat} (hm : M.card < t)
    (ht : t ≤ F.keys.length) {d d' : Bytes} {shares : Dict Limbs} {salt : Nat}
    (hb : buildShares k (slotList F M) t d = .ok (shares, salt) d') :
    ∃ h : Helper, h.Valid ∧ serializeHelper shares M t salt (checkWordOf k) v = .ok h.bytes ∧
      h.threshold = t ∧ h.salt = salt ∧
      (∀ s ∈ h.slots, s.share = shareOf shares s.name) ∧
      ∃ coeffs, drawCoeffs (t - 1) d = .ok coeffs d' ∧
        ∃ S : h.Splits k F M, ∀ i, S.poly i = limbPoly (k i) (coeffs i) := by
  obtain ⟨hsalt, coeffs, hcoeffs, S, hpoly⟩ := buildShares_sharing hk (by omega) hb
  have hw := S.writable hv hsalt hF hslstore hM hm ht
  refine ⟨helperOf shares M t salt (checkWordOf k) v, hw.valid, serializeHelper_eq hw, rfl, rfl,
    ?_, coeffs, hcoeffs, S.splits hk (fun n hn => (hF n hn).2) M v, hpoly⟩
  intro s hs
  obtain ⟨n, _, rfl⟩ := List.mem_map.mp hs
  rfl

/-! ### An enrollment to try the results on -/

/-- A dictionary literal. -/
def dict (items : List (Str × Str)) : Dict Str := items.foldl (fun d p => d.insert p.1 p.2) ∅

def sampleFactors : Dict Str := dict [
  (str "slstore", hexStr (List.replicate 32 7)),
  (str "machine_guid", str "8d1e6f0c-4b7a-4c19-9a53-0f2e6d7c8b1a"),
  (str "cpu_id", str "genuineintel-6-158"), (str "disk_serial", str "s4evnf0m8127"),
  (str "ram_total", str "17179869184"), (str "volume_id", str "1a2b-3c4d-5e6f"),
  (str "firmware", str "1.14.0-2023-07"),
  (str "tpm_ek", str "5c0e9d3b7a1f48266d9b04e7c2f8a3515c0e9d3b7a1f4826b7c2d95e10aa4f38")]

/-- The disk is gone and the firmware updated. -/
def sampleDrifted : Dict Str :=
  (sampleFactors.insert (str "firmware") (str "1.15.2-2024-01")).erase (str "disk_serial")

/-- The stored secret is another one, and the firmware is not reported. -/
def sampleTampered : Dict Str :=
  (sampleFactors.insert (str "slstore") (str "0000000000000001")).erase (str "firmware")

/-- The key of the sample helper, small so that its shares are easy to check. -/
def sampleKey : Limbs := ![11, 22, 33, 44]

/-- Twenty draws of the same eight bytes. -/
def sampleDraws : Bytes := List.replicate 160 7

def sampleCoeff : Nat := 506381209866536711

/-- `recover_core` returns the key, and its identifier. -/
def Recovers (blob : Bytes) (G : Dict Str) (k : Limbs) : Prop :=
  ∃ r, recoverCore blob G = .ok r ∧ r.ok = true ∧ r.key = some k ∧ hwidOf k = .ok r.hwid

/-- **Drift tolerance**: enrolled with the threshold rule over v2 slots, a helper recovers its key
    under any factors that agree on the hard locks and on `t` slots in all; when `slstore` is the
    only hard lock, any two other slots may change or disappear. -/
theorem recoverCore_of_drift {k : Limbs} (hk : k.Reduced) (hcw : NoCheckWordCollision k)
    {F : Dict Str} (hF : SlotsIn (allowedNames currentNormVersion) F) {M : Finset Str}
    (hslstore : str "slstore" ∈ M) (hM : ∀ n ∈ M, n ∈ F) {t : Nat}
    (ht : threshold F.keys.length M.card = .ok t) {d d' : Bytes} {shares : Dict Limbs} {salt : Nat}
    (hb : buildShares k (slotList F M) t d = .ok (shares, salt) d') :
    ∃ cw blob, checkWord k = .ok cw ∧
      serializeHelper shares M t salt cw currentNormVersion = .ok blob ∧
      (∀ G : Dict Str, (∀ n ∈ M, G.get n = F.get n) →
        t ≤ (F.keys.filter fun n => G.get n = F.get n).length →
        DistinctCoordinates F.keys G salt → Recovers blob G k) ∧
      (M = {str "slstore"} → ∀ (G : Dict Str) (D : Finset Str), D.card ≤ 2 → str "slstore" ∉ D →
        (∀ n ∈ F, n ∉ D → G.get n = F.get n) →
        DistinctCoordinates F.keys G salt → Recovers blob G k) := by
  obtain ⟨hn, _, hm, hle, _⟩ := threshold_spec ht
  obtain ⟨h, hvalid, hser, rfl, rfl, _, _, _, S, _⟩ :=
    enrolled hk (Or.inr rfl) hF hslstore hM hm hle hb
  have hrecover : ∀ G : Dict Str, (∀ n ∈ M, G.get n = F.get n) →
      h.threshold ≤ (F.keys.filter fun n => G.get n = F.get n).length →
      DistinctCoordinates F.keys G h.salt → Recovers h.bytes G k := by
    -- the points of the slots with their old values are enough, and on the polynomials
    intro G hmand hsame hdist
    obtain ⟨x, hp⟩ := hdist.placed hvalid.names_nodup fun s hs =>
      AList.mem_keys.mp (S.mem_iff.mp (List.mem_map_of_mem hs))
    obtain ⟨r, hr, hok, hkey, hhwid, _⟩ := S.recovers hcw hp
      (fun s hs hsm => hmand _ ((S.mandatory s hs).mp hsm))
      (by rw [S.length_filter fun n => G.get n = F.get n]; exact hsame)
    refine ⟨r, ?_, hok, hkey, by rw [hhwid]; exact hwidOf_ok hk⟩
    rw [recoverCore, parseHelper_bytes hvalid]
    exact hr
  refine ⟨checkWordOf k, h.bytes, checkWord_ok hk, hser, hrecover, ?_⟩
  rintro rfl G D hD hslD hsame hdist
  refine hrecover G (fun n hn' => ?_) ?_ hdist
  · -- the secret is not among the changed names
    rw [Finset.mem_singleton.mp hn']
    exact hsame _ (hM _ hslstore) hslD
  · -- at most two values have changed, and the threshold leaves room for two
    have hcount := length_filter_notMem_ge F.keys_nodup D
    have hmono : (F.keys.filter fun n => n ∉ D).length ≤
        (F.keys.filter fun n => G.get n = F.get n).length := by
      rw [← List.countP_eq_length_filter, ← List.countP_eq_length_filter]
      refine List.countP_mono_left fun n hn' hnD => ?_
      exact decide_eq_true (hsame n (AList.mem_keys.mpr hn') (of_decide_eq_true hnD))
    have hrule := threshold_ok hn (show ({str "slstore"} : Finset Str).card < F.keys.length by
      rw [Finset.card_singleton]; omega)
    rw [ht, Finset.card_singleton] at hrule
    have := Except.ok.inj hrule
    omega

omit [Sha256] in
/-- The sample machine loses its disk and gets new firmware. -/
theorem recoverCore_of_drift_sample : 
    ∃ blob, @Recovers sampleHash blob sampleDrifted sampleKey := by
  let _ := sampleHash
  obtain ⟨⟨shares, salt⟩, d', hb, hsalt⟩ := exists_of_checks (show checks (fun p _ => p.2 == 0)
    (buildShares sampleKey (slotList sampleFactors {str "slstore"}) 6 sampleDraws) = true by
      decide +kernel)
  obtain rfl : salt = 0 := beq_iff_eq.mp hsalt
  have hF : ∀ n ∈ sampleFactors.keys, n ∈ allowedNames currentNormVersion ∧
      sampleFactors.get n ≠ [] := by decide +kernel
  have hM : ∀ n ∈ ({str "slstore"} : Finset Str), n ∈ sampleFactors := by decide +kernel
  obtain ⟨cw, blob, _, _, hrecover, _⟩ := recoverCore_of_drift (by decide +kernel)
    (sampleHash_noCollision (by decide +kernel)) (fun n hn => hF n (AList.mem_keys.mp hn))
    (Finset.mem_singleton_self _) hM (by decide +kernel) hb
  exact ⟨blob, hrecover _ (by decide +kernel) (by decide +kernel) (by decide +kernel)⟩

/-- **Tampering is named**: when exactly one hard-locked slot `s` is absent or changed and every
    other present slot is unchanged, `recover_core` reports `s`.  For a changed `s` the stored share
    must not lie on the sharing polynomials at the new coordinate in all four limbs, which is what
    `shareAt` evaluates. -/
theorem recoverCore_tampered {k : Limbs} (hk : k.Reduced) {F : Dict Str} {M : Finset Str} {v : Nat}
    (hv : v = legacyNormVersion ∨ v = currentNormVersion) (hF : SlotsIn (allowedNames v) F)
    (hslstore : str "slstore" ∈ M) (hM : ∀ n ∈ M, n ∈ F) {t : Nat} (hm : M.card < t)
    (ht : t ≤ F.keys.length) {d d' : Bytes} {shares : Dict Limbs} {salt : Nat}
    (hb : buildShares k (slotList F M) t d = .ok (shares, salt) d') {coeffs : Fin 4 → List Nat}
    (hcoeffs : drawCoeffs (t - 1) d = .ok coeffs d') {G : Dict Str} {s : Str} (hs : s ∈ M)
    (hbad : G.get s ≠ F.get s) (hmand : ∀ n ∈ M, n ≠ s → G.get n = F.get n)
    (hopt : ∀ n ∈ F, n ∉ M → G.get n = F.get n ∨ G.get n = [])
    (hcount : t ≤ (F.keys.filter fun n => n ≠ s && G.get n ≠ []).length)
    (hchanged : G.get s ≠ [] → NoCheckWordCollision k ∧
      ∃ x', deriveX s (G.get s) salt = .ok x' ∧
        (∀ n ∈ F, n ≠ s → G.get n ≠ [] → deriveX n (G.get n) salt ≠ .ok x') ∧
        shareAt k coeffs x' ≠ shareOf shares s) :
    ∃ cw blob r, checkWord k = .ok cw ∧ serializeHelper shares M t salt cw v = .ok blob ∧
      recoverCore blob G = .ok r ∧ r.ok = false ∧ r.reason = .mandatory ∧ r.missing = [s] := by
  obtain ⟨h, hvalid, hser, rfl, rfl, hshare, coeffs', hcoeffs', S, hpoly⟩ :=
    enrolled hk hv hF hslstore hM hm ht hb
  obtain rfl : coeffs' = coeffs := by
    rw [hcoeffs] at hcoeffs'; exact (EStateM.Result.ok.inj hcoeffs').1.symm
  suffices hr : ∃ r, recoverHelper h G = .ok r ∧ r.ok = false ∧ r.reason = .mandatory ∧
      r.missing = [s] by
    obtain ⟨r, hr, hres⟩ := hr
    refine ⟨checkWordOf k, h.bytes, r, checkWord_ok hk, hser, ?_, hres⟩
    rw [recoverCore, parseHelper_bytes hvalid]
    exact hr
  obtain ⟨s₀, hs₀, rfl⟩ := List.mem_map.mp (S.mem_iff.mpr (hM s hs))
  have hm₀ := (S.mandatory s₀ hs₀).mpr hs
  have hother : ∀ s ∈ h.slots, s ≠ s₀ → s.name ≠ s₀.name := fun s hs hne hn =>
    hne (List.inj_on_of_nodup_map hvalid.names_nodup hs hs₀ hn)
  have hmand' : ∀ s ∈ h.slots, s ≠ s₀ → s.mandatory = true → G.get s.name = F.get s.name :=
    fun s hs hne hsm => hmand _ ((S.mandatory s hs).mp hsm) (hother s hs hne)
  -- a present slot other than `s` is unchanged, hence has its coordinate of enrollment
  have hopt' : ∀ s ∈ h.slots, s ≠ s₀ → present G s = true → G.get s.name = F.get s.name :=
    fun s hs hne hpres => by
      by_cases hsM : s.name ∈ M
      · exact hmand _ hsM (hother s hs hne)
      · exact (hopt _ (S.mem_iff.mp (List.mem_map_of_mem hs)) hsM).resolve_right
          (present_iff.mp hpres)
  by_cases hpres₀ : present G s₀ = true
  · obtain ⟨hcw, x', hx', hfresh, hfalse⟩ := hchanged (present_iff.mp hpres₀)
    refine S.changed_culprit hcw hvalid hs₀ hm₀ hpres₀ hx' (fun s hs hne hpres hxx => ?_) ?_ hmand' hopt' ?_
    · -- no other present slot has the new coordinate
      refine hfresh _ (S.mem_iff.mp (List.mem_map_of_mem hs)) (hother s hs hne) (present_iff.mp hpres) ?_
      rw [hopt' s hs hne hpres, S.deriveX_eq s hs, hxx]
    · by_contra hcurve
      refine hfalse (funext fun i => ?_)
      have hi : (s₀.share i : ZMod P) = (S.poly i).eval (x' : ZMod P) :=
        not_not.mp (not_exists.mp hcurve i)
      rw [hpoly i, ← cast_shareLimb] at hi
      rw [← hshare s₀ hs₀]
      exact (cast_inj (S.share_reduced s₀ hs₀ i) (shareLimb_lt (hk i) _ _) hi).symm
    · have hlen := S.length_filter fun n => n ≠ s₀.name && G.get n ≠ []
      exact le_of_le_of_eq hcount hlen.symm
  · have habsent : present G s₀ = false := Bool.eq_false_iff.mpr hpres₀
    have hne₀ : ∀ s ∈ h.slots, present G s = true → s ≠ s₀ := fun s hs hpres hss => by
      rw [hss, habsent] at hpres; exact absurd hpres (by decide)
    have hp : Placed h.slots h.salt G S.x := {
      nodup := hvalid.names_nodup
      derive := fun s hs hpres => by
        rw [hopt' s hs (hne₀ s hs hpres) hpres]; exact S.deriveX_eq s hs
      inj := fun s hs s' hs' _ _ hxx => S.x_inj s hs s' hs' hxx }
    refine Helper.Splits.names_missing hp hs₀ hm₀ habsent fun s hs hne hsm => ?_
    exact (S.onCurve hp hs (hmand' s hs hne hsm)).1

omit [Sha256] in
/-- On the sample machine a changed `slstore` is the culprit, although the firmware is gone too. -/
theorem recoverCore_tampered_sample : 
    ∃ blob r, @recoverCore sampleHash blob sampleTampered = .ok r ∧ r.ok = false ∧
      r.reason = .mandatory ∧ r.missing = [str "slstore"] := by
  let _ := sampleHash
  let coeffs : Fin 4 → List Nat := fun _ => List.replicate 5 sampleCoeff
  obtain ⟨⟨shares, salt⟩, d', hb, hcheck⟩ := exists_of_checks (show checks
    (fun p d => p.2 == 0 && d == [] &&
      decide (shareAt sampleKey coeffs 1166485287013986354 ≠ shareOf p.1 (str "slstore")))
    (buildShares sampleKey (slotList sampleFactors {str "slstore"}) 6 sampleDraws) = true by
      decide +kernel)
  rw [Bool.and_eq_true, Bool.and_eq_true, decide_eq_true_eq] at hcheck
  obtain rfl : salt = 0 := beq_iff_eq.mp hcheck.1.1
  obtain rfl : d' = [] := beq_iff_eq.mp hcheck.1.2
  obtain ⟨c, d'', hcoeffs, hc⟩ := exists_of_checks (show checks
    (fun c d => decide (c = coeffs) && d == []) (drawCoeffs 5 sampleDraws) = true by decide +kernel)
  rw [Bool.and_eq_true, decide_eq_true_eq] at hc
  obtain rfl : c = coeffs := hc.1
  obtain rfl : d'' = [] := beq_iff_eq.mp hc.2
  have hF : ∀ n ∈ sampleFactors.keys, n ∈ allowedNames currentNormVersion ∧
      sampleFactors.get n ≠ [] := by decide +kernel
  have hopt : ∀ n ∈ sampleFactors.keys, n ∉ ({str "slstore"} : Finset Str) →
      sampleTampered.get n = sampleFactors.get n ∨ sampleTampered.get n = [] := by decide +kernel
  have hapart : ∀ n ∈ sampleFactors.keys, n ≠ str "slstore" → sampleTampered.get n ≠ [] →
      deriveX n (sampleTampered.get n) 0 ≠ .ok 1166485287013986354 := by decide +kernel
  obtain ⟨_, blob, r, _, _, hr⟩ := recoverCore_tampered (by decide +kernel) (Or.inr rfl)
    (fun n hn => hF n (AList.mem_keys.mp hn)) (Finset.mem_singleton_self _)
    (by decide +kernel) (by decide) (by decide +kernel) hb hcoeffs (Finset.mem_singleton_self _)
    (by decide +kernel) (by decide +kernel) (fun n hn => hopt n (AList.mem_keys.mp hn))
    (by decide +kernel)
    (fun _ => ⟨sampleHash_noCollision (by decide +kernel), _, by decide +kernel,
      fun n hn => hapart n (AList.mem_keys.mp hn), hcheck.2⟩)
  exact ⟨blob, r, hr⟩

end Hashing

end Bedrock.Slhwid
