import UsbSentinel.Verdict

/-! What the location policy may do to a finding: lower it or drop it, and count both. Each
run on an internal drive is compared with the run on the same file of a USB stick. -/
namespace UsbSentinel
open ByteString UsbSentinel.Location

/-- `tuned` says of the file what `strict` says, less what it counts. -/
structure Verdict.Discloses (tuned strict : Verdict) : Prop where
  uncounted : strict.suppressed = false ∧ strict.lowered = false
  accounted : tuned.finding.toList.length + tuned.suppressed.toNat = strict.finding.toList.length
  notRaised : ∀ s ∈ tuned.finding, ∀ t ∈ strict.finding, s.1.rank ≤ t.1.rank
  lowered_iff : tuned.lowered = true ↔
    ∃ s ∈ tuned.finding, ∃ t ∈ strict.finding, s.1.rank < t.1.rank

lemma Verdict.Discloses.same {v : Verdict} (hsuppressed : v.suppressed = false)
    (hlowered : v.lowered = false) : v.Discloses v where
  uncounted := ⟨hsuppressed, hlowered⟩
  accounted := by simp [hsuppressed]
  notRaised := by
    intro s hs t ht
    rw [Option.mem_unique hs ht]
  lowered_iff := by
    constructor
    · intro h
      simp [hlowered] at h
    · rintro ⟨s, hs, t, ht, hlt⟩
      rw [Option.mem_unique hs ht] at hlt
      exact absurd hlt (lt_irrefl _)

lemma Verdict.Discloses.dropped {severity : Severity} {message : Bytes} :
    ({ suppressed := true } : Verdict).Discloses { finding := some (severity, message) } where
  uncounted := ⟨rfl, rfl⟩
  accounted := rfl
  notRaised := by simp
  lowered_iff := by simp

lemma Verdict.Discloses.weighed {severity : Severity} {message other : Bytes} :
    ({ finding := some (severity, message), lowered := decide (severity ≠ .high) } :
      Verdict).Discloses { finding := some (.high, other) } where
  uncounted := ⟨rfl, rfl⟩
  accounted := rfl
  notRaised := by cases severity <;> simp [Severity.rank]
  lowered_iff := by cases severity <;> simp [Severity.rank]

namespace SuspiciousFilename

lemma Reasons.append_kept {r : Reasons} {text : Bytes} (hpos : 0 < text.length)
    (hfits : text.length < findingMessageMax) : 0 < (r.append text).kept.length := by
  unfold Reasons.append
  by_cases hkept : r.kept = []
  · have hroom : 0 < text.length ∧ text.length < findingMessageMax - 0 := ⟨hpos, hfits⟩
    simp only [hkept, ne_eq, not_true, if_false, List.nil_append, List.length_nil, hroom, and_self,
      if_true]
  · have hlen : 0 < r.kept.length := List.length_pos_iff.mpr hkept
    simp only [ne_eq, hkept, not_false_eq_true, if_true]
    split
    · rw [List.length_append]
      omega
    · exact hlen

lemma Reasons.appendIf_kept {r : Reasons} {condition : Bool} {text : Bytes}
    (hpos : 0 < text.length) (hfits : text.length < findingMessageMax) :
    0 < (r.appendIf condition text).kept.length ↔ condition = true ∨ 0 < r.kept.length := by
  cases condition with
  | true =>
    have hkept : 0 < (r.append text).kept.length := append_kept hpos hfits
    simpa [Reasons.appendIf] using hkept
  | false => simp [Reasons.appendIf]

/-- The three rules the policy has no say in. -/
lemma reasons_kept (tuned : Bool) (kind : Kind) (entry : DirEntry) :
    0 < (reasons tuned kind entry).kept.length ↔
      highRule entry = true ∨ 0 < (weigh tuned kind entry.name).reasons.kept.length := by
  unfold reasons highRule
  rw [Reasons.appendIf_kept (by decide) (by decide), Reasons.appendIf_kept (by decide) (by decide),
    Reasons.appendIf_kept (by decide) (by decide)]
  simp only [Bool.or_eq_true]
  tauto

lemma disguise_length {name reason : Bytes} (h : doubleExtensionDisguise name = some reason) :
    0 < reason.length ∧ reason.length < 128 := by
  have hcut : ∃ rest, reason = cut 128 (ascii "double extension disguise (." ++ rest) := by
    unfold doubleExtensionDisguise at h
    split at h
    · simp only [List.append_assoc] at h
      split_ifs at h
      exact ⟨_, (Option.some.inj h).symm⟩
    · cases h
  obtain ⟨rest, rfl⟩ := hcut
  have hprefix : (ascii "double extension disguise (.").length = 28 := ascii_length _
  rw [cut_length, List.length_append, hprefix]
  omega

lemma Reasons.append_first {text : Bytes} (hpos : 0 < text.length)
    (hfits : text.length < findingMessageMax) : 0 < (Reasons.append {} text).kept.length :=
  append_kept hpos hfits

lemma weigh_plain {tuned : Bool} {kind : Kind} {name : Bytes}
    (h : doubleExtensionDisguise name = none) : weigh tuned kind name = {} := by
  simp only [weigh, h]

lemma weigh_strict {kind : Kind} {name reason : Bytes}
    (h : doubleExtensionDisguise name = some reason) :
    weigh false kind name = { high := true, reasons := Reasons.append {} reason } := by
  simp only [weigh, h, Bool.not_false, if_true]

/-- On an internal drive a disguised name is dropped, reported as it is elsewhere, or reported
with less weight. -/
lemma weigh_tuned (kind : Kind) {name reason : Bytes}
    (h : doubleExtensionDisguise name = some reason) :
    weigh true kind name = { suppressed := true } ∨
      weigh true kind name = { high := true, reasons := Reasons.append {} reason } ∨
      ∃ severity text, severity ≠ Severity.high ∧ 0 < text.length ∧
        text.length < findingMessageMax ∧
        weigh true kind name =
          { severity := severity, lowered := true, reasons := Reasons.append {} text } := by
  obtain ⟨hpos, hlen⟩ := disguise_length h
  have hwhole : cut 192 reason = reason := cut_eq_self (by omega)
  have hlowered : ∀ severity, severity ≠ Severity.high →
      weighDoubleExtension kind ((lastExtension name).getD []) = (.reportLowered, severity) →
      ∃ severity text, severity ≠ Severity.high ∧ 0 < text.length ∧
        text.length < findingMessageMax ∧
        weigh true kind name =
          { severity := severity, lowered := true, reasons := Reasons.append {} text } := by
    intro severity hseverity hweighed
    refine ⟨severity, cut 192 (reason ++ ascii " [internal drive, " ++ kindString kind ++ ascii "]"),
      hseverity, ?_, ?_, ?_⟩
    · rw [cut_length, List.append_assoc, List.append_assoc, List.length_append]
      omega
    · rw [cut_length]
      unfold findingMessageMax
      omega
    · simp [weigh, h, hweighed, hseverity]
  cases kind with
  | userExposed =>
    right
    left
    simp [weigh, h, weighDoubleExtension, hwhole]
  | recentItems =>
    by_cases hlnk : equalsCi ((lastExtension name).getD []) (ascii "lnk") = true
    · left
      simp [weigh, h, weighDoubleExtension, hlnk]
    · right
      right
      exact hlowered .warning (by decide) (by simp [weighDoubleExtension, hlnk])
  | dependencyTree =>
    right
    right
    by_cases hnative : inSet ((lastExtension name).getD []) nativeBinaryExtensions = true
    · exact hlowered .warning (by decide) (by simp [weighDoubleExtension, hnative])
    · exact hlowered .info (by decide) (by simp [weighDoubleExtension, hnative])
  | ordinary | osShortcuts | osComponentStore | selfTestFixtures =>
    right
    right
    exact hlowered .warning (by decide) rfl

lemma verdict_plain (tuned : Bool) (kind : Kind) {entry : DirEntry}
    (h : (weigh tuned kind entry.name).reasons.kept = [])
    (hlowered : (weigh tuned kind entry.name).lowered = false) :
    verdict tuned kind entry =
      if highRule entry then
        { finding := some (.high, (reasons tuned kind entry).text) }
      else { suppressed := (weigh tuned kind entry.name).suppressed } := by
  have hkept := reasons_kept tuned kind entry
  rw [h] at hkept
  unfold verdict severity
  cases hrule : highRule entry with
  | true => simp [hkept, hrule, hlowered]
  | false => simp [hkept, hrule]

lemma verdict_reported (tuned : Bool) (kind : Kind) {entry : DirEntry}
    (h : 0 < (weigh tuned kind entry.name).reasons.kept.length) :
    verdict tuned kind entry =
      { finding := some (severity tuned kind entry, (reasons tuned kind entry).text)
        lowered := (weigh tuned kind entry.name).lowered && severity tuned kind entry ≠ .high } := by
  unfold verdict
  rw [if_pos ((reasons_kept tuned kind entry).mpr (.inr h))]

theorem verdict_discloses (kind other : Kind) (entry : DirEntry) :
    (verdict true kind entry).Discloses (verdict false other entry) := by
  cases hdisguise : doubleExtensionDisguise entry.name with
  | none =>
    have hplain : ∀ tuned kind, weigh tuned kind entry.name = {} :=
      fun tuned kind => weigh_plain hdisguise
    have hkept : ∀ tuned kind, (weigh tuned kind entry.name).reasons.kept = [] := by
      simp [hplain]
    rw [verdict_plain true kind (hkept true kind) (by rw [hplain]),
      verdict_plain false other (hkept false other) (by rw [hplain])]
    split
    · exact @Verdict.Discloses.weighed .high _ _
    · rw [hplain, hplain]
      exact .same rfl rfl
  | some reason =>
    obtain ⟨hpos, hlen⟩ := disguise_length hdisguise
    have hfirst : 0 < (Reasons.append {} reason).kept.length :=
      Reasons.append_first hpos (by unfold findingMessageMax; omega)
    have hstrict : verdict false other entry =
        { finding := some (.high, (reasons false other entry).text) } := by
      rw [verdict_reported false other (by rw [weigh_strict hdisguise]; exact hfirst)]
      simp [severity, weigh_strict hdisguise]
    rw [hstrict]
    obtain hweigh | hweigh | ⟨s, text, hs, htext, hfits, hweigh⟩ := weigh_tuned kind hdisguise
    · rw [verdict_plain true kind (by rw [hweigh]) (by rw [hweigh]), hweigh]
      split
      · exact @Verdict.Discloses.weighed .high _ _
      · exact .dropped
    · rw [verdict_reported true kind (by rw [hweigh]; exact hfirst)]
      have hhigh : severity true kind entry = .high := by simp [severity, hweigh]
      rw [hhigh, hweigh]
      exact @Verdict.Discloses.weighed .high _ _
    · rw [verdict_reported true kind (by rw [hweigh]; exact Reasons.append_first htext hfits),
        hweigh]
      exact .weighed

theorem verdict_userExposed (other : Kind) (entry : DirEntry) :
    verdict true .userExposed entry = verdict false other entry := by
  have hweigh : weigh true .userExposed entry.name = weigh false other entry.name := by
    cases hdisguise : doubleExtensionDisguise entry.name with
    | none => rw [weigh_plain hdisguise, weigh_plain hdisguise]
    | some reason =>
      have hlen := (disguise_length hdisguise).2
      have hwhole : cut 192 reason = reason := cut_eq_self (by omega)
      rw [weigh_strict hdisguise]
      simp [weigh, hdisguise, weighDoubleExtension, hwhole]
  unfold verdict severity reasons
  rw [hweigh]

end SuspiciousFilename

namespace LnkInspect

lemma judged_discloses (policy : LnkPolicy) (content : Bytes) (sha256Hex : Option Bytes) :
    (judged policy content sha256Hex).Discloses (judged .none content sha256Hex) := by
  unfold judged
  cases parseLnk content with
  | none =>
    by_cases hpolicy : policy ≠ .none
    · rw [if_pos hpolicy, if_neg (by simp)]
      exact .dropped
    · rw [if_neg hpolicy, if_neg (by simp)]
      exact .same rfl rfl
  | some parsed =>
    obtain ⟨p, stop⟩ := parsed
    simp only [reduceCtorEq, decide_false, Bool.false_and, Bool.false_or, Bool.false_eq_true,
      if_false]
    split
    · split
      · exact .dropped
      · exact .same rfl rfl
    · exact .same rfl rfl

theorem examine_discloses (host : ScanHost) (policy : LnkPolicy) (fullPath : Bytes)
    (entry : DirEntry) (w : World) :
    (examine host policy fullPath entry w).1.Discloses
      (examine host .none fullPath entry w).1 := by
  unfold examine
  by_cases hname : (!hasLnkExtension entry.name) = true
  · simp only [hname, if_true]
    exact .same rfl rfl
  simp only [hname, Bool.false_eq_true, if_false]
  by_cases hsize : entry.sizeBytes.toNat > lnkMaxRead
  · simp only [hsize, if_true]
    by_cases hpolicy : policy ≠ .none
    · rw [if_pos hpolicy, if_neg (by simp)]
      exact .dropped
    · rw [if_neg hpolicy, if_neg (by simp)]
      exact .same rfl rfl
  simp only [hsize, if_false]
  by_cases hmalloc : (!host.malloc w.trace) = true
  · simp only [hmalloc, if_true]
    exact .same rfl rfl
  simp only [hmalloc, Bool.false_eq_true, if_false]
  unfold World.fileOpen
  cases host.fileOpen w.trace fullPath with
  | error e => exact .same rfl rfl
  | ok file => exact judged_discloses _ _ _

end LnkInspect

/-- A per-file callback of a detector. -/
abbrev OnFile :=
  ScanHost → Device → CheckResult → Bytes → DirEntry → World → CheckResult × World

/-- The findings `found` were pushed; they are all there when the list could grow. -/
def Adds (grow : ℕ → Bool) (before after : CheckResult) (found : List Finding) : Prop :=
  after.findings = found.foldl (fun list f => (list.push 4 grow f).2) before.findings ∧
    ((∀ n, grow n = true) → after.findings.items = before.findings.items ++ found)

/-- What a tuned run and a strict run made of the same file, both starting at `before`. -/
structure Disclosed (grow : ℕ → Bool) (before tuned strict : CheckResult)
    (tunedFound strictFound : List Finding) : Prop where
  strictAdds : Adds grow before strict strictFound
  strictCounts : strict.policySuppressed = before.policySuppressed ∧
    strict.policyLowered = before.policyLowered
  atMostOne : strictFound.length ≤ 1
  tunedAdds : Adds grow before tuned tunedFound
  accounted : ∃ suppressed : ℕ,
    tuned.policySuppressed = before.policySuppressed + UInt64.ofNat suppressed ∧
      tunedFound.length + suppressed = strictFound.length
  notRaised : ∀ f ∈ tunedFound, ∀ g ∈ strictFound, f.severity.rank ≤ g.severity.rank
  loweredCounted : ∃ lowered : ℕ,
    tuned.policyLowered = before.policyLowered + UInt64.ofNat lowered ∧ lowered ≤ 1 ∧
      (lowered = 1 ↔ ∃ f ∈ tunedFound, ∃ g ∈ strictFound, f.severity.rank < g.severity.rank)

/-- The policy hides nothing that the result does not count. -/
structure HidesNothing (onFile : OnFile) : Prop where
  disclosed : ∀ (host : ScanHost) (internal stick : Device) (before : CheckResult)
    (fullPath : Bytes) (entry : DirEntry) (w : World),
    isKnownNonUsbBus internal.busType = true → stick.busType = .usb →
    stick.volumePath = internal.volumePath →
    (onFile host internal before fullPath entry w).2 =
        (onFile host stick before fullPath entry w).2 ∧
      ∃ tunedFound strictFound,
        Disclosed (host.findingMemory (onFile host stick before fullPath entry w).2.trace) before
          (onFile host internal before fullPath entry w).1
          (onFile host stick before fullPath entry w).1 tunedFound strictFound
  userExposed : ∀ (host : ScanHost) (internal stick : Device) (before : CheckResult)
    (fullPath : Bytes) (entry : DirEntry) (w : World),
    isKnownNonUsbBus internal.busType = true → stick.busType = .usb →
    stick.volumePath = internal.volumePath →
    classify (relative internal.volumePath fullPath) = .userExposed →
    onFile host internal before fullPath entry w = onFile host stick before fullPath entry w
  strict : ∀ (host : ScanHost) (device : Device) (before : CheckResult) (fullPath : Bytes)
    (entry : DirEntry) (w : World), device.busType = .usb ∨ device.busType = .unknown →
    (onFile host device before fullPath entry w).1.policySuppressed = before.policySuppressed ∧
      (onFile host device before fullPath entry w).1.policyLowered = before.policyLowered

/-- The finding as it is stored. -/
def stored (path : Bytes) (v : Severity × Bytes) : Finding :=
  { severity := v.1, path := cut findingPathMax path, message := cut findingMessageMax v.2 }

lemma Verdict.apply_adds (v : Verdict) (grow : ℕ → Bool) (path : Bytes) (before : CheckResult) :
    Adds grow before (v.apply grow path before) (v.finding.toList.map (stored path)) := by
  unfold Adds Verdict.apply
  rw [Verdict.count_findings]
  unfold Verdict.report
  cases v.finding with
  | none => simp
  | some finding =>
    refine ⟨rfl, ?_⟩
    intro hgrow
    exact GrowList.push_items hgrow _ _

lemma Verdict.apply_counts (v : Verdict) (grow : ℕ → Bool) (path : Bytes)
    (before : CheckResult) :
    (v.apply grow path before).policySuppressed =
        before.policySuppressed + UInt64.ofNat v.suppressed.toNat ∧
      (v.apply grow path before).policyLowered =
        before.policyLowered + UInt64.ofNat v.lowered.toNat := by
  obtain ⟨hsuppressed, hlowered⟩ := v.report_policy grow path before
  unfold Verdict.apply Verdict.count
  rw [hsuppressed, hlowered]
  constructor
  · cases v.suppressed <;> rfl
  · cases v.lowered <;> rfl

lemma Verdict.Discloses.disclosed {tuned strict : Verdict} (h : tuned.Discloses strict)
    (grow : ℕ → Bool) (path : Bytes) (before : CheckResult) :
    Disclosed grow before (tuned.apply grow path before) (strict.apply grow path before)
      (tuned.finding.toList.map (stored path)) (strict.finding.toList.map (stored path)) := by
  have hstrict := strict.apply_counts grow path before
  have htuned := tuned.apply_counts grow path before
  rw [h.uncounted.1, h.uncounted.2] at hstrict
  refine {
    strictAdds := strict.apply_adds grow path before
    strictCounts := ⟨by simpa using hstrict.1, by simpa using hstrict.2⟩
    atMostOne := ?_
    tunedAdds := tuned.apply_adds grow path before
    accounted := ⟨tuned.suppressed.toNat, htuned.1, by simpa using h.accounted⟩
    notRaised := ?_
    loweredCounted := ⟨tuned.lowered.toNat, htuned.2, Bool.toNat_le _, ?_⟩ }
  · cases strict.finding <;> simp
  · simp only [List.mem_map, Option.mem_toList]
    rintro f ⟨s, hs, rfl⟩ g ⟨t, ht, rfl⟩
    exact h.notRaised s hs t ht
  · have hcount := h.lowered_iff
    simp only [List.mem_map, Option.mem_toList, exists_exists_and_eq_and]
    rw [Bool.toNat_eq_one]
    exact hcount

lemma policyApplies_usb {device : Device}
    (h : device.busType = .usb ∨ device.busType = .unknown) : policyApplies device = false := by
  unfold policyApplies isKnownNonUsbBus
  cases h with
  | inl h => rw [h]; rfl
  | inr h => rw [h]; rfl

theorem SuspiciousFilename.hidesNothing : HidesNothing SuspiciousFilename.onFile where
  disclosed := by
    intro host internal stick before fullPath entry w hinternal hstick hplace
    have hstrict : policyApplies stick = false := policyApplies_usb (.inl hstick)
    have htuned : policyApplies internal = true := hinternal
    rw [onFile_eq, onFile_eq, hplace, hstrict, htuned]
    exact ⟨rfl, _, _, (verdict_discloses _ _ entry).disclosed _ _ _⟩
  userExposed := by
    intro host internal stick before fullPath entry w hinternal hstick hplace hkind
    have hstrict : policyApplies stick = false := policyApplies_usb (.inl hstick)
    have htuned : policyApplies internal = true := hinternal
    have hkindFor : kindFor internal (relative internal.volumePath fullPath) = .userExposed := by
      rw [kindFor, htuned, if_pos rfl, hkind]
    rw [onFile_eq, onFile_eq, hplace, hstrict, htuned, hkindFor,
      verdict_userExposed (kindFor stick (relative internal.volumePath fullPath))]
  strict := by
    intro host device before fullPath entry w hbus
    rw [onFile_eq, policyApplies_usb hbus]
    have hcounts := ((verdict_discloses .ordinary
      (kindFor device (relative device.volumePath fullPath)) entry).disclosed
        (host.findingMemory w.trace) (relative device.volumePath fullPath) before).strictCounts
    exact hcounts

theorem LnkInspect.hidesNothing : HidesNothing LnkInspect.onFile where
  disclosed := by
    intro host internal stick before fullPath entry w hinternal hstick hplace
    have hstrict : lnkPolicyFor stick (relative stick.volumePath fullPath) = .none := by
      simp [lnkPolicyFor, policyApplies_usb (.inl hstick)]
    rw [onFile_eq host stick before fullPath entry w .none hstrict,
      onFile_eq host internal before fullPath entry w _ rfl, hplace,
      examine_world host (lnkPolicyFor internal (relative internal.volumePath fullPath)) .none]
    exact ⟨rfl, _, _, (examine_discloses host _ fullPath entry w).disclosed _ _ _⟩
  userExposed := by
    intro host internal stick before fullPath entry w hinternal hstick hplace hkind
    have hstrict : lnkPolicyFor stick (relative stick.volumePath fullPath) = .none := by
      simp [lnkPolicyFor, policyApplies_usb (.inl hstick)]
    have htuned : lnkPolicyFor internal (relative internal.volumePath fullPath) = .none := by
      simp [lnkPolicyFor, hkind]
    rw [onFile_eq host stick before fullPath entry w .none hstrict,
      onFile_eq host internal before fullPath entry w .none htuned, hplace]
  strict := by
    intro host device before fullPath entry w hbus
    have hstrict : lnkPolicyFor device (relative device.volumePath fullPath) = .none := by
      simp [lnkPolicyFor, policyApplies_usb hbus]
    rw [onFile_eq host device before fullPath entry w .none hstrict]
    exact ((examine_discloses host .none fullPath entry w).disclosed _ _ before).strictCounts

/-- Both detectors that the policy speaks to. -/
theorem location_policy_hidesNothing :
    HidesNothing SuspiciousFilename.onFile ∧ HidesNothing LnkInspect.onFile :=
  ⟨SuspiciousFilename.hidesNothing, LnkInspect.hidesNothing⟩

end UsbSentinel
