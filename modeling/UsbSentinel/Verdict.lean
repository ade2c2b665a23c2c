import UsbSentinel.LnkInspect
import UsbSentinel.SuspiciousFilename

/-! What a per-file detector makes of one file, apart from the result it is added to: at
most one finding, and what the location policy did. -/
namespace UsbSentinel
open ByteString UsbSentinel.Location

structure Verdict where
  finding : Option (Severity × Bytes) := none
  suppressed : Bool := false
  lowered : Bool := false
  deriving DecidableEq, Repr

def Verdict.report (v : Verdict) (grow : ℕ → Bool) (path : Bytes) (result : CheckResult) :
    CheckResult :=
  match v.finding with
  | none => result
  | some (severity, message) => result.addFinding grow severity path message

def Verdict.count (v : Verdict) (result : CheckResult) : CheckResult :=
  { result with
    policySuppressed := result.policySuppressed + if v.suppressed then 1 else 0
    policyLowered := result.policyLowered + if v.lowered then 1 else 0 }

/-- The result with the finding and the counts added. -/
def Verdict.apply (v : Verdict) (grow : ℕ → Bool) (path : Bytes) (result : CheckResult) :
    CheckResult :=
  v.count (v.report grow path result)

@[simp] lemma Verdict.count_findings (v : Verdict) (result : CheckResult) :
    (v.count result).findings = result.findings := rfl

@[simp] lemma Verdict.count_message (v : Verdict) (result : CheckResult) :
    (v.count result).message = result.message := rfl

lemma Verdict.apply_finding (severity : Severity) (message : Bytes) (lowered : Bool)
    (grow : ℕ → Bool) (path : Bytes) (result : CheckResult) :
    ({ finding := some (severity, message), lowered := lowered } : Verdict).apply grow path result =
      if lowered then
        { result.addFinding grow severity path message with
          policyLowered := (result.addFinding grow severity path message).policyLowered + 1 }
      else result.addFinding grow severity path message := by
  cases lowered with
  | true => simp [Verdict.apply, Verdict.count, Verdict.report]
  | false =>
    simp only [Verdict.apply, Verdict.count, Verdict.report, Bool.false_eq_true, if_false,
      UInt64.add_zero]

lemma Verdict.apply_silent (suppressed : Bool) (grow : ℕ → Bool) (path : Bytes)
    (result : CheckResult) :
    ({ suppressed := suppressed } : Verdict).apply grow path result =
      if suppressed then { result with policySuppressed := result.policySuppressed + 1 }
      else result := by
  cases suppressed with
  | true => simp [Verdict.apply, Verdict.count, Verdict.report]
  | false => simp [Verdict.apply, Verdict.count, Verdict.report]

@[simp] lemma Verdict.report_message (v : Verdict) (grow : ℕ → Bool) (path : Bytes)
    (result : CheckResult) : (v.report grow path result).message = result.message := by
  unfold Verdict.report
  split <;> rfl

@[simp] lemma Verdict.report_policy (v : Verdict) (grow : ℕ → Bool) (path : Bytes)
    (result : CheckResult) :
    (v.report grow path result).policySuppressed = result.policySuppressed ∧
      (v.report grow path result).policyLowered = result.policyLowered := by
  unfold Verdict.report
  split <;> exact ⟨rfl, rfl⟩

namespace SuspiciousFilename

/-- The reasons found, before any is reported. -/
def reasons (tuned : Bool) (kind : Kind) (entry : DirEntry) : Reasons :=
  (weigh tuned kind entry.name).reasons
    |>.appendIf (hasBidiOverride entry.name)
      (ascii "filename contains a Unicode bidi-override character")
    |>.appendIf (hasSpacePadding entry.name)
      (ascii "long space padding hides the real extension")
    |>.appendIf (entry.isHidden && hasExecutableExtension entry.name)
      (ascii "hidden/system-attributed executable")

/-- A rule that is high everywhere. -/
def highRule (entry : DirEntry) : Bool :=
  hasBidiOverride entry.name || hasSpacePadding entry.name ||
    (entry.isHidden && hasExecutableExtension entry.name)

def severity (tuned : Bool) (kind : Kind) (entry : DirEntry) : Severity :=
  if (weigh tuned kind entry.name).high || highRule entry then .high
  else (weigh tuned kind entry.name).severity

def verdict (tuned : Bool) (kind : Kind) (entry : DirEntry) : Verdict :=
  if 0 < (reasons tuned kind entry).kept.length then
    { finding := some (severity tuned kind entry, (reasons tuned kind entry).text)
      lowered := (weigh tuned kind entry.name).lowered && severity tuned kind entry ≠ .high }
  else { suppressed := (weigh tuned kind entry.name).suppressed }

/-- The kind of place the rules look at: none but on a drive that the policy is for. -/
def kindFor (device : Device) (relativePath : Bytes) : Kind :=
  if policyApplies device then classify relativePath else .ordinary

theorem onFile_eq (host : ScanHost) (device : Device) (result : CheckResult) (fullPath : Bytes)
    (entry : DirEntry) (w : World) :
    onFile host device result fullPath entry w =
      ((verdict (policyApplies device) (kindFor device (relative device.volumePath fullPath))
        entry).apply (host.findingMemory w.trace) (relative device.volumePath fullPath) result, w) := by
  have hseverity : ∀ tuned kind,
      (if (weigh tuned kind entry.name).high || hasBidiOverride entry.name ||
          hasSpacePadding entry.name || (entry.isHidden && hasExecutableExtension entry.name)
        then Severity.high else (weigh tuned kind entry.name).severity) =
        severity tuned kind entry := by
    intro tuned kind
    unfold severity highRule
    simp only [Bool.or_assoc]
  unfold onFile
  simp only [hseverity]
  change (if 0 < (reasons (policyApplies device)
    (kindFor device (relative device.volumePath fullPath)) entry).kept.length then _ else _) = _
  generalize hkind : (if policyApplies device = true then
    classify (relative device.volumePath fullPath) else Kind.ordinary) = kind
  rw [show kindFor device (relative device.volumePath fullPath) = kind from hkind]
  generalize policyApplies device = tuned
  by_cases hreasons : 0 < (reasons tuned kind entry).kept.length
  · simp only [verdict, hreasons, if_true, Verdict.apply_finding]
    rfl
  · simp only [verdict, hreasons, if_false, Verdict.apply_silent]
    split <;> rfl

end SuspiciousFilename

namespace LnkInspect

def judged (policy : LnkPolicy) (content : Bytes) (sha256Hex : Option Bytes) : Verdict :=
  match parseLnk content with
  | none =>
    if policy ≠ .none then { suppressed := true }
    else
      { finding := some (.warning,
          cut 192 (ascii "malformed or corrupt .lnk file (could not parse)" ++
            (sha256Hex.map fun h => ascii ", sha256=" ++ h).getD [])) }
  | some (p, _) =>
    let interp := targetsInterpreter p
    let marked := (matchedMarker p).isSome
    if interp || marked then
      if policy = .suppressAll || (policy = .attackShape && !(interp && marked)) then
        { suppressed := true }
      else { finding := some (.high, highMessage p sha256Hex) }
    else {}

/-- The verdict and the world after the file was looked at. -/
def examine (host : ScanHost) (policy : LnkPolicy) (fullPath : Bytes) (entry : DirEntry)
    (w : World) : Verdict × World :=
  if !hasLnkExtension entry.name then ({}, w)
  else if entry.sizeBytes.toNat > lnkMaxRead then
    if policy ≠ .none then ({ suppressed := true }, w)
    else
      ({ finding := some (.warning,
          cut 160 (ascii "oversized .lnk file (" ++ decimal entry.sizeBytes.toNat ++
            ascii " bytes), not parsed")) }, w)
  else if !host.malloc w.trace then ({}, w)
  else
    match w.fileOpen host fullPath with
    | (.error _, w) => ({}, w)
    | (.ok file, w) =>
      let content := (readCapped lnkMaxRead file).1
      let sha256Hex :=
        if host.hashBegin w.trace && host.hashFinish w.trace then some (host.sha256Hex content)
        else none
      (judged policy content sha256Hex, w)

lemma judge_eq (grow : ℕ → Bool) (policy : LnkPolicy) (relativePath content : Bytes)
    (sha256Hex : Option Bytes) (result : CheckResult) :
    judge grow policy relativePath content sha256Hex result =
      (judged policy content sha256Hex).apply grow relativePath result := by
  unfold judge judged
  cases parseLnk content with
  | none =>
    by_cases hpolicy : policy ≠ .none
    · rw [if_pos hpolicy, if_pos hpolicy, Verdict.apply_silent]
      rfl
    · rw [if_neg hpolicy, if_neg hpolicy, Verdict.apply_finding]
      rfl
  | some parsed =>
    simp only
    split
    · split
      · rw [Verdict.apply_silent]
        rfl
      · rw [Verdict.apply_finding]
        rfl
    · rw [Verdict.apply_silent]
      rfl

theorem onFile_eq (host : ScanHost) (device : Device) (result : CheckResult) (fullPath : Bytes)
    (entry : DirEntry) (w : World) (policy : LnkPolicy)
    (hpolicy : lnkPolicyFor device (relative device.volumePath fullPath) = policy) :
    onFile host device result fullPath entry w =
      ((examine host policy fullPath entry w).1.apply
          (host.findingMemory (examine host policy fullPath entry w).2.trace)
          (relative device.volumePath fullPath) result,
        (examine host policy fullPath entry w).2) := by
  unfold onFile examine
  simp only [hpolicy]
  by_cases hname : (!hasLnkExtension entry.name) = true
  · simp only [hname, if_true, Verdict.apply_silent]
    rfl
  simp only [hname, Bool.false_eq_true, if_false]
  by_cases hsize : entry.sizeBytes.toNat > lnkMaxRead
  · by_cases hnone : policy ≠ .none
    · simp only [hsize, if_true]
      simp only [if_pos hnone, Verdict.apply_silent]
      rfl
    · simp only [hsize, if_true]
      simp only [if_neg hnone, Verdict.apply_finding]
      rfl
  simp only [hsize, if_false]
  by_cases hmalloc : (!host.malloc w.trace) = true
  · simp only [hmalloc, if_true, Verdict.apply_silent]
    rfl
  simp only [hmalloc, Bool.false_eq_true, if_false]
  unfold World.fileOpen
  cases host.fileOpen w.trace fullPath with
  | error e => simp [Verdict.apply_silent]
  | ok file => simp [judge_eq]

/-- The policy has no say in what is opened. -/
lemma examine_world (host : ScanHost) (policy other : LnkPolicy) (fullPath : Bytes)
    (entry : DirEntry) (w : World) :
    (examine host policy fullPath entry w).2 = (examine host other fullPath entry w).2 := by
  unfold examine
  by_cases hname : (!hasLnkExtension entry.name) = true
  · simp only [hname, if_true]
  simp only [hname, Bool.false_eq_true, if_false]
  by_cases hsize : entry.sizeBytes.toNat > lnkMaxRead
  · simp only [hsize, if_true]
    have hstill : ∀ (p : LnkPolicy) (v u : Verdict),
        (if p ≠ .none then (v, w) else (u, w)).2 = w := by
      intro p v u
      split <;> rfl
    exact (hstill policy _ _).trans (hstill other _ _).symm
  simp only [hsize, if_false]
  by_cases hmalloc : (!host.malloc w.trace) = true
  · simp only [hmalloc, if_true]
  simp only [hmalloc, Bool.false_eq_true, if_false]
  unfold World.fileOpen
  cases host.fileOpen w.trace fullPath with
  | error e => rfl
  | ok file => rfl

end LnkInspect

end UsbSentinel
