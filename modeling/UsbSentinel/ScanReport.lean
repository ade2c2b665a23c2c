import UsbSentinel.ScanTally

/-! The report of a completed scan of a volume that stays as it is: every check, with every
finding, is a plain function of the files the volume shows. -/
namespace UsbSentinel
open ByteString

/-- A check without the capacity its list has grown to. -/
def CheckResult.reported (check : CheckResult) : CheckResult :=
  { check with findings := { items := check.findings.items } }

/-- The finding as it is stored: message and path cut to their fields. -/
def Verdict.stored (v : Verdict) (path : Bytes) : Option Finding :=
  v.finding.map fun found =>
    ⟨found.1, cut findingMessageMax found.2, cut findingPathMax path⟩

/-- With memory, a verdict adds its finding behind the others and counts what it held back. -/
lemma Verdict.reported_apply (v : Verdict) (path : Bytes) (result : CheckResult) :
    (v.apply Scanner.granted path result).reported =
      { result with
        findings := { items := result.findings.items ++ (v.stored path).toList }
        policySuppressed := result.policySuppressed + UInt64.ofNat v.suppressed.toNat
        policyLowered := result.policyLowered + UInt64.ofNat v.lowered.toNat } := by
  obtain ⟨finding, suppressed, lowered⟩ := v
  cases finding with
  | none =>
    simp only [Verdict.apply, Verdict.count, Verdict.report, Verdict.stored,
      CheckResult.reported, Option.map_none, Option.toList_none, List.append_nil]
    cases suppressed <;> cases lowered <;> rfl
  | some found =>
    obtain ⟨severity, message⟩ := found
    have hitems := @CheckResult.addFinding_items Scanner.granted (fun _ => rfl) result
      severity path message
    simp only [Verdict.apply, Verdict.count, Verdict.report, Verdict.stored,
      CheckResult.reported, Option.map_some, Option.toList_some, hitems]
    cases suppressed <;> cases lowered <;> rfl

namespace Scanner
open UsbSentinel.Path UsbSentinel.Location

variable (scan : Scan)

def traversalReport (t : Tally) : CheckResult :=
  (traversalCheck .ok {
    world := {}
    fileCount := t.files.length
    byteCount := UInt64.ofNat (totalBytes t.files)
    pathsSkipped := t.skipped
    pathsExcluded := t.excluded }).reported

/-- A per-file check whose detector says `verdict` of each file, in order; `text` is the
message it has once there was a file. -/
def fileReport (id text : Bytes) (verdict : Bytes × DirEntry → Verdict)
    (files : List (Bytes × DirEntry)) : CheckResult :=
  { CheckResult.init id with
    message := if files = [] then [] else text
    findings :=
      { items := files.filterMap fun f =>
          (verdict f).stored (relative scan.device.volumePath f.1) }
    policySuppressed := UInt64.ofNat (files.countP fun f => (verdict f).suppressed)
    policyLowered := UInt64.ofNat (files.countP fun f => (verdict f).lowered) }

def nameVerdict (f : Bytes × DirEntry) : Verdict :=
  SuspiciousFilename.verdict (policyApplies scan.device)
    (SuspiciousFilename.kindFor scan.device (relative scan.device.volumePath f.1)) f.2

def shortcutVerdict (f : Bytes × DirEntry) : Verdict :=
  (LnkInspect.examine scan.host
    (LnkInspect.lnkPolicyFor scan.device (relative scan.device.volumePath f.1)) f.1 f.2 {}).1

def hashVerdict (signatures : SignatureState) (f : Bytes × DirEntry) : Verdict :=
  HashMatch.verdict scan.host signatures f.1 f.2

def nameReport (files : List (Bytes × DirEntry)) : CheckResult :=
  fileReport scan SuspiciousFilename.suspiciousFilenameId [] (nameVerdict scan) files

def shortcutReport (files : List (Bytes × DirEntry)) : CheckResult :=
  fileReport scan LnkInspect.lnkInspectId [] (shortcutVerdict scan) files

def hashReport (signatures : SignatureState) (files : List (Bytes × DirEntry)) : CheckResult :=
  fileReport scan HashMatch.hashMatchId
    (cut checkMessageMax (HashMatch.disclaimer scan.host.kind signatures))
    (hashVerdict scan signatures) files

/-- The checks of the report, in order. -/
def reportOf (signatures : SignatureState) (t : Tally) : List CheckResult :=
  [traversalReport t, (Autorun.detectAutorun scan.host scan.device {}).1.reported,
    describeLocationPolicy (nameReport scan t.files),
    describeLocationPolicy (shortcutReport scan t.files),
    describeLocationPolicy
      (hashReport scan (HashMatch.signaturesInUse scan.host signatures) t.files)]

variable {scan}

lemma reported_describe (check : CheckResult) :
    (describeLocationPolicy check).reported = describeLocationPolicy check.reported := by
  unfold describeLocationPolicy CheckResult.reported
  split_ifs <;> rfl

/-- The results of a detector that marks its message and adds its verdict, file by file. By
induction from the last file. -/
lemma foldl_reported (id text : Bytes) (verdict : Bytes × DirEntry → Verdict)
    (mark : CheckResult → CheckResult)
    (hmark : ∀ r, r.message = [] ∨ r.message = text → mark r = { r with message := text })
    (files : List (Bytes × DirEntry)) :
    (files.foldl (fun r f => (verdict f).apply granted (relative scan.device.volumePath f.1)
        (mark r)) (CheckResult.init id)).reported =
      fileReport scan id text verdict files := by
  induction files using List.reverseRecOn with
  | nil => rfl
  | append_singleton files f ih =>
    rw [List.foldl_append, List.foldl_cons, List.foldl_nil]
    generalize files.foldl (fun r f => (verdict f).apply granted
      (relative scan.device.volumePath f.1) (mark r)) (CheckResult.init id) = r at ih ⊢
    have hmessage : r.message = [] ∨ r.message = text := by
      rw [show r.message = r.reported.message from rfl, ih, fileReport]
      split_ifs
      · exact .inl rfl
      · exact .inr rfl
    rw [Verdict.reported_apply, hmark r hmessage]
    have hid := congrArg CheckResult.id ih
    have hstatus := congrArg CheckResult.status ih
    have hreason := congrArg CheckResult.skipReason ih
    have hitems := congrArg (fun c => c.findings.items) ih
    have hsuppressed := congrArg CheckResult.policySuppressed ih
    have hlowered := congrArg CheckResult.policyLowered ih
    simp only [CheckResult.reported, fileReport] at hid hstatus hreason hitems hsuppressed hlowered
    have hbool : ∀ b : Bool, b.toNat = if b = true then 1 else 0 := by decide
    simp only [fileReport, hid, hstatus, hreason, hitems, hsuppressed, hlowered,
      List.filterMap_append, List.countP_append, UInt64.ofNat_add, List.append_eq_nil_iff,
      List.cons_ne_nil, and_false, if_false, List.filterMap_cons, List.filterMap_nil,
      List.countP_cons, List.countP_nil, Nat.zero_add, hbool]
    cases (verdict f).stored (relative scan.device.volumePath f.1) <;> rfl

lemma slotsAfter_reported (signatures : SignatureState) (files : List (Bytes × DirEntry)) :
    (slotsAfter scan signatures files).map (fun slot => slot.result.reported) =
      [nameReport scan files, shortcutReport scan files,
        hashReport scan (HashMatch.signaturesInUse scan.host signatures) files] := by
  have hsilent : ∀ r : CheckResult, r.message = [] ∨ r.message = [] →
      id r = { r with message := [] } := by
    intro r hr
    obtain ⟨ident, status, reason, message, findings, suppressed, lowered⟩ := r
    obtain rfl : message = [] := hr.elim id id
    rfl
  have hname := @foldl_reported scan SuspiciousFilename.suspiciousFilenameId []
    (nameVerdict scan) id hsilent files
  have hshort := @foldl_reported scan LnkInspect.lnkInspectId []
    (shortcutVerdict scan) id hsilent files
  have hhash := @foldl_reported scan HashMatch.hashMatchId
    (cut checkMessageMax (HashMatch.disclaimer scan.host.kind
      (HashMatch.signaturesInUse scan.host signatures)))
    (hashVerdict scan (HashMatch.signaturesInUse scan.host signatures))
    (HashMatch.setDisclaimer scan.host.kind (HashMatch.signaturesInUse scan.host signatures))
    (fun _ _ => rfl) files
  simp only [slotsAfter, List.map_cons, List.map_nil, List.cons.injEq, and_true]
  exact ⟨hname, hshort, hhash⟩

/-- The files of the tally are those the listings show. -/
lemma tallyForest_files {forest : Forest} {dir : Bytes} {depth left : ℕ}
    (hdepth : depth ≤ scanMaxDepth) :
    (tallyForest scan dir depth left forest).files = shownScope scan dir depth left forest := by
  induction forest generalizing dir depth left with
  | nil => simp [tallyForest, shownScope]
  | cons entry answer below rest ihbelow ihrest =>
    cases left with
    | zero => rw [shownScope_zero, tallyForest]
    | succ left =>
      simp only [tallyForest, shownScope, Tally.append_files, ihrest hdepth, Nat.add_sub_cancel,
        Nat.succ_ne_zero, false_or]
      congr 1
      by_cases hreparse : entry.isReparsePoint = true
      · rw [if_pos (.inl hreparse), if_pos hreparse]
      rw [if_neg hreparse]
      by_cases hlong : childPathMax ≤ (joined scan.host.kind dir entry.name).length
      · have hfits : ¬ (depth ≤ scanMaxDepth ∧
            (joined scan.host.kind dir entry.name).length < childPathMax) := by omega
        rw [if_pos (.inr hlong), shownScope_eq_nil (.inl hlong), if_neg hfits, ite_self, ite_self]
      rw [if_neg (by simp [hreparse, hlong])]
      by_cases hdir : entry.isDirectory = true
      · rw [if_pos hdir, if_pos hdir]
        split_ifs
        · rfl
        unfold Tally.ofDirectory
        by_cases hdeep : depth < scanMaxDepth
        · rw [if_pos hdeep]
          cases answer with
          | refused e he => rw [Answer.delivered, shownScope_zero]
          | listed n ending =>
            rw [Tally.append_files, ihbelow hdeep, Tally.ofEnding]
            split_ifs <;> exact List.append_nil _
        · rw [if_neg hdeep, shownScope_eq_nil (.inr (by omega))]
      · rw [if_neg hdir, if_neg hdir, if_pos ⟨hdepth, by omega⟩]

lemma tallyVolume_files (v : Volume) : (tallyVolume scan v).files = volumeShown scan v := by
  unfold tallyVolume volumeShown
  cases v.answer with
  | refused e he => rw [Answer.delivered, shownScope_zero]
  | listed n ending =>
    rw [Tally.append_files, tallyForest_files (Nat.zero_le _), Tally.ofEnding]
    split_ifs <;> exact List.append_nil _

/-- A walk that runs through leaves what the tally tells. -/
lemma walkVolume_matches {v : Volume} (hv : Unchanging scan v)
    (hslots : scan.host.slotsMemory = true) {signatures : SignatureState}
    (hthrough : incomplete (walkVolume scan signatures).1 (walkVolume scan signatures).2 = false) :
    (walkVolume scan signatures).1 = .ok ∧
      Matches scan signatures (tallyVolume scan v) (walkVolume scan signatures).2 := by
  simp only [incomplete, Bool.or_eq_false_iff, decide_eq_false_iff_not, not_not] at hthrough
  obtain ⟨hok, hgoes⟩ := hthrough
  refine ⟨hok, ?_⟩
  have hstart : (initialState scan signatures).stopped = false := rfl
  have hroot := hv.root
  unfold tallyVolume
  cases hanswer : v.answer with
  | refused e he =>
    have hopen : scan.host.dirOpen (initialState scan signatures).world.trace
        scan.device.volumePath = .error e := by rw [hroot, hanswer]; rfl
    simp [walkVolume, walkDir, World.dirOpen, hopen, hstart] at hok
    exact absurd hok he
  | listed n ending =>
    rw [hanswer] at hroot
    have hwalk : walkVolume scan signatures = _ :=
      walkDir_listed scanMaxDepth hstart (hroot (initialState scan signatures).world.trace)
    rw [hwalk] at hgoes ⊢
    have hmatches := walkEntries_matches hv.steady hroot (Nat.zero_add _) hv.below
      ((initial_matches hslots).opened scan.device.volumePath) hstart hgoes
    rwa [Tally.empty_append] at hmatches

/-- What the root shows and what opens does not depend on what happened before. -/
lemma detectAutorun_steady {v : Volume} (hv : Unchanging scan v) (w : World) :
    (Autorun.detectAutorun scan.host scan.device w).1.reported =
      (Autorun.detectAutorun scan.host scan.device {}).1.reported := by
  have hname : ∀ w : World, Autorun.findAutorunName scan.host scan.device.volumePath w =
      ((Autorun.findAutorunName scan.host scan.device.volumePath {}).1,
        w.record (.dirOpen scan.device.volumePath)) := by
    intro w
    refine Prod.ext ?_ (Autorun.findAutorunName_eq scan.host scan.device.volumePath w).2
    unfold Autorun.findAutorunName World.dirOpen
    simp only [hv.root]
    cases v.answer.listing v.top.entries with
    | error e => rfl
    | ok listing =>
      simp only
      split <;> rfl
  unfold Autorun.detectAutorun
  rw [hname w, hname {}]
  simp only
  cases pathJoin scan.host.kind (volumePathMax + nameMax) scan.device.volumePath
      ((Autorun.findAutorunName scan.host scan.device.volumePath {}).1.getD
        Autorun.autorunFilename) with
  | error e => rfl
  | ok path =>
    simp only [World.fileOpen, hv.steady.fileOpen (World.record _ _).trace]
    cases scan.host.fileOpen [] path with
    | error e => cases e <;> rfl
    | ok file =>
      simp only
      split
      · rfl
      · rw [hv.steady.findings, hv.steady.findings]

lemma traversalCheck_matches {signatures : SignatureState} {t : Tally} {st : WalkState}
    (h : Matches scan signatures t st) (hgoes : st.stopped = false) :
    (traversalCheck .ok st).reported = traversalReport t := by
  simp only [WalkState.stopped, Bool.or_eq_false_iff] at hgoes
  have hbytes : st.byteCount = UInt64.ofNat (totalBytes t.files) := by
    rw [← UInt64.toNat_inj, h.byteCount, UInt64.toNat_ofNat']
  unfold traversalReport traversalCheck traversalMessage
  simp only [hgoes.1, hgoes.2, h.fileCount, hbytes, h.skipped, h.excluded]

lemma through_of_completed {signatures : SignatureState}
    (hcompleted : (scannerScan scan signatures).1.status = .completed) :
    incomplete (walkVolume scan signatures).1 (walkVolume scan signatures).2 = false := by
  by_contra hno
  simp [scannerScan, hno] at hcompleted

lemma detectorChecks_through {signatures : SignatureState}
    (hthrough : incomplete (walkVolume scan signatures).1 (walkVolume scan signatures).2 = false) :
    detectorChecks scan (walkVolume scan signatures).1 (walkVolume scan signatures).2 =
      (let autorun := Autorun.detectAutorun scan.host scan.device
        ((walkVolume scan signatures).2.world.record (.run Autorun.autorunId))
      (autorun.1 ::
        (walkVolume scan signatures).2.slots.map fun slot => describeLocationPolicy slot.result,
        autorun.2)) := by
  rw [detectorChecks, hthrough]
  rfl

/-- The checks of a scan that ran through are those of the tally. -/
lemma checks_reported {v : Volume} (hv : Unchanging scan v) (hslots : scan.host.slotsMemory = true)
    (hfirst : scan.host.checkMemory 0 = true) (hfifth : scan.host.checkMemory 4 = true)
    {signatures : SignatureState}
    (hcompleted : (scannerScan scan signatures).1.status = .completed) :
    (scannerScan scan signatures).1.checks.items.map CheckResult.reported =
      reportOf scan signatures (tallyVolume scan v) := by
  have hthrough := through_of_completed hcompleted
  obtain ⟨hok, hmatches⟩ := walkVolume_matches hv hslots hthrough
  have hgoes : (walkVolume scan signatures).2.stopped = false :=
    (Bool.or_eq_false_iff.mp hthrough).2
  have hdescribed : (slotsAfter scan signatures (tallyVolume scan v).files).map
        (fun slot => (describeLocationPolicy slot.result).reported) =
      ((slotsAfter scan signatures (tallyVolume scan v).files).map
        fun slot => slot.result.reported).map describeLocationPolicy := by
    rw [List.map_map]
    exact List.map_congr_left fun slot _ => reported_describe slot.result
  rw [(scannerScan_items_eq_iff scan hslots).mpr ⟨hfirst, hfifth⟩, pushedChecks,
    detectorChecks_through hthrough, hmatches.slots]
  simp only [List.map_cons, List.map_map, Function.comp_def, detectAutorun_steady hv]
  rw [hdescribed, slotsAfter_reported, hok, traversalCheck_matches hmatches hgoes]
  rfl

/-- A completed scan of a volume that stays as it is reports what a plain reading of the volume
says, check by check and finding by finding. -/
theorem scannerScan_reports {v : Volume} (hv : Unchanging scan v)
    (hslots : scan.host.slotsMemory = true) (hfirst : scan.host.checkMemory 0 = true)
    (hfifth : scan.host.checkMemory 4 = true) {signatures : SignatureState}
    (hcompleted : (scannerScan scan signatures).1.status = .completed) :
    (scannerScan scan signatures).1.checks.items.map CheckResult.reported =
        reportOf scan signatures (tallyVolume scan v) ∧
      (scannerScan scan signatures).1.pathsSkipped = (tallyVolume scan v).skipped ∧
      (scannerScan scan signatures).1.pathsExcluded = (tallyVolume scan v).excluded ∧
      (tallyVolume scan v).files = volumeShown scan v ∧
      (scannerScan scan signatures).2.signatures =
        signaturesAfter scan signatures (tallyVolume scan v).files := by
  have hthrough := through_of_completed hcompleted
  obtain ⟨_, hmatches⟩ := walkVolume_matches hv hslots hthrough
  refine ⟨checks_reported hv hslots hfirst hfifth hcompleted, hmatches.skipped,
    hmatches.excluded, tallyVolume_files v, ?_⟩
  change (detectorChecks scan _ _).2.signatures = _
  rw [detectorChecks_through hthrough]
  exact (autorun_keeps_signatures _ _ _).trans hmatches.signatures

/-- Such a scan completes unless it is called off. -/
lemma completed_of_uncancelled {v : Volume} (hv : Unchanging scan v) {n : ℕ} {ending : Status}
    (hlisted : v.answer = .listed n ending) (hcancel : ∀ n, scan.cancel n = false)
    (signatures : SignatureState) :
    (scannerScan scan signatures).1.status = .completed := by
  have hhalts := @walkVolume_halts scan signatures
  have hroot := hv.root
  rw [hlisted] at hroot
  have huncancelled : (walkVolume scan signatures).2.cancelled = false := by
    by_contra hcancelled
    obtain ⟨st, _, _, htrue, _⟩ := hhalts.cancelled (by simpa using hcancelled)
    rw [hcancel] at htrue
    cases htrue
  have hpresent : (walkVolume scan signatures).2.deviceRemoved = false := by
    by_contra hremoved
    obtain ⟨st, _, _, ⟨e, hopen⟩, _⟩ := hhalts.removed (by simpa using hremoved)
    rw [hroot] at hopen
    cases hopen
  have hok : (walkVolume scan signatures).1 = .ok := by
    have hwalk : walkVolume scan signatures = _ :=
      walkDir_listed scanMaxDepth rfl (hroot (initialState scan signatures).world.trace)
    rw [hwalk]
    exact walkEntries_ok (fun path st => walkDir_ok le_rfl path st) _ _ _
  simp [scannerScan, incomplete, hok, WalkState.stopped, huncancelled, hpresent]

/-- A disguised program, and a directory that does not open. -/
def lockedVolume : Volume where
  answer := .listed 2 .notFound
  top := .cons { name := ascii "a.pdf.exe" } (.listed 0 .notFound) .nil
    (.cons { name := ascii "d", isDirectory := true } (.refused .accessDenied (by decide)) .nil
      .nil)

def lockedScan : Scan where
  host := { ScanHost.blank with
    dirOpen := fun _ path =>
      if path = ascii "/v" then lockedVolume.answer.listing lockedVolume.top.entries
      else .error .accessDenied
    dirOpen_refused := by
      intro _ path e h
      by_cases hroot : path = ascii "/v"
      · rw [if_pos hroot] at h
        cases h
      · rw [if_neg hroot] at h
        obtain rfl := Except.error.inj h
        decide }
  device := { volumePath := ascii "/v" }

lemma locked_unchanging : Unchanging lockedScan lockedVolume where
  root _ := rfl
  below := by
    refine ⟨fun hdir => ?_, fun _ _ => ⟨fun _ => ?_, trivial⟩, trivial⟩
    · cases hdir
    · have hbelow : joined .posix (ascii "/v") (ascii "d") ≠ ascii "/v" := by decide
      change (if joined .posix (ascii "/v") (ascii "d") = ascii "/v" then
        lockedVolume.answer.listing lockedVolume.top.entries else .error .accessDenied) = _
      rw [if_neg hbelow]
      rfl
  steady := ⟨fun _ _ => rfl, fun _ => rfl, fun _ => rfl, fun _ => rfl, fun _ _ => rfl⟩

theorem locked_reports :
    (scannerScan lockedScan).1.checks.items.map CheckResult.reported =
        reportOf lockedScan {} (tallyVolume lockedScan lockedVolume) ∧
      (scannerScan lockedScan).1.pathsSkipped = 1 := by
  have h := scannerScan_reports locked_unchanging rfl rfl rfl
    (completed_of_uncancelled locked_unchanging rfl (fun _ => rfl) {})
  exact ⟨h.1, h.2.1.trans (by decide)⟩

end Scanner
end UsbSentinel
