import UsbSentinel.FindingText
import UsbSentinel.PosixNames

/-! Whether what a scan stores is UTF-8. Names are made so where a directory is listed, but a path
can be cut inside a character, and the target of a shortcut is copied as it stands. -/
namespace UsbSentinel
open ByteString Utf8 UsbSentinel.Location

namespace Scanner

/-- The listings give names as the POSIX boundary makes them, whatever the bytes of the media. -/
def SanitizedNames (host : ScanHost) : Prop :=
  ∀ t dir listing, host.dirOpen t dir = .ok listing →
    ∀ entry ∈ listing.entries, ∃ raw, entry.name = Posix.sanitizeUtf8 raw nameMax

variable {scan : Scan}

/-- The path goes on from the volume's in UTF-8. -/
def BelowVolume (scan : Scan) (path : Bytes) : Prop :=
  ∃ rest, path = scan.device.volumePath ++ rest ∧ Valid rest

lemma closed_below (hnames : SanitizedNames scan.host) :
    Closed scan (BelowVolume scan) fun path _ => BelowVolume scan path where
  below := by
    intro t dir listing entry path hdir hopen hentry _ hpath
    obtain ⟨rest, rfl, hrest⟩ := hdir
    obtain ⟨raw, hraw⟩ := hnames t _ listing hopen entry hentry
    have hname : Valid entry.name := hraw ▸ Posix.sanitizeUtf8_valid raw nameMax
    have hsep : Ascii [scan.host.kind.sep] := by
      cases scan.host.kind <;> decide
    have hchild : BelowVolume scan path := by
      obtain ⟨rfl, _⟩ := Path.pathJoin_eq_ok.mp hpath
      rw [Path.joined_eq_stem_append]
      unfold Path.stem
      split
      · exact ⟨rest ++ entry.name, List.append_assoc .., hrest.append hname⟩
      · refine ⟨rest ++ [scan.host.kind.sep] ++ entry.name, by simp only [List.append_assoc], ?_⟩
        exact (hrest.append (valid_of_ascii hsep)).append hname
    split
    · exact hchild
    · exact hchild

lemma relative_valid {path : Bytes} (h : BelowVolume scan path) :
    Valid (relative scan.device.volumePath path) := by
  obtain ⟨rest, rfl, hrest⟩ := h
  unfold relative
  split
  · rw [List.drop_left]
    exact hrest
  · next hno =>
    have hempty : scan.device.volumePath = [] := by
      by_contra hne
      exact hno ⟨hne, List.prefix_append _ _⟩
    rw [hempty]
    exact hrest

/-- A detector can have something to say about the file: by its name, as a shortcut, or by a
size that a signature has. -/
def Reportable (scan : Scan) (signatures : SignatureState) (path : Bytes) (entry : DirEntry) :
    Prop :=
  0 < (SuspiciousFilename.reasons (policyApplies scan.device)
      (SuspiciousFilename.kindFor scan.device (relative scan.device.volumePath path))
      entry).kept.length ∨
    LnkInspect.hasLnkExtension entry.name = true ∨
    HashMatch.sizeCanMatch signatures entry.sizeBytes = true

lemma Says.reportable {signatures : SignatureState} {path : Bytes} {entry : DirEntry}
    {message : Bytes} (h : Says scan signatures path entry message) :
    Reportable scan signatures path entry := by
  cases h with
  | name hfinding =>
    refine .inl ?_
    by_contra hnone
    unfold SuspiciousFilename.verdict at hfinding
    rw [if_neg hnone] at hfinding
    cases hfinding
  | shortcut hfinding => exact .inr (.inl (LnkInspect.examine_shortcut hfinding))
  | listed _ hsize _ => exact .inr (.inr hsize)

/-- What the report of a file needs to be UTF-8: its path, if it is cut, is not cut inside a
character, and the target that it has as a shortcut is UTF-8 as far as it is shown. -/
structure Showable (scan : Scan) (signatures : SignatureState) (path : Bytes)
    (entry : DirEntry) : Prop where
  whole : Reportable scan signatures path entry →
    findingPathMax ≤ (relative scan.device.volumePath path).length →
      Valid (cut findingPathMax (relative scan.device.volumePath path))
  target : LnkInspect.hasLnkExtension entry.name = true →
    ∀ s, LnkInspect.Reported scan.host path s →
      Valid (s.localBasePath.take LnkInspect.messageTargetMax)

lemma Says.valid {signatures : SignatureState} {path : Bytes} {entry : DirEntry}
    {message : Bytes} (h : Says scan signatures path entry message)
    (hhex : ∀ content, Ascii (scan.host.sha256Hex content))
    (hloaded : HashMatch.Loaded signatures) (hnames : HashMatch.NamesValid signatures)
    (hfile : Showable scan signatures path entry) : Valid (cut findingMessageMax message) := by
  cases h with
  | name hfinding =>
    exact valid_of_ascii (cut_ascii (SuspiciousFilename.verdict_ascii hfinding) _)
  | shortcut hfinding =>
    exact LnkInspect.examine_valid hhex hfinding
      (hfile.target (LnkInspect.examine_shortcut hfinding))
  | listed _ _ hlookup =>
    obtain ⟨hlabel, hfits⟩ := HashMatch.label_valid hloaded hnames hlookup
    exact HashMatch.matchMessage_valid hlabel hfits (hhex _)

structure FindingValid (finding : Finding) : Prop where
  path : Valid finding.path
  message : Valid finding.message

lemma About.valid {signatures : SignatureState} {path : Bytes} {entry : DirEntry}
    {finding : Finding} (h : About scan signatures path entry finding)
    (hhex : ∀ content, Ascii (scan.host.sha256Hex content))
    (hloaded : HashMatch.Loaded signatures) (hnames : HashMatch.NamesValid signatures)
    (hbelow : BelowVolume scan path) (hfile : Showable scan signatures path entry) :
    FindingValid finding := by
  obtain ⟨message, hsays, hmessage⟩ := h.message_eq
  refine ⟨?_, ?_⟩
  · rw [h.path_eq]
    by_cases hlong : findingPathMax ≤ (relative scan.device.volumePath path).length
    · exact hfile.whole hsays.reportable hlong
    · rw [cut_eq_self (by omega)]
      exact relative_valid hbelow
  · rw [hmessage]
    exact hsays.valid hhex hloaded hnames hfile

/-- What a check says beside its findings. -/
structure RemarksValid (check : CheckResult) : Prop where
  id : Valid check.id
  message : Valid check.message
  skipReason : check.status = .skipped → Valid check.skipReason

lemma init_valid {id : Bytes} (hid : Ascii id) : RemarksValid (CheckResult.init id) :=
  ⟨valid_of_ascii (cut_ascii hid _), .nil, fun h => nomatch h⟩

lemma RemarksValid.setSkipped {check : CheckResult} (h : RemarksValid check) {reason : Bytes}
    (hreason : Ascii reason) : RemarksValid (check.setSkipped reason) :=
  ⟨h.id, h.message, fun _ => valid_of_ascii (cut_ascii hreason _)⟩

lemma RemarksValid.setFailed {check : CheckResult} (h : RemarksValid check) {message : Bytes}
    (hmessage : Ascii message) : RemarksValid (check.setFailed message) :=
  ⟨h.id, valid_of_ascii (cut_ascii hmessage _), fun h => nomatch h⟩

lemma statusString_ascii (status : Status) : Ascii (statusString status) := by
  cases status <;> decide

lemma pickName_ascii (opened : Except Status Listing) : Ascii (Autorun.pickName opened) := by
  have hfilename : Ascii Autorun.autorunFilename := by decide
  unfold Autorun.pickName
  cases opened with
  | error e => exact hfilename
  | ok listing =>
    simp only
    split
    · exact hfilename
    · next e hfind =>
      have hentry := List.find?_some hfind
      simp only [Autorun.isAutorunEntry, Bool.and_eq_true] at hentry
      split
      · exact equalsCi_ascii hentry.2 hfilename
      · exact hfilename

structure AutorunValid (check : CheckResult) : Prop where
  remarks : RemarksValid check
  findings : ∀ finding ∈ check.findings.items, FindingValid finding

lemma autorun_finding_valid (grow : ℕ → Bool) {name : Bytes} (hname : Ascii name)
    (content : Bytes) :
    AutorunValid (Autorun.finding grow (CheckResult.init Autorun.autorunId) name content) := by
  have hid : Ascii Autorun.autorunId := by decide
  have hadded : ∀ {severity : Severity} {message : Bytes}, Ascii message →
      AutorunValid ((CheckResult.init Autorun.autorunId).addFinding grow severity name message) := by
    intro severity message hmessage
    refine ⟨⟨(init_valid hid).id, .nil, fun h => nomatch h⟩, fun finding hfinding => ?_⟩
    rcases CheckResult.mem_addFinding hfinding with hnone | rfl
    · cases hnone
    · exact ⟨valid_of_ascii (cut_ascii hname _), valid_of_ascii (cut_ascii hmessage _)⟩
  have hlaunch : Ascii (ascii "autorun.inf present and specifies a launch command (") :=
    .ofList (by decide)
  have hopen : Ascii (ascii "open=") := .ofList (by decide)
  have hexecute : Ascii (ascii "shellexecute=") := .ofList (by decide)
  have hclose : Ascii (ascii ")") := .ofList (by decide)
  have hpresent : Ascii (ascii "autorun.inf present (") := .ofList (by decide)
  have hnothing : Ascii (ascii " bytes), no launch command found") := .ofList (by decide)
  unfold Autorun.finding
  simp only
  split
  · refine hadded ((hlaunch.append ?_).append hclose)
    split
    · exact hopen
    · exact hexecute
  · exact hadded ((hpresent.append (Json.decimal_ascii _)).append hnothing)

lemma detectAutorun_valid (host : ScanHost) (device : Device) (w : World) :
    AutorunValid (Autorun.detectAutorun host device w).1 := by
  have hid : Ascii Autorun.autorunId := by decide
  have htooLong : Ascii (ascii "path too long") := .ofList (by decide)
  have hname : Ascii ((Autorun.findAutorunName host device.volumePath w).1.getD
      Autorun.autorunFilename) := by
    rw [(Autorun.findAutorunName_eq host device.volumePath w).1]
    exact pickName_ascii _
  have hfailed : ∀ {message : Bytes}, Ascii message →
      AutorunValid ((CheckResult.init Autorun.autorunId).setFailed message) := by
    intro message hmessage
    refine ⟨(init_valid hid).setFailed hmessage, fun finding hfinding => ?_⟩
    cases hfinding
  unfold Autorun.detectAutorun
  simp only
  split
  · exact hfailed htooLong
  · split
    · refine ⟨init_valid hid, fun finding hfinding => ?_⟩
      cases hfinding
    · exact hfailed (statusString_ascii _)
    · split
      · exact hfailed (statusString_ascii _)
      · exact autorun_finding_valid _ hname _

lemma describeLocationPolicy_findings (check : CheckResult) :
    (describeLocationPolicy check).findings = check.findings := by
  unfold describeLocationPolicy
  split_ifs <;> rfl

lemma RemarksValid.describeLocationPolicy {check : CheckResult} (h : RemarksValid check) :
    RemarksValid (describeLocationPolicy check) := by
  have hsemicolon : Ascii (if check.message ≠ [] then ascii "; " else []) := by
    split <;> decide
  have hpolicy : Ascii (ascii "internal-drive location policy: ") := .ofList (by decide)
  have hsuppressed : Ascii (ascii " match(es) in OS-generated or dependency locations not reported, ") :=
    .ofList (by decide)
  have hlowered : Ascii (ascii " reported at lowered severity") := .ofList (by decide)
  unfold Scanner.describeLocationPolicy
  split
  · exact h
  · split
    · exact h
    · refine ⟨h.id, h.message.append (valid_of_ascii (cut_ascii ?_ _)), h.skipReason⟩
      exact ((((hsemicolon.append hpolicy).append (Json.decimal_ascii _)).append
        hsuppressed).append (Json.decimal_ascii _)).append hlowered

lemma appendPart_ascii {part : Bytes} (hpart : Ascii part) {message : Bytes × ℕ}
    (h : Ascii message.1) : Ascii (appendPart part message).1 := by
  unfold appendPart
  split
  · exact h.append (cut_ascii hpart _)
  · exact h

lemma traversalMessage_ascii (st : WalkState) : Ascii (traversalMessage st) := by
  have hcolon : Ascii (ascii ": ") := .ofList (by decide)
  have hfiles : Ascii (ascii " file(s), ") := .ofList (by decide)
  have hbytes : Ascii (ascii " byte(s)") := .ofList (by decide)
  have hcomma : Ascii (ascii ", ") := .ofList (by decide)
  have hskipped : Ascii (ascii " location(s) skipped (access denied or unavailable)") :=
    .ofList (by decide)
  have hexcluded : Ascii (ascii " location(s) excluded (USB Sentinel test fixtures)") :=
    .ofList (by decide)
  have houtcome : Ascii (if st.cancelled then ascii "cancelled"
      else if st.deviceRemoved then ascii "device disconnected" else ascii "completed") := by
    split_ifs <;> decide
  have hcounts := ((((houtcome.append hcolon).append (Json.decimal_ascii st.fileCount)).append
    hfiles).append (Json.decimal_ascii st.byteCount.toNat)).append hbytes
  have hifSkipped : ∀ {message : Bytes × ℕ}, Ascii message.1 →
      Ascii (if st.pathsSkipped > 0 then
        appendPart (ascii ", " ++ decimal st.pathsSkipped ++
          ascii " location(s) skipped (access denied or unavailable)") message
        else message).1 := by
    intro message hmessage
    split
    · exact appendPart_ascii ((hcomma.append (Json.decimal_ascii _)).append hskipped) hmessage
    · exact hmessage
  unfold traversalMessage
  simp only
  split
  · exact appendPart_ascii ((hcomma.append (Json.decimal_ascii _)).append hexcluded)
      (hifSkipped (cut_ascii hcounts _))
  · exact hifSkipped (cut_ascii hcounts _)

lemma traversalCheck_valid (status : Status) (st : WalkState) :
    RemarksValid (traversalCheck status st) ∧ (traversalCheck status st).findings.items = [] := by
  have hid : Ascii traversalId := by decide
  unfold traversalCheck
  simp only
  split
  · exact ⟨⟨(init_valid hid).id, valid_of_ascii (traversalMessage_ascii st),
      fun h => nomatch h⟩, rfl⟩
  · exact ⟨(init_valid hid).setFailed (statusString_ascii status), rfl⟩

lemma skipReason_ascii (status : Status) (st : WalkState) : Ascii (skipReason status st) := by
  unfold skipReason
  split_ifs <;> decide

/-- Where the checks of a result come from. -/
lemma mem_pushedChecks {signatures : SignatureState} {check : CheckResult}
    (h : check ∈ pushedChecks scan signatures) :
    check = traversalCheck (walkVolume scan signatures).1 (walkVolume scan signatures).2 ∨
      (∃ d ∈ Registry.detectors, check = (CheckResult.init d.id).setSkipped
        (skipReason (walkVolume scan signatures).1 (walkVolume scan signatures).2)) ∨
      check = (Autorun.detectAutorun scan.host scan.device
        ((walkVolume scan signatures).2.world.record (.run Autorun.autorunId))).1 ∨
      ∃ slot ∈ (walkVolume scan signatures).2.slots,
        check = describeLocationPolicy slot.result := by
  rcases List.mem_cons.mp h with h | h
  · exact .inl h
  refine .inr ?_
  unfold detectorChecks at h
  split at h
  · refine .inl ?_
    rw [skipWholeCheckDetectors_eq] at h
    rcases List.mem_append.mp h with h | h
    · exact ⟨Registry.autorun, by simp [Registry.detectors], List.mem_singleton.mp h⟩
    · obtain ⟨slot, hslot, rfl⟩ := List.mem_map.mp h
      exact ⟨slot.detector, (walkVolume_slot_results scan signatures slot hslot).1, rfl⟩
  · refine .inr ?_
    simp only [runWholeCheckDetectors_eq] at h
    rcases List.mem_append.mp h with h | h
    · exact .inl (List.mem_singleton.mp h)
    · obtain ⟨slot, hslot, rfl⟩ := List.mem_map.mp h
      exact .inr ⟨slot, hslot, rfl⟩

lemma scannerScan_world (signatures : SignatureState) :
    (scannerScan scan signatures).2.signatures =
        (walkVolume scan signatures).2.world.signatures ∧
      countedFiles (scannerScan scan signatures).2.trace =
        countedFiles (walkVolume scan signatures).2.world.trace := by
  refine ⟨scannerScan_signatures signatures, ?_⟩
  cases hincomplete : incomplete (walkVolume scan signatures).1 (walkVolume scan signatures).2 with
  | true => simp [scannerScan, detectorChecks, hincomplete]
  | false =>
    have hworld : (scannerScan scan signatures).2 =
        (Autorun.detectAutorun scan.host scan.device
          ((walkVolume scan signatures).2.world.record (.run Autorun.autorunId))).2 := by
      simp [scannerScan, detectorChecks, hincomplete, runWholeCheckDetectors_eq]
    rw [hworld]
    exact (detectAutorun_events scan (walkVolume scan signatures).2.world []).2.1

/-- Every file that the scan counted can be shown. -/
def Shows (scan : Scan) (signatures : SignatureState) : Prop :=
  ∀ f ∈ countedFiles (scannerScan scan signatures).2.trace,
    Showable scan (scannerScan scan signatures).2.signatures f.1 f.2

section Results
variable (hnames : SanitizedNames scan.host)
  (hhex : ∀ content, Ascii (scan.host.sha256Hex content)) {signatures : SignatureState}
  (hloaded : HashMatch.Loaded signatures)
  (hlabels : HashMatch.NamesValid (scannerScan scan signatures).2.signatures)
  (hshows : Shows scan signatures)
include hnames hhex hloaded hlabels hshows

lemma slot_findings_valid :
    ∀ slot ∈ (walkVolume scan signatures).2.slots, ∀ finding ∈ slot.result.findings.items,
      FindingValid finding := by
  obtain ⟨hsignatures, hcounted⟩ := @scannerScan_world scan signatures
  rw [hsignatures] at hlabels
  unfold Shows at hshows
  rw [hsignatures, hcounted] at hshows
  have hvolume : BelowVolume scan scan.device.volumePath := ⟨[], by simp, .nil⟩
  have hbelow := (walkVolume_steps (closed_below hnames) hvolume signatures).countedHold
    (initialState_registered signatures) (fun f hf => nomatch hf)
  intro slot hslot finding hfinding
  obtain ⟨path, entry, hmem, habout⟩ :=
    (walkVolume_sourced signatures).findings slot hslot finding hfinding
  exact habout.valid hhex (walkVolume_loaded hloaded) hlabels (hbelow _ hmem) (hshows _ hmem)

theorem scan_findings_valid :
    ∀ check ∈ (scannerScan scan signatures).1.checks.items,
      ∀ finding ∈ check.findings.items, FindingValid finding := by
  intro check hcheck finding hfinding
  have hpushed := (scannerScan_sublist scan signatures).subset hcheck
  obtain rfl | ⟨d, _, rfl⟩ | rfl | ⟨slot, hslot, rfl⟩ := mem_pushedChecks hpushed
  · rw [(traversalCheck_valid _ _).2] at hfinding
    cases hfinding
  · cases hfinding
  · exact (detectAutorun_valid _ _ _).findings finding hfinding
  · rw [describeLocationPolicy_findings] at hfinding
    exact slot_findings_valid hnames hhex hloaded hlabels hshows slot hslot finding hfinding

end Results

lemma detectorId_ascii : ∀ d ∈ Registry.detectors, Ascii d.id := by
  intro d hd
  simp only [Registry.detectors, List.mem_cons, List.not_mem_nil, or_false] at hd
  rcases hd with rfl | rfl | rfl | rfl
  · exact (by decide : Ascii Autorun.autorunId)
  · exact (by decide : Ascii SuspiciousFilename.suspiciousFilenameId)
  · exact (by decide : Ascii LnkInspect.lnkInspectId)
  · exact (by decide : Ascii HashMatch.hashMatchId)

lemma slot_remarks_valid {signatures : SignatureState}
    (hfile : HashMatch.FileNameValid scan.host.kind (scannerScan scan signatures).2.signatures) :
    ∀ slot ∈ (walkVolume scan signatures).2.slots, RemarksValid slot.result := by
  rw [(scannerScan_world signatures).1] at hfile
  have hdisclaimed := @walkVolume_disclaimed scan signatures
  have hsourced := @walkVolume_sourced scan signatures
  intro slot hslot
  obtain ⟨hregistered, hid, hran⟩ := walkVolume_slot_results scan signatures slot hslot
  refine ⟨?_, ?_, ?_⟩
  · rw [hid]
    exact valid_of_ascii (cut_ascii (detectorId_ascii _ hregistered) _)
  · by_cases hhash : slot.detector = Registry.hashMatch
    · by_cases hnone : countedFiles (walkVolume scan signatures).2.world.trace = []
      · rw [hdisclaimed.silent hnone slot hslot hhash]
        exact .nil
      · rw [(hdisclaimed.carried hnone slot hslot hhash).2]
        exact (HashMatch.disclaimer_valid_iff _ _).mpr hfile
    · rw [hsourced.message slot hslot hhash]
      exact .nil
  · rw [hran]
    exact fun h => nomatch h

theorem scan_remarks_valid {signatures : SignatureState}
    (hfile : HashMatch.FileNameValid scan.host.kind (scannerScan scan signatures).2.signatures) :
    ∀ check ∈ (scannerScan scan signatures).1.checks.items, RemarksValid check := by
  intro check hcheck
  have hpushed := (scannerScan_sublist scan signatures).subset hcheck
  obtain rfl | ⟨d, hd, rfl⟩ | rfl | ⟨slot, hslot, rfl⟩ := mem_pushedChecks hpushed
  · exact (traversalCheck_valid _ _).1
  · exact (init_valid (detectorId_ascii d hd)).setSkipped (skipReason_ascii _ _)
  · exact (detectAutorun_valid _ _ _).remarks
  · exact (slot_remarks_valid hfile slot hslot).describeLocationPolicy

end Scanner

end UsbSentinel
