import UsbSentinel.Report
import UsbSentinel.ScanUtf8

/-! Whether the text of a report is UTF-8: it is when what the scan stored is. -/
namespace UsbSentinel
open ByteString Utf8
open Json (AllStrings AllStringsItems AllStringsMembers Value allStringsItems allStringsMembers)

namespace Report

/-- The fields of a device that its report shows, in UTF-8. -/
structure DeviceValid (device : Device) : Prop where
  volumePath : Valid device.volumePath
  volumePath_fits : device.volumePath.length < volumePathMax
  serial : Valid device.serial
  usbVid : Valid device.usbVid
  usbPid : Valid device.usbPid
  vendor : Valid device.vendor
  product : Valid device.product
  filesystem : Valid device.filesystem
  mountPoints : ∀ mountPoint ∈ device.mountPoints, Valid mountPoint

lemma deviceIdentity_valid {device : Device} (h : DeviceValid device) {cap : ℕ}
    {identity : Bytes} (hidentity : deviceIdentity device cap = .ok identity) :
    Valid identity := by
  have husb : Valid (ascii "usb:") := valid_of_ascii (by decide)
  have hdash : Valid (ascii "-") := valid_of_ascii (by decide)
  have hcolon : Valid (ascii ":") := valid_of_ascii (by decide)
  have hserial : Valid (ascii "serial:") := valid_of_ascii (by decide)
  have hvolume : Valid (ascii "volume:") := valid_of_ascii (by decide)
  unfold deviceIdentity at hidentity
  simp only at hidentity
  split_ifs at hidentity
  all_goals obtain rfl := Except.ok.inj hidentity
  · exact ((((husb.append h.usbVid).append hdash).append h.usbPid).append hcolon).append h.serial
  · exact ((husb.append h.usbVid).append hdash).append h.usbPid
  · exact hserial.append h.serial
  · exact hvolume.append h.volumePath

lemma identityOf_valid {device : Device} (h : DeviceValid device) :
    Valid (identityOf device) ∧ (identityOf device).length < identityMax := by
  unfold identityOf
  cases hidentity : deviceIdentity device identityMax with
  | error e =>
    refine ⟨.nil, ?_⟩
    change 0 < identityMax
    decide
  | ok identity =>
    refine ⟨deviceIdentity_valid h hidentity, ?_⟩
    change identity.length < identityMax
    unfold deviceIdentity at hidentity
    simp only at hidentity
    split_ifs at hidentity
    all_goals
      obtain rfl := Except.ok.inj hidentity
      omega

/-- The volume's identity fits its buffer. -/
lemma volumeIdentity_valid {device : Device} (h : DeviceValid device) :
    Valid (volumeIdentity device) := by
  have hslash : Valid (ascii "/") := valid_of_ascii (by decide)
  have hlength : (ascii "/").length = 1 := ascii_length _
  obtain ⟨hidentity, hfits⟩ := identityOf_valid h
  have hvolume := h.volumePath_fits
  unfold volumeIdentity
  rw [cut_eq_self]
  · exact (hidentity.append hslash).append h.volumePath
  · rw [List.length_append, List.length_append, hlength]
    omega

/-- The fields of a result that do not come from its scan, in UTF-8. -/
structure FieldsValid (result : Result) : Prop where
  scanId : Valid result.scanId
  startedAt : Valid result.startedAt
  finishedAt : Valid result.finishedAt
  device : DeviceValid result.device

lemma findingTree_valid {finding : Finding} (h : Scanner.FindingValid finding) :
    AllStrings Valid (findingTree finding) := by
  have hseverity : Ascii (severityString finding.severity) := by
    cases finding.severity <;> decide
  have hnames : ∀ name ∈ ["severity", "path", "message"].map ascii, Ascii name := by
    decide
  exact ⟨valid_of_ascii (hnames _ (by simp)), valid_of_ascii hseverity,
    valid_of_ascii (hnames _ (by simp)), h.path,
    valid_of_ascii (hnames _ (by simp)), h.message, trivial⟩

lemma remark_valid {check : CheckResult} (h : Scanner.RemarksValid check) :
    ∀ m ∈ remark check, Valid (ascii m.1) ∧ Valid m.2 := by
  have hmessage : Ascii (ascii "message") := .ofList (by decide)
  have hreason : Ascii (ascii "skip_reason") := .ofList (by decide)
  intro m hm
  unfold remark at hm
  cases hstatus : check.status with
  | ran =>
    rw [hstatus] at hm
    simp only at hm
    split at hm
    · rw [List.mem_singleton.mp hm]
      exact ⟨valid_of_ascii hmessage, h.message⟩
    · cases hm
  | skipped =>
    rw [hstatus] at hm
    rw [List.mem_singleton.mp hm]
    exact ⟨valid_of_ascii hreason, h.skipReason hstatus⟩
  | failed =>
    rw [hstatus] at hm
    rw [List.mem_singleton.mp hm]
    exact ⟨valid_of_ascii hmessage, h.message⟩

lemma checkTree_valid {check : CheckResult} (hremarks : Scanner.RemarksValid check)
    (hfindings : ∀ finding ∈ check.findings.items, Scanner.FindingValid finding) :
    AllStrings Valid (checkTree check) := by
  have hnames : ∀ name ∈ ["id", "status", "findings"].map ascii, Ascii name := by
    decide
  have hstatus : Ascii (checkStatusString check.status) := by
    cases check.status <;> decide
  apply allStringsMembers
  intro m hm
  rcases List.mem_append.mp hm with hm | hm
  · rcases List.mem_append.mp hm with hm | hm
    · rcases List.mem_cons.mp hm with rfl | hm
      · exact ⟨valid_of_ascii (hnames _ (by simp [member])), hremarks.id⟩
      · rw [List.mem_singleton.mp hm]
        exact ⟨valid_of_ascii (hnames _ (by simp [member])), valid_of_ascii hstatus⟩
    · obtain ⟨t, ht, rfl⟩ := List.mem_map.mp hm
      exact remark_valid hremarks t ht
  · rw [List.mem_singleton.mp hm]
    refine ⟨valid_of_ascii (hnames _ (by simp)), allStringsItems fun v hv => ?_⟩
    obtain ⟨finding, hfinding, rfl⟩ := List.mem_map.mp hv
    exact findingTree_valid (hfindings finding hfinding)

lemma deviceTree_valid {device : Device} (h : DeviceValid device) :
    AllStrings Valid (deviceTree device) := by
  have hnames : ∀ name ∈ ["identity", "volume_identity", "bus_type", "vendor", "product",
      "volume_path", "mount_points", "filesystem", "media_present", "capacity_bytes",
      "free_bytes"].map ascii, Ascii name := by
    decide
  have hname := fun name hname => valid_of_ascii (hnames name hname)
  have hbus : Ascii (busTypeString device.busType) := by
    cases device.busType <;> decide
  have hmounts : AllStringsItems Valid (device.mountPoints.map (Value.string : Bytes → Value ℤ)) := by
    apply allStringsItems
    intro v hv
    obtain ⟨mountPoint, hmount, rfl⟩ := List.mem_map.mp hv
    exact h.mountPoints mountPoint hmount
  exact ⟨hname _ (by simp), (identityOf_valid h).1, hname _ (by simp), volumeIdentity_valid h,
    hname _ (by simp), valid_of_ascii hbus, hname _ (by simp), h.vendor,
    hname _ (by simp), h.product, hname _ (by simp), h.volumePath,
    hname _ (by simp), hmounts, hname _ (by simp), h.filesystem,
    hname _ (by simp), trivial, hname _ (by simp), trivial, hname _ (by simp), trivial, trivial⟩

lemma reportTree_valid {result : Result} (hfields : FieldsValid result)
    (hremarks : ∀ check ∈ result.checks.items, Scanner.RemarksValid check)
    (hfindings : ∀ check ∈ result.checks.items, ∀ finding ∈ check.findings.items,
      Scanner.FindingValid finding) : AllStrings Valid (reportTree result) := by
  have hnames : ∀ name ∈ ["schema_version", "tool", "name", "version", "scan", "scan_id",
      "started_at", "finished_at", "status", "device", "capabilities", "can_read_raw_volume",
      "can_read_physical_disk", "checks", "summary", "checks_run", "checks_skipped",
      "checks_failed", "findings_count"].map ascii, Ascii name := by
    decide
  have hname := fun name hname => valid_of_ascii (hnames name hname)
  have hproduct : Ascii productName := by decide
  have hversion : Ascii versionString := by decide
  have hstatus : Ascii (scanStatusString result.status) := by
    cases result.status <;> decide
  have hchecks : AllStringsItems Valid (result.checks.items.map checkTree) := by
    apply allStringsItems
    intro v hv
    obtain ⟨check, hcheck, rfl⟩ := List.mem_map.mp hv
    exact checkTree_valid (hremarks check hcheck) (hfindings check hcheck)
  have htool : AllStrings Valid (.object [member "name" productName,
      member "version" versionString] : Value ℤ) :=
    ⟨hname _ (by simp), valid_of_ascii hproduct, hname _ (by simp), valid_of_ascii hversion,
      trivial⟩
  have hscan : AllStrings Valid (.object [member "scan_id" result.scanId,
      member "started_at" result.startedAt, member "finished_at" result.finishedAt,
      member "status" (scanStatusString result.status)] : Value ℤ) :=
    ⟨hname _ (by simp), hfields.scanId, hname _ (by simp), hfields.startedAt,
      hname _ (by simp), hfields.finishedAt, hname _ (by simp), valid_of_ascii hstatus, trivial⟩
  have hcapabilities : AllStrings Valid (capabilitiesTree result.capabilities) :=
    ⟨hname _ (by simp), trivial, hname _ (by simp), trivial, trivial⟩
  have hsummary : AllStrings Valid (summaryTree result.checks.items) :=
    ⟨hname _ (by simp), trivial, hname _ (by simp), trivial, hname _ (by simp), trivial,
      hname _ (by simp), trivial, trivial⟩
  exact ⟨hname _ (by simp), trivial, hname _ (by simp), htool, hname _ (by simp), hscan,
    hname _ (by simp), deviceTree_valid hfields.device, hname _ (by simp), hcapabilities,
    hname _ (by simp), hchecks, hname _ (by simp), hsummary, trivial⟩

open Scanner in
/-- When every file of a scan can be shown, its findings are UTF-8, and so is the text of its
report if the name of the signature file is. -/
theorem scan_utf8 {scan : Scan} (hnames : SanitizedNames scan.host)
    (hhex : ∀ content, Ascii (scan.host.sha256Hex content)) {signatures : SignatureState}
    (hloaded : HashMatch.Loaded signatures)
    (hlabels : HashMatch.NamesValid (scannerScan scan signatures).2.signatures)
    (hshows : Shows scan signatures) :
    (∀ check ∈ (scannerScan scan signatures).1.checks.items,
        ∀ finding ∈ check.findings.items, Valid finding.path ∧ Valid finding.message) ∧
      (HashMatch.FileNameValid scan.host.kind (scannerScan scan signatures).2.signatures →
        ∀ realloc malloc result text, result.toScanResult = (scannerScan scan signatures).1 →
          FieldsValid result → buildJson realloc malloc result = .ok text → Valid text) := by
  have hfindings := scan_findings_valid hnames hhex hloaded hlabels hshows
  constructor
  · intro check hcheck finding hfinding
    have hvalid := hfindings check hcheck finding hfinding
    exact ⟨hvalid.path, hvalid.message⟩
  · intro hfile realloc malloc result text hresult hfields htext
    rw [(buildJson_text htext).2]
    refine Json.render_valid (reportTree_valid hfields ?_ ?_)
    · rw [hresult]
      exact scan_remarks_valid hfile
    · rw [hresult]
      exact hfindings

/-- A shortcut that holds nothing but a local base path. -/
def linkTo (target : Bytes) : Bytes :=
  [0x4C, 0, 0, 0] ++ LnkInspect.shellLinkClsid ++ [0x02, 0, 0, 0] ++ List.replicate 52 0 ++
    [(29 + target.length).toUInt8, 0, 0, 0, 0x1C, 0, 0, 0, 1, 0, 0, 0, 0, 0, 0, 0, 0x1C, 0, 0, 0,
      0, 0, 0, 0, 0, 0, 0, 0] ++ target ++ [0]

def linkEntry (target : Bytes) : DirEntry :=
  { name := ascii "a.lnk", sizeBytes := (linkTo target).length.toUInt64 }

/-- A volume with one shortcut on it. -/
def linkScan (target : Bytes) : Scanner.Scan where
  host :=
    { ScanHost.blank with
      dirOpen := fun _ _ => .ok ⟨[linkEntry target], .notFound⟩
      fileOpen := fun _ path =>
        if path = ascii "/v/a.lnk" then .ok { content := linkTo target } else .error .notFound
      dirOpen_refused := fun h => nomatch h }
  device := { volumePath := ascii "/v" }

def linkResult (target : Bytes) : Result :=
  { (Scanner.scannerScan (linkScan target) {}).1 with
    scanId := ascii "00ff"
    startedAt := ascii "2026-01-01T00:00:00Z"
    finishedAt := ascii "2026-01-01T00:00:01Z"
    device := (linkScan target).device
    capabilities := {} }

/-- A folder named in Latin-1, with an interpreter in it. -/
def latinTarget : Bytes := ascii "C:\\caf" ++ [0xE9] ++ ascii "\\cmd.exe"

/-- The same in UTF-8. -/
def utf8Target : Bytes := ascii "C:\\caf" ++ [0xC3, 0xA9] ++ ascii "\\cmd.exe"

lemma linkScan_names (target : Bytes) : Scanner.SanitizedNames (linkScan target).host := by
  have hname : Posix.sanitizeUtf8 (ascii "a.lnk") nameMax = ascii "a.lnk" := by decide
  intro t dir listing hopen entry hentry
  obtain rfl := Except.ok.inj hopen
  rw [List.mem_singleton.mp hentry]
  exact ⟨ascii "a.lnk", hname.symm⟩

lemma linkResult_fields (target : Bytes) : FieldsValid (linkResult target) := by
  have hid : Ascii (ascii "00ff") := .ofList (by decide)
  have hstart : Ascii (ascii "2026-01-01T00:00:00Z") := .ofList (by decide)
  have hend : Ascii (ascii "2026-01-01T00:00:01Z") := .ofList (by decide)
  have hvolume : Ascii (ascii "/v") := .ofList (by decide)
  have hfits : (ascii "/v").length < volumePathMax := by decide
  exact ⟨valid_of_ascii hid, valid_of_ascii hstart, valid_of_ascii hend,
    ⟨valid_of_ascii hvolume, hfits, .nil, .nil, .nil, .nil, .nil, .nil,
      fun m hm => nomatch hm⟩⟩

lemma linkScan_opens (target : Bytes) (t : Trace) :
    (linkScan target).host.fileOpen t (ascii "/v/a.lnk") = .ok { content := linkTo target } := by
  change (if ascii "/v/a.lnk" = ascii "/v/a.lnk" then
    Except.ok ({ content := linkTo target } : FileStream) else .error .notFound) = _
  rw [if_pos rfl]

lemma linkScan_signatures :
    (Scanner.scannerScan (linkScan utf8Target) {}).2.signatures = { attempted := true } ∧
      (Scanner.scannerScan (linkScan latinTarget) {}).2.signatures = { attempted := true } := by
  decide +kernel

lemma linkScan_shows : Scanner.Shows (linkScan utf8Target) {} := by
  have hcounted : Scanner.countedFiles (Scanner.scannerScan (linkScan utf8Target) {}).2.trace =
      [(ascii "/v/a.lnk", linkEntry utf8Target)] := by decide +kernel
  have hlocated : LnkInspect.locate (linkTo utf8Target) =
      some ({ localBasePath := utf8Target }, 121) := by decide +kernel
  have hshort : (Location.relative (ascii "/v") (ascii "/v/a.lnk")).length < findingPathMax := by
    decide
  have hsmall : (linkTo utf8Target).length ≤ LnkInspect.lnkMaxRead := by decide +kernel
  have htarget : Valid (utf8Target.take LnkInspect.messageTargetMax) := by decide
  intro f hf
  rw [hcounted] at hf
  rw [List.mem_singleton.mp hf]
  refine ⟨fun _ hlong => absurd hshort (not_lt.mpr hlong), ?_⟩
  intro _ s hreported
  obtain ⟨t, file, stop, hopen, hread⟩ := hreported.read
  obtain rfl := Except.ok.inj ((linkScan_opens utf8Target t).symm.trans hopen)
  rw [readCapped_sound rfl, List.take_of_length_le hsmall, hlocated] at hread
  obtain ⟨rfl, _⟩ := Prod.mk.inj (Option.some.inj hread)
  exact htarget

lemma nothing_loaded (kind : Path.Host) :
    HashMatch.NamesValid { attempted := true } ∧
      HashMatch.FileNameValid kind { attempted := true } := by
  constructor
  · intro entries path h
    cases h
  · intro entries path h
    cases h

lemma linkReport_built (target : Bytes)
    (hlength : (Json.render (reportTree (linkResult target))).length < 2 ^ 63) :
    buildJson (fun _ => true) (fun _ => true) (linkResult target) =
      .ok (Json.render (reportTree (linkResult target))) :=
  buildJson_ok ⟨hlength, fun _ _ => rfl⟩ rfl

lemma linkReports : (Json.render (reportTree (linkResult utf8Target))).length < 2 ^ 63 ∧
    (Json.render (reportTree (linkResult latinTarget))).length < 2 ^ 63 ∧
    ¬ Valid (Json.render (reportTree (linkResult latinTarget))) ∧
    ¬ ∀ check ∈ (Scanner.scannerScan (linkScan latinTarget) {}).1.checks.items,
      ∀ finding ∈ check.findings.items, Valid finding.path ∧ Valid finding.message := by
  decide +kernel

/-- With the folder's name in UTF-8 so is the report. -/
theorem scan_utf8_link :
    (∀ check ∈ (Scanner.scannerScan (linkScan utf8Target) {}).1.checks.items,
        ∀ finding ∈ check.findings.items, Valid finding.path ∧ Valid finding.message) ∧
      ∃ text, buildJson (fun _ => true) (fun _ => true) (linkResult utf8Target) = .ok text ∧
        Valid text := by
  obtain ⟨hlabels, hfile⟩ := nothing_loaded .posix
  rw [← linkScan_signatures.1] at hlabels hfile
  have hbuilt := linkReport_built utf8Target linkReports.1
  obtain ⟨hfindings, htext⟩ := scan_utf8 (linkScan_names utf8Target)
    (fun _ b hb => nomatch hb) HashMatch.loaded_fresh hlabels linkScan_shows
  exact ⟨hfindings, _, hbuilt,
    htext hfile _ _ _ _ rfl (linkResult_fields utf8Target) hbuilt⟩

/-- With the name in Latin-1 neither the finding nor the report is UTF-8. -/
theorem latin_link_reported :
    Scanner.SanitizedNames (linkScan latinTarget).host ∧
      HashMatch.NamesValid (Scanner.scannerScan (linkScan latinTarget) {}).2.signatures ∧
      FieldsValid (linkResult latinTarget) ∧
      ¬ (∀ check ∈ (Scanner.scannerScan (linkScan latinTarget) {}).1.checks.items,
        ∀ finding ∈ check.findings.items, Valid finding.path ∧ Valid finding.message) ∧
      ∃ text, buildJson (fun _ => true) (fun _ => true) (linkResult latinTarget) = .ok text ∧
        ¬ Valid text := by
  have hlabels := (nothing_loaded .posix).1
  rw [← linkScan_signatures.2] at hlabels
  obtain ⟨_, hlength, htext, hfindings⟩ := linkReports
  exact ⟨linkScan_names latinTarget, hlabels, linkResult_fields latinTarget, hfindings, _,
    linkReport_built latinTarget hlength, htext⟩

end Report
end UsbSentinel
