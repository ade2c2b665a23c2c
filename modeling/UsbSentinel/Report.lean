import UsbSentinel.Device
import UsbSentinel.JsonTree
import UsbSentinel.ScanResult

/-! The JSON report of a scan: the calls that write it, and the tree they write. -/
namespace UsbSentinel.Report
open ByteString
open Json (Call Value finish run emit emitItems emitMembers emitMembers_append emitItems_map
  unfoldAll unfoldAll_flatMap)

def productName : Bytes := ascii "USB Sentinel"
def versionString : Bytes := ascii "1.2.2"
def schemaVersion : ℤ := 1

structure Capabilities where
  canReadRawVolume : Bool := false
  canReadPhysicalDisk : Bool := false
  deriving DecidableEq, Repr

/-- The whole result of a scan, as the report gets it. -/
structure Result extends ScanResult where
  scanId : Bytes
  startedAt : Bytes
  finishedAt : Bytes
  device : Device
  capabilities : Capabilities
  deriving DecidableEq, Repr

def checkStatusString : CheckStatus → Bytes
  | .ran => ascii "ran"
  | .skipped => ascii "skipped"
  | .failed => ascii "failed"

def scanStatusString : ScanStatus → Bytes
  | .completed => ascii "completed"
  | .aborted => ascii "aborted"

def severityString : Severity → Bytes
  | .info => ascii "info"
  | .warning => ascii "warning"
  | .high => ascii "high"

def volumeIdentity (device : Device) : Bytes :=
  cut (identityMax + volumePathMax) (identityOf device ++ ascii "/" ++ device.volumePath)

section Calls
open Json.Call

def memberText (name : String) (value : Bytes) : Call := memberString (ascii name) (some value)

def writeDevice (device : Device) : List Call :=
  [key (ascii "device"), beginObject,
    memberText "identity" (identityOf device),
    memberText "volume_identity" (volumeIdentity device),
    memberText "bus_type" (busTypeString device.busType),
    memberText "vendor" device.vendor,
    memberText "product" device.product,
    memberText "volume_path" device.volumePath,
    key (ascii "mount_points"), beginArray] ++
  device.mountPoints.map (fun mountPoint => string (some mountPoint)) ++
  [endArray,
    memberText "filesystem" device.filesystem,
    memberBool (ascii "media_present") device.mediaPresent,
    memberUint (ascii "capacity_bytes") device.capacityBytes.toNat,
    memberUint (ascii "free_bytes") device.freeBytes.toNat,
    endObject]

def writeCapabilities (caps : Capabilities) : List Call :=
  [key (ascii "capabilities"), beginObject,
    memberBool (ascii "can_read_raw_volume") caps.canReadRawVolume,
    memberBool (ascii "can_read_physical_disk") caps.canReadPhysicalDisk,
    endObject]

def writeFinding (finding : Finding) : List Call :=
  [beginObject,
    memberText "severity" (severityString finding.severity),
    memberText "path" finding.path,
    memberText "message" finding.message,
    endObject]

/-- What a check says besides its findings: a reason, an error, or a remark. -/
def remark (check : CheckResult) : List (String × Bytes) :=
  match check.status with
  | .ran => if check.message ≠ [] then [("message", check.message)] else []
  | .skipped => [("skip_reason", check.skipReason)]
  | .failed => [("message", check.message)]

def writeCheck (check : CheckResult) : List Call :=
  [beginObject,
    memberText "id" check.id,
    memberText "status" (checkStatusString check.status)] ++
  (remark check).map (fun m => memberText m.1 m.2) ++
  [key (ascii "findings"), beginArray] ++
  check.findings.items.flatMap writeFinding ++
  [endArray, endObject]

def writeChecks (checks : List CheckResult) : List Call :=
  [key (ascii "checks"), beginArray] ++ checks.flatMap writeCheck ++ [endArray]

/-- A `size_t` counter after `n` steps. -/
def counted (n : ℕ) : ℕ := n % 2 ^ 64

def checksWith (status : CheckStatus) (checks : List CheckResult) : ℕ :=
  counted (checks.countP fun check => check.status = status)

def findingsCount (checks : List CheckResult) : ℕ :=
  counted (checks.map fun check => check.findings.items.length).sum

def reportCalls (result : Result) : List Call :=
  [beginObject,
    memberInt (ascii "schema_version") schemaVersion,
    key (ascii "tool"), beginObject,
    memberText "name" productName,
    memberText "version" versionString,
    endObject,
    key (ascii "scan"), beginObject,
    memberText "scan_id" result.scanId,
    memberText "started_at" result.startedAt,
    memberText "finished_at" result.finishedAt,
    memberText "status" (scanStatusString result.status),
    endObject] ++
  writeDevice result.device ++ writeCapabilities result.capabilities ++
  writeChecks result.checks.items ++
  [key (ascii "summary"), beginObject,
    memberUint (ascii "checks_run") (checksWith .ran result.checks.items),
    memberUint (ascii "checks_skipped") (checksWith .skipped result.checks.items),
    memberUint (ascii "checks_failed") (checksWith .failed result.checks.items),
    memberUint (ascii "findings_count") (findingsCount result.checks.items),
    endObject,
    endObject]

end Calls

/-- `malloc` is asked for the copy that is handed out. -/
def buildJson (realloc malloc : ℕ → Bool) (result : Result) : Except Status Bytes :=
  match finish (run realloc (reportCalls result)) with
  | .error e => .error e
  | .ok text => if malloc (text.length + 1) then .ok text else .error .noMemory

def member (name : String) (value : Bytes) : Bytes × Value ℤ := (ascii name, .string value)

def deviceTree (device : Device) : Value ℤ :=
  .object [member "identity" (identityOf device),
    member "volume_identity" (volumeIdentity device),
    member "bus_type" (busTypeString device.busType),
    member "vendor" device.vendor,
    member "product" device.product,
    member "volume_path" device.volumePath,
    (ascii "mount_points", .array (device.mountPoints.map .string)),
    member "filesystem" device.filesystem,
    (ascii "media_present", .bool device.mediaPresent),
    (ascii "capacity_bytes", .number device.capacityBytes.toNat),
    (ascii "free_bytes", .number device.freeBytes.toNat)]

def capabilitiesTree (caps : Capabilities) : Value ℤ :=
  .object [(ascii "can_read_raw_volume", .bool caps.canReadRawVolume),
    (ascii "can_read_physical_disk", .bool caps.canReadPhysicalDisk)]

def findingTree (finding : Finding) : Value ℤ :=
  .object [member "severity" (severityString finding.severity),
    member "path" finding.path,
    member "message" finding.message]

def checkTree (check : CheckResult) : Value ℤ :=
  .object ([member "id" check.id, member "status" (checkStatusString check.status)] ++
    (remark check).map (fun m => member m.1 m.2) ++
    [(ascii "findings", .array (check.findings.items.map findingTree))])

def summaryTree (checks : List CheckResult) : Value ℤ :=
  .object [(ascii "checks_run", .number (checksWith .ran checks)),
    (ascii "checks_skipped", .number (checksWith .skipped checks)),
    (ascii "checks_failed", .number (checksWith .failed checks)),
    (ascii "findings_count", .number (findingsCount checks))]

def reportTree (result : Result) : Value ℤ :=
  .object [(ascii "schema_version", .number schemaVersion),
    (ascii "tool", .object [member "name" productName, member "version" versionString]),
    (ascii "scan", .object [member "scan_id" result.scanId,
      member "started_at" result.startedAt,
      member "finished_at" result.finishedAt,
      member "status" (scanStatusString result.status)]),
    (ascii "device", deviceTree result.device),
    (ascii "capabilities", capabilitiesTree result.capabilities),
    (ascii "checks", .array (result.checks.items.map checkTree)),
    (ascii "summary", summaryTree result.checks.items)]

lemma writeFinding_unfold (finding : Finding) :
    unfoldAll (writeFinding finding) = emit (findingTree finding) := rfl

lemma unfoldAll_strings (items : List Bytes) :
    unfoldAll (items.map fun s => .string (some s)) = emitItems (items.map .string) := by
  induction items with
  | nil => rfl
  | cons s items ih => simp [emitItems, emit, Call.unfold, ih]

lemma unfoldAll_texts (members : List (String × Bytes)) :
    unfoldAll (members.map fun m => .memberString (ascii m.1) (some m.2)) =
      emitMembers (members.map fun m => (ascii m.1, .string m.2)) := by
  induction members with
  | nil => rfl
  | cons m members ih => simp [emitMembers, emit, Call.unfold, ih]

lemma writeDevice_unfold (device : Device) :
    unfoldAll (writeDevice device) = emitMembers [(ascii "device", deviceTree device)] := by
  simp [writeDevice, deviceTree, memberText, member, Call.unfold, emit, emitMembers,
    unfoldAll_strings]

lemma writeCheck_unfold (check : CheckResult) :
    unfoldAll (writeCheck check) = emit (checkTree check) := by
  simp [writeCheck, checkTree, memberText, member, Call.unfold, emit, emitMembers,
    emitMembers_append, unfoldAll_texts, unfoldAll_flatMap, writeFinding_unfold, emitItems_map]

theorem reportCalls_unfold (result : Result) :
    unfoldAll (reportCalls result) = emit (reportTree result) := by
  simp [reportCalls, reportTree, writeDevice_unfold, writeChecks, writeCheck_unfold,
    unfoldAll_flatMap, emitItems_map, emit, emitMembers, Call.unfold, memberText, member,
    writeCapabilities, capabilitiesTree, summaryTree]

lemma height_strings (items : List Bytes) :
    Json.heightItems (items.map (Value.string : Bytes → Value ℤ)) ≤ 1 := by
  apply Json.heightItems_le
  intro v hv
  obtain ⟨s, _, rfl⟩ := List.mem_map.mp hv
  exact le_rfl

lemma isLong_counted (n : ℕ) : Json.IsLong (counted n) :=
  Json.isLong_nat (Nat.mod_lt _ (by decide))

lemma allNumbers_strings {p : ℤ → Prop} (items : List Bytes) :
    Json.AllNumbersItems p (items.map .string) := by
  apply Json.allNumbersItems
  intro v hv
  obtain ⟨s, _, rfl⟩ := List.mem_map.mp hv
  trivial

lemma height_checkTree (check : CheckResult) : Json.height (checkTree check) ≤ 4 := by
  have hfindings : Json.heightItems (check.findings.items.map findingTree) ≤ 2 := by
    apply Json.heightItems_le
    intro v hv
    obtain ⟨f, _, rfl⟩ := List.mem_map.mp hv
    exact le_rfl
  have hmembers : ∀ members : List (Bytes × Value ℤ), (∀ m ∈ members, Json.height m.2 ≤ 3) →
      Json.height (.object members) ≤ 4 := by
    intro members h
    have hle := Json.heightMembers_le h
    rw [Json.height]
    omega
  apply hmembers
  intro m hm
  rcases List.mem_append.mp hm with hm | hm
  · rcases List.mem_append.mp hm with hm | hm
    · have hfixed : Json.height m.2 = 1 := by
        rcases List.mem_cons.mp hm with rfl | hm
        · rfl
        · rw [List.mem_singleton.mp hm]
          rfl
      omega
    · obtain ⟨t, _, rfl⟩ := List.mem_map.mp hm
      exact Nat.le_of_ble_eq_true rfl
  · rw [List.mem_singleton.mp hm]
    rw [Json.height]
    omega

lemma allNumbers_checkTree {p : ℤ → Prop} (check : CheckResult) :
    Json.AllNumbers p (checkTree check) := by
  have hfindings : Json.AllNumbersItems p (check.findings.items.map findingTree) := by
    apply Json.allNumbersItems
    intro v hv
    obtain ⟨f, _, rfl⟩ := List.mem_map.mp hv
    exact ⟨trivial, trivial, trivial, trivial⟩
  apply Json.allNumbersMembers
  intro m hm
  rcases List.mem_append.mp hm with hm | hm
  · rcases List.mem_append.mp hm with hm | hm
    · rcases List.mem_cons.mp hm with rfl | hm
      · trivial
      · rw [List.mem_singleton.mp hm]
        trivial
    · obtain ⟨t, _, rfl⟩ := List.mem_map.mp hm
      trivial
  · rw [List.mem_singleton.mp hm]
    exact hfindings

lemma height_reportTree (result : Result) : Json.height (reportTree result) ≤ 6 := by
  have hchecks : Json.heightItems (result.checks.items.map checkTree) ≤ 4 := by
    apply Json.heightItems_le
    intro v hv
    obtain ⟨check, _, rfl⟩ := List.mem_map.mp hv
    exact height_checkTree check
  have hmounts := height_strings result.device.mountPoints
  simp only [reportTree, deviceTree, capabilitiesTree, summaryTree, member, Json.height,
    Json.heightMembers]
  omega

lemma allNumbers_reportTree (result : Result) :
    Json.AllNumbers Json.IsLong (reportTree result) := by
  have hchecks : Json.AllNumbersItems Json.IsLong (result.checks.items.map checkTree) := by
    apply Json.allNumbersItems
    intro v hv
    obtain ⟨check, _, rfl⟩ := List.mem_map.mp hv
    exact allNumbers_checkTree check
  have hmounts := @allNumbers_strings Json.IsLong result.device.mountPoints
  have hcapacity := Json.isLong_nat result.device.capacityBytes.toNat_lt
  have hfree := Json.isLong_nat result.device.freeBytes.toNat_lt
  have hschema : Json.IsLong schemaVersion := by
    unfold Json.IsLong
    decide
  simp only [reportTree, deviceTree, capabilitiesTree, summaryTree, member, Json.AllNumbers,
    Json.AllNumbersMembers, checksWith, findingsCount]
  simp only [hschema, hchecks, hmounts, hcapacity, hfree, isLong_counted, and_self]

lemma buildJson_text {realloc malloc : ℕ → Bool} {result : Result} {text : Bytes}
    (h : buildJson realloc malloc result = .ok text) :
    finish (run realloc (reportCalls result)) = .ok text ∧
      text = Json.render (reportTree result) := by
  have hfinish : finish (run realloc (reportCalls result)) = .ok text := by
    unfold buildJson at h
    split at h
    · cases h
    · next t ht =>
      split_ifs at h
      rw [ht]
      exact h
  have hemit : finish (run realloc (emit (reportTree result))) = .ok text := by
    rwa [← reportCalls_unfold, Json.run_unfoldAll]
  exact ⟨hfinish, Json.finish_emit_eq hemit⟩

/-- A report that could be built is the text of its tree. -/
theorem buildJson_document {lib : Json.CLib} (hlib : lib.Scans) {realloc malloc : ℕ → Bool}
    {result : Result} {text : Bytes} (h : buildJson realloc malloc result = .ok text) :
    text = Json.render (reportTree result) ∧ Json.IsDocument lib text := by
  have hheight : Json.height (reportTree result) ≤ Json.parseMaxDepth :=
    (height_reportTree result).trans (by decide)
  exact Json.run_document hlib (reportCalls_unfold result) hheight
    (allNumbers_reportTree result) (buildJson_text h).1

/-- With the memory for its text every report is built. -/
theorem buildJson_ok {realloc malloc : ℕ → Bool} {result : Result}
    (hfits : Json.Fits realloc (Json.render (reportTree result)).length)
    (hmalloc : malloc ((Json.render (reportTree result)).length + 1) = true) :
    buildJson realloc malloc result = .ok (Json.render (reportTree result)) := by
  have hdepth : Json.nesting (reportTree result) ≤ Json.maxDepth :=
    ((Json.nesting_le_height _).trans (height_reportTree result)).trans (by decide)
  have hfinish : finish (run realloc (reportCalls result)) =
      .ok (Json.render (reportTree result)) := by
    rw [← Json.run_unfoldAll, reportCalls_unfold]
    exact Json.finish_emit hdepth hfits
  unfold buildJson
  rw [hfinish]
  exact if_pos hmalloc

end UsbSentinel.Report
