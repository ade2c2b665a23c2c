import UsbSentinel.Location
import UsbSentinel.Registry

/-! Scan orchestration: one walk of the volume that counts files and hands each to the
per-file detectors, then the whole-check detectors, then the list of checks. -/
namespace UsbSentinel.Scanner
open ByteString UsbSentinel.Path

def scanMaxDepth : ℕ := 64
def childPathMax : ℕ := 2048

/-- One call of the scanner. `cancel` is the answer of each poll in turn. -/
structure Scan where
  host : ScanHost
  device : Device
  cancel : ℕ → Bool := fun _ => false
  onProgress : Bool := false

structure Slot where
  detector : Detector
  result : CheckResult

structure WalkState where
  world : World
  polls : ℕ := 0
  fileCount : ℕ := 0
  byteCount : UInt64 := 0
  pathsSkipped : ℕ := 0
  pathsExcluded : ℕ := 0
  cancelled : Bool := false
  deviceRemoved : Bool := false
  slots : List Slot := []

/-- Whether the walk has to end. -/
def WalkState.stopped (st : WalkState) : Bool := st.cancelled || st.deviceRemoved

variable (scan : Scan)

/-- Opening the root once more decides between a skip and a removal. -/
def classifyPathFailure (st : WalkState) : WalkState :=
  match st.world.dirOpen scan.host scan.device.volumePath with
  | (.ok _, w) => { st with world := w, pathsSkipped := st.pathsSkipped + 1 }
  | (.error _, w) => { st with world := w, deviceRemoved := true }

def childPath (host : Host) (dirPath name : Bytes) : Except Status Bytes :=
  pathJoin host childPathMax dirPath name

def isExcluded (device : Device) (path : Bytes) : Bool :=
  Location.policyApplies device &&
    Location.classify (Location.relative device.volumePath path) = .selfTestFixtures

def handFile (path : Bytes) (entry : DirEntry) (slot : Slot) (w : World) :
    CheckResult × World :=
  let w := w.record (.onFile slot.detector.id path entry)
  match slot.detector.onFile with
  | some f => f scan.host scan.device slot.result path entry w
  | none => (slot.result, w)

def dispatch (path : Bytes) (entry : DirEntry) : List Slot → World → List Slot × World
  | [], w => ([], w)
  | slot :: rest, w =>
    let out := handFile scan path entry slot w
    let others := dispatch path entry rest out.2
    ({ slot with result := out.1 } :: others.1, others.2)

def visitFile (path : Bytes) (entry : DirEntry) (st : WalkState) : WalkState :=
  let fileCount := st.fileCount + 1
  let byteCount := st.byteCount + entry.sizeBytes
  let w := st.world.record (.counted path entry)
  let w :=
    if scan.onProgress then w.record (.progress fileCount byteCount st.pathsSkipped) else w
  let out := dispatch scan path entry st.slots w
  { st with fileCount, byteCount, world := out.2, slots := out.1 }

/-- The listing of one directory; `descend` walks a directory below it. The caller's wish
to stop is asked for before every entry and before the end. -/
def walkEntries (descend : Bytes → WalkState → Status × WalkState) (dirPath : Bytes)
    (ending : Status) : List DirEntry → WalkState → Status × WalkState
  | [], st =>
    let cancel := scan.cancel st.polls
    let st := { st with polls := st.polls + 1 }
    if cancel then (.ok, { st with cancelled := true })
    else if ending = .notFound then (.ok, st)
    else (.ok, classifyPathFailure scan st)
  | entry :: rest, st =>
    let cancel := scan.cancel st.polls
    let st := { st with polls := st.polls + 1 }
    if cancel then (.ok, { st with cancelled := true })
    else if entry.isReparsePoint then walkEntries descend dirPath ending rest st
    else
      match childPath scan.host.kind dirPath entry.name with
      | .error _ => walkEntries descend dirPath ending rest st
      | .ok path =>
        if entry.isDirectory then
          if isExcluded scan.device path then
            walkEntries descend dirPath ending rest
              { st with pathsExcluded := st.pathsExcluded + 1 }
          else
            match descend path st with
            | (.ok, st) =>
              if st.stopped then (.ok, st) else walkEntries descend dirPath ending rest st
            | (status, st) => (status, st)
        else walkEntries descend dirPath ending rest (visitFile scan path entry st)

/-- The walk of a directory, `levels` counting down from one more than the depth limit; a
directory beyond it is not entered. -/
def walkDir : ℕ → Bytes → WalkState → Status × WalkState
  | 0, _, st => (.ok, st)
  | levels + 1, dirPath, st =>
    if st.stopped then (.ok, st)
    else
      match st.world.dirOpen scan.host dirPath with
      | (.error status, w) =>
        if levels = scanMaxDepth then (status, { st with world := w })
        else (.ok, classifyPathFailure scan { st with world := w })
      | (.ok listing, w) =>
        walkEntries scan (walkDir levels) dirPath listing.ending listing.entries
          { st with world := w }

/-- No slot at all when their memory cannot be had. -/
def prepareOnFileSlots : List Slot :=
  if scan.host.slotsMemory then
    (Registry.detectors.filter fun d => d.onFile.isSome).map fun d => ⟨d, CheckResult.init d.id⟩
  else []

def wholeCheckDetectors : List Detector := Registry.detectors.filter fun d => d.run.isSome

/-- One result for each whole-check detector. -/
def runWholeCheckDetectors : List Detector → World → List CheckResult × World
  | [], w => ([], w)
  | d :: rest, w =>
    match d.run with
    | none => runWholeCheckDetectors rest w
    | some f =>
      let out := f scan.host scan.device (w.record (.run d.id))
      let others := runWholeCheckDetectors rest out.2
      (out.1 :: others.1, others.2)

def skipWholeCheckDetectors (reason : Bytes) : List CheckResult :=
  wholeCheckDetectors.map fun d => (CheckResult.init d.id).setSkipped reason

def describeLocationPolicy (check : CheckResult) : CheckResult :=
  if check.policySuppressed = 0 ∧ check.policyLowered = 0 then check
  else if check.message.length + 1 ≥ checkMessageMax then check
  else
    { check with
      message := check.message ++ cut (checkMessageMax - check.message.length)
        ((if check.message ≠ [] then ascii "; " else []) ++
          ascii "internal-drive location policy: " ++ decimal check.policySuppressed.toNat ++
          ascii " match(es) in OS-generated or dependency locations not reported, " ++
          decimal check.policyLowered.toNat ++ ascii " reported at lowered severity") }

/-- The text so far and the length the calls of snprintf add up to. -/
def appendPart (part : Bytes) (message : Bytes × ℕ) : Bytes × ℕ :=
  if 0 < message.2 ∧ message.2 < checkMessageMax then
    (message.1 ++ cut (checkMessageMax - message.2) part, message.2 + part.length)
  else message

def traversalMessage (st : WalkState) : Bytes :=
  let outcome :=
    if st.cancelled then ascii "cancelled"
    else if st.deviceRemoved then ascii "device disconnected"
    else ascii "completed"
  let counts :=
    outcome ++ ascii ": " ++ decimal st.fileCount ++ ascii " file(s), " ++
      decimal st.byteCount.toNat ++ ascii " byte(s)"
  let message := (cut checkMessageMax counts, counts.length)
  let message :=
    if st.pathsSkipped > 0 then
      appendPart (ascii ", " ++ decimal st.pathsSkipped ++
        ascii " location(s) skipped (access denied or unavailable)") message
    else message
  let message :=
    if st.pathsExcluded > 0 then
      appendPart (ascii ", " ++ decimal st.pathsExcluded ++
        ascii " location(s) excluded (USB Sentinel test fixtures)") message
    else message
  message.1

def traversalId : Bytes := ascii "file_traversal"

def traversalCheck (status : Status) (st : WalkState) : CheckResult :=
  let check := CheckResult.init traversalId
  if status = .ok then { check with message := traversalMessage st }
  else check.setFailed (statusString status)

/-- Pushing the results in turn; one that does not fit is lost. -/
def pushChecks : ℕ → List CheckResult → GrowList CheckResult → GrowList CheckResult
  | _, [], list => list
  | n, r :: rest, list =>
    pushChecks (n + 1) rest (list.push 4 (fun _ => scan.host.checkMemory n) r).2

def skipReason (status : Status) (st : WalkState) : Bytes :=
  if status ≠ .ok then ascii "volume could not be read"
  else if st.cancelled then ascii "scan cancelled before this check ran"
  else ascii "device disconnected before this check ran"

def incomplete (status : Status) (st : WalkState) : Bool := status ≠ .ok || st.stopped

/-- The results of the detectors, in the order they are pushed. -/
def detectorChecks (status : Status) (st : WalkState) : List CheckResult × World :=
  if incomplete status st then
    (skipWholeCheckDetectors (skipReason status st) ++
      st.slots.map fun slot =>
        (CheckResult.init slot.detector.id).setSkipped (skipReason status st), st.world)
  else
    let whole := runWholeCheckDetectors scan wholeCheckDetectors st.world
    (whole.1 ++ st.slots.map fun slot => describeLocationPolicy slot.result, whole.2)

def initialState (signatures : SignatureState) : WalkState :=
  { world := { signatures }, slots := prepareOnFileSlots scan }

/-- The walk of the whole volume. -/
def walkVolume (signatures : SignatureState) : Status × WalkState :=
  walkDir scan (scanMaxDepth + 1) scan.device.volumePath (initialState scan signatures)

/-- The result and the world after the call. `signatures` is what earlier scans of the
process left in the cache. -/
def scannerScan (signatures : SignatureState := {}) : ScanResult × World :=
  let walked := walkVolume scan signatures
  let checks := detectorChecks scan walked.1 walked.2
  ({ status := if incomplete walked.1 walked.2 then .aborted else .completed
     checks := pushChecks scan 0 (traversalCheck walked.1 walked.2 :: checks.1) {}
     pathsSkipped := walked.2.pathsSkipped
     pathsExcluded := walked.2.pathsExcluded }, checks.2)

end UsbSentinel.Scanner
