import UsbSentinel.ReportVerdict

/-! The report as the window shows it: runs of text, each in one style. -/
namespace UsbSentinel.GuiReport
open ByteString Report

inductive TextStyle
  | title | sectionHead | label | body | muted | good | warning | threat
  deriving DecidableEq, Repr

structure Run where
  style : TextStyle
  text : Bytes
  deriving DecidableEq, Repr

structure Totals where
  files : UInt64
  bytes : UInt64

def guiLineMax : ℕ := 1024
def guiLabelWidth : ℕ := 13

def bullet : Bytes := [0xE2, 0x80, 0xA2]
def marker : Bytes := [0xE2, 0x96, 0xB8]
def middot : Bytes := [0xC2, 0xB7]
def crlf : Bytes := [13, 10]

def emitText (style : TextStyle) (text : Bytes) : List Run :=
  if text ≠ [] then [⟨style, text⟩] else []

def emitFmt (style : TextStyle) (text : Bytes) : List Run := emitText style (cut guiLineMax text)

/-- `%-*s`. -/
def padded (width : ℕ) (text : Bytes) : Bytes :=
  text ++ List.replicate (width - text.length) 32

def emitField (label : String) (style : TextStyle) (value : Bytes) : List Run :=
  emitFmt .label
      (ascii "   " ++ bullet ++ ascii "  " ++ padded guiLabelWidth (ascii label) ++ ascii " ") ++
    emitFmt style ((if value ≠ [] then value else ascii "(not reported)") ++ crlf)

def emitBlank : List Run := emitText .body crlf

def emitSection (title : String) : List Run := emitFmt .sectionHead (ascii title ++ crlf)

/-- The quotient rounded to the nearest integer, a tie to the even one. -/
def roundDiv (n m : ℕ) : ℕ :=
  if 2 * (n % m) > m ∨ (2 * (n % m) = m ∧ n / m % 2 = 1) then n / m + 1 else n / m

/-- `(double)n`: 53 significant bits. -/
def toDouble (n : ℕ) : ℕ :=
  let unit := 2 ^ (n.log2 + 1 - 53)
  roundDiv n unit * unit

def sizeUnits : List String := ["B", "KiB", "MiB", "GiB", "TiB"]

/-- The unit reached from `unit` when `left` more are there. -/
def sizeUnitLoop (value : ℕ) : ℕ → ℕ → ℕ
  | 0, unit => unit
  | left + 1, unit => if 1024 ^ (unit + 1) ≤ value then sizeUnitLoop value left (unit + 1) else unit

def formatSize (bytes : UInt64) : Bytes :=
  let value := toDouble bytes.toNat
  let unit := sizeUnitLoop value 4 0
  let text :=
    if unit = 0 then decimal bytes.toNat ++ ascii " B"
    else
      let tenths := roundDiv (10 * value) (1024 ^ unit)
      decimal (tenths / 10) ++ ascii "." ++ decimal (tenths % 10) ++ ascii " " ++
        ascii (sizeUnits.getD unit "")
  cut 32 text

def styleForSeverity : Severity → TextStyle
  | .high => .threat
  | .warning => .warning
  | .info => .muted

def labelForSeverity : Severity → Bytes
  | .high => ascii "HIGH"
  | .warning => ascii "SUSPICIOUS"
  | .info => ascii "INFO"

def checkDisplayName (id : Bytes) : Bytes :=
  if id = ascii "file_traversal" then ascii "File traversal"
  else if id = ascii "autorun_inspection" then ascii "Autorun inspection"
  else if id = ascii "suspicious_filename" then ascii "Suspicious file names"
  else if id = ascii "lnk_inspection" then ascii "Shortcut (.lnk) inspection"
  else if id = ascii "hash_match_example" then ascii "Known-hash matching"
  else id

def verdictHeadline : Verdict → Bytes
  | .threat => ascii "THREATS DETECTED"
  | .suspicious => ascii "SUSPICIOUS ITEMS FOUND"
  | .incomplete => ascii "SCAN INCOMPLETE"
  | .clean => ascii "ALL CLEAR"

def verdictStyle : Verdict → TextStyle
  | .threat => .threat
  | .suspicious => .warning
  | .incomplete => .warning
  | .clean => .good

def verdictDetail (summary : Summary) (cap : ℕ) : Bytes :=
  cut cap <| match summary.verdict with
  | .threat =>
    decimal summary.highCount ++
      ascii " high-severity item(s) found on this device. Do not open them."
  | .suspicious =>
    decimal summary.warningCount ++
      ascii " item(s) worth a closer look. Nothing matched a known-malicious signature."
  | .incomplete =>
    if !summary.completed then
      ascii "Nothing found so far, but the scan did not finish - this device has not been fully checked."
    else if summary.checksFailed > 0 then
      ascii "Nothing found, but " ++ decimal summary.checksFailed ++
        ascii " check(s) failed - this device has not been fully checked."
    else
      ascii "Nothing found, but " ++ decimal summary.checksSkipped ++
        ascii " check(s) did not run - this device has not been fully checked."
  | .clean =>
    if summary.pathsSkipped > 0 then
      ascii "No threats in everything that could be read. " ++ decimal summary.pathsSkipped ++
        ascii " protected location(s) were skipped."
    else if summary.infoCount > 0 then
      ascii "Every check ran and found no threats. " ++ decimal summary.infoCount ++
        ascii " informational note(s) below."
    else ascii "Every check ran and found nothing suspicious."

def renderVerdict (summary : Summary) : List Run :=
  emitFmt (verdictStyle summary.verdict)
      (ascii "   " ++ verdictHeadline summary.verdict ++ crlf) ++
    emitFmt .muted (ascii "   " ++ verdictDetail summary 256 ++ crlf)

def drivesMax : ℕ := mountPointsMax * (mountPointMax + 2)

/-- The mount points as far as they fit; `used` is what is written already. -/
def drivesLoop : Bool → List Bytes → Bytes → Bytes
  | _, [], used => used
  | first, mountPoint :: rest, used =>
    let piece := (if first then [] else ascii ", ") ++ mountPoint
    if piece = [] ∨ drivesMax - used.length ≤ piece.length then
      used ++ cut (drivesMax - used.length) piece
    else drivesLoop false rest (used ++ piece)

def renderDevice (device : Device) : List Run :=
  let drives := drivesLoop true (device.mountPoints.take mountPointsMax) []
  let drives := if drives = [] then ascii "(no drive letter)" else drives
  let line :=
    cut guiLineMax (if device.label ≠ [] then drives ++ ascii "   " ++ device.label else drives)
  let identity :=
    match deviceIdentity device identityMax with
    | .ok identity => identity
    | .error _ => ascii "(unknown)"
  let used :=
    device.capacityBytes -
      (if device.freeBytes ≤ device.capacityBytes then device.freeBytes else device.capacityBytes)
  emitSection "DEVICE" ++ emitField "Drive" .body line ++
    (if device.vendor ≠ [] ∨ device.product ≠ [] then
      emitField "Hardware" .body (cut guiLineMax (device.vendor ++
        (if device.vendor ≠ [] ∧ device.product ≠ [] then ascii " " else []) ++ device.product))
      else []) ++
    emitField "Device ID" .muted identity ++
    emitField "Connection" .body (busTypeString device.busType) ++
    (if device.filesystem ≠ [] then emitField "File system" .body device.filesystem else []) ++
    (if device.capacityBytes > 0 then
      emitField "Capacity" .body (cut guiLineMax (formatSize device.capacityBytes ++
        ascii " total  " ++ middot ++ ascii "  " ++ formatSize used ++ ascii " in use"))
      else [])

def traversalMessage (result : Result) : Option Bytes :=
  (result.checks.items.find? fun check => check.id = ascii "file_traversal").map
    CheckResult.message

def renderScan (result : Result) (totals : Option Totals) (summary : Summary) : List Run :=
  emitSection "SCAN" ++ emitField "Started" .body result.startedAt ++
    emitField "Finished" .body result.finishedAt ++
    emitField "Outcome" (if summary.completed then .body else .warning)
      (if summary.completed then ascii "Completed"
        else ascii "Stopped early (cancelled, or the device was removed)") ++
    (match totals with
      | some totals =>
        emitField "Scanned" .body (cut guiLineMax (decimal totals.files.toNat ++
          ascii " file(s)  " ++ middot ++ ascii "  " ++ formatSize totals.bytes ++
          ascii " examined")) ++
        (if result.pathsSkipped > 0 then
          emitField "Skipped" .muted (cut guiLineMax (decimal result.pathsSkipped ++
            ascii " location(s) could not be read (access denied or unavailable)"))
          else []) ++
        (if result.pathsExcluded > 0 then
          emitField "Excluded" .muted (cut guiLineMax (decimal result.pathsExcluded ++
            ascii " location(s) not examined by internal-drive policy (USB Sentinel test fixtures)"))
          else [])
      | none =>
        match traversalMessage result with
        | some traversal => if traversal ≠ [] then emitField "Scanned" .body traversal else []
        | none => []) ++
    emitField "Scan ID" .muted result.scanId ++
    (if !result.capabilities.canReadRawVolume || !result.capabilities.canReadPhysicalDisk then
      emitField "Limited by" .muted (ascii "raw volume/disk access unavailable without elevation")
      else [])

def selected (floor : Severity) (exact : Bool) (finding : Finding) : Bool :=
  if exact then finding.severity = floor else floor.rank ≤ finding.severity.rank

def findingRuns (id : Bytes) (finding : Finding) : List Run :=
  emitFmt (styleForSeverity finding.severity) (ascii "   " ++ marker ++ ascii "  [" ++
      labelForSeverity finding.severity ++ ascii "]  " ++ finding.message ++ crlf) ++
    (if finding.path ≠ [] then
      emitFmt .muted (ascii "        Location:  " ++ finding.path ++ crlf) else []) ++
    emitFmt .muted (ascii "        Found by:  " ++ checkDisplayName id ++ crlf)

def renderFinding (floor : Severity) (exact : Bool) (id : Bytes) (out : List Run × ℕ)
    (finding : Finding) : List Run × ℕ :=
  if !selected floor exact finding then out
  else (out.1 ++ (if out.2 > 0 then emitBlank else []) ++ findingRuns id finding, out.2 + 1)

/-- The runs, and how many findings they show. -/
def renderFindings (checks : List CheckResult) (floor : Severity) (exact : Bool) : List Run × ℕ :=
  checks.foldl
    (fun out check => check.findings.items.foldl (renderFinding floor exact check.id) out) ([], 0)

def checkOutcome (check : CheckResult) : TextStyle × Bytes :=
  match check.status with
  | .skipped => (.warning, cut guiLineMax (ascii "skipped " ++ middot ++ ascii " " ++ check.skipReason))
  | .failed => (.warning, cut guiLineMax (ascii "failed " ++ middot ++ ascii " " ++ check.message))
  | .ran =>
    if check.findings.items.length = 0 then
      (.muted, cut guiLineMax (ascii "ran " ++ middot ++ ascii " nothing found"))
    else
      (.body, cut guiLineMax (ascii "ran " ++ middot ++ ascii " " ++
        decimal check.findings.items.length ++ ascii " finding(s)"))

def renderCheck (check : CheckResult) : List Run :=
  let outcome := checkOutcome check
  emitFmt .label
      (ascii "   " ++ bullet ++ ascii "  " ++ padded 28 (checkDisplayName check.id) ++ ascii " ") ++
    emitFmt outcome.1 (outcome.2 ++ crlf) ++
    (if check.status = .ran ∧ check.message ≠ [] then
      emitFmt .muted (ascii "        " ++ check.message ++ crlf) else [])

def renderChecks (checks : List CheckResult) (summary : Summary) : List Run :=
  emitSection "CHECKS PERFORMED" ++ checks.flatMap renderCheck ++
    (if summary.checksSkipped > 0 ∨ summary.checksFailed > 0 then
      emitBlank ++ emitFmt .warning (ascii "   " ++ decimal summary.checksSkipped ++
        ascii " check(s) skipped and " ++ decimal summary.checksFailed ++
        ascii " failed - this scan is not a clean bill of health." ++ crlf)
      else [])

/-- What stands before the findings. -/
def renderHead (result : Result) (totals : Option Totals) (summary : Summary) : List Run :=
  emitText .title (ascii "USB SENTINEL SCAN REPORT" ++ crlf) ++ emitBlank ++
    renderVerdict summary ++ emitBlank ++ renderDevice result.device ++ emitBlank ++
    renderScan result totals summary ++ emitBlank

/-- What stands behind them. -/
def renderTail (result : Result) (summary : Summary) : List Run :=
  renderChecks result.checks.items summary ++ emitBlank ++
    emitText .muted
      (ascii "   Scanning is read-only: no file on this device was opened for writing." ++ crlf)

def renderRuns (result : Result) (totals : Option Totals) : List Run :=
  let summary := summarize (some result)
  renderHead result totals summary ++
    (if summary.highCount > 0 ∨ summary.warningCount > 0 then
      emitSection (if summary.highCount > 0 then "THREATS FOUND" else "SUSPICIOUS ITEMS") ++
        (renderFindings result.checks.items .warning false).1 ++ emitBlank
      else []) ++
    (if summary.infoCount > 0 then
      emitSection "NOTES" ++ (renderFindings result.checks.items .info true).1 ++ emitBlank
      else []) ++
    renderTail result summary

end UsbSentinel.GuiReport
