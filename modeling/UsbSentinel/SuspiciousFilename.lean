import UsbSentinel.Location
import UsbSentinel.ScanHost

/-! Filename disguises: a double extension, a bidi override, space padding, a hidden
executable. Names are looked at, files are not opened. -/
namespace UsbSentinel.SuspiciousFilename
open ByteString UsbSentinel.Location

def suspiciousFilenameId : Bytes := ascii "suspicious_filename"

def executableExtensions : List Bytes :=
  ["exe", "scr", "bat", "cmd", "com", "pif", "vbs", "vbe", "js", "jse",
    "wsf", "wsh", "msi", "ps1", "lnk", "hta", "jar", "cpl", "msc", "reg"].map ascii

/-- Native binaries and installers, which are never lowered below a warning. -/
def nativeBinaryExtensions : List Bytes := ["exe", "scr", "com", "pif", "cpl", "msi"].map ascii

def documentExtensions : List Bytes :=
  ["pdf", "doc", "docx", "xls", "xlsx", "ppt", "pptx", "txt", "rtf", "csv",
    "jpg", "jpeg", "png", "gif", "bmp", "mp3", "mp4", "avi", "mov",
    "zip", "rar", "7z"].map ascii

def inSet (value : Bytes) (set : List Bytes) : Bool := set.any (equalsCi value)

/-- The search from position `p` downwards, after `seen` dots. -/
def extensionLoop (name : Bytes) (n : ℕ) : ℕ → ℕ → Option ℕ
  | 0, _ => none
  | p + 1, seen =>
    if name[p]? = some 46 then
      if seen + 1 = n then some (p + 1) else extensionLoop name n p (seen + 1)
    else extensionLoop name n p seen

/-- Where the text after the n-th dot from the end starts. -/
def nthExtensionFromEnd (name : Bytes) (n : ℕ) : Option ℕ := extensionLoop name n name.length 0

def lastExtension (name : Bytes) : Option Bytes :=
  (nthExtensionFromEnd name 1).map fun p => name.drop p

def hasExecutableExtension (name : Bytes) : Bool :=
  (lastExtension name).any fun ext => inSet ext executableExtensions

/-- The reason, when the name is disguised. -/
def doubleExtensionDisguise (name : Bytes) : Option Bytes :=
  match nthExtensionFromEnd name 1, nthExtensionFromEnd name 2 with
  | some last, some second =>
    if !inSet (name.drop last) executableExtensions then none
    else if last - 1 ≤ second then none
    else
      let len := last - 1 - second
      if len = 0 ∨ len ≥ 16 then none
      else
        let secondExt := (name.drop second).take len
        if inSet secondExt documentExtensions then
          some (cut 128 (ascii "double extension disguise (." ++ secondExt ++ ascii "." ++
            name.drop last ++ ascii ")"))
        else none
  | _, _ => none

def hasBidiOverride : Bytes → Bool
  | a :: b :: c :: rest =>
    (a = 0xE2 && b = 0x80 && 0xAA ≤ c && c ≤ 0xAE) || hasBidiOverride (b :: c :: rest)
  | _ => false

/-- Whether four spaces stand in a row, `run` of them seen just before. -/
def hasSpaceRun : ℕ → Bytes → Bool
  | _, [] => false
  | run, c :: rest =>
    if c = 32 then (if run + 1 ≥ 4 then true else hasSpaceRun (run + 1) rest)
    else hasSpaceRun 0 rest

def hasSpacePadding (name : Bytes) : Bool :=
  match nthExtensionFromEnd name 1 with
  | none => false
  | some p => inSet (name.drop p) executableExtensions && hasSpaceRun 0 (name.take p)

inductive DoubleExtVerdict | reportDefault | reportLowered | suppressed
  deriving DecidableEq, Repr

def weighDoubleExtension (kind : Kind) (lastExt : Bytes) : DoubleExtVerdict × Severity :=
  match kind with
  | .userExposed => (.reportDefault, .high)
  | .recentItems =>
    if equalsCi lastExt (ascii "lnk") then (.suppressed, .high) else (.reportLowered, .warning)
  | .dependencyTree =>
    (.reportLowered, if inSet lastExt nativeBinaryExtensions then .warning else .info)
  | .ordinary | .osShortcuts | .osComponentStore | .selfTestFixtures => (.reportLowered, .warning)

/-- The buffer of reasons: `kept` is what its length covers, `tail` what a text that did
not fit left behind it. -/
structure Reasons where
  kept : Bytes := []
  tail : Bytes := []

def Reasons.append (r : Reasons) (text : Bytes) : Reasons :=
  let piece := (if r.kept ≠ [] then ascii "; " else []) ++ text
  if 0 < piece.length ∧ piece.length < findingMessageMax - r.kept.length then
    { kept := r.kept ++ piece, tail := [] }
  else { r with tail := cut (findingMessageMax - r.kept.length) piece }

def Reasons.appendIf (condition : Bool) (text : Bytes) (r : Reasons) : Reasons :=
  if condition then r.append text else r

def Reasons.text (r : Reasons) : Bytes := r.kept ++ r.tail

/-- What the double-extension rule contributes. -/
structure Weighed where
  high : Bool := false
  severity : Severity := .info
  lowered : Bool := false
  suppressed : Bool := false
  reasons : Reasons := {}

def weigh (tuned : Bool) (kind : Kind) (name : Bytes) : Weighed :=
  match doubleExtensionDisguise name with
  | none => {}
  | some reason =>
    if !tuned then { high := true, reasons := Reasons.append {} reason }
    else
      match weighDoubleExtension kind ((lastExtension name).getD []) with
      | (.suppressed, _) => { suppressed := true }
      | (verdict, severity) =>
        let annotated :=
          if verdict = .reportLowered then
            cut 192 (reason ++ ascii " [internal drive, " ++ kindString kind ++ ascii "]")
          else cut 192 reason
        { high := decide (severity = .high)
          severity := if severity = .high then .info else severity
          lowered := decide (verdict = .reportLowered)
          reasons := Reasons.append {} annotated }

def onFile (host : ScanHost) (device : Device) (result : CheckResult) (fullPath : Bytes)
    (entry : DirEntry) (w : World) : CheckResult × World :=
  let relativePath := relative device.volumePath fullPath
  let tuned := policyApplies device
  let kind := if tuned then classify relativePath else .ordinary
  let weighed := weigh tuned kind entry.name
  let bidi := hasBidiOverride entry.name
  let padded := hasSpacePadding entry.name
  let hidden := entry.isHidden && hasExecutableExtension entry.name
  let reasons :=
    weighed.reasons
      |>.appendIf bidi (ascii "filename contains a Unicode bidi-override character")
      |>.appendIf padded (ascii "long space padding hides the real extension")
      |>.appendIf hidden (ascii "hidden/system-attributed executable")
  let severity := if weighed.high || bidi || padded || hidden then .high else weighed.severity
  if 0 < reasons.kept.length then
    let result :=
      result.addFinding (host.findingMemory w.trace) severity relativePath reasons.text
    (if weighed.lowered && severity ≠ .high then
      { result with policyLowered := result.policyLowered + 1 } else result, w)
  else if weighed.suppressed then
    ({ result with policySuppressed := result.policySuppressed + 1 }, w)
  else (result, w)

/-- Nothing is opened. -/
theorem onFile_visits (host : ScanHost) (device : Device) (result : CheckResult)
    (fullPath : Bytes) (entry : DirEntry) (w : World) :
    Visits (fun _ => False) result w (onFile host device result fullPath entry w) := by
  simp only [onFile]
  split_ifs <;> exact .still rfl rfl

end UsbSentinel.SuspiciousFilename
