import UsbSentinel.ScanHost

/-! The hash detector: a file whose size some signature has is hashed and looked up. The
signatures are loaded once for the process, at the first file that is handed over. -/
namespace UsbSentinel.HashMatch
open ByteString UsbSentinel.Path

def hashMatchId : Bytes := ascii "hash_match_example"
def signaturesEnvOverride : Bytes := ascii "USBS_HASH_MATCH_SIGNATURES"
def defaultFilename : Bytes := ascii "signatures.txt"
def maxFileSize : ℕ := 64 * 1024 * 1024
def readChunk : ℕ := 64 * 1024

def fallbackEntry : Signature :=
  { sha256Hex := ascii "275a021bbfb6489e54d471899f7db9d1663fc695ec2fe2a2c4538aabf651fd0f"
    size := 68
    name := ascii
      "EICAR Standard Anti-Virus Test File (industry-standard test string, not malware)" }

def usbsGetenv (host : ScanHost) (name : Bytes) (cap : ℕ) : Except Status Bytes :=
  match host.getenv name with
  | none => .error .notFound
  | some value =>
    if value = [] then .error .notFound
    else if value.length ≥ cap then .error .noMemory
    else .ok value

def userDataDir (host : ScanHost) (cap : ℕ) : Except Status Bytes :=
  match host.kind with
  | .win32 =>
    match usbsGetenv host (ascii "LOCALAPPDATA") 512 with
    | .error _ => .error .notFound
    | .ok base => pathJoin .win32 cap base (ascii "USBSentinel")
  | .posix =>
    match usbsGetenv host (ascii "XDG_DATA_HOME") 512 with
    | .ok base => pathJoin .posix cap base (ascii "usb-sentinel")
    | .error _ =>
      match usbsGetenv host (ascii "HOME") 512 with
      | .error _ => .error .notFound
      | .ok base =>
        match pathJoin .posix 512 base (ascii ".local/share") with
        | .error e => .error e
        | .ok share => pathJoin .posix cap share (ascii "usb-sentinel")

def resolveSignaturePath (host : ScanHost) : Option Bytes :=
  match usbsGetenv host signaturesEnvOverride 512 with
  | .ok path => some path
  | .error _ =>
    match userDataDir host 400 with
    | .error _ => none
    | .ok dataDir => (pathJoin host.kind 512 dataDir defaultFilename).toOption

/-- A file that cannot be read, or holds no entry, leaves the fallback in use. -/
def ensureSignaturesLoaded (host : ScanHost) (w : World) : World :=
  if w.signatures.attempted then w
  else
    let w := { w with signatures := { attempted := true } }
    match resolveSignaturePath host with
    | none => w
    | some path =>
      match w.fileOpen host path with
      | (.error _, w) => w
      | (.ok file, w) =>
        match SignatureList.load host.signatureSort host.signatureRealloc host.signatureGrow
            file with
        | .error _ => w
        | .ok [] => w
        | .ok entries => { w with signatures := { w.signatures with loaded := some (entries, path) } }

def hashMatchLookup (signatures : SignatureState) (size : UInt64) (hex : Bytes) : Option Bytes :=
  match signatures.loaded with
  | some (entries, _) => SignatureList.lookup entries size hex
  | none =>
    if size = fallbackEntry.size ∧ hex = fallbackEntry.sha256Hex then some fallbackEntry.name
    else none

def relativePath (fullPath volumePath : Bytes) : Bytes :=
  if volumePath <+: fullPath then fullPath.drop volumePath.length else fullPath

def pathFilename (kind : Host) (path : Bytes) : Bytes :=
  (path.reverse.takeWhile fun c => !isSeparator kind c).reverse

def disclaimer (kind : Host) (signatures : SignatureState) : Bytes :=
  match signatures.loaded with
  | some (entries, path) =>
    ascii "Matched against " ++ decimal entries.length ++ ascii " signature(s) loaded from " ++
      pathFilename kind path ++
      ascii " - USB Sentinel does not ship, vet, or vouch for this file's contents; verify its provenance yourself"
  | none =>
    ascii "NON-PRODUCTION EXAMPLE: matched against 1 hardcoded test hash (EICAR only) - this is NOT a real malware signature database"

def setDisclaimer (kind : Host) (signatures : SignatureState) (result : CheckResult) :
    CheckResult :=
  { result with message := cut checkMessageMax (disclaimer kind signatures) }

/-- Whether a file of this size can match anything at all. -/
def sizeCanMatch (signatures : SignatureState) (size : UInt64) : Bool :=
  match signatures.loaded with
  | some (entries, _) => SignatureList.hasSize entries size
  | none => size = fallbackEntry.size

/-- A name with a NUL in it is printed up to the NUL. -/
def matchMessage (signatures : SignatureState) (label hex : Bytes) : Bytes :=
  ascii "matches signature list entry: " ++ cstr label ++ ascii " (sha256=" ++ hex ++ ascii ")" ++
    (if signatures.loaded.isSome then []
      else ascii " - demonstration match, not a real threat-intelligence source")

def onFile (host : ScanHost) (device : Device) (result : CheckResult) (fullPath : Bytes)
    (entry : DirEntry) (w : World) : CheckResult × World :=
  let w := ensureSignaturesLoaded host w
  let result := setDisclaimer host.kind w.signatures result
  if entry.sizeBytes.toNat > maxFileSize then (result, w)
  else if !sizeCanMatch w.signatures entry.sizeBytes then (result, w)
  else
    match w.fileOpen host fullPath with
    | (.error _, w) => (result, w)
    | (.ok file, w) =>
      if !host.hashBegin w.trace then (result, w)
      else if !host.malloc w.trace then (result, w)
      else
        let content := (readChunks readChunk file).1
        if !host.hashFinish w.trace then (result, w)
        else
          let hex := host.sha256Hex content
          match hashMatchLookup w.signatures entry.sizeBytes hex with
          | none => (result, w)
          | some label =>
            (result.addFinding (host.findingMemory w.trace) .high
              (relativePath fullPath device.volumePath)
              (matchMessage w.signatures label hex), w)

theorem ensureSignaturesLoaded_opens (host : ScanHost) (w : World) :
    Trace.Continues (fun e => ∃ path, resolveSignaturePath host = some path ∧ e = .fileOpen path)
      w.trace (ensureSignaturesLoaded host w).trace := by
  unfold ensureSignaturesLoaded
  split_ifs with hattempted
  · exact .refl _ _
  · cases hpath : resolveSignaturePath host with
    | none => exact .refl _ _
    | some path =>
      have hopened : Trace.Continues
          (fun e => ∃ p, some path = some p ∧ e = .fileOpen p)
          w.trace (w.record (.fileOpen path)).trace := .record ⟨path, rfl, rfl⟩
      simp only [World.fileOpen]
      split
      · rename_i h
        rw [← (Prod.mk.inj h).2]
        exact hopened
      · rename_i h
        split
        · rw [← (Prod.mk.inj h).2]
          exact hopened
        · rw [← (Prod.mk.inj h).2]
          exact hopened
        · rw [← (Prod.mk.inj h).2]
          exact hopened

/-- The events the detector causes for one file. -/
def Opens (host : ScanHost) (fullPath : Bytes) (entry : DirEntry) (e : Event) : Prop :=
  (∃ path, resolveSignaturePath host = some path ∧ e = .fileOpen path) ∨
    (e = .fileOpen fullPath ∧ entry.sizeBytes.toNat ≤ maxFileSize)

theorem onFile_visits (host : ScanHost) (device : Device) (result : CheckResult)
    (fullPath : Bytes) (entry : DirEntry) (w : World) :
    Visits (Opens host fullPath entry) result w
      (onFile host device result fullPath entry w) := by
  have hload : Trace.Continues (Opens host fullPath entry) w.trace
      (ensureSignaturesLoaded host w).trace :=
    (ensureSignaturesLoaded_opens host w).mono fun e he => Or.inl he
  simp only [onFile]
  split_ifs with hsize hmatch
  · exact ⟨rfl, rfl, hload⟩
  · exact ⟨rfl, rfl, hload⟩
  · have hopened : Trace.Continues (Opens host fullPath entry) w.trace
        ((ensureSignaturesLoaded host w).record (.fileOpen fullPath)).trace :=
      hload.trans (.record (.inr ⟨rfl, Nat.le_of_not_gt hsize⟩))
    unfold World.fileOpen
    cases host.fileOpen (ensureSignaturesLoaded host w).trace fullPath with
    | error e => exact ⟨rfl, rfl, hopened⟩
    | ok file =>
      simp only
      split_ifs
      · exact ⟨rfl, rfl, hopened⟩
      · exact ⟨rfl, rfl, hopened⟩
      · exact ⟨rfl, rfl, hopened⟩
      · split <;> exact ⟨rfl, rfl, hopened⟩

end UsbSentinel.HashMatch
