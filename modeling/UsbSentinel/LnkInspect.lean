import UsbSentinel.Location
import UsbSentinel.ScanHost

/-! The shortcut inspection: a parser of MS-SHLLINK files that trusts no field before it
is checked, and the heuristics over what it extracts. -/
namespace UsbSentinel.LnkInspect
open ByteString UsbSentinel.Location

def lnkInspectId : Bytes := ascii "lnk_inspection"
def lnkMaxRead : ℕ := 256 * 1024
def lnkHeaderSize : ℕ := 76
def lnkTargetMax : ℕ := 520
def lnkArgsMax : ℕ := 1024

def shellLinkClsid : Bytes :=
  [0x01, 0x14, 0x02, 0x00, 0x00, 0x00, 0x00, 0x00, 0xC0, 0x00, 0x00, 0x00, 0x00, 0x00, 0x00, 0x46]

/-- Whether `count` bytes at `offset` lie within `len`. -/
def inRange (len offset count : ℕ) : Bool := count ≤ len && offset ≤ len - count

def littleEndian : Bytes → ℕ
  | [] => 0
  | b :: rest => b.toNat + 256 * littleEndian rest

def readU16 (buf : Bytes) (offset : ℕ) : Option ℕ :=
  if inRange buf.length offset 2 then some (littleEndian ((buf.drop offset).take 2)) else none

def readU32 (buf : Bytes) (offset : ℕ) : Option ℕ :=
  if inRange buf.length offset 4 then some (littleEndian ((buf.drop offset).take 4)) else none

/-- The string at `offset`, not read at or past `bound` and cut to the field. -/
def readCstringAnsi (buf : Bytes) (bound offset outCap : ℕ) : Option Bytes :=
  if offset > bound ∨ outCap = 0 then none
  else some (cut outCap (cstr ((buf.take bound).drop offset)))

/-- One character of a StringData block as it is stored: whatever is not ASCII becomes a
question mark. -/
def storedChar (isUnicode : Bool) (low high : UInt8) : UInt8 :=
  if isUnicode then (if high ≠ 0 ∨ low ≥ 0x80 then 63 else low)
  else if low ≥ 0x80 then 63 else low

def storedChars (isUnicode : Bool) : Bytes → Bytes
  | [] => []
  | low :: rest =>
    if isUnicode then
      match rest with
      | [] => []
      | high :: rest => storedChar true low high :: storedChars true rest
    else storedChar false low 0 :: storedChars false rest

/-- The characters of the block at `offset` and the offset behind it. -/
def readStringData (buf : Bytes) (offset : ℕ) (isUnicode : Bool) : Option (Bytes × ℕ) :=
  match readU16 buf offset with
  | none => none
  | some count =>
    let byteLen := count * if isUnicode then 2 else 1
    if inRange buf.length (offset + 2) byteLen then
      some (storedChars isUnicode ((buf.drop (offset + 2)).take byteLen), offset + 2 + byteLen)
    else none

def hasFlag (flags mask : ℕ) : Bool := flags &&& mask ≠ 0

def flagLinkTargetIdList : ℕ := 0x01
def flagLinkInfo : ℕ := 0x02
def flagName : ℕ := 0x04
def flagRelativePath : ℕ := 0x08
def flagWorkingDir : ℕ := 0x10
def flagArguments : ℕ := 0x20
def flagIsUnicode : ℕ := 0x80
def infoVolumeAndLocalBasePath : ℕ := 0x01

structure Parsed where
  target : Bytes := []
  /-- The stored characters; a NUL among them ends the string that is read back. -/
  arguments : Bytes := []
  deriving DecidableEq, Repr

def Parsed.haveTarget (p : Parsed) : Bool := p.target ≠ []
def Parsed.argumentText (p : Parsed) : Bytes := cstr p.arguments
def Parsed.haveArguments (p : Parsed) : Bool := p.argumentText ≠ []

def skipIdList (buf : Bytes) (flags offset : ℕ) : Option ℕ :=
  if hasFlag flags flagLinkTargetIdList then
    match readU16 buf offset with
    | none => none
    | some size => if inRange buf.length (offset + 2) size then some (offset + 2 + size) else none
  else some offset

/-- The local base path, empty when the section does not declare one. -/
def readLocalBasePath (buf : Bytes) (offset infoSize headerSize infoFlags : ℕ) : Option Bytes :=
  if 0x1C ≤ headerSize ∧ hasFlag infoFlags infoVolumeAndLocalBasePath then
    match readU32 buf (offset + 16) with
    | none => none
    | some pathOff =>
      if pathOff ≥ infoSize then none
      else readCstringAnsi buf (offset + infoSize) (offset + pathOff) lnkTargetMax
  else some []

def readLinkInfo (buf : Bytes) (flags offset : ℕ) : Option (Bytes × ℕ) :=
  if hasFlag flags flagLinkInfo then
    match readU32 buf offset with
    | none => none
    | some infoSize =>
      if !inRange buf.length offset infoSize || infoSize < 4 then none
      else
        match readU32 buf (offset + 4), readU32 buf (offset + 8) with
        | some headerSize, some infoFlags =>
          (readLocalBasePath buf offset infoSize headerSize infoFlags).map fun target =>
            (target, offset + infoSize)
        | _, _ => none
  else some ([], offset)

def skipString (buf : Bytes) (flags mask : ℕ) (offset : ℕ) : Option ℕ :=
  if hasFlag flags mask then
    (readStringData buf offset (hasFlag flags flagIsUnicode)).map Prod.snd
  else some offset

def readArguments (buf : Bytes) (flags offset : ℕ) : Option (Bytes × ℕ) :=
  if hasFlag flags flagArguments then
    (readStringData buf offset (hasFlag flags flagIsUnicode)).map fun r => (cut lnkArgsMax r.1, r.2)
  else some ([], offset)

/-- What was parsed and the offset the parser stopped at; none for a malformed file. -/
def parseLnk (buf : Bytes) : Option (Parsed × ℕ) := do
  if buf.length < lnkHeaderSize then none
  else
    let headerSize ← readU32 buf 0
    if headerSize ≠ lnkHeaderSize then none
    else if (buf.drop 4).take 16 ≠ shellLinkClsid then none
    else
      let flags ← readU32 buf 20
      let offset ← skipIdList buf flags lnkHeaderSize
      let (target, offset) ← readLinkInfo buf flags offset
      let offset ← skipString buf flags flagName offset
      let offset ← skipString buf flags flagRelativePath offset
      let offset ← skipString buf flags flagWorkingDir offset
      let (arguments, offset) ← readArguments buf flags offset
      some ({ target, arguments }, offset)

def interpreterBasenames : List Bytes :=
  ["cmd.exe", "powershell.exe", "pwsh.exe", "wscript.exe", "cscript.exe",
    "mshta.exe", "rundll32.exe", "regsvr32.exe", "certutil.exe", "bitsadmin.exe"].map ascii

def argumentMarkers : List Bytes :=
  ["-enc", "-encodedcommand", "-nop", "-noprofile", "-w hidden",
    "-windowstyle hidden", "iex", "invoke-expression",
    "http://", "https://", "downloadstring", "frombase64string"].map ascii

def basenameOf (path : Bytes) : Bytes :=
  (path.reverse.takeWhile fun c => !(c = 92 || c = 47)).reverse

def hasLnkExtension (name : Bytes) : Bool :=
  4 ≤ name.length && equalsCi (name.drop (name.length - 4)) (ascii ".lnk")

inductive LnkPolicy | none | attackShape | suppressAll
  deriving DecidableEq, Repr

def lnkPolicyFor (device : Device) (relativePath : Bytes) : LnkPolicy :=
  if !policyApplies device then .none
  else
    match classify relativePath with
    | .osShortcuts => .attackShape
    | .osComponentStore => .suppressAll
    | _ => .none

def suppress (result : CheckResult) : CheckResult :=
  { result with policySuppressed := result.policySuppressed + 1 }

def targetsInterpreter (p : Parsed) : Bool :=
  p.haveTarget && interpreterBasenames.any (equalsCi (basenameOf p.target))

/-- The first marker the arguments contain. -/
def matchedMarker (p : Parsed) : Option Bytes :=
  if p.haveArguments then argumentMarkers.find? (containsCi p.argumentText) else none

def highMessage (p : Parsed) (sha256Hex : Option Bytes) : Bytes :=
  let markerPart :=
    match matchedMarker p with
    | some marker => cut 96 (ascii " [suspicious argument: " ++ marker ++ ascii "]")
    | none => []
  cut (lnkArgsMax + lnkTargetMax + 128)
    (ascii "target=" ++ (if p.haveTarget then p.target else ascii "(none)") ++
      (if p.haveArguments then ascii " arguments=" ++ p.argumentText else []) ++
      (if targetsInterpreter p then ascii " [interpreter target]" else []) ++ markerPart ++
      ascii " sha256=" ++ sha256Hex.getD (ascii "(unavailable)"))

/-- What a shortcut that was read adds to the result. -/
def judge (grow : ℕ → Bool) (policy : LnkPolicy) (relativePath content : Bytes)
    (sha256Hex : Option Bytes) (result : CheckResult) : CheckResult :=
  match parseLnk content with
  | none =>
    if policy ≠ .none then suppress result
    else
      result.addFinding grow .warning relativePath
        (cut 192 (ascii "malformed or corrupt .lnk file (could not parse)" ++
          (sha256Hex.map fun h => ascii ", sha256=" ++ h).getD []))
  | some (p, _) =>
    let interp := targetsInterpreter p
    let marked := (matchedMarker p).isSome
    if interp || marked then
      if policy = .suppressAll || (policy = .attackShape && !(interp && marked)) then
        suppress result
      else result.addFinding grow .high relativePath (highMessage p sha256Hex)
    else result

def onFile (host : ScanHost) (device : Device) (result : CheckResult) (fullPath : Bytes)
    (entry : DirEntry) (w : World) : CheckResult × World :=
  if !hasLnkExtension entry.name then (result, w)
  else
    let relativePath := relative device.volumePath fullPath
    let policy := lnkPolicyFor device relativePath
    if entry.sizeBytes.toNat > lnkMaxRead then
      if policy ≠ .none then (suppress result, w)
      else
        (result.addFinding (host.findingMemory w.trace) .warning relativePath
          (cut 160 (ascii "oversized .lnk file (" ++ decimal entry.sizeBytes.toNat ++
            ascii " bytes), not parsed")), w)
    else if !host.malloc w.trace then (result, w)
    else
      match w.fileOpen host fullPath with
      | (.error _, w) => (result, w)
      | (.ok file, w) =>
        let content := (readCapped lnkMaxRead file).1
        let sha256Hex :=
          if host.hashBegin w.trace && host.hashFinish w.trace then some (host.sha256Hex content)
          else none
        (judge (host.findingMemory w.trace) policy relativePath content sha256Hex result, w)

theorem judge_identity (grow : ℕ → Bool) (policy : LnkPolicy) (relativePath content : Bytes)
    (sha256Hex : Option Bytes) (result : CheckResult) :
    (judge grow policy relativePath content sha256Hex result).id = result.id ∧
      (judge grow policy relativePath content sha256Hex result).status = result.status := by
  unfold judge
  split
  · split_ifs <;> exact ⟨rfl, rfl⟩
  · simp only
    split_ifs <;> exact ⟨rfl, rfl⟩

/-- Only the shortcut itself is opened, and only when it is small enough to be read. -/
theorem onFile_visits (host : ScanHost) (device : Device) (result : CheckResult)
    (fullPath : Bytes) (entry : DirEntry) (w : World) :
    Visits (fun e => e = .fileOpen fullPath ∧ entry.sizeBytes.toNat ≤ lnkMaxRead) result w
      (onFile host device result fullPath entry w) := by
  unfold onFile
  by_cases hname : hasLnkExtension entry.name = true
  · simp only [hname, Bool.not_true, Bool.false_eq_true, if_false]
    by_cases hsize : entry.sizeBytes.toNat > lnkMaxRead
    · simp only [hsize, if_true]
      split_ifs <;> exact .still rfl rfl
    · simp only [hsize, if_false]
      split_ifs
      · exact .still rfl rfl
      · have hopened : Trace.Continues
            (fun e => e = .fileOpen fullPath ∧ entry.sizeBytes.toNat ≤ lnkMaxRead)
            w.trace (w.record (.fileOpen fullPath)).trace :=
          .record ⟨rfl, Nat.le_of_not_gt hsize⟩
        unfold World.fileOpen
        cases host.fileOpen w.trace fullPath with
        | error e => exact ⟨rfl, rfl, hopened⟩
        | ok file =>
          have hjudge := judge_identity
          exact ⟨(hjudge _ _ _ _ _ _).1, (hjudge _ _ _ _ _ _).2, hopened⟩
  · simp only [hname, Bool.not_false, if_true]
    exact .still rfl rfl

end UsbSentinel.LnkInspect
