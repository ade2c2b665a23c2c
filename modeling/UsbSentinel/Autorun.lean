import UsbSentinel.AsciiCase
import UsbSentinel.ScanHost

/-! The autorun.inf inspection. It lists the volume root itself, after the walk. -/
namespace UsbSentinel.Autorun
open ByteString UsbSentinel.Path

def autorunId : Bytes := ascii "autorun_inspection"
def autorunFilename : Bytes := ascii "autorun.inf"
def autorunMaxRead : ℕ := 8192

/-- Directories are passed over; reparse points are not. -/
def isAutorunEntry (e : DirEntry) : Bool := !e.isDirectory && equalsCi e.name autorunFilename

def findAutorunName (host : ScanHost) (volumePath : Bytes) (w : World) : Option Bytes × World :=
  match w.dirOpen host volumePath with
  | (.error _, w) => (none, w)
  | (.ok listing, w) =>
    match listing.entries.find? isAutorunEntry with
    | none => (none, w)
    | some e => (if 0 < e.name.length ∧ e.name.length < nameMax then some e.name else none, w)

def finding (grow : ℕ → Bool) (result : CheckResult) (name content : Bytes) : CheckResult :=
  let hasOpen := containsCi (cstr content) (ascii "open=")
  let hasShellexec := containsCi (cstr content) (ascii "shellexecute=")
  if hasOpen || hasShellexec then
    result.addFinding grow .warning name
      (ascii "autorun.inf present and specifies a launch command (" ++
        (if hasOpen then ascii "open=" else ascii "shellexecute=") ++ ascii ")")
  else
    result.addFinding grow .info name
      (ascii "autorun.inf present (" ++ decimal content.length ++
        ascii " bytes), no launch command found")

def detectAutorun (host : ScanHost) (device : Device) (w : World) : CheckResult × World :=
  let result := CheckResult.init autorunId
  match findAutorunName host device.volumePath w with
  | (found, w) =>
    let name := found.getD autorunFilename
    match pathJoin host.kind (volumePathMax + nameMax) device.volumePath name with
    | .error _ => (result.setFailed (ascii "path too long"), w)
    | .ok path =>
      match w.fileOpen host path with
      | (.error .notFound, w) => (result, w)
      | (.error e, w) => (result.setFailed (statusString e), w)
      | (.ok file, w) =>
        match readCapped autorunMaxRead file with
        | (_, some e) => (result.setFailed (statusString e), w)
        | (content, none) => (finding (host.findingMemory w.trace) result name content, w)

@[simp] theorem finding_id (grow : ℕ → Bool) (result : CheckResult) (name content : Bytes) :
    (finding grow result name content).id = result.id := by
  simp only [finding]
  split_ifs <;> rfl

@[simp] theorem detectAutorun_id (host : ScanHost) (device : Device) (w : World) :
    (detectAutorun host device w).1.id = autorunId := by
  unfold detectAutorun
  simp only
  split
  · rfl
  · split
    · rfl
    · rfl
    · split
      · rfl
      · rw [finding_id]
        rfl

/-- The name a listing of the root leads to: its first match, or else the literal name. -/
def pickName : Except Status Listing → Bytes
  | .error _ => autorunFilename
  | .ok listing =>
    match listing.entries.find? isAutorunEntry with
    | none => autorunFilename
    | some e => if 0 < e.name.length ∧ e.name.length < nameMax then e.name else autorunFilename

theorem findAutorunName_eq (host : ScanHost) (volumePath : Bytes) (w : World) :
    (findAutorunName host volumePath w).1.getD autorunFilename =
        pickName (host.dirOpen w.trace volumePath) ∧
      (findAutorunName host volumePath w).2 = w.record (.dirOpen volumePath) := by
  unfold findAutorunName pickName World.dirOpen
  cases host.dirOpen w.trace volumePath with
  | error e => exact ⟨rfl, rfl⟩
  | ok listing =>
    cases hfind : listing.entries.find? isAutorunEntry with
    | none =>
      simp only [hfind]
      exact ⟨rfl, trivial⟩
    | some e =>
      simp only [hfind]
      refine ⟨?_, trivial⟩
      split_ifs <;> rfl

/-- What the detector causes: the listing of the root, and then at most one opening. -/
def Opens (host : ScanHost) (device : Device) (w : World) (e : Event) : Prop :=
  e = .dirOpen device.volumePath ∨
    e = .fileOpen
      (joined host.kind device.volumePath (pickName (host.dirOpen w.trace device.volumePath)))

theorem detectAutorun_opens (host : ScanHost) (device : Device) (w : World) :
    Trace.Continues (Opens host device w) w.trace (detectAutorun host device w).2.trace := by
  obtain ⟨hname, hworld⟩ := findAutorunName_eq host device.volumePath w
  unfold detectAutorun
  rw [show findAutorunName host device.volumePath w =
    ((findAutorunName host device.volumePath w).1, w.record (.dirOpen device.volumePath)) from
    Prod.ext rfl hworld]
  simp only [hname]
  have hroot : Trace.Continues (Opens host device w) w.trace
      (w.record (.dirOpen device.volumePath)).trace := .record (.inl rfl)
  split
  · exact hroot
  · rename_i path hjoin
    have hpath := (pathJoin_eq_ok.mp hjoin).1
    have hopened : Trace.Continues (Opens host device w) w.trace
        ((w.record (.dirOpen device.volumePath)).record (.fileOpen path)).trace :=
      hroot.trans (.record (.inr (by rw [hpath])))
    split
    · rename_i h
      exact (congrArg Prod.snd h) ▸ hopened
    · rename_i h
      exact (congrArg Prod.snd h) ▸ hopened
    · rename_i h
      have hw := congrArg Prod.snd h
      split
      · exact hw ▸ hopened
      · exact hw ▸ hopened

end UsbSentinel.Autorun
