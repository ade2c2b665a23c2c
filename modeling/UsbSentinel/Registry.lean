import UsbSentinel.Autorun
import UsbSentinel.HashMatch
import UsbSentinel.LnkInspect
import UsbSentinel.SuspiciousFilename

/-! The detectors a scan runs, in their fixed order. -/
namespace UsbSentinel
open ByteString

/-- `run` is called once after the walk, `onFile` for every file of it. -/
structure Detector where
  id : Bytes
  run : Option (ScanHost → Device → World → CheckResult × World) := none
  onFile : Option (ScanHost → Device → CheckResult → Bytes → DirEntry → World →
    CheckResult × World) := none

namespace Registry

def autorun : Detector := { id := Autorun.autorunId, run := some Autorun.detectAutorun }

def suspiciousFilename : Detector :=
  { id := SuspiciousFilename.suspiciousFilenameId, onFile := some SuspiciousFilename.onFile }

def lnkInspect : Detector := { id := LnkInspect.lnkInspectId, onFile := some LnkInspect.onFile }

def hashMatch : Detector := { id := HashMatch.hashMatchId, onFile := some HashMatch.onFile }

def detectors : List Detector := [autorun, suspiciousFilename, lnkInspect, hashMatch]

/-- What a per-file detector may open for a file. -/
def Opens (host : ScanHost) (path : Bytes) (entry : DirEntry) (e : Event) : Prop :=
  (∃ p, HashMatch.resolveSignaturePath host = some p ∧ e = .fileOpen p) ∨
    (e = .fileOpen path ∧ entry.sizeBytes.toNat ≤ HashMatch.maxFileSize)

/-- Every registered per-file detector keeps to that, and to its own result. -/
theorem onFile_visits {d : Detector} (hd : d ∈ detectors) {f} (hf : d.onFile = some f)
    (host : ScanHost) (device : Device) (result : CheckResult) (path : Bytes)
    (entry : DirEntry) (w : World) :
    Visits (Opens host path entry) result w (f host device result path entry w) := by
  simp only [detectors, List.mem_cons, List.not_mem_nil, or_false] at hd
  rcases hd with rfl | rfl | rfl | rfl
  · cases hf
  · cases hf
    exact (SuspiciousFilename.onFile_visits host device result path entry w).mono
      fun _ h => h.elim
  · cases hf
    refine (LnkInspect.onFile_visits host device result path entry w).mono fun e he => ?_
    have hle : LnkInspect.lnkMaxRead ≤ HashMatch.maxFileSize := by decide
    exact Or.inr ⟨he.1, he.2.trans hle⟩
  · cases hf
    exact HashMatch.onFile_visits host device result path entry w

end Registry
end UsbSentinel
