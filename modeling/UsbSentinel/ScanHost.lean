import UsbSentinel.Device
import UsbSentinel.Path
import UsbSentinel.SignatureList

/-! What a scan runs on: the host that answers its calls, and the trace of the calls and
callbacks made so far. Every answer may depend on the whole trace before it. -/
namespace UsbSentinel
open ByteString

inductive Event
  | dirOpen (path : Bytes)
  | fileOpen (path : Bytes)
  | counted (path : Bytes) (entry : DirEntry)
  | progress (files : ℕ) (bytes : UInt64) (skipped : ℕ)
  | onFile (detector path : Bytes) (entry : DirEntry)
  | run (detector : Bytes)
  deriving DecidableEq, Repr

abbrev Trace := List Event

structure ScanHost where
  kind : Path.Host
  dirOpen : Trace → Bytes → Except Status Listing
  fileOpen : Trace → Bytes → Except Status FileStream
  malloc : Trace → Bool := fun _ => true
  hashBegin : Trace → Bool := fun _ => true
  hashFinish : Trace → Bool := fun _ => true
  sha256Hex : Bytes → Bytes
  getenv : Bytes → Option Bytes := fun _ => none
  findingMemory : Trace → ℕ → Bool := fun _ _ => true
  /-- Whether the slots of the per-file detectors can be allocated. -/
  slotsMemory : Bool := true
  /-- Whether the n-th push to the check list can grow it. -/
  checkMemory : ℕ → Bool := fun _ => true
  signatureSort : SignatureList.SizeSort
  signatureRealloc : ℕ → Bool := fun _ => true
  signatureGrow : ℕ → Bool := fun _ => true
  /-- Refusals carry an error. -/
  dirOpen_refused : ∀ {t path e}, dirOpen t path = .error e → e ≠ .ok

/-- An empty volume on a host where nothing fails. -/
def ScanHost.blank : ScanHost where
  kind := .posix
  dirOpen _ _ := .ok ⟨[], .notFound⟩
  fileOpen _ _ := .error .notFound
  sha256Hex _ := []
  signatureSort := .merge
  dirOpen_refused h := nomatch h

/-- The signature cache of the process: whether loading was tried, and the entries in use
with the file they came from. -/
structure SignatureState where
  attempted : Bool := false
  loaded : Option (List Signature × Bytes) := none
  deriving DecidableEq, Repr

structure World where
  trace : Trace := []
  signatures : SignatureState := {}

namespace World
variable (host : ScanHost)

def record (w : World) (e : Event) : World := { w with trace := w.trace ++ [e] }

def dirOpen (w : World) (path : Bytes) : Except Status Listing × World :=
  (host.dirOpen w.trace path, w.record (.dirOpen path))

def fileOpen (w : World) (path : Bytes) : Except Status FileStream × World :=
  (host.fileOpen w.trace path, w.record (.fileOpen path))

@[simp] theorem record_trace (w : World) (e : Event) : (w.record e).trace = w.trace ++ [e] := rfl

@[simp] theorem record_signatures (w : World) (e : Event) :
    (w.record e).signatures = w.signatures := rfl

@[simp] theorem dirOpen_fst (w : World) (path : Bytes) :
    (w.dirOpen host path).1 = host.dirOpen w.trace path := rfl

@[simp] theorem dirOpen_snd (w : World) (path : Bytes) :
    (w.dirOpen host path).2 = w.record (.dirOpen path) := rfl

@[simp] theorem fileOpen_fst (w : World) (path : Bytes) :
    (w.fileOpen host path).1 = host.fileOpen w.trace path := rfl

@[simp] theorem fileOpen_snd (w : World) (path : Bytes) :
    (w.fileOpen host path).2 = w.record (.fileOpen path) := rfl

end World

/-- `new` continues `old` by events that satisfy `P`. -/
def Trace.Continues (P : Event → Prop) (old new : Trace) : Prop :=
  ∃ events, new = old ++ events ∧ ∀ e ∈ events, P e

namespace Trace.Continues
variable {P Q : Event → Prop} {a b c : Trace}

theorem refl (P : Event → Prop) (a : Trace) : Continues P a a := ⟨[], by simp, by simp⟩

theorem trans (hab : Continues P a b) (hbc : Continues P b c) : Continues P a c := by
  obtain ⟨e, rfl, he⟩ := hab
  obtain ⟨e', rfl, he'⟩ := hbc
  refine ⟨e ++ e', List.append_assoc a e e', ?_⟩
  intro x hx
  exact (List.mem_append.mp hx).elim (he x) (he' x)

theorem mono (hPQ : ∀ e, P e → Q e) (h : Continues P a b) : Continues Q a b := by
  obtain ⟨e, rfl, he⟩ := h
  exact ⟨e, rfl, fun x hx => hPQ x (he x hx)⟩

theorem record {w : World} {e : Event} (h : P e) : Continues P w.trace (w.record e).trace :=
  ⟨[e], rfl, by simpa using h⟩

/-- What no continuing event is counted by, a count of the trace does not see. -/
theorem filterMap_eq {β : Type} {f : Event → Option β} (h : Continues P a b)
    (hf : ∀ e, P e → f e = none) : b.filterMap f = a.filterMap f := by
  obtain ⟨e, rfl, he⟩ := h
  rw [List.filterMap_append, List.filterMap_eq_nil_iff.mpr fun x hx => hf x (he x hx),
    List.append_nil]

end Trace.Continues

/-- What a per-file callback may do: it keeps the identity and status of its result, and
causes events of one kind only. -/
structure Visits (P : Event → Prop) (result : CheckResult) (w : World)
    (out : CheckResult × World) : Prop where
  id_eq : out.1.id = result.id
  status_eq : out.1.status = result.status
  continues : Trace.Continues P w.trace out.2.trace

namespace Visits
variable {P Q : Event → Prop} {result r : CheckResult} {w : World} {out : CheckResult × World}

theorem still (hid : r.id = result.id) (hstatus : r.status = result.status) :
    Visits P result w (r, w) := ⟨hid, hstatus, .refl P _⟩

theorem mono (hPQ : ∀ e, P e → Q e) (h : Visits P result w out) : Visits Q result w out :=
  ⟨h.id_eq, h.status_eq, h.continues.mono hPQ⟩

end Visits

/-- The bytes a loop of reads collects, and the error that ended it, if one did. `ask`
says how much is asked for after so many bytes; every read but the last returns at least
a byte, so the length of the file bounds the turns. -/
def readLoop (file : FileStream) (ask : ℕ → ℕ) : ℕ → Bytes → Bytes × Option Status
  | 0, buf => (buf, none)
  | turns + 1, buf =>
    if ask buf.length = 0 then (buf, none)
    else
      match file.read buf.length (ask buf.length) with
      | .error e => (buf, some e)
      | .ok [] => (buf, none)
      | .ok got => readLoop file ask turns (buf ++ got)

/-- Reading at most `cap` bytes into one buffer. -/
def readCapped (cap : ℕ) (file : FileStream) : Bytes × Option Status :=
  readLoop file (cap - ·) (file.content.length + 1) []

/-- Reading to the end in chunks. -/
def readChunks (chunk : ℕ) (file : FileStream) : Bytes × Option Status :=
  readLoop file (fun _ => chunk) (file.content.length + 1) []

end UsbSentinel
