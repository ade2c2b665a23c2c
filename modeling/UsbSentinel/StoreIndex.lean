import UsbSentinel.JsonReader
import UsbSentinel.JsonWriter
import UsbSentinel.Store

/-! The index cache: `index.json` is read back, every other device's entry is carried
over, the written device's entry is rebuilt from its directory, and the file is replaced. -/
namespace UsbSentinel.Store
open ByteString UsbSentinel.Path UsbSentinel.Json

/-- Which allocations of one refresh succeed. -/
structure Memory where
  readBuffer : ℕ → Bool := fun _ => true
  parser : Bool := true
  writer : ℕ → Bool := fun _ => true

def readStep : ℕ := 4096

/-- The buffer keeps room for one more step. Every read but the last returns at least a
byte, so the length of the file bounds the turns. -/
def readLoop (realloc : ℕ → Bool) (file : FileStream) : ℕ → Bytes → ℕ → Except Status Bytes
  | 0, _, _ => .error .internal
  | turns + 1, buf, cap =>
    let grown := if buf.length + readStep > cap then (if cap = 0 then readStep else cap * 2) else cap
    if grown ≠ cap && !realloc grown then .error .noMemory
    else
      match file.read buf.length (grown - buf.length) with
      | .error e => .error e
      | .ok [] => .ok buf
      | .ok got => readLoop realloc file turns (buf ++ got) grown

def readWholeFile {σ : Type} (P : StorePlatform σ) (realloc : ℕ → Bool) (path : Bytes) (s : σ) :
    Except Status Bytes × σ :=
  match P.fileOpenRead path s with
  | (.error e, s₁) => (.error e, s₁)
  | (.ok file, s₁) => (readLoop realloc file (file.content.length + 1) [] 0, s₁)

/-- One device's member of the index; none is a null pointer. -/
structure IndexEntry where
  key : Bytes
  scanId : Option Bytes
  scannedAt : Option Bytes
  count : ℤ
  deriving DecidableEq, Repr

/-- The entry carried over from a member of the old index, if it is another device's and
well formed. -/
def carried (lib : CLib) (safe : Bytes) (m : Bytes × Value lib.Double) : Option IndexEntry :=
  if cstr m.1 = safe then none
  else
    match objectGet m.2 (ascii "last_scan_id"), objectGet m.2 (ascii "last_scan_at"),
      (objectGet m.2 (ascii "report_count")).bind (asInt lib) with
    | some id, some stamp, some count =>
      some { key := cstr m.1, scanId := asString id, scannedAt := asString stamp, count }
    | _, _, _ => none

def writeEntry (realloc : ℕ → Bool) (w : Writer) (entry : IndexEntry) : Writer :=
  let w := Json.key realloc w entry.key
  let w := beginObject realloc w
  let w := memberString realloc w (ascii "last_scan_id") entry.scanId
  let w := memberString realloc w (ascii "last_scan_at") entry.scannedAt
  let w := memberInt realloc w (ascii "report_count") entry.count
  endObject realloc w

def indexSchemaVersion : ℤ := 1

/-- The members of the old index's "devices" object. -/
def oldDevices {ν : Type} (root : Option (Value ν)) : List (Bytes × Value ν) :=
  match root.bind fun r => objectGet r (ascii "devices") with
  | none => []
  | some devices => objectMembers devices

def buildIndex (realloc : ℕ → Bool) (entries : List IndexEntry) : Writer :=
  let w := beginObject realloc {}
  let w := memberInt realloc w (ascii "schema_version") indexSchemaVersion
  let w := Json.key realloc w (ascii "devices")
  let w := beginObject realloc w
  let w := entries.foldl (writeEntry realloc) w
  let w := endObject realloc w
  endObject realloc w

/-- The written device's own entry. -/
def freshEntry (safe : Bytes) (last : LastScan) : List IndexEntry :=
  if last.found then [⟨safe, some last.scanId, some last.scannedAt, last.reportCount⟩] else []

/-- How a refresh ends: early, or with the status of building or writing the file. -/
inductive Refresh
  | skipped
  | unbuilt (status : Status)
  | pathTooLong
  | unwritten (status : Status)
  | written
  deriving DecidableEq, Repr

/-- The parsed old index; missing, unreadable and corrupt files all count as none. -/
def oldIndex {σ : Type} (P : StorePlatform σ) (lib : CLib) (memory : Memory) (path : Bytes)
    (s : σ) : Option (Value lib.Double) × σ :=
  match readWholeFile P memory.readBuffer path s with
  | (.error _, s₁) => (none, s₁)
  | (.ok text, s₁) =>
    if memory.parser then
      match parse lib text with
      | .ok root => (some root, s₁)
      | .error _ => (none, s₁)
    else (none, s₁)

def refreshIndex {σ : Type} (P : StorePlatform σ) (host : Host) (lib : CLib) (memory : Memory)
    (store : Store) (identity : Bytes) (s : σ) : Refresh × σ :=
  match safeId identity storePathMax with
  | .error _ => (.skipped, s)
  | .ok safe =>
    match indexPath host store storePathMax with
    | .error _ => (.skipped, s)
    | .ok path =>
      match lastScan P host store identity s with
      | ((.ok, last), s₁) =>
        match oldIndex P lib memory path s₁ with
        | (root, s₂) =>
          let entries := (oldDevices root).filterMap (carried lib safe) ++ freshEntry safe last
          match finish (buildIndex memory.writer entries) with
          | .error e => (.unbuilt e, s₂)
          | .ok text =>
            let temp := path ++ ascii ".tmp"
            if temp.length ≥ storePathMax then (.pathTooLong, s₂)
            else
              match writeThenReplace P path temp text s₂ with
              | (.ok, s₃) => (.written, s₃)
              | (e, s₃) => (.unwritten e, s₃)
      | (_, s₁) => (.skipped, s₁)

def writeReport {σ : Type} (P : StorePlatform σ) (host : Host) (lib : CLib) (memory : Memory)
    (store : Store) (identity scanId timestamp json : Bytes) (outCap : ℕ) (s : σ) :
    Except Status Bytes × σ :=
  match writeReportFile P host store identity scanId timestamp (ascii "json") json s with
  | (.error e, s₁) => (.error e, s₁)
  | (.ok final, s₁) =>
    (.ok (cut outCap final), (refreshIndex P host lib memory store identity s₁).2)

/-- A file whose reads do not fail is read whole, in whatever pieces it comes. -/
theorem readLoop_of_sound {realloc : ℕ → Bool} {file : FileStream} (hfile : file.failAt = none)
    (hmem : ∀ n, realloc n = true) {turns cap n : ℕ} (hn : n ≤ file.content.length)
    (hturns : file.content.length - n < turns) (hcap : n ≤ cap) (hsize : cap = 0 ∨ readStep ≤ cap) :
    readLoop realloc file turns (file.content.take n) cap = .ok file.content := by
  induction turns generalizing n cap with
  | zero => omega
  | succ turns ih =>
    have hlen : (file.content.take n).length = n := by simp [hn]
    simp only [readLoop, hlen, hmem, Bool.not_true, Bool.and_false, Bool.false_eq_true, if_false]
    generalize hgrown :
      (if n + readStep > cap then (if cap = 0 then readStep else cap * 2) else cap) = grown
    have hask : n < grown ∧ readStep ≤ grown := by
      unfold readStep at *
      split_ifs at hgrown <;> omega
    have hread := ByteStream.Stream.read_of_sound hfile n (grown - n)
    rw [hread]
    split
    · next h => simp at h
    · next h =>
      have hend := ByteStream.Stream.read_nil (by omega) (hread.trans h)
      rw [List.take_of_length_le hend]
    · next got hne h =>
      have hgot := hread.trans h
      rw [ByteStream.Stream.read_extends hgot]
      have hpos : 0 < got.length := by
        rcases got with _ | ⟨b, got⟩
        · exact absurd rfl hne
        · simp
      have hle := ByteStream.Stream.read_length_le hgot
      have hcontent : got.length ≤ file.content.length - n := by
        rw [ByteStream.Stream.read_eq_ok hgot]
        simp only [List.length_take, List.length_drop]
        omega
      exact ih (by omega) (by omega) (by omega) (.inr hask.2)

/-- Whatever is refused, what `readLoop` returns is the whole file. -/
theorem readLoop_eq_ok {realloc : ℕ → Bool} {file : FileStream} {turns cap n : ℕ} {out : Bytes}
    (hcap : n ≤ cap) (hsize : cap = 0 ∨ readStep ≤ cap) (hn : n ≤ file.content.length)
    (h : readLoop realloc file turns (file.content.take n) cap = .ok out) : out = file.content := by
  induction turns generalizing n cap with
  | zero => simp [readLoop] at h
  | succ turns ih =>
    have hlen : (file.content.take n).length = n := by simp [hn]
    simp only [readLoop, hlen] at h
    generalize hgrown :
      (if n + readStep > cap then (if cap = 0 then readStep else cap * 2) else cap) = grown at h
    have hask : n < grown ∧ readStep ≤ grown := by
      unfold readStep at *
      split_ifs at hgrown <;> omega
    split_ifs at h
    split at h
    · simp at h
    · next hread =>
      have hend := ByteStream.Stream.read_nil (by omega) hread
      rw [List.take_of_length_le hend] at h
      exact (Except.ok.inj h).symm
    · next got _ hread =>
      rw [ByteStream.Stream.read_extends hread] at h
      have hle := ByteStream.Stream.read_length_le hread
      have hcontent : got.length ≤ file.content.length - n := by
        rw [ByteStream.Stream.read_eq_ok hread]
        simp only [List.length_take, List.length_drop]
        omega
      exact ih (by omega) (.inr hask.2) (by omega) h

lemma writeReport_eq_ok {σ : Type} {P : StorePlatform σ} {host : Host} {lib : CLib}
    {memory : Memory} {store : Store} {identity scanId timestamp json out : Bytes} {outCap : ℕ}
    {s s' : σ}
    (h : writeReport P host lib memory store identity scanId timestamp json outCap s =
      (.ok out, s')) :
    ∃ final s₁, writeReportFile P host store identity scanId timestamp (ascii "json") json s =
        (.ok final, s₁) ∧ out = cut outCap final ∧
      s' = (refreshIndex P host lib memory store identity s₁).2 := by
  unfold writeReport at h
  split at h
  · simp at h
  · next final s₁ hfile =>
    simp only [Prod.mk.injEq, Except.ok.injEq] at h
    exact ⟨final, s₁, hfile, h.1.symm, h.2.symm⟩

end UsbSentinel.Store
