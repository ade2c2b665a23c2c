import UsbSentinel.HashMatch
import UsbSentinel.ScanReads
import UsbSentinel.SignatureSearch

/-! The size test in front of the hashing: it spares files that could not match, and no
others. -/
namespace UsbSentinel.HashMatch
open ByteString

/-- The cache holds nothing, or what a load has returned. -/
def Loaded (signatures : SignatureState) : Prop :=
  ∀ entries path, signatures.loaded = some (entries, path) →
    ∃ sort realloc grow file, SignatureList.load sort realloc grow file = .ok entries

lemma loaded_fresh : Loaded {} := by
  intro entries path h
  cases h

lemma ensureSignaturesLoaded_loaded {host : ScanHost} {w : World} (h : Loaded w.signatures) :
    Loaded (ensureSignaturesLoaded host w).signatures := by
  unfold ensureSignaturesLoaded
  by_cases hattempted : w.signatures.attempted = true
  · rw [if_pos hattempted]
    exact h
  · rw [if_neg hattempted]
    have hnone : Loaded { attempted := true } := by
      intro entries path h
      cases h
    cases resolveSignaturePath host with
    | none => exact hnone
    | some path =>
      simp only [World.fileOpen]
      cases host.fileOpen w.trace path with
      | error e => exact hnone
      | ok file =>
        simp only
        split
        · exact hnone
        · exact hnone
        · next entries _ hload =>
          intro entries' path' heq
          obtain ⟨rfl, _⟩ := Prod.mk.inj (Option.some.inj heq)
          exact ⟨_, _, _, file, hload⟩

/-- A size that fails the test has no match, whatever the hash. -/
lemma lookup_none_of_size {signatures : SignatureState} (hloaded : Loaded signatures)
    {size : UInt64} (hsize : sizeCanMatch signatures size = false) (hex : Bytes) :
    hashMatchLookup signatures size hex = none := by
  unfold sizeCanMatch at hsize
  unfold hashMatchLookup
  cases hstate : signatures.loaded with
  | none =>
    rw [hstate] at hsize
    have hne : size ≠ fallbackEntry.size := of_decide_eq_false hsize
    exact if_neg fun h => hne h.1
  | some loaded =>
    obtain ⟨entries, path⟩ := loaded
    rw [hstate] at hsize
    obtain ⟨sort, realloc, grow, file, hload⟩ := hloaded entries path hstate
    have hsorted := SignatureList.load_sorted hload
    cases hlookup : SignatureList.lookup entries size hex with
    | none => exact hlookup
    | some name =>
      obtain ⟨e, he, hsame, _⟩ := SignatureList.lookup_eq_some hsorted hlookup
      have hhas := (SignatureList.hasSize_iff hsorted size).mpr ⟨e, he, hsame⟩
      simp only at hsize
      rw [hsize] at hhas
      cases hhas

/-- The callback after its size test. -/
def hashAndLookUp (host : ScanHost) (device : Device) (result : CheckResult) (fullPath : Bytes)
    (entry : DirEntry) (w : World) : CheckResult × World :=
  match w.fileOpen host fullPath with
  | (.error _, w) => (result, w)
  | (.ok file, w) =>
    if !host.hashBegin w.trace then (result, w)
    else if !host.malloc w.trace then (result, w)
    else
      let content := (readChunks readChunk file).1
      if !host.hashFinish w.trace then (result, w)
      else
        let hex := host.sha256Hex content
        match hashMatchLookup w.signatures entry.sizeBytes hex with
        | none => (result, w)
        | some label =>
          (result.addFinding (host.findingMemory w.trace) .high
            (relativePath fullPath device.volumePath)
            (matchMessage w.signatures label hex), w)

/-- The callback without the test: every file within the limit is hashed. -/
def onFileUnfiltered (host : ScanHost) (device : Device) (result : CheckResult)
    (fullPath : Bytes) (entry : DirEntry) (w : World) : CheckResult × World :=
  let w := ensureSignaturesLoaded host w
  let result := setDisclaimer host.kind w.signatures result
  if entry.sizeBytes.toNat > maxFileSize then (result, w)
  else hashAndLookUp host device result fullPath entry w

/-- The file opens and reads without an error to `content`, and there is a hash, a buffer and
room for a finding. -/
structure Hashed (host : ScanHost) (fullPath content : Bytes) (w : World) : Prop where
  opened : ∃ file, host.fileOpen w.trace fullPath = .ok file ∧ file.failAt = none ∧
    file.content = content
  hashBegin : host.hashBegin (w.record (.fileOpen fullPath)).trace = true
  malloc : host.malloc (w.record (.fileOpen fullPath)).trace = true
  hashFinish : host.hashFinish (w.record (.fileOpen fullPath)).trace = true
  room : ∀ n, host.findingMemory (w.record (.fileOpen fullPath)).trace n = true

/-- A finding was pushed. -/
def Pushed (before after : CheckResult) : Prop :=
  ∃ finding, after.findings.items = before.findings.items ++ [finding]

lemma not_pushed_self (r : CheckResult) : ¬ Pushed r r := by
  rintro ⟨finding, h⟩
  have hlength := congrArg List.length h
  rw [List.length_append, List.length_singleton] at hlength
  omega

lemma pushed_addFinding {grow : ℕ → Bool} (hgrow : ∀ n, grow n = true) (r : CheckResult)
    (severity : Severity) (path message : Bytes) :
    Pushed r (r.addFinding grow severity path message) :=
  ⟨_, CheckResult.addFinding_items hgrow r severity path message⟩

lemma hashAndLookUp_pushed_iff {host : ScanHost} {fullPath content : Bytes} {w : World}
    (h : Hashed host fullPath content w) (device : Device) (result : CheckResult)
    (entry : DirEntry) :
    Pushed result (hashAndLookUp host device result fullPath entry w).1 ↔
      (hashMatchLookup w.signatures entry.sizeBytes (host.sha256Hex content)).isSome = true := by
  obtain ⟨file, hopen, hsound, rfl⟩ := h.opened
  unfold hashAndLookUp World.fileOpen
  simp only [hopen, h.hashBegin, h.malloc, h.hashFinish, Bool.not_true, Bool.false_eq_true,
    if_false, readChunks_sound hsound (show 0 < readChunk by decide), World.record_signatures]
  cases hlookup : hashMatchLookup w.signatures entry.sizeBytes (host.sha256Hex file.content) with
  | none => exact iff_of_false (not_pushed_self _) (by simp)
  | some label => exact iff_of_true (pushed_addFinding h.room _ _ _ _) rfl

lemma hashAndLookUp_of_none {host : ScanHost} {w : World} {entry : DirEntry}
    (h : ∀ hex, hashMatchLookup w.signatures entry.sizeBytes hex = none) (device : Device)
    (result : CheckResult) (fullPath : Bytes) :
    (hashAndLookUp host device result fullPath entry w).1 = result := by
  unfold hashAndLookUp World.fileOpen
  cases host.fileOpen w.trace fullPath with
  | error e => rfl
  | ok file =>
    simp only [World.record_signatures, h]
    split_ifs <;> rfl

section Prefilter
variable (host : ScanHost) {w : World} (hloaded : Loaded w.signatures) (device : Device)
  (result : CheckResult) (fullPath : Bytes) (entry : DirEntry)
include hloaded

/-- With and without the test the result is the same, whatever fails on the way. -/
theorem onFile_eq_unfiltered :
    (onFile host device result fullPath entry w).1 =
      (onFileUnfiltered host device result fullPath entry w).1 := by
  have hload : Loaded (ensureSignaturesLoaded host w).signatures :=
    ensureSignaturesLoaded_loaded hloaded
  have hshape : onFile host device result fullPath entry w =
      if entry.sizeBytes.toNat > maxFileSize then
        (setDisclaimer host.kind (ensureSignaturesLoaded host w).signatures result,
          ensureSignaturesLoaded host w)
      else if !sizeCanMatch (ensureSignaturesLoaded host w).signatures entry.sizeBytes then
        (setDisclaimer host.kind (ensureSignaturesLoaded host w).signatures result,
          ensureSignaturesLoaded host w)
      else
        hashAndLookUp host device
          (setDisclaimer host.kind (ensureSignaturesLoaded host w).signatures result) fullPath
          entry (ensureSignaturesLoaded host w) := rfl
  rw [hshape]
  unfold onFileUnfiltered
  split_ifs with hlarge hsize
  · rfl
  · rw [hashAndLookUp_of_none fun hex => lookup_none_of_size hload (by simpa using hsize) hex]
  · rfl

theorem onFile_prefilter :
    (onFile host device result fullPath entry w).1 =
        (onFileUnfiltered host device result fullPath entry w).1 ∧
      (∀ content, entry.sizeBytes.toNat ≤ maxFileSize →
        Hashed host fullPath content (ensureSignaturesLoaded host w) →
        (Pushed result (onFile host device result fullPath entry w).1 ↔
          (hashMatchLookup (ensureSignaturesLoaded host w).signatures entry.sizeBytes
            (host.sha256Hex content)).isSome = true)) ∧
      (maxFileSize < entry.sizeBytes.toNat →
        (onFile host device result fullPath entry w).1.findings = result.findings) := by
  have heq := onFile_eq_unfiltered host hloaded device result fullPath entry
  refine ⟨heq, ?_, ?_⟩
  · intro content hsize hhashed
    rw [heq]
    simp only [onFileUnfiltered, if_neg (not_lt.mpr hsize)]
    exact hashAndLookUp_pushed_iff hhashed device
      (setDisclaimer host.kind (ensureSignaturesLoaded host w).signatures result) entry
  · intro hlarge
    rw [heq]
    simp only [onFileUnfiltered, if_pos hlarge]
    rfl

end Prefilter

open SignatureList in
/-- The list of several entries has been loaded. -/
def listedWorld : World where
  signatures := { attempted := true, loaded := some (severalEntries, ascii "/s") }

lemma listedWorld_loaded : Loaded listedWorld.signatures := by
  intro entries path h
  obtain ⟨rfl, _⟩ := Prod.mk.inj (Option.some.inj h)
  exact ⟨.merge, fun _ => true, fun _ => true, _, SignatureList.severalLines_load⟩

def shortEntry (name : String) : DirEntry := { name := ascii name, sizeBytes := 3 }

/-- A file that is read a byte or two at a time. -/
def shortFile (content : String) : FileStream := { content := ascii content, chunk := fun n => n % 2 }

def shortHost (content : String) : ScanHost :=
  { ScanHost.blank with
    fileOpen := fun _ _ => .ok (shortFile content)
    sha256Hex := fun content =>
      if content = ascii "abc" then SignatureList.abcHash else List.replicate 64 49 }

/-- The file of the listed hash is reported, and the other one, of the same size, is not. -/
theorem onFile_reports_listed :
    Pushed (CheckResult.init hashMatchId)
      (onFile (shortHost "abc") { volumePath := ascii "/v" } (CheckResult.init hashMatchId)
        (ascii "/v/a") (shortEntry "a") listedWorld).1 ∧
    ¬ Pushed (CheckResult.init hashMatchId)
      (onFile (shortHost "abd") { volumePath := ascii "/v" } (CheckResult.init hashMatchId)
        (ascii "/v/b") (shortEntry "b") listedWorld).1 := by
  have hpushed : ∀ content : String, ∀ path : Bytes, ∀ entry : DirEntry, entry.sizeBytes = 3 →
      (Pushed (CheckResult.init hashMatchId)
        (onFile (shortHost content) { volumePath := ascii "/v" } (CheckResult.init hashMatchId)
          path entry listedWorld).1 ↔
        (hashMatchLookup listedWorld.signatures 3
          ((shortHost content).sha256Hex (ascii content))).isSome = true) := by
    intro content path entry hsize
    have h := onFile_prefilter (shortHost content) listedWorld_loaded { volumePath := ascii "/v" }
      (CheckResult.init hashMatchId) path entry
    rw [hsize] at h
    exact h.2.1 (ascii content) (by decide) ⟨⟨_, rfl, rfl, rfl⟩, rfl, rfl, rfl, fun _ => rfl⟩
  have hlooked : (hashMatchLookup listedWorld.signatures 3
      ((shortHost "abc").sha256Hex (ascii "abc"))).isSome = true ∧
      (hashMatchLookup listedWorld.signatures 3
        ((shortHost "abd").sha256Hex (ascii "abd"))).isSome = false := by
    decide +kernel
  refine ⟨(hpushed _ _ _ rfl).mpr hlooked.1, fun h => ?_⟩
  have hfound := (hpushed _ _ _ rfl).mp h
  rw [hlooked.2] at hfound
  cases hfound

end UsbSentinel.HashMatch
