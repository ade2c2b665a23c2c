import UsbSentinel.ScanPrefix
import UsbSentinel.WordSums

/-! What the progress callback is told during a scan: the counters after each file. -/
namespace UsbSentinel.Scanner
open ByteString

structure Snapshot where
  filesScanned : ℕ
  bytesScanned : UInt64
  pathsSkipped : ℕ
  deriving DecidableEq

def snapshotEvent : Event → Option Snapshot
  | .progress files bytes skipped => some ⟨files, bytes, skipped⟩
  | _ => none

/-- The calls of the callback, in order. -/
def snapshots (t : Trace) : List Snapshot := t.filterMap snapshotEvent

def sizes (files : List (Bytes × DirEntry)) : List UInt64 := files.map fun f => f.2.sizeBytes

variable {scan : Scan}

lemma handFile_snapshots (path : Bytes) (entry : DirEntry) {slot : Slot}
    (hslot : slot.detector ∈ Registry.detectors) (w : World) :
    snapshots (handFile scan path entry slot w).2.trace = snapshots w.trace := by
  have hrecord : snapshots (w.record (.onFile slot.detector.id path entry)).trace =
      snapshots w.trace := by
    simp [snapshots, snapshotEvent]
  simp only [handFile]
  cases hf : slot.detector.onFile with
  | none => exact hrecord
  | some f =>
    have hvisit := Registry.onFile_visits hslot hf scan.host scan.device slot.result path entry
      (w.record (.onFile slot.detector.id path entry))
    rw [← hrecord]
    refine hvisit.continues.filterMap_eq fun e he => ?_
    rcases he with ⟨p, _, rfl⟩ | ⟨rfl, _⟩ <;> rfl

lemma dispatch_snapshots (path : Bytes) (entry : DirEntry) {slots : List Slot}
    (hslots : Registered slots) (w : World) :
    snapshots (dispatch scan path entry slots w).2.trace = snapshots w.trace := by
  induction slots generalizing w with
  | nil => rfl
  | cons slot rest ih =>
    have hrest := ih fun s hs => hslots s (List.mem_cons_of_mem _ hs)
    simp only [dispatch]
    rw [hrest, handFile_snapshots path entry (hslots slot (List.mem_cons_self ..))]

/-- One call a file, if there is a callback. -/
lemma visitFile_snapshots (path : Bytes) (entry : DirEntry) {st : WalkState}
    (hslots : Registered st.slots) :
    snapshots (visitFile scan path entry st).world.trace =
      snapshots st.world.trace ++
        (if scan.onProgress then
          [⟨st.fileCount + 1, st.byteCount + entry.sizeBytes, st.pathsSkipped⟩] else []) := by
  simp only [visitFile]
  rw [dispatch_snapshots path entry hslots]
  cases scan.onProgress with
  | false => simp [snapshots, snapshotEvent]
  | true =>
    simp only [if_true, World.record_trace, snapshots, List.filterMap_append, List.append_assoc]
    rfl

lemma classifyPathFailure_snapshots (st : WalkState) :
    snapshots (classifyPathFailure scan st).world.trace = snapshots st.world.trace := by
  unfold classifyPathFailure World.dirOpen
  cases scan.host.dirOpen st.world.trace scan.device.volumePath <;>
    simp [snapshots, snapshotEvent]

/-- What the calls so far have told. -/
structure Told (scan : Scan) (st : WalkState) : Prop where
  quiet : scan.onProgress = false → snapshots st.world.trace = []
  files : scan.onProgress = true →
    (snapshots st.world.trace).map Snapshot.filesScanned = List.range' 1 st.fileCount
  bytes : scan.onProgress = true → (snapshots st.world.trace).map Snapshot.bytesScanned =
    WordSums.running 0 (sizes (countedFiles st.world.trace))
  byteCount : st.byteCount = WordSums.final 0 (sizes (countedFiles st.world.trace))
  last : ∀ shot, (snapshots st.world.trace).getLast? = some shot →
    shot.filesScanned = st.fileCount ∧ shot.bytesScanned = st.byteCount
  skipped : ((snapshots st.world.trace).map Snapshot.pathsSkipped).Pairwise (· ≤ ·)
  skippedLe : ∀ shot ∈ snapshots st.world.trace, shot.pathsSkipped ≤ st.pathsSkipped

lemma Told.still {st st' : WalkState} (hst : Told scan st)
    (hsnapshots : snapshots st'.world.trace = snapshots st.world.trace)
    (hcounted : countedFiles st'.world.trace = countedFiles st.world.trace)
    (hfiles : st'.fileCount = st.fileCount) (hbytes : st'.byteCount = st.byteCount)
    (hskipped : st.pathsSkipped ≤ st'.pathsSkipped) : Told scan st' := by
  refine ⟨?_, ?_, ?_, ?_, ?_, ?_, ?_⟩
  · rw [hsnapshots]
    exact hst.quiet
  · rw [hsnapshots, hfiles]
    exact hst.files
  · rw [hsnapshots, hcounted]
    exact hst.bytes
  · rw [hbytes, hcounted]
    exact hst.byteCount
  · rw [hsnapshots, hfiles, hbytes]
    exact hst.last
  · rw [hsnapshots]
    exact hst.skipped
  · rw [hsnapshots]
    exact fun shot hshot => (hst.skippedLe shot hshot).trans hskipped

lemma Told.visited {st : WalkState} (hst : Told scan st) (hslots : Registered st.slots)
    (path : Bytes) (entry : DirEntry) : Told scan (visitFile scan path entry st) := by
  have hsnapshots := @visitFile_snapshots scan path entry st hslots
  have hcounted := @visitFile_counted scan path entry st hslots
  have hsizes : sizes (countedFiles st.world.trace ++ [(path, entry)]) =
      sizes (countedFiles st.world.trace) ++ [entry.sizeBytes] := by
    simp [sizes]
  have hbyteCount : (visitFile scan path entry st).byteCount = WordSums.final 0
      (sizes (countedFiles (visitFile scan path entry st).world.trace)) := by
    rw [hcounted, hsizes, WordSums.final_append, ← hst.byteCount]
    rfl
  cases hprogress : scan.onProgress with
  | false =>
    rw [hprogress] at hsnapshots
    simp only [Bool.false_eq_true, if_false, List.append_nil, hst.quiet hprogress] at hsnapshots
    refine ⟨fun _ => hsnapshots, ?_, ?_, hbyteCount, ?_, ?_, ?_⟩
    · intro h
      rw [hprogress] at h
      cases h
    · intro h
      rw [hprogress] at h
      cases h
    · rw [hsnapshots]
      intro shot h
      cases h
    · rw [hsnapshots]
      exact .nil
    · rw [hsnapshots]
      intro shot h
      cases h
  | true =>
    rw [hprogress] at hsnapshots
    simp only [if_true] at hsnapshots
    refine ⟨?_, fun _ => ?_, fun _ => ?_, hbyteCount, ?_, ?_, ?_⟩
    · intro h
      rw [hprogress] at h
      cases h
    · rw [hsnapshots, List.map_append, hst.files hprogress]
      show List.range' 1 st.fileCount ++ [st.fileCount + 1] = List.range' 1 (st.fileCount + 1)
      rw [List.range'_1_concat, Nat.add_comm]
    · rw [hsnapshots, List.map_append, hst.bytes hprogress, hcounted, hsizes,
        WordSums.running_append, ← hst.byteCount]
      rfl
    · rw [hsnapshots, List.getLast?_concat]
      intro shot h
      obtain rfl := Option.some.inj h
      exact ⟨rfl, rfl⟩
    · rw [hsnapshots, List.map_append, List.pairwise_append]
      refine ⟨hst.skipped, List.pairwise_singleton _ _, ?_⟩
      intro a ha b hb
      obtain ⟨shot, hshot, rfl⟩ := List.mem_map.mp ha
      rw [List.map_singleton, List.mem_singleton] at hb
      rw [hb]
      exact hst.skippedLe shot hshot
    · rw [hsnapshots]
      intro shot hshot
      rcases List.mem_append.mp hshot with hshot | hshot
      · exact hst.skippedLe shot hshot
      · rw [List.mem_singleton.mp hshot]
        exact le_refl st.pathsSkipped

lemma Step.told {D : Bytes → Prop} {F : Bytes → DirEntry → Prop} {st st' : WalkState}
    (h : Step scan D F st st') (hslots : Registered st.slots) (hst : Told scan st) :
    Told scan st' := by
  cases h with
  | poll | cancel | excluded => exact hst.still rfl rfl rfl rfl le_rfl
  | @opened path _ =>
    refine hst.still ?_ (opened_events st.world path []).1 rfl rfl le_rfl
    simp [snapshots, snapshotEvent]
  | failed =>
    have hcounts : (classifyPathFailure scan st).fileCount = st.fileCount ∧
        (classifyPathFailure scan st).byteCount = st.byteCount := by
      unfold classifyPathFailure World.dirOpen
      cases scan.host.dirOpen st.world.trace scan.device.volumePath <;> exact ⟨rfl, rfl⟩
    exact hst.still (classifyPathFailure_snapshots st) (classifyPathFailure_events st []).1
      hcounts.1 hcounts.2 (classifyPathFailure_marks scan st).1.skipped
  | visited => exact hst.visited hslots _ _

lemma Steps.told {D : Bytes → Prop} {F : Bytes → DirEntry → Prop} {st st' : WalkState}
    (h : Steps scan D F st st') (hslots : Registered st.slots) (hst : Told scan st) :
    Told scan st' := by
  induction h with
  | refl => exact hst
  | tail hsteps hlast ih => exact hlast.told ((Steps.slotsKept hsteps hslots).registered hslots) ih

lemma initialState_told (signatures : SignatureState) :
    Told scan (initialState scan signatures) := by
  refine ⟨fun _ => rfl, fun _ => rfl, fun _ => rfl, rfl, ?_, .nil, ?_⟩
  · intro shot h
    cases h
  · intro shot h
    cases h

lemma walkVolume_told (signatures : SignatureState) :
    Told scan (walkVolume scan signatures).2 :=
  (walkVolume_run signatures).told (initialState_registered signatures)
    (initialState_told signatures)

/-- The detectors of the whole volume do not report progress. -/
lemma scannerScan_snapshots (signatures : SignatureState) :
    snapshots (scannerScan scan signatures).2.trace =
      snapshots (walkVolume scan signatures).2.world.trace := by
  cases hincomplete : incomplete (walkVolume scan signatures).1 (walkVolume scan signatures).2 with
  | true => simp [scannerScan, detectorChecks, hincomplete]
  | false =>
    have hopens := Autorun.detectAutorun_opens scan.host scan.device
      ((walkVolume scan signatures).2.world.record (.run Autorun.autorunId))
    have htrace : (scannerScan scan signatures).2 =
        (Autorun.detectAutorun scan.host scan.device
          ((walkVolume scan signatures).2.world.record (.run Autorun.autorunId))).2 := by
      simp [scannerScan, detectorChecks, hincomplete, runWholeCheckDetectors_eq]
    rw [htrace]
    refine (hopens.filterMap_eq ?_).trans (by simp [snapshots, snapshotEvent])
    rintro e (rfl | rfl) <;> rfl

/-- Each call counts one file more, and takes neither bytes nor skips back. -/
structure Forward (shots : List Snapshot) : Prop where
  files : shots.IsChain fun a b => b.filesScanned = a.filesScanned + 1
  bytes : shots.IsChain fun a b => a.bytesScanned ≤ b.bytesScanned
  skipped : shots.IsChain fun a b => a.pathsSkipped ≤ b.pathsSkipped

/-- How the message of a finished traversal begins, for these counts. -/
def countsText (outcome : Bytes) (files : ℕ) (bytes : UInt64) : Bytes :=
  outcome ++ ascii ": " ++ decimal files ++ ascii " file(s), " ++ decimal bytes.toNat ++
    ascii " byte(s)"

/-- The last call has the counts of the message. -/
def StatesLast (shots : List Snapshot) (message : Bytes) : Prop :=
  ∀ last, shots.getLast? = some last →
    ∃ outcome ∈ [ascii "cancelled", ascii "device disconnected", ascii "completed"],
      cut checkMessageMax (countsText outcome last.filesScanned last.bytesScanned) <+: message

/-- The calls of the callback in one scan. -/
def ProgressForward (scan : Scan) (signatures : SignatureState) : Prop :=
  Forward (snapshots (scannerScan scan signatures).2.trace) ∧
    StatesLast (snapshots (scannerScan scan signatures).2.trace)
      (traversalCheck (walkVolume scan signatures).1 (walkVolume scan signatures).2).message

lemma prefix_appendPart (part : Bytes) (message : Bytes × ℕ) :
    message.1 <+: (appendPart part message).1 := by
  unfold appendPart
  split_ifs
  · exact List.prefix_append _ _
  · exact List.prefix_refl _

/-- Remarks are only put behind. -/
lemma remarks_prefix (skipped excluded : Prop) [Decidable skipped] [Decidable excluded]
    (part part' : Bytes) (message : Bytes × ℕ) :
    message.1 <+: (if excluded then
      appendPart part' (if skipped then appendPart part message else message)
      else if skipped then appendPart part message else message).1 := by
  have hskipped : message.1 <+: (if skipped then appendPart part message else message).1 := by
    split_ifs
    · exact prefix_appendPart _ _
    · exact List.prefix_refl _
  split_ifs at hskipped ⊢
  · exact hskipped.trans (prefix_appendPart _ _)
  · exact prefix_appendPart _ _
  · exact hskipped
  · exact hskipped

lemma traversalMessage_counts (st : WalkState) :
    ∃ outcome ∈ [ascii "cancelled", ascii "device disconnected", ascii "completed"],
      cut checkMessageMax (countsText outcome st.fileCount st.byteCount) <+:
        traversalMessage st := by
  refine ⟨if st.cancelled then ascii "cancelled"
    else if st.deviceRemoved then ascii "device disconnected" else ascii "completed", ?_, ?_⟩
  · split_ifs <;> simp
  · unfold traversalMessage
    exact remarks_prefix (st.pathsSkipped > 0) (st.pathsExcluded > 0) _ _ (_, _)

/-- The walk fails only at the root, before anything is counted. -/
lemma walkVolume_ok_or_opened (scan : Scan) (signatures : SignatureState) :
    (walkVolume scan signatures).1 = .ok ∨
      (walkVolume scan signatures).2 =
        (initialState scan signatures).opened scan.device.volumePath := by
  have hgoes : (initialState scan signatures).stopped = false := rfl
  cases hopen : scan.host.dirOpen (initialState scan signatures).world.trace
      scan.device.volumePath with
  | error e =>
    refine .inr ?_
    simp [walkVolume, walkDir, World.dirOpen, hopen, hgoes, WalkState.opened]
  | ok listing =>
    refine .inl ?_
    rw [walkVolume, walkDir_listed scanMaxDepth hgoes hopen]
    exact walkEntries_ok (fun path st => walkDir_ok le_rfl path st) _ _ _

/-- A file was counted only if the root could be opened, and then the walk has not failed. -/
lemma walkVolume_ok_of_counted {signatures : SignatureState}
    (h : countedFiles (walkVolume scan signatures).2.world.trace ≠ []) :
    (walkVolume scan signatures).1 = .ok := by
  rcases walkVolume_ok_or_opened scan signatures with hok | hwalk
  · exact hok
  · refine absurd ?_ h
    rw [hwalk, opened_counted]
    rfl

lemma Told.forward_iff {st : WalkState} (h : Told scan st) (hprogress : scan.onProgress = true) :
    Forward (snapshots st.world.trace) ↔
      WordSums.total (sizes (countedFiles st.world.trace)) < 2 ^ 64 := by
  have hbytes : (snapshots st.world.trace).IsChain (fun a b => a.bytesScanned ≤ b.bytesScanned) ↔
      WordSums.total (sizes (countedFiles st.world.trace)) < 2 ^ 64 := by
    rw [← WordSums.running_zero_forward_iff, ← h.bytes hprogress, List.isChain_map]
  refine ⟨fun hf => hbytes.mp hf.bytes, fun hfits => ⟨?_, hbytes.mpr hfits, ?_⟩⟩
  · have hrange : ((snapshots st.world.trace).map Snapshot.filesScanned).IsChain
        (fun a b => b = a + 1) := by
      rw [h.files hprogress]
      exact List.isChain_range' 1 st.fileCount 1
    exact (List.isChain_map _).mp hrange
  · exact ((List.isChain_map _).mp h.skipped.isChain)

lemma totalBytes_eq (files : List (Bytes × DirEntry)) :
    totalBytes files = WordSums.total (sizes files) := by
  simp [totalBytes, sizes, WordSums.total, Function.comp_def]

theorem progressForward_iff {v : Volume} (hv : v.Presented scan.host scan.device.volumePath)
    (signatures : SignatureState) :
    ∃ seen, countedFiles (walkVolume scan signatures).2.world.trace = seen ∧
      seen <+: volumeShown scan v ∧
      ((walkVolume scan signatures).2.stopped = false → seen = volumeShown scan v) ∧
      (ProgressForward scan signatures ↔
        (scan.onProgress = true → totalBytes seen < 2 ^ 64)) := by
  obtain ⟨seen, hseen, hpre, hall⟩ := walkVolume_counts hv signatures
  refine ⟨seen, hseen, hpre, hall, ?_⟩
  have htold := @walkVolume_told scan signatures
  rw [ProgressForward, scannerScan_snapshots]
  have hlast : StatesLast (snapshots (walkVolume scan signatures).2.world.trace)
      (traversalCheck (walkVolume scan signatures).1 (walkVolume scan signatures).2).message := by
    intro last hshot
    obtain ⟨hfiles, hbytes⟩ := htold.last last hshot
    have hcounted : countedFiles (walkVolume scan signatures).2.world.trace ≠ [] := by
      intro hnone
      cases hprogress : scan.onProgress with
      | false =>
        rw [htold.quiet hprogress] at hshot
        cases hshot
      | true =>
        have hnil := htold.bytes hprogress
        rw [hnone] at hnil
        rw [List.map_eq_nil_iff.mp hnil] at hshot
        cases hshot
    rw [hfiles, hbytes, traversalCheck, if_pos (walkVolume_ok_of_counted hcounted)]
    exact traversalMessage_counts _
  cases hprogress : scan.onProgress with
  | false =>
    refine iff_of_true ⟨?_, hlast⟩ ?_
    · rw [htold.quiet hprogress]
      exact ⟨.nil, .nil, .nil⟩
    · intro h
      cases h
  | true =>
    rw [htold.forward_iff hprogress, hseen, ← totalBytes_eq]
    exact ⟨fun h _ => h.1, fun h => ⟨h rfl, hlast⟩⟩

/-- Two files whose declared sizes add up to more than a word holds. -/
def overfullScan : Scan where
  host := { ScanHost.blank with
    dirOpen := fun _ _ =>
      .ok ⟨[{ name := ascii "a", sizeBytes := 18446744073709551615 }, { name := ascii "b", sizeBytes := 1 }],
        .notFound⟩
    dirOpen_refused := fun h => nomatch h }
  device := { volumePath := ascii "/v" }
  onProgress := true

/-- The second call has no bytes at all. -/
theorem overfull_falls : ¬ ProgressForward overfullScan {} := by
  intro h
  have hbytes := (List.isChain_map Snapshot.bytesScanned).mpr h.1.bytes
  have hshots : (snapshots (scannerScan overfullScan {}).2.trace).map Snapshot.bytesScanned =
      [18446744073709551615, 0] := by decide +kernel
  rw [hshots] at hbytes
  exact absurd hbytes (by decide +kernel)

theorem chain_forward : ProgressForward { chainScan 1 with onProgress := true } {} := by
  obtain ⟨seen, hseen, _, _, hiff⟩ := @progressForward_iff { chainScan 1 with onProgress := true }
    (chainVolume 1) (chainVolume_presented 1) {}
  refine hiff.mpr fun _ => ?_
  rw [← hseen]
  decide +kernel

end UsbSentinel.Scanner
