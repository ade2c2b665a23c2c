import UsbSentinel.ScanEvents

/-! The list of checks in a scan's result: whether each check stands in it once. -/
namespace UsbSentinel.Scanner
open ByteString

variable (scan : Scan)

def expectedIds : List Bytes := traversalId :: Registry.detectors.map Detector.id

/-- A detector ran when its whole check was called or every counted file was handed to it. -/
def WasRun (d : Detector) (t : Trace) : Prop :=
  if d.run.isSome then .run d.id ∈ t else handedFiles d.id t = countedFiles t

/-- What a report of a scan owes its reader. -/
structure ReportsEveryCheck (result : ScanResult) (t : Trace) : Prop where
  once : ∀ id ∈ expectedIds, (result.checks.items.map CheckResult.id).count id = 1
  aborted : result.status = .aborted → ∀ d ∈ Registry.detectors, ∀ check ∈ result.checks.items,
    check.id = d.id → check.status = .skipped ∧ check.findings.items = []
  completed : result.status = .completed → ∀ d ∈ Registry.detectors,
    ∀ check ∈ result.checks.items, check.id = d.id →
      WasRun d t ∨ check.status = .skipped ∨ check.status = .failed

theorem pushChecks_sublist (n : ℕ) (results : List CheckResult) (list : GrowList CheckResult) :
    (pushChecks scan n results list).items.Sublist (list.items ++ results) := by
  induction results generalizing n list with
  | nil => simp [pushChecks]
  | cons r rest ih =>
    unfold pushChecks
    refine (ih (n + 1) (list.push 4 (fun _ => scan.host.checkMemory n) r).2).trans ?_
    rcases list.push_cases 4 (fun _ => scan.host.checkMemory n) r with h | h
    · rw [h, List.append_assoc]
      exact List.Sublist.refl _
    · rw [h]
      exact List.Sublist.append_left (List.sublist_cons_self r rest) list.items

/-- Five pushes: the list grows at the first and at the fifth. -/
theorem pushChecks_five (a b c d e : CheckResult) :
    (pushChecks scan 0 [a, b, c, d, e] {}).items = [a, b, c, d, e] ↔
      scan.host.checkMemory 0 = true ∧ scan.host.checkMemory 4 = true := by
  constructor
  · intro h
    by_contra hmemory
    have hlength := congrArg List.length h
    by_cases h0 : scan.host.checkMemory 0 = true
    · have h4 : scan.host.checkMemory 4 = false := by simpa [h0] using hmemory
      simp [pushChecks, GrowList.push, h0, h4] at hlength
    · have hlost : pushChecks scan 0 [a, b, c, d, e] {} = pushChecks scan 1 [b, c, d, e] {} := by
        simp [pushChecks, GrowList.push, h0]
      have hle := (pushChecks_sublist scan 1 [b, c, d, e] {}).length_le
      rw [hlost] at hlength
      simp only [List.nil_append, List.length_cons, List.length_nil] at hle hlength
      omega
  · rintro ⟨h0, h4⟩
    simp [pushChecks, GrowList.push, h0, h4]

theorem runWholeCheckDetectors_eq (w : World) :
    runWholeCheckDetectors scan wholeCheckDetectors w =
      ([(Autorun.detectAutorun scan.host scan.device (w.record (.run Autorun.autorunId))).1],
        (Autorun.detectAutorun scan.host scan.device (w.record (.run Autorun.autorunId))).2) := rfl

theorem skipWholeCheckDetectors_eq (reason : Bytes) :
    skipWholeCheckDetectors reason =
      [(CheckResult.init Autorun.autorunId).setSkipped reason] := rfl

@[simp] theorem describeLocationPolicy_id (check : CheckResult) :
    (describeLocationPolicy check).id = check.id := by
  unfold describeLocationPolicy
  split_ifs <;> rfl

theorem walkVolume_slot_results (signatures : SignatureState) :
    ∀ s ∈ (walkVolume scan signatures).2.slots,
      s.detector ∈ Registry.detectors ∧ s.result.id = cut checkIdMax s.detector.id ∧
        s.result.status = .ran := by
  intro s hs
  have hmem : (s.detector, s.result.id, s.result.status) ∈
      (initialState scan signatures).slots.map
        fun s => (s.detector, s.result.id, s.result.status) :=
    walkVolume_slots scan signatures ▸ List.mem_map_of_mem hs
  obtain ⟨s₀, hs₀, heq⟩ := List.mem_map.mp hmem
  have hregistered := initialState_registered signatures s₀ hs₀
  simp only [initialState, prepareOnFileSlots] at hs₀
  split_ifs at hs₀
  · obtain ⟨d, _, rfl⟩ := List.mem_map.mp hs₀
    simp only [Prod.mk.injEq] at heq
    obtain ⟨rfl, hid, hstatus⟩ := heq
    exact ⟨hregistered, hid.symm, hstatus.symm⟩
  · simp at hs₀

theorem slots_detectors (signatures : SignatureState) :
    (walkVolume scan signatures).2.slots.map Slot.detector =
      if scan.host.slotsMemory then
        [Registry.suspiciousFilename, Registry.lnkInspect, Registry.hashMatch]
      else [] := by
  have h := congrArg (List.map Prod.fst) (walkVolume_slots scan signatures)
  simp only [List.map_map, Function.comp_def] at h
  rw [show (walkVolume scan signatures).2.slots.map Slot.detector =
    (walkVolume scan signatures).2.slots.map fun s => s.detector from rfl, h]
  unfold initialState prepareOnFileSlots
  cases scan.host.slotsMemory <;> rfl

/-- The ids pushed after the traversal's: all of them, or the whole checks only. -/
theorem detectorChecks_ids (signatures : SignatureState) :
    (detectorChecks scan (walkVolume scan signatures).1 (walkVolume scan signatures).2).1.map
        CheckResult.id =
      if scan.host.slotsMemory then Registry.detectors.map Detector.id
      else [Autorun.autorunId] := by
  have hids : (walkVolume scan signatures).2.slots.map (fun s => cut checkIdMax s.detector.id) =
      if scan.host.slotsMemory then [SuspiciousFilename.suspiciousFilenameId,
        LnkInspect.lnkInspectId, HashMatch.hashMatchId] else [] := by
    have h := congrArg (List.map fun d : Detector => cut checkIdMax d.id)
      (slots_detectors scan signatures)
    rw [List.map_map] at h
    refine h.trans ?_
    cases scan.host.slotsMemory <;> decide
  have hresults : (walkVolume scan signatures).2.slots.map (fun s => s.result.id) =
      (walkVolume scan signatures).2.slots.map (fun s => cut checkIdMax s.detector.id) :=
    List.map_congr_left fun s hs => (walkVolume_slot_results scan signatures s hs).2.1
  have hautorun : cut checkIdMax Autorun.autorunId = Autorun.autorunId := by decide
  have hall : Autorun.autorunId :: (if scan.host.slotsMemory then
        [SuspiciousFilename.suspiciousFilenameId, LnkInspect.lnkInspectId, HashMatch.hashMatchId]
        else []) =
      if scan.host.slotsMemory then Registry.detectors.map Detector.id
      else [Autorun.autorunId] := by
    cases scan.host.slotsMemory <;> rfl
  rw [← hall, ← hids]
  unfold detectorChecks
  by_cases hincomplete :
      incomplete (walkVolume scan signatures).1 (walkVolume scan signatures).2 = true
  · simp [hincomplete, skipWholeCheckDetectors_eq, CheckResult.init, hautorun,
      Function.comp_def]
  · simp [hincomplete, runWholeCheckDetectors_eq, Function.comp_def, hresults]

/-- The results of a scan, in the order they are pushed. -/
def pushedChecks (signatures : SignatureState) : List CheckResult :=
  traversalCheck (walkVolume scan signatures).1 (walkVolume scan signatures).2 ::
    (detectorChecks scan (walkVolume scan signatures).1 (walkVolume scan signatures).2).1

theorem scannerScan_items (signatures : SignatureState) :
    (scannerScan scan signatures).1.checks.items =
      (pushChecks scan 0 (pushedChecks scan signatures) {}).items := rfl

theorem traversalCheck_id (status : Status) (st : WalkState) :
    (traversalCheck status st).id = traversalId := by
  have hid : cut checkIdMax traversalId = traversalId := by decide
  unfold traversalCheck
  simp only
  split_ifs <;> exact hid

theorem pushedChecks_ids (signatures : SignatureState) :
    (pushedChecks scan signatures).map CheckResult.id =
      if scan.host.slotsMemory then expectedIds else [traversalId, Autorun.autorunId] := by
  unfold pushedChecks
  rw [List.map_cons, detectorChecks_ids, traversalCheck_id]
  cases scan.host.slotsMemory <;> rfl

theorem scannerScan_sublist (signatures : SignatureState) :
    (scannerScan scan signatures).1.checks.items.Sublist (pushedChecks scan signatures) := by
  rw [scannerScan_items]
  exact pushChecks_sublist scan 0 (pushedChecks scan signatures) {}

/-- With slots five results are pushed; they all arrive when the list can grow twice. -/
theorem scannerScan_items_eq_iff {signatures : SignatureState}
    (hslots : scan.host.slotsMemory = true) :
    (scannerScan scan signatures).1.checks.items = pushedChecks scan signatures ↔
      scan.host.checkMemory 0 = true ∧ scan.host.checkMemory 4 = true := by
  have hids := pushedChecks_ids scan signatures
  rw [if_pos hslots] at hids
  have hlength : (pushedChecks scan signatures).length = 5 := by
    have h := congrArg List.length hids
    rwa [List.length_map] at h
  rw [scannerScan_items]
  match pushedChecks scan signatures, hlength with
  | [a, b, c, d, e], _ => exact pushChecks_five scan a b c d e

theorem expectedIds_nodup : expectedIds.Nodup := by decide

/-- Each check stands in the report once exactly when no push was lost. -/
theorem once_iff (signatures : SignatureState) :
    (∀ id ∈ expectedIds,
        ((scannerScan scan signatures).1.checks.items.map CheckResult.id).count id = 1) ↔
      scan.host.slotsMemory = true ∧ scan.host.checkMemory 0 = true ∧
        scan.host.checkMemory 4 = true := by
  have hids := pushedChecks_ids scan signatures
  have hsub := scannerScan_sublist scan signatures
  constructor
  · intro honce
    have hall : expectedIds ⊆ (scannerScan scan signatures).1.checks.items.map CheckResult.id :=
      fun id hid => List.count_pos_iff.mp (by rw [honce id hid]; exact Nat.one_pos)
    have hslots : scan.host.slotsMemory = true := by
      by_contra hno
      rw [if_neg hno] at hids
      have hhash : HashMatch.hashMatchId ∈ [traversalId, Autorun.autorunId] := by
        rw [← hids]
        exact (hsub.map CheckResult.id).subset (hall (by decide))
      revert hhash
      decide
    rw [if_pos hslots] at hids
    refine ⟨hslots, (scannerScan_items_eq_iff scan hslots).mp (hsub.eq_of_length_le ?_)⟩
    have hle := (expectedIds_nodup.subperm hall).length_le
    rw [← hids] at hle
    simpa using hle
  · rintro ⟨hslots, hmemory⟩ id hid
    rw [if_pos hslots] at hids
    rw [(scannerScan_items_eq_iff scan hslots).mpr hmemory, hids]
    exact List.count_eq_one_of_mem expectedIds_nodup hid

theorem detector_id_ne_traversal : ∀ d ∈ Registry.detectors, d.id ≠ traversalId := by
  have h : ∀ id ∈ Registry.detectors.map Detector.id, id ≠ traversalId := by decide
  exact fun d hd => h d.id (List.mem_map_of_mem hd)

/-- A check with a detector's id comes from the detectors. -/
theorem mem_detectorChecks {signatures : SignatureState} {d : Detector}
    (hd : d ∈ Registry.detectors) {check : CheckResult}
    (hcheck : check ∈ (scannerScan scan signatures).1.checks.items) (hid : check.id = d.id) :
    check ∈ (detectorChecks scan (walkVolume scan signatures).1
      (walkVolume scan signatures).2).1 := by
  have hpushed := (scannerScan_sublist scan signatures).subset hcheck
  rcases List.mem_cons.mp hpushed with rfl | h
  · rw [traversalCheck_id] at hid
    exact absurd hid.symm (detector_id_ne_traversal d hd)
  · exact h

theorem aborted_skips {signatures : SignatureState}
    (h : (scannerScan scan signatures).1.status = .aborted) {check : CheckResult}
    (hcheck : check ∈ (detectorChecks scan (walkVolume scan signatures).1
      (walkVolume scan signatures).2).1) :
    check.status = .skipped ∧ check.findings.items = [] := by
  have hincomplete :
      incomplete (walkVolume scan signatures).1 (walkVolume scan signatures).2 = true := by
    by_contra hno
    simp [scannerScan, hno] at h
  simp only [detectorChecks, hincomplete, if_true, skipWholeCheckDetectors_eq, List.mem_append,
    List.mem_singleton, List.mem_map] at hcheck
  rcases hcheck with rfl | ⟨slot, _, rfl⟩ <;> exact ⟨rfl, rfl⟩

/-- What the whole checks do after the walk counts and hands over nothing. -/
theorem detectAutorun_events (w : World) (d : Bytes) :
    let out := Autorun.detectAutorun scan.host scan.device (w.record (.run Autorun.autorunId))
    .run Autorun.autorunId ∈ out.2.trace ∧ countedFiles out.2.trace = countedFiles w.trace ∧
      handedFiles d out.2.trace = handedFiles d w.trace := by
  have hopens := Autorun.detectAutorun_opens scan.host scan.device
    (w.record (.run Autorun.autorunId))
  refine ⟨?_, ?_, ?_⟩
  · obtain ⟨events, htrace, _⟩ := hopens
    rw [htrace]
    simp
  · refine (hopens.filterMap_eq ?_).trans (by simp [countedFiles, countedEvent])
    rintro e (rfl | rfl) <;> rfl
  · refine (hopens.filterMap_eq ?_).trans (by simp [handedFiles, handedEvent])
    rintro e (rfl | rfl) <;> rfl

theorem completed_ran {signatures : SignatureState}
    (hslots : scan.host.slotsMemory = true)
    (h : (scannerScan scan signatures).1.status = .completed) {d : Detector}
    (hd : d ∈ Registry.detectors) : WasRun d (scannerScan scan signatures).2.trace := by
  have hcomplete :
      incomplete (walkVolume scan signatures).1 (walkVolume scan signatures).2 = false := by
    by_contra hno
    simp [scannerScan, hno] at h
  have htrace : (scannerScan scan signatures).2 =
      (Autorun.detectAutorun scan.host scan.device
        ((walkVolume scan signatures).2.world.record (.run Autorun.autorunId))).2 := by
    simp [scannerScan, detectorChecks, hcomplete, runWholeCheckDetectors_eq]
  obtain ⟨hrun, hcounted, hhanded⟩ :=
    detectAutorun_events scan (walkVolume scan signatures).2.world d.id
  unfold WasRun
  rw [htrace]
  split_ifs with hwhole
  · have hautorun : d = Registry.autorun := by
      simp only [Registry.detectors, List.mem_cons, List.not_mem_nil, or_false] at hd
      rcases hd with rfl | rfl | rfl | rfl
      · rfl
      all_goals cases hwhole
    rw [hautorun]
    exact hrun
  · have honfile : d.onFile.isSome = true := by
      simp only [Registry.detectors, List.mem_cons, List.not_mem_nil, or_false] at hd
      rcases hd with rfl | rfl | rfl | rfl
      · exact absurd rfl hwhole
      all_goals rfl
    rw [hhanded, hcounted, walkVolume_handed signatures hd honfile, if_pos hslots]

/-- Every call reports every check exactly when the slots of the per-file detectors and the
two growths of the check list get their memory. -/
theorem reportsEveryCheck_iff (signatures : SignatureState) :
    ReportsEveryCheck (scannerScan scan signatures).1 (scannerScan scan signatures).2.trace ↔
      scan.host.slotsMemory = true ∧ scan.host.checkMemory 0 = true ∧
        scan.host.checkMemory 4 = true := by
  constructor
  · exact fun h => (once_iff scan signatures).mp h.once
  · intro hmemory
    refine ⟨(once_iff scan signatures).mpr hmemory, ?_, ?_⟩
    · intro haborted d hd check hcheck hid
      exact aborted_skips scan haborted (mem_detectorChecks scan hd hcheck hid)
    · intro hcompleted d hd check _ _
      exact .inl (completed_ran scan hmemory.1 hcompleted hd)

/-- The empty volume, without memory for the slots. -/
def starved : Scan where
  host := { ScanHost.blank with slotsMemory := false }
  device := { volumePath := ascii "/v/" }

theorem starved_misses_checks :
    ¬ ReportsEveryCheck (scannerScan starved).1 (scannerScan starved).2.trace := by
  intro h
  have hslots := ((once_iff starved {}).mp h.once).1
  cases hslots

end UsbSentinel.Scanner
