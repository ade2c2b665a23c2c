import UsbSentinel.ScanSteps

/-! What the trace says was counted and handed over. Every file a walk counts is handed
once to each slot. -/
namespace UsbSentinel.Scanner
open ByteString

def countedEvent : Event → Option (Bytes × DirEntry)
  | .counted path entry => some (path, entry)
  | _ => none

def handedEvent (detector : Bytes) : Event → Option (Bytes × DirEntry)
  | .onFile d path entry => if d = detector then some (path, entry) else none
  | _ => none

/-- The files counted, in order. -/
def countedFiles (t : Trace) : List (Bytes × DirEntry) := t.filterMap countedEvent

/-- The files handed to a detector, in order. -/
def handedFiles (detector : Bytes) (t : Trace) : List (Bytes × DirEntry) :=
  t.filterMap (handedEvent detector)

variable {scan : Scan} {D : Bytes → Prop} {F : Bytes → DirEntry → Prop}

theorem opens_uncounted {path : Bytes} {entry : DirEntry} {e : Event}
    (h : Registry.Opens scan.host path entry e) :
    countedEvent e = none ∧ ∀ d, handedEvent d e = none := by
  rcases h with ⟨p, _, rfl⟩ | ⟨rfl, _⟩ <;> exact ⟨rfl, fun _ => rfl⟩

/-- One slot: the hand-over itself, and nothing else that counts. -/
theorem handFile_events (path : Bytes) (entry : DirEntry) {slot : Slot}
    (hslot : slot.detector ∈ Registry.detectors) (w : World) (d : Bytes) :
    countedFiles (handFile scan path entry slot w).2.trace = countedFiles w.trace ∧
      handedFiles d (handFile scan path entry slot w).2.trace =
        handedFiles d w.trace ++ (if slot.detector.id = d then [(path, entry)] else []) := by
  have hrecord : countedFiles (w.record (.onFile slot.detector.id path entry)).trace =
      countedFiles w.trace := by
    simp [countedFiles, countedEvent]
  have hhanded : handedFiles d (w.record (.onFile slot.detector.id path entry)).trace =
      handedFiles d w.trace ++ (if slot.detector.id = d then [(path, entry)] else []) := by
    by_cases hd : slot.detector.id = d <;> simp [handedFiles, handedEvent, hd]
  simp only [handFile]
  cases hf : slot.detector.onFile with
  | none => exact ⟨hrecord, hhanded⟩
  | some f =>
    have hvisit := Registry.onFile_visits hslot hf scan.host scan.device slot.result path entry
      (w.record (.onFile slot.detector.id path entry))
    constructor
    · rw [← hrecord]
      exact hvisit.continues.filterMap_eq fun e he => (opens_uncounted he).1
    · rw [← hhanded]
      exact hvisit.continues.filterMap_eq fun e he => (opens_uncounted he).2 d

theorem dispatch_events (path : Bytes) (entry : DirEntry) {slots : List Slot}
    (hslots : Registered slots) (w : World) (d : Bytes) :
    countedFiles (dispatch scan path entry slots w).2.trace = countedFiles w.trace ∧
      handedFiles d (dispatch scan path entry slots w).2.trace =
        handedFiles d w.trace ++
          List.replicate (slots.countP fun s => s.detector.id = d) (path, entry) := by
  induction slots generalizing w with
  | nil => simp [dispatch]
  | cons slot rest ih =>
    have hslot := @handFile_events scan path entry slot (hslots slot (List.mem_cons_self ..)) w d
    have hrest := fun w' => ih (fun s hs => hslots s (List.mem_cons_of_mem _ hs)) w'
    simp only [dispatch]
    constructor
    · exact (hrest _).1.trans hslot.1
    · rw [(hrest _).2, hslot.2]
      by_cases hd : slot.detector.id = d
      · simp [hd, List.replicate_succ]
      · simp [hd]

theorem visitFile_events (path : Bytes) (entry : DirEntry) {st : WalkState}
    (hslots : Registered st.slots) (d : Bytes) :
    countedFiles (visitFile scan path entry st).world.trace =
        countedFiles st.world.trace ++ [(path, entry)] ∧
      handedFiles d (visitFile scan path entry st).world.trace =
        handedFiles d st.world.trace ++
          List.replicate (st.slots.countP fun s => s.detector.id = d) (path, entry) := by
  simp only [visitFile]
  obtain ⟨hcounted, hhanded⟩ := dispatch_events path entry hslots
    (if scan.onProgress then
      (st.world.record (.counted path entry)).record
        (.progress (st.fileCount + 1) (st.byteCount + entry.sizeBytes) st.pathsSkipped)
      else st.world.record (.counted path entry)) d
  rw [hcounted, hhanded]
  cases scan.onProgress <;> simp [countedFiles, handedFiles, countedEvent, handedEvent]

theorem classifyPathFailure_events (st : WalkState) (d : Bytes) :
    countedFiles (classifyPathFailure scan st).world.trace = countedFiles st.world.trace ∧
      handedFiles d (classifyPathFailure scan st).world.trace =
        handedFiles d st.world.trace := by
  unfold classifyPathFailure World.dirOpen
  cases scan.host.dirOpen st.world.trace scan.device.volumePath <;>
    simp [countedFiles, handedFiles, countedEvent, handedEvent]

theorem opened_events (w : World) (path d : Bytes) :
    countedFiles (w.record (.dirOpen path)).trace = countedFiles w.trace ∧
      handedFiles d (w.record (.dirOpen path)).trace = handedFiles d w.trace := by
  simp [countedFiles, handedFiles, countedEvent, handedEvent]

/-- How many slots have the detector. -/
def slotCount (slots : List Slot) (d : Bytes) : ℕ := slots.countP fun s => s.detector.id = d

theorem SlotsKept.slotCount_eq {st st' : WalkState} (h : SlotsKept st st') (d : Bytes) :
    slotCount st'.slots d = slotCount st.slots d := by
  have hids := congrArg (List.map fun x : Detector × Bytes × CheckStatus => x.1.id) h
  have hcount := congrArg (List.countP fun x : Bytes => x = d) hids
  simpa [slotCount, List.countP_map, Function.comp_def] using hcount

/-- Each counted file has been handed to the detector as often as it has slots. -/
def HandsOver (d : Bytes) (st : WalkState) : Prop :=
  handedFiles d st.world.trace =
    (countedFiles st.world.trace).flatMap fun f => List.replicate (slotCount st.slots d) f

theorem Step.handsOver {d : Bytes} {st st' : WalkState} (h : Step scan D F st st')
    (hslots : Registered st.slots) (hst : HandsOver d st) : HandsOver d st' := by
  have hcount := (h.slotsKept hslots).slotCount_eq d
  unfold HandsOver at hst ⊢
  rw [hcount]
  cases h with
  | poll | cancel | excluded => exact hst
  | opened =>
    obtain ⟨hc, hh⟩ := opened_events st.world _ d
    rw [hc, hh]
    exact hst
  | failed =>
    obtain ⟨hc, hh⟩ := classifyPathFailure_events st d
    rw [hc, hh]
    exact hst
  | visited =>
    obtain ⟨hc, hh⟩ := visitFile_events _ _ hslots d
    rw [hc, hh, hst]
    simp [slotCount]

theorem Steps.handsOver {d : Bytes} {st st' : WalkState} (h : Steps scan D F st st')
    (hslots : Registered st.slots) (hst : HandsOver d st) : HandsOver d st' := by
  induction h with
  | refl => exact hst
  | tail hsteps hlast ih => exact hlast.handsOver ((Steps.slotsKept hsteps hslots).registered hslots) ih

theorem walkVolume_handsOver (scan : Scan) (signatures : SignatureState) (d : Bytes) :
    HandsOver d (walkVolume scan signatures).2 :=
  (walkVolume_run signatures).handsOver (initialState_registered signatures) rfl

/-- With slots, every registered per-file detector has exactly one. -/
theorem slotCount_initial (signatures : SignatureState) {d : Detector}
    (hd : d ∈ Registry.detectors) (hf : d.onFile.isSome = true) :
    slotCount (initialState scan signatures).slots d.id =
      if scan.host.slotsMemory then 1 else 0 := by
  unfold initialState prepareOnFileSlots
  cases scan.host.slotsMemory with
  | false => rfl
  | true =>
    change slotCount ((Registry.detectors.filter fun d => d.onFile.isSome).map
      fun d => ⟨d, CheckResult.init d.id⟩) d.id = 1
    simp only [Registry.detectors, List.mem_cons, List.not_mem_nil, or_false] at hd
    rcases hd with rfl | rfl | rfl | rfl
    · cases hf
    · decide
    · decide
    · decide

/-- What a walk counts it hands to every registered per-file detector, if there are slots. -/
theorem walkVolume_handed (signatures : SignatureState) {d : Detector}
    (hd : d ∈ Registry.detectors) (hf : d.onFile.isSome = true) :
    handedFiles d.id (walkVolume scan signatures).2.world.trace =
      if scan.host.slotsMemory then countedFiles (walkVolume scan signatures).2.world.trace
      else [] := by
  have hcount := (walkVolume_slots scan signatures).slotCount_eq d.id
  rw [slotCount_initial signatures hd hf] at hcount
  rw [walkVolume_handsOver scan signatures d.id, hcount]
  cases scan.host.slotsMemory <;> simp

end UsbSentinel.Scanner
