import UsbSentinel.ScanPrefix
import UsbSentinel.Verdict

/-! The disclaimer of the hash check: it is set anew for every file, so that a scan without a
file leaves it out. -/
namespace UsbSentinel.HashMatch
open ByteString

variable (host : ScanHost)

lemma ensureSignaturesLoaded_attempted (w : World) :
    (ensureSignaturesLoaded host w).signatures.attempted = true := by
  unfold ensureSignaturesLoaded
  split_ifs with hattempted
  · exact hattempted
  · cases resolveSignaturePath host with
    | none => rfl
    | some path =>
      simp only [World.fileOpen]
      cases host.fileOpen w.trace path with
      | error e => rfl
      | ok file =>
        simp only
        split <;> rfl

lemma ensureSignaturesLoaded_of_attempted {w : World} (h : w.signatures.attempted = true) :
    ensureSignaturesLoaded host w = w := by
  rw [ensureSignaturesLoaded, if_pos h]

/-- What the callback leaves behind for any file. -/
structure Disclaims (result : CheckResult) (w : World) (out : CheckResult × World) : Prop where
  signatures : out.2.signatures = (ensureSignaturesLoaded host w).signatures
  message : out.1.message = cut checkMessageMax (disclaimer host.kind out.2.signatures)
  policy : out.1.policySuppressed = result.policySuppressed ∧
    out.1.policyLowered = result.policyLowered

lemma onFile_disclaims (device : Device) (result : CheckResult) (fullPath : Bytes)
    (entry : DirEntry) (w : World) :
    Disclaims host result w (onFile host device result fullPath entry w) := by
  simp only [onFile]
  split_ifs with hlarge hsize
  · exact ⟨rfl, rfl, rfl, rfl⟩
  · exact ⟨rfl, rfl, rfl, rfl⟩
  · unfold World.fileOpen
    cases host.fileOpen (ensureSignaturesLoaded host w).trace fullPath with
    | error e => exact ⟨rfl, rfl, rfl, rfl⟩
    | ok file =>
      simp only
      split_ifs
      · exact ⟨rfl, rfl, rfl, rfl⟩
      · exact ⟨rfl, rfl, rfl, rfl⟩
      · exact ⟨rfl, rfl, rfl, rfl⟩
      · split <;> exact ⟨rfl, rfl, rfl, rfl⟩

lemma disclaimer_ne_nil (kind : Path.Host) (signatures : SignatureState) :
    cut checkMessageMax (disclaimer kind signatures) ≠ [] := by
  have hfallback : cut checkMessageMax (ascii "NON-PRODUCTION EXAMPLE: matched against 1 hardcoded test hash (EICAR only) - this is NOT a real malware signature database") ≠ [] := by
    rw [ascii_ofList]
    decide
  unfold disclaimer
  cases signatures.loaded with
  | none => exact hfallback
  | some loaded =>
    intro h
    have hlength := congrArg List.length h
    rw [cut_length] at hlength
    simp only [List.length_append, List.length_nil, checkMessageMax] at hlength
    have hascii : (ascii "Matched against ").length = 16 := ascii_length _
    omega

end UsbSentinel.HashMatch

namespace UsbSentinel.Scanner
open ByteString

lemma lnk_keeps_signatures (host : ScanHost) (device : Device) (result : CheckResult)
    (fullPath : Bytes) (entry : DirEntry) (w : World) :
    (LnkInspect.onFile host device result fullPath entry w).2.signatures = w.signatures := by
  rw [LnkInspect.onFile_eq host device result fullPath entry w _ rfl]
  unfold LnkInspect.examine
  split_ifs
  · rfl
  · rfl
  · rfl
  · rfl
  · unfold World.fileOpen
    cases host.fileOpen w.trace fullPath <;> rfl

lemma autorun_keeps_signatures (host : ScanHost) (device : Device) (w : World) :
    (Autorun.detectAutorun host device w).2.signatures = w.signatures := by
  obtain ⟨_, hworld⟩ := Autorun.findAutorunName_eq host device.volumePath w
  unfold Autorun.detectAutorun
  rw [show Autorun.findAutorunName host device.volumePath w =
    ((Autorun.findAutorunName host device.volumePath w).1, w.record (.dirOpen device.volumePath))
    from Prod.ext rfl hworld]
  simp only
  cases Path.pathJoin host.kind (volumePathMax + nameMax) device.volumePath
      ((Autorun.findAutorunName host device.volumePath w).1.getD Autorun.autorunFilename) with
  | error e => rfl
  | ok path =>
    unfold World.fileOpen
    simp only
    cases host.fileOpen (w.record (.dirOpen device.volumePath)).trace path with
    | error e => cases e <;> rfl
    | ok file =>
      simp only
      split <;> rfl

variable {scan : Scan}

/-- Only the hash detector loads signatures. -/
lemma handFile_keeps {path : Bytes} {entry : DirEntry} {slot : Slot}
    (hslot : slot.detector ∈ Registry.detectors) (w : World)
    (h : slot.detector ≠ Registry.hashMatch ∨ w.signatures.attempted = true) :
    (handFile scan path entry slot w).2.signatures = w.signatures := by
  obtain ⟨detector, result⟩ := slot
  simp only [Registry.detectors, List.mem_cons, List.not_mem_nil, or_false] at hslot
  rcases hslot with rfl | rfl | rfl | rfl
  · rfl
  · show (SuspiciousFilename.onFile _ _ _ _ _ _).2.signatures = _
    rw [SuspiciousFilename.onFile_eq]
    rfl
  · exact lnk_keeps_signatures _ _ _ _ _ _
  · rcases h with h | h
    · exact absurd rfl h
    · have hdisclaims := (HashMatch.onFile_disclaims scan.host scan.device result path entry
        (w.record (.onFile Registry.hashMatch.id path entry))).signatures
      have hloaded := @HashMatch.ensureSignaturesLoaded_of_attempted scan.host
        (w.record (.onFile Registry.hashMatch.id path entry)) h
      rw [hloaded] at hdisclaims
      exact hdisclaims

lemma dispatch_keeps {path : Bytes} {entry : DirEntry} {slots : List Slot}
    (hslots : Registered slots) {w : World} (h : w.signatures.attempted = true) :
    (dispatch scan path entry slots w).2.signatures = w.signatures := by
  induction slots generalizing w with
  | nil => rfl
  | cons slot rest ih =>
    have hfirst := @handFile_keeps scan path entry slot (hslots slot (List.mem_cons_self ..)) w
      (.inr h)
    simp only [dispatch]
    rw [ih (fun s hs => hslots s (List.mem_cons_of_mem _ hs)) (by rw [hfirst]; exact h), hfirst]

/-- The hash check carries the disclaimer of the signatures in use. -/
def Carries (scan : Scan) (signatures : SignatureState) (result : CheckResult) : Prop :=
  signatures.attempted = true ∧
    result.message = cut checkMessageMax (HashMatch.disclaimer scan.host.kind signatures)

def Unweighed (result : CheckResult) : Prop :=
  result.policySuppressed = 0 ∧ result.policyLowered = 0

lemma handFile_carries (path : Bytes) (entry : DirEntry) (result : CheckResult) (w : World) :
    Carries scan (handFile scan path entry ⟨Registry.hashMatch, result⟩ w).2.signatures
        (handFile scan path entry ⟨Registry.hashMatch, result⟩ w).1 ∧
      (Unweighed result →
        Unweighed (handFile scan path entry ⟨Registry.hashMatch, result⟩ w).1) := by
  have h := HashMatch.onFile_disclaims scan.host scan.device result path entry
    (w.record (.onFile Registry.hashMatch.id path entry))
  refine ⟨⟨?_, h.message⟩, fun hresult => ?_⟩
  · exact (congrArg SignatureState.attempted h.signatures).trans
      (HashMatch.ensureSignaturesLoaded_attempted scan.host _)
  · exact ⟨h.policy.1.trans hresult.1, h.policy.2.trans hresult.2⟩

/-- After a file was handed round, every hash slot carries the disclaimer. -/
lemma dispatch_carries {path : Bytes} {entry : DirEntry} {slots : List Slot}
    (hslots : Registered slots) (w : World) :
    ∀ slot ∈ (dispatch scan path entry slots w).1, slot.detector = Registry.hashMatch →
      Carries scan (dispatch scan path entry slots w).2.signatures slot.result ∧
        ((∀ s ∈ slots, s.detector = Registry.hashMatch → Unweighed s.result) →
          Unweighed slot.result) := by
  induction slots generalizing w with
  | nil =>
    intro slot hslot
    cases hslot
  | cons first rest ih =>
    have hrest : Registered rest := fun s hs => hslots s (List.mem_cons_of_mem _ hs)
    intro slot hslot hhash
    simp only [dispatch] at hslot ⊢
    rcases List.mem_cons.mp hslot with rfl | hslot
    · obtain ⟨detector, result⟩ := first
      simp only at hhash
      subst hhash
      obtain ⟨hcarries, hunweighed⟩ := @handFile_carries scan path entry result w
      rw [dispatch_keeps hrest hcarries.1]
      exact ⟨hcarries, fun h => hunweighed (h _ (List.mem_cons_self ..) rfl)⟩
    · obtain ⟨hcarries, hunweighed⟩ := ih hrest _ slot hslot hhash
      exact ⟨hcarries, fun h => hunweighed fun s hs => h s (List.mem_cons_of_mem _ hs)⟩

/-- The disclaimer stands in the hash check's result exactly if a file was counted. -/
structure Disclaimed (scan : Scan) (st : WalkState) : Prop where
  silent : countedFiles st.world.trace = [] →
    ∀ slot ∈ st.slots, slot.detector = Registry.hashMatch → slot.result.message = []
  carried : countedFiles st.world.trace ≠ [] →
    ∀ slot ∈ st.slots, slot.detector = Registry.hashMatch →
      Carries scan st.world.signatures slot.result
  unweighed : ∀ slot ∈ st.slots, slot.detector = Registry.hashMatch → Unweighed slot.result

lemma Disclaimed.still {st st' : WalkState} (hst : Disclaimed scan st)
    (hcounted : countedFiles st'.world.trace = countedFiles st.world.trace)
    (hsignatures : st'.world.signatures = st.world.signatures) (hslots : st'.slots = st.slots) :
    Disclaimed scan st' := by
  refine ⟨?_, ?_, ?_⟩
  · rw [hcounted, hslots]
    exact hst.silent
  · rw [hcounted, hslots, hsignatures]
    exact hst.carried
  · rw [hslots]
    exact hst.unweighed

lemma Disclaimed.visited {st : WalkState} (hst : Disclaimed scan st)
    (hslots : Registered st.slots) (path : Bytes) (entry : DirEntry) :
    Disclaimed scan (visitFile scan path entry st) := by
  have hcounted := @visitFile_counted scan path entry st hslots
  have hcarries := fun w => @dispatch_carries scan path entry st.slots hslots w
  refine ⟨?_, ?_, ?_⟩
  · intro hnone
    rw [hcounted] at hnone
    simp at hnone
  · intro _ slot hslot hhash
    exact (hcarries _ slot hslot hhash).1
  · intro slot hslot hhash
    exact (hcarries _ slot hslot hhash).2 hst.unweighed

lemma classifyPathFailure_rest (scan : Scan) (st : WalkState) :
    (classifyPathFailure scan st).world.signatures = st.world.signatures ∧
      (classifyPathFailure scan st).slots = st.slots := by
  unfold classifyPathFailure World.dirOpen
  cases scan.host.dirOpen st.world.trace scan.device.volumePath <;> exact ⟨rfl, rfl⟩

section Preserved
variable {D : Bytes → Prop} {F : Bytes → DirEntry → Prop} {Inv : WalkState → Prop}
  {st st' : WalkState}

/-- What speaks of the files counted, the signatures and the slots only has to be kept by visits. -/
lemma Step.preserves
    (hstill : ∀ {st st'}, Inv st → countedFiles st'.world.trace = countedFiles st.world.trace →
      st'.world.signatures = st.world.signatures → st'.slots = st.slots → Inv st')
    (hvisited : ∀ {st}, Inv st → Registered st.slots → ∀ path entry,
      Inv (visitFile scan path entry st))
    (h : Step scan D F st st') (hslots : Registered st.slots) (hst : Inv st) : Inv st' := by
  cases h with
  | poll | cancel | excluded => exact hstill hst rfl rfl rfl
  | @opened path _ => exact hstill hst (opened_events st.world path []).1 rfl rfl
  | failed =>
    obtain ⟨hsignatures, hkept⟩ := classifyPathFailure_rest scan st
    exact hstill hst (classifyPathFailure_events st []).1 hsignatures hkept
  | visited => exact hvisited hst hslots _ _

theorem Steps.preserves
    (hstill : ∀ {st st'}, Inv st → countedFiles st'.world.trace = countedFiles st.world.trace →
      st'.world.signatures = st.world.signatures → st'.slots = st.slots → Inv st')
    (hvisited : ∀ {st}, Inv st → Registered st.slots → ∀ path entry,
      Inv (visitFile scan path entry st))
    (h : Steps scan D F st st') (hslots : Registered st.slots) (hst : Inv st) : Inv st' := by
  induction h with
  | refl => exact hst
  | tail hsteps hlast ih =>
    exact hlast.preserves hstill hvisited ((Steps.slotsKept hsteps hslots).registered hslots) ih

end Preserved

lemma mem_initial_slots {signatures : SignatureState} {slot : Slot}
    (h : slot ∈ (initialState scan signatures).slots) :
    ∃ d, slot = ⟨d, CheckResult.init d.id⟩ := by
  unfold initialState prepareOnFileSlots at h
  split_ifs at h
  · obtain ⟨d, _, rfl⟩ := List.mem_map.mp h
    exact ⟨d, rfl⟩
  · cases h

lemma walkVolume_disclaimed (signatures : SignatureState) :
    Disclaimed scan (walkVolume scan signatures).2 := by
  refine (walkVolume_run signatures).preserves Disclaimed.still Disclaimed.visited
    (initialState_registered signatures) ⟨?_, ?_, ?_⟩
  · intro _ slot hslot _
    obtain ⟨d, rfl⟩ := mem_initial_slots hslot
    rfl
  · intro h
    exact absurd rfl h
  · intro slot hslot _
    obtain ⟨d, rfl⟩ := mem_initial_slots hslot
    exact ⟨rfl, rfl⟩

/-- The hash check is in the result, has run, and says which signatures it used. -/
def DisclaimerStated (kind : Path.Host) (result : ScanResult) (signatures : SignatureState) :
    Prop :=
  ∃ check ∈ result.checks.items, check.id = HashMatch.hashMatchId ∧ check.status = .ran ∧
    check.message ≠ [] ∧
    check.message = cut checkMessageMax (HashMatch.disclaimer kind signatures)

/-- Whether the fifth push finds room: it makes its own, or an earlier growth came so late
that there is some left. -/
def LastPushed (memory : ℕ → Bool) : Prop :=
  memory 4 = true ∨
    (memory 0 = false ∧ (memory 1 = true ∨ memory 2 = true ∨ memory 3 = true))

lemma pushChecks_last (scan : Scan) {a b c d e : CheckResult} (he : e ∉ [a, b, c, d]) :
    e ∈ (pushChecks scan 0 [a, b, c, d, e] {}).items ↔ LastPushed scan.host.checkMemory := by
  simp only [List.mem_cons, List.not_mem_nil, or_false, not_or] at he
  obtain ⟨ha, hb, hc, hd⟩ := he
  unfold LastPushed
  cases h0 : scan.host.checkMemory 0 <;> cases h1 : scan.host.checkMemory 1 <;>
    cases h2 : scan.host.checkMemory 2 <;> cases h3 : scan.host.checkMemory 3 <;>
    cases h4 : scan.host.checkMemory 4 <;>
    simp [pushChecks, GrowList.push, h0, h1, h2, h3, h4, ha, hb, hc, hd]

lemma describeLocationPolicy_unweighed {check : CheckResult} (h : Unweighed check) :
    describeLocationPolicy check = check := by
  have hnone : check.policySuppressed = 0 ∧ check.policyLowered = 0 := h
  rw [describeLocationPolicy, if_pos hnone]

/-- The checks of a completed scan with slots: the last is the hash slot's. -/
lemma completed_checks {signatures : SignatureState} (hslots : scan.host.slotsMemory = true)
    (hcompleted : (scannerScan scan signatures).1.status = .completed) :
    ∃ a b c d slot, slot ∈ (walkVolume scan signatures).2.slots ∧
      slot.detector = Registry.hashMatch ∧
      pushedChecks scan signatures = [a, b, c, d, slot.result] ∧
      slot.result.id = HashMatch.hashMatchId ∧ slot.result.status = .ran ∧
      ∀ r ∈ [a, b, c, d], r.id ≠ HashMatch.hashMatchId := by
  have hdetectors := slots_detectors scan signatures
  rw [if_pos hslots] at hdetectors
  obtain ⟨s₁, rest, hcons, hs₁, hrest⟩ := List.map_eq_cons_iff.mp hdetectors
  obtain ⟨s₂, rest, rfl, hs₂, hrest⟩ := List.map_eq_cons_iff.mp hrest
  obtain ⟨s₃, rest, rfl, hs₃, hrest⟩ := List.map_eq_cons_iff.mp hrest
  obtain rfl := List.map_eq_nil_iff.mp hrest
  have hmem : s₃ ∈ (walkVolume scan signatures).2.slots := by
    rw [hcons]
    simp
  obtain ⟨_, hid, hran⟩ := walkVolume_slot_results scan signatures s₃ hmem
  have hunweighed := (walkVolume_disclaimed signatures).unweighed s₃ hmem hs₃
  have hcut : cut checkIdMax Registry.hashMatch.id = HashMatch.hashMatchId := by decide
  rw [hs₃, hcut] at hid
  have hpushed : pushedChecks scan signatures =
      [traversalCheck (walkVolume scan signatures).1 (walkVolume scan signatures).2,
        (Autorun.detectAutorun scan.host scan.device
          ((walkVolume scan signatures).2.world.record (.run Autorun.autorunId))).1,
        describeLocationPolicy s₁.result, describeLocationPolicy s₂.result, s₃.result] := by
    rw [pushedChecks, detectorChecks, incomplete_of_completed hcompleted]
    simp only [Bool.false_eq_true, if_false, runWholeCheckDetectors_eq, hcons, List.map_cons,
      List.map_nil, List.cons_append, List.nil_append,
      describeLocationPolicy_unweighed hunweighed]
  refine ⟨_, _, _, _, s₃, hmem, hs₃, hpushed, hid, hran, ?_⟩
  have hids := congrArg (List.take 4) (pushedChecks_ids scan signatures)
  rw [if_pos hslots, hpushed] at hids
  intro r hr heq
  have hfour : HashMatch.hashMatchId ∈ expectedIds.take 4 := by
    rw [← hids, ← heq]
    exact List.mem_map_of_mem hr
  revert hfour
  decide

lemma scannerScan_signatures (signatures : SignatureState) :
    (scannerScan scan signatures).2.signatures =
      (walkVolume scan signatures).2.world.signatures := by
  cases hincomplete : incomplete (walkVolume scan signatures).1 (walkVolume scan signatures).2 with
  | true => simp [scannerScan, detectorChecks, hincomplete]
  | false =>
    have hworld : (scannerScan scan signatures).2 =
        (Autorun.detectAutorun scan.host scan.device
          ((walkVolume scan signatures).2.world.record (.run Autorun.autorunId))).2 := by
      simp [scannerScan, detectorChecks, hincomplete, runWholeCheckDetectors_eq]
    rw [hworld, autorun_keeps_signatures]
    rfl

/-- A completed scan has counted all that the volume shows. -/
lemma completed_counted {v : Volume} (hv : v.Presented scan.host scan.device.volumePath)
    {signatures : SignatureState}
    (hcompleted : (scannerScan scan signatures).1.status = .completed) :
    countedFiles (walkVolume scan signatures).2.world.trace = volumeShown scan v := by
  have hcomplete := incomplete_of_completed hcompleted
  simp only [incomplete, Bool.or_eq_false_iff] at hcomplete
  obtain ⟨seen, hseen, _, hall⟩ := walkVolume_counts hv signatures
  rw [hseen, hall hcomplete.2]

theorem disclaimer_iff {v : Volume} (hv : v.Presented scan.host scan.device.volumePath)
    {signatures : SignatureState}
    (hcompleted : (scannerScan scan signatures).1.status = .completed) :
    DisclaimerStated scan.host.kind (scannerScan scan signatures).1
        (scannerScan scan signatures).2.signatures ↔
      scan.host.slotsMemory = true ∧ LastPushed scan.host.checkMemory ∧ volumeShown scan v ≠ [] := by
  have hdisclaimed := @walkVolume_disclaimed scan signatures
  rw [← completed_counted hv hcompleted, scannerScan_signatures]
  constructor
  · rintro ⟨check, hcheck, hid, _, hsome, _⟩
    have hslots : scan.host.slotsMemory = true := by
      have hids := pushedChecks_ids scan signatures
      by_contra hno
      rw [if_neg hno] at hids
      have hmem : HashMatch.hashMatchId ∈ [traversalId, Autorun.autorunId] := by
        rw [← hids, ← hid]
        exact List.mem_map_of_mem ((scannerScan_sublist scan signatures).subset hcheck)
      revert hmem
      decide +kernel
    obtain ⟨a, b, c, d, slot, hslot, hhash, hpushed, hslotId, _, hother⟩ :=
      completed_checks hslots hcompleted
    have hmine : check = slot.result := by
      have hmem := (scannerScan_sublist scan signatures).subset hcheck
      rw [hpushed] at hmem
      rcases List.mem_append.mp (show check ∈ [a, b, c, d] ++ [slot.result] from hmem) with h | h
      · exact absurd hid (hother check h)
      · exact List.mem_singleton.mp h
    subst hmine
    refine ⟨hslots, ?_, ?_⟩
    · rw [scannerScan_items, hpushed] at hcheck
      exact (pushChecks_last scan fun h => hother _ h hslotId).mp hcheck
    · intro hnone
      exact hsome (hdisclaimed.silent hnone slot hslot hhash)
  · rintro ⟨hslots, hlast, hsome⟩
    obtain ⟨a, b, c, d, slot, hslot, hhash, hpushed, hslotId, hran, hother⟩ :=
      completed_checks hslots hcompleted
    obtain ⟨_, hmessage⟩ := hdisclaimed.carried hsome slot hslot hhash
    refine ⟨slot.result, ?_, hslotId, hran, ?_, hmessage⟩
    · rw [scannerScan_items, hpushed]
      exact (pushChecks_last scan fun h => hother _ h hslotId).mpr hlast
    · rw [hmessage]
      exact HashMatch.disclaimer_ne_nil _ _

/-- A volume without a file. -/
def emptyScan : Scan where
  host := ScanHost.blank
  device := { volumePath := ascii "/v" }

theorem empty_undisclaimed :
    (scannerScan emptyScan {}).1.status = .completed ∧
      ¬ DisclaimerStated .posix (scannerScan emptyScan {}).1
        (scannerScan emptyScan {}).2.signatures := by
  refine ⟨by decide +kernel, ?_⟩
  rintro ⟨check, hcheck, hid, _, hsome, _⟩
  have hsilent : ∀ c ∈ (scannerScan emptyScan {}).1.checks.items,
      c.id = HashMatch.hashMatchId → c.message = [] := by decide +kernel
  exact hsome (hsilent check hcheck hid)

theorem chain_disclaimed :
    DisclaimerStated .posix (scannerScan (chainScan 1) {}).1
      (scannerScan (chainScan 1) {}).2.signatures :=
  (disclaimer_iff (chainVolume_presented 1) (by decide +kernel)).mpr
    ⟨rfl, .inl rfl, by decide +kernel⟩

end UsbSentinel.Scanner
