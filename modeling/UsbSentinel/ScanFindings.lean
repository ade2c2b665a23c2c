import UsbSentinel.HashPrefilter
import UsbSentinel.ScanDisclaimer

/-! Where findings come from: each one in a slot is about a file that was counted, and holds what
a detector has to say about that file. -/
namespace UsbSentinel
open ByteString UsbSentinel.Location

lemma CheckResult.mem_addFinding {grow : ℕ → Bool} {result : CheckResult} {severity : Severity}
    {path message : Bytes} {finding : Finding}
    (h : finding ∈ (result.addFinding grow severity path message).findings.items) :
    finding ∈ result.findings.items ∨
      finding = ⟨severity, cut findingMessageMax message, cut findingPathMax path⟩ := by
  unfold CheckResult.addFinding at h
  exact GrowList.mem_push h

lemma Verdict.mem_apply {v : Verdict} {grow : ℕ → Bool} {path : Bytes} {result : CheckResult}
    {finding : Finding} (h : finding ∈ (v.apply grow path result).findings.items) :
    finding ∈ result.findings.items ∨
      ∃ severity message, v.finding = some (severity, message) ∧
        finding = ⟨severity, cut findingMessageMax message, cut findingPathMax path⟩ := by
  unfold Verdict.apply at h
  rw [Verdict.count_findings] at h
  unfold Verdict.report at h
  cases hfinding : v.finding with
  | none =>
    rw [hfinding] at h
    exact .inl h
  | some found =>
    rw [hfinding] at h
    exact (CheckResult.mem_addFinding h).imp_right fun heq => ⟨_, _, rfl, heq⟩

lemma Verdict.apply_message (v : Verdict) (grow : ℕ → Bool) (path : Bytes)
    (result : CheckResult) : (v.apply grow path result).message = result.message := by
  unfold Verdict.apply
  rw [Verdict.count_message, Verdict.report_message]

namespace Scanner

/-- What a detector says about a file, before it is cut to the field of a finding. -/
inductive Says (scan : Scan) (signatures : SignatureState) (path : Bytes) (entry : DirEntry) :
    Bytes → Prop
  | name {severity : Severity} {message : Bytes}
      (hfinding : (SuspiciousFilename.verdict (policyApplies scan.device)
        (SuspiciousFilename.kindFor scan.device (relative scan.device.volumePath path))
        entry).finding = some (severity, message)) : Says scan signatures path entry message
  | shortcut {policy : LnkInspect.LnkPolicy} {w : World} {severity : Severity} {message : Bytes}
      (hfinding : (LnkInspect.examine scan.host policy path entry w).1.finding =
        some (severity, message)) : Says scan signatures path entry message
  | listed {label content : Bytes} (hattempted : signatures.attempted = true)
      (hsize : HashMatch.sizeCanMatch signatures entry.sizeBytes = true)
      (hlookup : HashMatch.hashMatchLookup signatures entry.sizeBytes
        (scan.host.sha256Hex content) = some label) :
      Says scan signatures path entry
        (HashMatch.matchMessage signatures label (scan.host.sha256Hex content))

structure About (scan : Scan) (signatures : SignatureState) (path : Bytes) (entry : DirEntry)
    (finding : Finding) : Prop where
  path_eq : finding.path = cut findingPathMax (relative scan.device.volumePath path)
  message_eq : ∃ message, Says scan signatures path entry message ∧
    finding.message = cut findingMessageMax message

variable {scan : Scan}

/-- Signatures are loaded once, so what was said by them stays. -/
lemma About.keeps {signatures signatures' : SignatureState} {path : Bytes} {entry : DirEntry}
    {finding : Finding} (h : About scan signatures path entry finding)
    (hkeeps : signatures.attempted = true → signatures' = signatures) :
    About scan signatures' path entry finding := by
  obtain ⟨message, hsays, hmessage⟩ := h.message_eq
  refine ⟨h.path_eq, message, ?_, hmessage⟩
  cases hsays with
  | name hfinding => exact .name hfinding
  | shortcut hfinding => exact .shortcut hfinding
  | listed hattempted hsize hlookup =>
    rw [hkeeps hattempted]
    exact .listed hattempted hsize hlookup

lemma relativePath_eq (volumePath fullPath : Bytes) :
    HashMatch.relativePath fullPath volumePath = relative volumePath fullPath := by
  unfold HashMatch.relativePath relative
  by_cases hempty : volumePath = []
  · simp [hempty]
  · simp [hempty]

lemma hashMatch_about {result : CheckResult} {path : Bytes} {entry : DirEntry} {w : World}
    {finding : Finding}
    (h : finding ∈
      (HashMatch.onFile scan.host scan.device result path entry w).1.findings.items) :
    finding ∈ result.findings.items ∨
      About scan (HashMatch.onFile scan.host scan.device result path entry w).2.signatures
        path entry finding := by
  have hsignatures :=
    (HashMatch.onFile_disclaims scan.host scan.device result path entry w).signatures
  have hattempted := HashMatch.ensureSignaturesLoaded_attempted scan.host w
  rw [hsignatures]
  simp only [HashMatch.onFile] at h
  split_ifs at h with hlarge hsize
  · exact .inl h
  · exact .inl h
  · unfold World.fileOpen at h
    cases hopen : scan.host.fileOpen (HashMatch.ensureSignaturesLoaded scan.host w).trace path with
    | error e =>
      rw [hopen] at h
      exact .inl h
    | ok file =>
      rw [hopen] at h
      simp only at h
      split_ifs at h
      · exact .inl h
      · exact .inl h
      · exact .inl h
      · split at h
        · exact .inl h
        · next label hlookup =>
          refine (CheckResult.mem_addFinding h).imp_right fun heq => ?_
          rw [heq]
          refine ⟨?_, _, .listed hattempted (by simpa using hsize) hlookup, rfl⟩
          rw [relativePath_eq]

/-- A detector adds nothing but findings about the file it is handed. -/
lemma handFile_about {path : Bytes} {entry : DirEntry} {slot : Slot}
    (hslot : slot.detector ∈ Registry.detectors) {w : World} {finding : Finding}
    (h : finding ∈ (handFile scan path entry slot w).1.findings.items) :
    finding ∈ slot.result.findings.items ∨
      About scan (handFile scan path entry slot w).2.signatures path entry finding := by
  obtain ⟨detector, result⟩ := slot
  simp only [Registry.detectors, List.mem_cons, List.not_mem_nil, or_false] at hslot
  rcases hslot with rfl | rfl | rfl | rfl
  · exact .inl h
  · change finding ∈ (SuspiciousFilename.onFile _ _ _ _ _ _).1.findings.items at h
    rw [SuspiciousFilename.onFile_eq] at h
    refine (Verdict.mem_apply h).imp_right fun hnew => ?_
    obtain ⟨severity, message, hfinding, heq⟩ := hnew
    rw [heq]
    exact ⟨rfl, message, .name hfinding, rfl⟩
  · change finding ∈ (LnkInspect.onFile _ _ _ _ _ _).1.findings.items at h
    rw [LnkInspect.onFile_eq _ _ _ _ _ _ _ rfl] at h
    refine (Verdict.mem_apply h).imp_right fun hnew => ?_
    obtain ⟨severity, message, hfinding, heq⟩ := hnew
    rw [heq]
    exact ⟨rfl, message, .shortcut hfinding, rfl⟩
  · exact hashMatch_about h

lemma dispatch_about {path : Bytes} {entry : DirEntry} {slots : List Slot}
    (hslots : Registered slots) {w : World} :
    ∀ slot ∈ (dispatch scan path entry slots w).1, ∀ finding ∈ slot.result.findings.items,
      (∃ before ∈ slots, finding ∈ before.result.findings.items) ∨
        About scan (dispatch scan path entry slots w).2.signatures path entry finding := by
  induction slots generalizing w with
  | nil =>
    intro slot hslot
    cases hslot
  | cons first rest ih =>
    have hfirst := hslots first (List.mem_cons_self ..)
    have hrest : Registered rest := fun s hs => hslots s (List.mem_cons_of_mem _ hs)
    intro slot hslot finding hfinding
    simp only [dispatch] at hslot ⊢
    rcases List.mem_cons.mp hslot with rfl | hslot
    · rcases handFile_about hfirst hfinding with hold | habout
      · exact .inl ⟨first, List.mem_cons_self .., hold⟩
      · exact .inr (habout.keeps fun hattempted => dispatch_keeps hrest hattempted)
    · rcases ih hrest slot hslot finding hfinding with ⟨before, hbefore, hold⟩ | habout
      · exact .inl ⟨before, List.mem_cons_of_mem _ hbefore, hold⟩
      · exact .inr habout

/-- Only the hash detector leaves a message behind. -/
lemma dispatch_message {path : Bytes} {entry : DirEntry} {slots : List Slot}
    (hslots : Registered slots)
    (hsilent : ∀ slot ∈ slots, slot.detector ≠ Registry.hashMatch → slot.result.message = [])
    {w : World} :
    ∀ slot ∈ (dispatch scan path entry slots w).1, slot.detector ≠ Registry.hashMatch →
      slot.result.message = [] := by
  induction slots generalizing w with
  | nil =>
    intro slot hslot
    cases hslot
  | cons first rest ih =>
    have hfirst := hslots first (List.mem_cons_self ..)
    have hrest : Registered rest := fun s hs => hslots s (List.mem_cons_of_mem _ hs)
    have hempty := hsilent first (List.mem_cons_self ..)
    intro slot hslot hother
    simp only [dispatch] at hslot
    rcases List.mem_cons.mp hslot with rfl | hslot
    · obtain ⟨detector, result⟩ := first
      simp only at hother hempty
      rw [← hempty hother]
      simp only [Registry.detectors, List.mem_cons, List.not_mem_nil, or_false] at hfirst
      rcases hfirst with rfl | rfl | rfl | rfl
      · rfl
      · change (SuspiciousFilename.onFile _ _ _ _ _ _).1.message = _
        rw [SuspiciousFilename.onFile_eq]
        exact Verdict.apply_message _ _ _ _
      · change (LnkInspect.onFile _ _ _ _ _ _).1.message = _
        rw [LnkInspect.onFile_eq _ _ _ _ _ _ _ rfl]
        exact Verdict.apply_message _ _ _ _
      · exact absurd rfl hother
    · exact ih hrest (fun s hs => hsilent s (List.mem_cons_of_mem _ hs)) slot hslot hother

/-- Every finding is about a file counted so far, by the signatures in use. -/
structure Sourced (scan : Scan) (st : WalkState) : Prop where
  findings : ∀ slot ∈ st.slots, ∀ finding ∈ slot.result.findings.items,
    ∃ path entry, (path, entry) ∈ countedFiles st.world.trace ∧
      About scan st.world.signatures path entry finding
  message : ∀ slot ∈ st.slots, slot.detector ≠ Registry.hashMatch → slot.result.message = []

lemma Sourced.still {st st' : WalkState} (hst : Sourced scan st)
    (hcounted : countedFiles st'.world.trace = countedFiles st.world.trace)
    (hsignatures : st'.world.signatures = st.world.signatures) (hslots : st'.slots = st.slots) :
    Sourced scan st' := by
  refine ⟨?_, ?_⟩
  · rw [hcounted, hslots, hsignatures]
    exact hst.findings
  · rw [hslots]
    exact hst.message

lemma Sourced.visited {st : WalkState} (hst : Sourced scan st) (hslots : Registered st.slots)
    (path : Bytes) (entry : DirEntry) : Sourced scan (visitFile scan path entry st) := by
  have hcounted := @visitFile_counted scan path entry st hslots
  have hkeeps : st.world.signatures.attempted = true →
      (visitFile scan path entry st).world.signatures = st.world.signatures := by
    intro hattempted
    unfold visitFile
    cases scan.onProgress with
    | true => exact dispatch_keeps hslots hattempted
    | false => exact dispatch_keeps hslots hattempted
  refine ⟨?_, dispatch_message hslots hst.message⟩
  intro slot hslot finding hfinding
  rw [hcounted]
  rcases dispatch_about hslots slot hslot finding hfinding with ⟨before, hbefore, hold⟩ | habout
  · obtain ⟨path', entry', hmem, habout⟩ := hst.findings before hbefore finding hold
    exact ⟨path', entry', List.mem_append_left _ hmem, habout.keeps hkeeps⟩
  · exact ⟨path, entry, by simp, habout⟩

variable {D : Bytes → Prop} {F : Bytes → DirEntry → Prop}

theorem walkVolume_sourced (signatures : SignatureState) :
    Sourced scan (walkVolume scan signatures).2 := by
  refine (walkVolume_run signatures).preserves Sourced.still Sourced.visited
    (initialState_registered signatures) ⟨?_, ?_⟩
  · intro slot hslot finding hfinding
    obtain ⟨d, rfl⟩ := mem_initial_slots hslot
    cases hfinding
  · intro slot hslot _
    obtain ⟨d, rfl⟩ := mem_initial_slots hslot
    rfl

/-- What a walk counts is what it visits. -/
lemma Step.countedHold {st st' : WalkState} (h : Step scan D F st st')
    (hslots : Registered st.slots)
    (hst : ∀ f ∈ countedFiles st.world.trace, F f.1 f.2) :
    ∀ f ∈ countedFiles st'.world.trace, F f.1 f.2 := by
  cases h with
  | poll | cancel | excluded => exact hst
  | @opened path _ =>
    rw [(opened_events st.world path []).1]
    exact hst
  | failed =>
    rw [(classifyPathFailure_events st []).1]
    exact hst
  | @visited path entry hF =>
    rw [visitFile_counted path entry hslots]
    intro f hf
    rcases List.mem_append.mp hf with hf | hf
    · exact hst f hf
    · rw [List.mem_singleton.mp hf]
      exact hF

lemma Steps.countedHold {st st' : WalkState} (h : Steps scan D F st st')
    (hslots : Registered st.slots)
    (hst : ∀ f ∈ countedFiles st.world.trace, F f.1 f.2) :
    ∀ f ∈ countedFiles st'.world.trace, F f.1 f.2 := by
  induction h with
  | refl => exact hst
  | tail hsteps hlast ih =>
    exact hlast.countedHold ((Steps.slotsKept hsteps hslots).registered hslots) ih

lemma handFile_loaded {path : Bytes} {entry : DirEntry} {slot : Slot}
    (hslot : slot.detector ∈ Registry.detectors) {w : World}
    (h : HashMatch.Loaded w.signatures) :
    HashMatch.Loaded (handFile scan path entry slot w).2.signatures := by
  by_cases hhash : slot.detector = Registry.hashMatch
  · obtain ⟨detector, result⟩ := slot
    simp only at hhash
    subst hhash
    have hsignatures := (HashMatch.onFile_disclaims scan.host scan.device result path entry
      (w.record (.onFile Registry.hashMatch.id path entry))).signatures
    change HashMatch.Loaded (HashMatch.onFile _ _ _ _ _ _).2.signatures
    rw [hsignatures]
    exact HashMatch.ensureSignaturesLoaded_loaded h
  · rw [handFile_keeps hslot w (.inl hhash)]
    exact h

lemma dispatch_loaded {path : Bytes} {entry : DirEntry} {slots : List Slot}
    (hslots : Registered slots) {w : World} (h : HashMatch.Loaded w.signatures) :
    HashMatch.Loaded (dispatch scan path entry slots w).2.signatures := by
  induction slots generalizing w with
  | nil => exact h
  | cons first rest ih =>
    have hfirst := hslots first (List.mem_cons_self ..)
    exact ih (fun s hs => hslots s (List.mem_cons_of_mem _ hs)) (handFile_loaded hfirst h)

lemma Step.loaded {st st' : WalkState} (h : Step scan D F st st') (hslots : Registered st.slots)
    (hst : HashMatch.Loaded st.world.signatures) : HashMatch.Loaded st'.world.signatures := by
  cases h with
  | poll | cancel | excluded | opened => exact hst
  | failed =>
    rw [(classifyPathFailure_rest scan st).1]
    exact hst
  | visited =>
    unfold visitFile
    cases scan.onProgress with
    | true => exact dispatch_loaded hslots hst
    | false => exact dispatch_loaded hslots hst

lemma Steps.loaded {st st' : WalkState} (h : Steps scan D F st st') (hslots : Registered st.slots)
    (hst : HashMatch.Loaded st.world.signatures) : HashMatch.Loaded st'.world.signatures := by
  induction h with
  | refl => exact hst
  | tail hsteps hlast ih =>
    exact hlast.loaded ((Steps.slotsKept hsteps hslots).registered hslots) ih

/-- A scan leaves in the cache what it found there, or what a load returns. -/
theorem walkVolume_loaded {signatures : SignatureState} (h : HashMatch.Loaded signatures) :
    HashMatch.Loaded (walkVolume scan signatures).2.world.signatures :=
  (walkVolume_run signatures).loaded (initialState_registered signatures) h

end Scanner
end UsbSentinel
