import UsbSentinel.ScanFindings

/-! The walk of a volume that stays as it is, against a plain enumeration of it: the files read,
the directories left out, and how many places could not be listed. -/
namespace UsbSentinel.HashMatch
open ByteString UsbSentinel.Location

/-- What the detector says about a file, by the signatures in use. -/
def verdict (host : ScanHost) (signatures : SignatureState) (fullPath : Bytes)
    (entry : DirEntry) : Verdict :=
  if entry.sizeBytes.toNat > maxFileSize then {}
  else if !sizeCanMatch signatures entry.sizeBytes then {}
  else
    match host.fileOpen [] fullPath with
    | .error _ => {}
    | .ok file =>
      if !host.hashBegin [] then {}
      else if !host.malloc [] then {}
      else if !host.hashFinish [] then {}
      else
        let hex := host.sha256Hex (readChunks readChunk file).1
        match hashMatchLookup signatures entry.sizeBytes hex with
        | none => {}
        | some label => { finding := some (.high, matchMessage signatures label hex) }

/-- The signatures in use once a file was handed over. -/
def signaturesInUse (host : ScanHost) (signatures : SignatureState) : SignatureState :=
  (ensureSignaturesLoaded host { signatures }).signatures

end UsbSentinel.HashMatch

namespace UsbSentinel.Scanner
open ByteString UsbSentinel.Path UsbSentinel.Location

/-- The host answers every time as it did the first time, and grants room for findings. -/
structure SteadyHost (host : ScanHost) : Prop where
  fileOpen : ∀ t path, host.fileOpen t path = host.fileOpen [] path
  malloc : ∀ t, host.malloc t = host.malloc []
  hashBegin : ∀ t, host.hashBegin t = host.hashBegin []
  hashFinish : ∀ t, host.hashFinish t = host.hashFinish []
  findingMemory : ∀ t n, host.findingMemory t n = true

/-- The volume is there, unchanged, from the beginning of the scan to its end, each directory
under the name it is listed as. Single directories may refuse to open and listings may break
off. -/
structure Unchanging (scan : Scan) (v : Volume) : Prop where
  root : ∀ t, scan.host.dirOpen t scan.device.volumePath = v.answer.listing v.top.entries
  below : v.top.Presented scan.host scan.device.volumePath
  steady : SteadyHost scan.host

/-- What a scan makes of a volume: the files it reads, in order, the directories it leaves out
and the places it cannot list. -/
structure Tally where
  files : List (Bytes × DirEntry) := []
  excluded : ℕ := 0
  skipped : ℕ := 0
  deriving DecidableEq, Repr

namespace Tally

def append (a b : Tally) : Tally :=
  ⟨a.files ++ b.files, a.excluded + b.excluded, a.skipped + b.skipped⟩

instance : Append Tally := ⟨append⟩

lemma append_def (a b : Tally) :
    a ++ b = ⟨a.files ++ b.files, a.excluded + b.excluded, a.skipped + b.skipped⟩ := rfl

@[simp] lemma append_files (a b : Tally) : (a ++ b).files = a.files ++ b.files := rfl

@[simp] lemma append_empty (a : Tally) : a ++ ({} : Tally) = a := by
  simp [append_def]

@[simp] lemma empty_append (a : Tally) : ({} : Tally) ++ a = a := by
  simp [append_def]

lemma append_assoc (a b c : Tally) : a ++ b ++ c = a ++ (b ++ c) := by
  simp [append_def, Nat.add_assoc]

/-- How a listing ends: anything but its end is a place that could not be listed. -/
def ofEnding (ending : Status) : Tally := if ending = .notFound then {} else { skipped := 1 }

/-- A directory found `depth` deep, given what its listings show. -/
def ofDirectory (depth : ℕ) (answer : Answer) (listing : ℕ → Tally) : Tally :=
  if depth < scanMaxDepth then
    match answer with
    | .refused _ _ => { skipped := 1 }
    | .listed n ending => listing n ++ ofEnding ending
  else {}

end Tally

variable (scan : Scan)

/-- The tally of a listing that shows `left` entries of the forest. -/
def tallyForest (dir : Bytes) (depth : ℕ) : ℕ → Forest → Tally
  | _, .nil => {}
  | 0, .cons _ _ _ _ => {}
  | left + 1, .cons entry answer below rest =>
    (if entry.isReparsePoint ∨
        childPathMax ≤ (joined scan.host.kind dir entry.name).length then {}
      else if entry.isDirectory then
        if isExcluded scan.device (joined scan.host.kind dir entry.name) then { excluded := 1 }
        else
          Tally.ofDirectory depth answer fun n =>
            tallyForest (joined scan.host.kind dir entry.name) (depth + 1) n below
      else { files := [(joined scan.host.kind dir entry.name, entry)] }) ++
      tallyForest dir depth left rest

def tallyVolume (v : Volume) : Tally :=
  match v.answer with
  | .refused _ _ => {}
  | .listed n ending => tallyForest scan scan.device.volumePath 0 n v.top ++ Tally.ofEnding ending

/-! ### Detectors on a steady host -/

/-- Room for every finding. -/
def granted (_ : ℕ) : Bool := true

def nextName (result : CheckResult) (f : Bytes × DirEntry) : CheckResult :=
  (SuspiciousFilename.verdict (policyApplies scan.device)
    (SuspiciousFilename.kindFor scan.device (relative scan.device.volumePath f.1)) f.2).apply
      granted (relative scan.device.volumePath f.1) result

def nextShortcut (result : CheckResult) (f : Bytes × DirEntry) : CheckResult :=
  (LnkInspect.examine scan.host
    (LnkInspect.lnkPolicyFor scan.device (relative scan.device.volumePath f.1)) f.1 f.2 {}).1.apply
      granted (relative scan.device.volumePath f.1) result

def nextHash (signatures : SignatureState) (result : CheckResult) (f : Bytes × DirEntry) :
    CheckResult :=
  (HashMatch.verdict scan.host signatures f.1 f.2).apply granted
    (relative scan.device.volumePath f.1)
    (HashMatch.setDisclaimer scan.host.kind signatures result)

/-- The slots after the files were handed round. -/
def slotsAfter (signatures : SignatureState) (files : List (Bytes × DirEntry)) : List Slot :=
  [⟨Registry.suspiciousFilename,
      files.foldl (nextName scan) (CheckResult.init SuspiciousFilename.suspiciousFilenameId)⟩,
    ⟨Registry.lnkInspect,
      files.foldl (nextShortcut scan) (CheckResult.init LnkInspect.lnkInspectId)⟩,
    ⟨Registry.hashMatch,
      files.foldl (nextHash scan (HashMatch.signaturesInUse scan.host signatures))
        (CheckResult.init HashMatch.hashMatchId)⟩]

/-- The signature cache after the files were handed round. -/
def signaturesAfter (signatures : SignatureState) (files : List (Bytes × DirEntry)) :
    SignatureState :=
  if files = [] then signatures else HashMatch.signaturesInUse scan.host signatures

variable {scan}

lemma SteadyHost.findings (h : SteadyHost scan.host) (t : Trace) :
    scan.host.findingMemory t = granted :=
  funext fun n => h.findingMemory t n

/-- What a shortcut is judged to be does not depend on what happened before. -/
lemma examine_steady (h : SteadyHost scan.host) (policy : LnkInspect.LnkPolicy) (path : Bytes)
    (entry : DirEntry) (w : World) :
    (LnkInspect.examine scan.host policy path entry w).1 =
      (LnkInspect.examine scan.host policy path entry {}).1 := by
  unfold LnkInspect.examine World.fileOpen
  rw [h.malloc w.trace, h.fileOpen w.trace]
  split_ifs
  · rfl
  · rfl
  · rfl
  · rfl
  · cases scan.host.fileOpen [] path with
    | error e => rfl
    | ok file =>
      simp only [h.hashBegin (World.record _ _).trace, h.hashFinish (World.record _ _).trace]

/-- Loading the signatures does not depend on what happened before either. -/
lemma signaturesInUse_eq (h : SteadyHost scan.host) (w : World) :
    (HashMatch.ensureSignaturesLoaded scan.host w).signatures =
      HashMatch.signaturesInUse scan.host w.signatures := by
  unfold HashMatch.signaturesInUse HashMatch.ensureSignaturesLoaded
  split_ifs
  · rfl
  · cases HashMatch.resolveSignaturePath scan.host with
    | none => rfl
    | some path =>
      simp only [World.fileOpen]
      rw [h.fileOpen w.trace path]
      cases scan.host.fileOpen [] path with
      | error e => rfl
      | ok file =>
        simp only
        split <;> rfl

lemma signaturesInUse_idem (signatures : SignatureState) :
    HashMatch.signaturesInUse scan.host (HashMatch.signaturesInUse scan.host signatures) =
      HashMatch.signaturesInUse scan.host signatures := by
  have hattempted := HashMatch.ensureSignaturesLoaded_attempted scan.host { signatures }
  unfold HashMatch.signaturesInUse
  rw [HashMatch.ensureSignaturesLoaded_of_attempted scan.host (by exact hattempted)]

/-- The hash detector adds its verdict to the result with the disclaimer. -/
lemma hashMatch_onFile_eq (h : SteadyHost scan.host) (result : CheckResult) (path : Bytes)
    (entry : DirEntry) (w : World) :
    (HashMatch.onFile scan.host scan.device result path entry w).1 =
      nextHash scan (HashMatch.signaturesInUse scan.host w.signatures) result (path, entry) := by
  have hsignatures := signaturesInUse_eq h w
  have hsilent : ∀ r : CheckResult,
      ({} : Verdict).apply granted (relative scan.device.volumePath path) r = r :=
    fun r => Verdict.apply_silent false granted _ r
  unfold HashMatch.onFile nextHash HashMatch.verdict
  simp only [hsignatures, World.fileOpen, h.fileOpen (HashMatch.ensureSignaturesLoaded _ w).trace]
  by_cases hlarge : entry.sizeBytes.toNat > HashMatch.maxFileSize
  · rw [if_pos hlarge, if_pos hlarge]
    exact (hsilent _).symm
  rw [if_neg hlarge, if_neg hlarge]
  by_cases hsize : (!HashMatch.sizeCanMatch
      (HashMatch.signaturesInUse scan.host w.signatures) entry.sizeBytes) = true
  · rw [if_pos hsize, if_pos hsize]
    exact (hsilent _).symm
  rw [if_neg hsize, if_neg hsize]
  cases scan.host.fileOpen [] path with
  | error e => exact (hsilent _).symm
  | ok file =>
    simp only [World.record_signatures, hsignatures, h.hashBegin (World.record _ _).trace,
      h.malloc (World.record _ _).trace, h.hashFinish (World.record _ _).trace,
      h.findings (World.record _ _).trace, relativePath_eq]
    by_cases hbegin : (!scan.host.hashBegin []) = true
    · rw [if_pos hbegin, if_pos hbegin]
      exact (hsilent _).symm
    rw [if_neg hbegin, if_neg hbegin]
    by_cases hmalloc : (!scan.host.malloc []) = true
    · rw [if_pos hmalloc, if_pos hmalloc]
      exact (hsilent _).symm
    rw [if_neg hmalloc, if_neg hmalloc]
    by_cases hfinish : (!scan.host.hashFinish []) = true
    · rw [if_pos hfinish, if_pos hfinish]
      exact (hsilent _).symm
    rw [if_neg hfinish, if_neg hfinish]
    cases HashMatch.hashMatchLookup (HashMatch.signaturesInUse scan.host w.signatures)
        entry.sizeBytes (scan.host.sha256Hex (readChunks HashMatch.readChunk file).1) with
    | none => exact (hsilent _).symm
    | some label => exact (Verdict.apply_finding .high _ false granted _ _).symm

/-- Each detector in turn adds what it says about the file. -/
lemma dispatch_slotsAfter (h : SteadyHost scan.host) (signatures : SignatureState)
    (files : List (Bytes × DirEntry)) (path : Bytes) (entry : DirEntry) {w : World}
    (hw : w.signatures = signaturesAfter scan signatures files) :
    (dispatch scan path entry (slotsAfter scan signatures files) w).1 =
        slotsAfter scan signatures (files ++ [(path, entry)]) ∧
      (dispatch scan path entry (slotsAfter scan signatures files) w).2.signatures =
        HashMatch.signaturesInUse scan.host signatures := by
  have huse : HashMatch.signaturesInUse scan.host w.signatures =
      HashMatch.signaturesInUse scan.host signatures := by
    rw [hw, signaturesAfter]
    split_ifs
    · rfl
    · exact signaturesInUse_idem signatures
  generalize hname : files.foldl (nextName scan)
    (CheckResult.init SuspiciousFilename.suspiciousFilenameId) = named
  generalize hshort : files.foldl (nextShortcut scan)
    (CheckResult.init LnkInspect.lnkInspectId) = short
  generalize hhash : files.foldl
    (nextHash scan (HashMatch.signaturesInUse scan.host signatures))
    (CheckResult.init HashMatch.hashMatchId) = hashed
  have hfirst : handFile scan path entry ⟨Registry.suspiciousFilename, named⟩ w =
      (nextName scan named (path, entry),
        w.record (.onFile Registry.suspiciousFilename.id path entry)) := by
    refine (SuspiciousFilename.onFile_eq _ _ _ _ _ _).trans ?_
    rw [h.findings]
    rfl
  have hsecond : ∀ w' : World, w'.signatures = w.signatures →
      (handFile scan path entry ⟨Registry.lnkInspect, short⟩ w').1 =
          nextShortcut scan short (path, entry) ∧
        (handFile scan path entry ⟨Registry.lnkInspect, short⟩ w').2.signatures =
          w.signatures := by
    intro w' hw'
    constructor
    · refine (congrArg Prod.fst (LnkInspect.onFile_eq _ _ _ _ _ _ _ rfl)).trans ?_
      rw [h.findings, examine_steady h]
      rfl
    · exact (lnk_keeps_signatures _ _ _ _ _ _).trans hw'
  have hthird : ∀ w' : World, w'.signatures = w.signatures →
      (handFile scan path entry ⟨Registry.hashMatch, hashed⟩ w').1 =
          nextHash scan (HashMatch.signaturesInUse scan.host signatures) hashed (path, entry) ∧
        (handFile scan path entry ⟨Registry.hashMatch, hashed⟩ w').2.signatures =
          HashMatch.signaturesInUse scan.host signatures := by
    intro w' hw'
    constructor
    · refine (hashMatch_onFile_eq h hashed path entry _).trans ?_
      rw [World.record_signatures, hw', huse]
    · refine (HashMatch.onFile_disclaims scan.host scan.device hashed path
        entry _).signatures.trans ?_
      rw [signaturesInUse_eq h, World.record_signatures, hw', huse]
  obtain ⟨hshort₁, hshort₂⟩ := hsecond
    (w.record (.onFile Registry.suspiciousFilename.id path entry)) rfl
  obtain ⟨hhash₁, hhash₂⟩ := hthird _ hshort₂
  simp only [slotsAfter, hname, hshort, hhash, List.foldl_append, List.foldl_cons,
    List.foldl_nil, dispatch, hfirst, hshort₁, hhash₁, hhash₂, and_self]

/-! ### The walk -/

/-- The state of a walk that has met what `t` tells. -/
structure Matches (scan : Scan) (signatures : SignatureState) (t : Tally) (st : WalkState) :
    Prop where
  fileCount : st.fileCount = t.files.length
  byteCount : st.byteCount.toNat = totalBytes t.files % 2 ^ 64
  skipped : st.pathsSkipped = t.skipped
  excluded : st.pathsExcluded = t.excluded
  slots : st.slots = slotsAfter scan signatures t.files
  signatures : st.world.signatures = signaturesAfter scan signatures t.files

variable {signatures : SignatureState} {t : Tally} {st : WalkState}

lemma initial_matches (hslots : scan.host.slotsMemory = true) :
    Matches scan signatures {} (initialState scan signatures) where
  fileCount := rfl
  byteCount := rfl
  skipped := rfl
  excluded := rfl
  slots := by
    unfold initialState prepareOnFileSlots
    rw [if_pos hslots]
    rfl
  signatures := rfl

lemma Matches.polled (h : Matches scan signatures t st) : Matches scan signatures t st.polled :=
  ⟨h.fileCount, h.byteCount, h.skipped, h.excluded, h.slots, h.signatures⟩

lemma Matches.opened (h : Matches scan signatures t st) (path : Bytes) :
    Matches scan signatures t (st.opened path) :=
  ⟨h.fileCount, h.byteCount, h.skipped, h.excluded, h.slots, h.signatures⟩

lemma Matches.leftOut (h : Matches scan signatures t st) :
    Matches scan signatures (t ++ { excluded := 1 })
      { st with pathsExcluded := st.pathsExcluded + 1 } where
  fileCount := by simpa [Tally.append_def] using h.fileCount
  byteCount := by simpa [Tally.append_def] using h.byteCount
  skipped := by simpa [Tally.append_def] using h.skipped
  excluded := by simp [Tally.append_def, h.excluded]
  slots := by simpa [Tally.append_def] using h.slots
  signatures := by simpa [Tally.append_def] using h.signatures

/-- A place that cannot be listed is skipped while the root still opens. -/
lemma Matches.failed {listing : Listing} (h : Matches scan signatures t st)
    (hroot : ∀ t, scan.host.dirOpen t scan.device.volumePath = .ok listing) :
    Matches scan signatures (t ++ { skipped := 1 }) (classifyPathFailure scan st) := by
  unfold classifyPathFailure World.dirOpen
  simp only [hroot]
  exact {
    fileCount := by simpa [Tally.append_def] using h.fileCount
    byteCount := by simpa [Tally.append_def] using h.byteCount
    skipped := by simp [Tally.append_def, h.skipped]
    excluded := by simpa [Tally.append_def] using h.excluded
    slots := by simpa [Tally.append_def] using h.slots
    signatures := by simpa [Tally.append_def] using h.signatures }

lemma Matches.visited (hhost : SteadyHost scan.host) (h : Matches scan signatures t st)
    (path : Bytes) (entry : DirEntry) :
    Matches scan signatures (t ++ { files := [(path, entry)] }) (visitFile scan path entry st) := by
  have hafter : signaturesAfter scan signatures (t.files ++ [(path, entry)]) =
      HashMatch.signaturesInUse scan.host signatures := if_neg (by simp)
  have hdispatch : (visitFile scan path entry st).slots =
        slotsAfter scan signatures (t.files ++ [(path, entry)]) ∧
      (visitFile scan path entry st).world.signatures =
        HashMatch.signaturesInUse scan.host signatures := by
    unfold visitFile
    rw [h.slots]
    cases scan.onProgress with
    | true => exact dispatch_slotsAfter hhost signatures t.files path entry h.signatures
    | false => exact dispatch_slotsAfter hhost signatures t.files path entry h.signatures
  refine ⟨?_, ?_, h.skipped, h.excluded, hdispatch.1, hdispatch.2.trans hafter.symm⟩
  · change st.fileCount + 1 = _
    rw [h.fileCount, Tally.append_files, List.length_append, List.length_singleton]
  · change (st.byteCount + entry.sizeBytes).toNat = _
    rw [UInt64.toNat_add, h.byteCount, Nat.mod_add_mod, Tally.append_files, totalBytes_append]
    rfl

/-- The end of a listing. -/
lemma Matches.ended {listing : Listing} (h : Matches scan signatures t st)
    (hroot : ∀ t, scan.host.dirOpen t scan.device.volumePath = .ok listing)
    {descend : Bytes → WalkState → Status × WalkState} {dir : Bytes} {ending : Status}
    (hgoes : (walkEntries scan descend dir ending [] st).2.stopped = false) :
    Matches scan signatures (t ++ Tally.ofEnding ending)
      (walkEntries scan descend dir ending [] st).2 := by
  simp only [walkEntries] at hgoes ⊢
  unfold Tally.ofEnding
  by_cases hcancel : scan.cancel st.polls = true
  · rw [if_pos hcancel] at hgoes
    cases hgoes
  rw [if_neg hcancel]
  by_cases hending : ending = .notFound
  · rw [if_pos hending, if_pos hending, Tally.append_empty]
    exact h.polled
  · rw [if_neg hending, if_neg hending]
    exact h.polled.failed hroot

/-- A directory below the root, given what the walk of its listing meets. -/
lemma walkDir_matches {listing : Listing} {below : Forest} {answer : Answer} {path : Bytes}
    {depth levels : ℕ} (hdepth : depth + levels = scanMaxDepth)
    (hroot : ∀ t, scan.host.dirOpen t scan.device.volumePath = .ok listing)
    (hopen : ∀ t, scan.host.dirOpen t path = answer.listing below.entries)
    (hbelow : ∀ {l left ending st'}, levels = l + 1 → Matches scan signatures t st' →
      st'.stopped = false →
      (walkEntries scan (walkDir scan l) path ending (below.entries.take left) st').2.stopped =
        false →
      Matches scan signatures
        (t ++ (tallyForest scan path (depth + 1) left below ++ Tally.ofEnding ending))
        (walkEntries scan (walkDir scan l) path ending (below.entries.take left) st').2)
    (h : Matches scan signatures t st) (hst : st.stopped = false)
    (hgoes : (walkDir scan levels path st).2.stopped = false) :
    Matches scan signatures
      (t ++ Tally.ofDirectory depth answer fun n => tallyForest scan path (depth + 1) n below)
      (walkDir scan levels path st).2 := by
  unfold Tally.ofDirectory
  cases levels with
  | zero =>
    rw [if_neg (by omega), Tally.append_empty]
    exact h
  | succ l =>
    rw [if_pos (by omega)]
    cases answer with
    | refused e he =>
      rw [walkDir_refused hst (by omega) (hopen _)]
      exact (h.opened path).failed hroot
    | listed n ending =>
      have hlisted := walkDir_listed l hst (hopen st.world.trace)
      rw [hlisted] at hgoes ⊢
      exact hbelow rfl (h.opened path) hst hgoes

/-- A walk of the first entries of a listing that goes on to the end of it meets what the tally
tells. By induction on the forest, its subdirectories and its rest. -/
lemma walkEntries_matches {listing : Listing} (hhost : SteadyHost scan.host)
    (hroot : ∀ t, scan.host.dirOpen t scan.device.volumePath = .ok listing) {forest : Forest}
    {dir : Bytes} {depth levels left : ℕ} {ending : Status}
    (hdepth : depth + levels = scanMaxDepth) (hforest : forest.Presented scan.host dir)
    (h : Matches scan signatures t st) (hst : st.stopped = false)
    (hgoes : (walkEntries scan (walkDir scan levels) dir ending (forest.entries.take left)
      st).2.stopped = false) :
    Matches scan signatures (t ++ (tallyForest scan dir depth left forest ++ Tally.ofEnding ending))
      (walkEntries scan (walkDir scan levels) dir ending (forest.entries.take left) st).2 := by
  induction forest generalizing dir depth levels left ending st t with
  | nil =>
    simp only [Forest.entries, List.take_nil] at hgoes ⊢
    rw [tallyForest, Tally.empty_append]
    exact h.ended hroot hgoes
  | cons entry answer below rest ihbelow ihrest =>
    cases left with
    | zero =>
      rw [List.take_zero] at hgoes ⊢
      rw [tallyForest, Tally.empty_append]
      exact h.ended hroot hgoes
    | succ left =>
      simp only [Forest.entries, List.take_succ_cons] at hgoes ⊢
      obtain ⟨outcome, houtcome, heq⟩ := walkEntries_cons scan (walkDir scan levels) dir ending
        entry (rest.entries.take left) st
      rw [heq] at hgoes ⊢
      -- What the entry itself adds, and then the rest of the listing.
      have hrest : ∀ {st' : WalkState} {own : Tally}, Matches scan signatures (t ++ own) st' →
          st'.stopped = false →
          (walkEntries scan (walkDir scan levels) dir ending (rest.entries.take left)
            st').2.stopped = false →
          Matches scan signatures
            (t ++ (own ++ tallyForest scan dir depth left rest ++ Tally.ofEnding ending))
            (walkEntries scan (walkDir scan levels) dir ending (rest.entries.take left) st').2 := by
        intro st' own hown hst' hgo
        have htail := ihrest hdepth hforest.2 hown hst' hgo
        rwa [Tally.append_assoc, ← Tally.append_assoc own] at htail
      have hnothing : Matches scan signatures (t ++ {}) st.polled := by
        rw [Tally.append_empty]
        exact h.polled
      simp only [tallyForest]
      cases houtcome with
      | cancelled => simp [WalkState.stopped] at hgoes
      | reparse hreparse =>
        rw [if_pos (.inl hreparse)]
        exact hrest hnothing hst hgoes
      | tooLong hreparse hpath =>
        rw [if_pos (.inr (le_joined_of_error hpath))]
        exact hrest hnothing hst hgoes
      | file hreparse hpath hdir =>
        obtain ⟨rfl, hshort⟩ := pathJoin_eq_ok.mp hpath
        rw [if_neg (by simp [hreparse]; omega), if_neg (by simp [hdir])]
        exact hrest (h.polled.visited hhost _ entry) hst hgoes
      | excluded hreparse hpath hdir hexcluded =>
        obtain ⟨rfl, hshort⟩ := pathJoin_eq_ok.mp hpath
        rw [if_neg (by simp [hreparse]; omega), if_pos hdir, if_pos hexcluded]
        exact hrest h.polled.leftOut hst hgoes
      | entered hreparse hpath hdir hexcluded _ hstill =>
        obtain ⟨rfl, hshort⟩ := pathJoin_eq_ok.mp hpath
        obtain ⟨hopen, hbelow⟩ := hforest.1 hdir hreparse
        rw [if_neg (by simp [hreparse]; omega), if_pos hdir, if_neg (by simp [hexcluded])]
        exact hrest (walkDir_matches hdepth hroot hopen
          (fun hl hst' hgo' hgo => ihbelow (by omega) hbelow hst' hgo' hgo) h.polled hst hstill)
          hstill hgoes
      | ended hreparse hpath hdir hend hexcluded =>
        rcases hend with hend | hend
        · exact absurd (walkDir_ok (by omega) _ _) hend
        · exact absurd hgoes (by rw [show Sum.elim _ _ _ = _ from rfl]; simp [hend])

end UsbSentinel.Scanner
