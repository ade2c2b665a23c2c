import UsbSentinel.Autorun
import UsbSentinel.ScanReads

/-! What the autorun inspection is sure to find: a launch command in front of the first match of
the root's listing, as far as the file is read. -/
namespace UsbSentinel.Autorun
open ByteString UsbSentinel.Path

def launchMarkers : List Bytes := [ascii "open=", ascii "shellexecute="]

/-- The file of the entry `e`, as the detector meets it: it can be opened and read, and there is
room for a finding. -/
structure Opened (host : ScanHost) (device : Device) (w : World) (e : DirEntry) (content : Bytes) :
    Prop where
  joins : (joined host.kind device.volumePath e.name).length < volumePathMax + nameMax
  opened : ∃ file, file.failAt = none ∧ file.content = content ∧
    host.fileOpen (w.record (.dirOpen device.volumePath)).trace
      (joined host.kind device.volumePath e.name) = .ok file
  room : ∀ n, host.findingMemory ((w.record (.dirOpen device.volumePath)).record
    (.fileOpen (joined host.kind device.volumePath e.name))).trace n = true

def Warns (result : CheckResult) : Prop := ∃ f ∈ result.findings.items, f.severity = .warning

/-- Detection as one would want it: whichever entry of the root goes by the name, and wherever
the command stands in its file. -/
def Complete (host : ScanHost) (device : Device) (w : World) : Prop :=
  ∀ listing, host.dirOpen w.trace device.volumePath = .ok listing →
    ∀ e ∈ listing.entries, isAutorunEntry e = true → ∀ content,
      Opened host device w e content → (∃ marker ∈ launchMarkers, Mentions content marker) →
        Warns (detectAutorun host device w).1

section Found
variable {host : ScanHost} {device : Device} {w : World} {e : DirEntry} {content : Bytes}

/-- A name that matches is eleven bytes long, so it fits its field. -/
lemma name_fits (h : isAutorunEntry e = true) : 0 < e.name.length ∧ e.name.length < nameMax := by
  have hcase : equalsCi e.name autorunFilename = true := (Bool.and_eq_true _ _ ▸ h).2
  have hlength := congrArg List.length (of_decide_eq_true hcase)
  rw [List.length_map, List.length_map] at hlength
  have heleven : autorunFilename.length = 11 := by decide
  unfold nameMax
  omega

/-- The first match of the listing is inspected, up to the bound of the buffer. -/
theorem detectAutorun_eq {listing : Listing}
    (hlisted : host.dirOpen w.trace device.volumePath = .ok listing)
    (hfirst : listing.entries.find? isAutorunEntry = some e) (h : Opened host device w e content) :
    (detectAutorun host device w).1 =
      finding (host.findingMemory ((w.record (.dirOpen device.volumePath)).record
          (.fileOpen (joined host.kind device.volumePath e.name))).trace)
        (CheckResult.init autorunId) e.name (content.take autorunMaxRead) := by
  obtain ⟨file, hsound, hcontent, hopen⟩ := h.opened
  have hname : findAutorunName host device.volumePath w =
      (some e.name, w.record (.dirOpen device.volumePath)) := by
    unfold findAutorunName World.dirOpen
    simp only [hlisted, hfirst]
    rw [if_pos (name_fits (List.find?_some hfirst))]
  have hjoin : pathJoin host.kind (volumePathMax + nameMax) device.volumePath e.name =
      .ok (joined host.kind device.volumePath e.name) := pathJoin_eq_ok.mpr ⟨rfl, h.joins⟩
  have hread : readCapped autorunMaxRead file = (content.take autorunMaxRead, none) := by
    rw [readCapped_sound hsound, hcontent]
  unfold detectAutorun World.fileOpen
  simp only [hname, Option.getD_some, hjoin, hopen, hread]

lemma finding_warns {grow : ℕ → Bool} (hgrow : ∀ n, grow n = true) (result : CheckResult)
    (name text : Bytes) :
    Warns (finding grow result name text) ↔
      Warns result ∨ ∃ marker ∈ launchMarkers, containsCi (cstr text) marker = true := by
  have hmarkers : (∃ marker ∈ launchMarkers, containsCi (cstr text) marker = true) ↔
      (containsCi (cstr text) (ascii "open=") ||
        containsCi (cstr text) (ascii "shellexecute=")) = true := by
    simp [launchMarkers]
  have hitems : ∀ severity message, Warns (result.addFinding grow severity name message) ↔
      Warns result ∨ severity = .warning := by
    intro severity message
    unfold Warns
    simp only [CheckResult.addFinding_items hgrow, List.mem_append, List.mem_singleton]
    constructor
    · rintro ⟨f, hf | rfl, hseverity⟩
      · exact .inl ⟨f, hf, hseverity⟩
      · exact .inr hseverity
    · rintro (⟨f, hf, hseverity⟩ | hseverity)
      · exact ⟨f, .inl hf, hseverity⟩
      · exact ⟨_, .inr rfl, hseverity⟩
  rw [hmarkers]
  unfold finding
  simp only
  by_cases hlaunch : (containsCi (cstr text) (ascii "open=") ||
      containsCi (cstr text) (ascii "shellexecute=")) = true
  · rw [if_pos hlaunch, hitems]
    simp [hlaunch]
  · rw [if_neg hlaunch, hitems]
    simp [hlaunch]

lemma zero_notMem_letters {letters marker : Bytes} (hmarker : marker ∈ launchMarkers)
    (heq : equalsCi letters marker = true) : (0 : UInt8) ∉ letters := by
  intro hzero
  have hlower : lowerAscii 0 ∈ marker.map lowerAscii := by
    rw [← of_decide_eq_true heq]
    exact List.mem_map_of_mem hzero
  have hplain : ∀ marker ∈ launchMarkers, lowerAscii 0 ∉ marker.map lowerAscii := by
    decide
  exact hplain marker hmarker hlower

/-- What is searched is the copy up to its first NUL. -/
theorem detectAutorun_warns_iff {listing : Listing}
    (hlisted : host.dirOpen w.trace device.volumePath = .ok listing)
    (hfirst : listing.entries.find? isAutorunEntry = some e) (h : Opened host device w e content) :
    Warns (detectAutorun host device w).1 ↔
      ∃ marker ∈ launchMarkers, containsCi (cstr (content.take autorunMaxRead)) marker = true := by
  have hfresh : ¬ Warns (CheckResult.init autorunId) := fun hwarns => by
    obtain ⟨f, hf, _⟩ := hwarns
    exact nomatch hf
  rw [detectAutorun_eq hlisted hfirst h, finding_warns h.room, or_iff_right hfresh]

/-- A launch command within the part that is read, with no NUL before it, is a warning. -/
theorem detectAutorun_found {listing : Listing}
    (hlisted : host.dirOpen w.trace device.volumePath = .ok listing)
    (hfirst : listing.entries.find? isAutorunEntry = some e) (h : Opened host device w e content)
    (hlaunch : ∃ marker ∈ launchMarkers, ∃ before letters after,
      content.take autorunMaxRead = before ++ letters ++ after ∧ (0 : UInt8) ∉ before ∧
        equalsCi letters marker = true) :
    Warns (detectAutorun host device w).1 := by
  obtain ⟨marker, hmarker, before, letters, after, hsplit, hbefore, heq⟩ := hlaunch
  have hletters := zero_notMem_letters hmarker heq
  have hfront : (0 : UInt8) ∉ before ++ letters := by
    simp [hbefore, hletters]
  have hne : ∀ marker ∈ launchMarkers, marker ≠ [] := by decide +kernel
  refine (detectAutorun_warns_iff hlisted hfirst h).mpr ⟨marker, hmarker, ?_⟩
  refine (containsCi_iff _ _).mpr ⟨hne marker hmarker, before, letters, cstr after, ?_, heq⟩
  rw [hsplit, cstr_append hfront]

end Found

/-- A volume at /v whose root lists these files, each with its content. -/
def rootHost (files : List (Bytes × Bytes)) : ScanHost where
  kind := .posix
  dirOpen _ _ := .ok ⟨files.map fun f => { name := f.1 }, .notFound⟩
  fileOpen _ path :=
    match files.find? fun f => ascii "/v/" ++ f.1 = path with
    | some f => .ok { content := f.2 }
    | none => .error .notFound
  sha256Hex _ := []
  signatureSort := .merge
  dirOpen_refused h := nomatch h

def stick : Device := { volumePath := ascii "/v" }

/-- A file of the root that is found by its path. -/
lemma rootHost_opened {files : List (Bytes × Bytes)} {name content : Bytes}
    (hfirst : files.find? (fun f => ascii "/v/" ++ f.1 = ascii "/v/" ++ name) = some (name, content))
    (hshort : name.length = 11) : Opened (rootHost files) stick {} { name } content := by
  have hjoined : joined .posix (ascii "/v") name = ascii "/v/" ++ name := rfl
  refine ⟨?_, ⟨{ content }, rfl, rfl, ?_⟩, fun _ => rfl⟩
  · change (joined .posix (ascii "/v") name).length < _
    have hroot : (ascii "/v/").length = 3 := ascii_length _
    rw [hjoined, List.length_append, hroot, hshort]
    decide
  · change (match files.find? fun f => ascii "/v/" ++ f.1 = joined .posix (ascii "/v") name with
      | some f => Except.ok ({ content := f.2 } : FileStream)
      | none => .error Status.notFound) = _
    rw [hjoined, hfirst]

theorem detectAutorun_found_upper :
    Warns (detectAutorun (rootHost [(ascii "AUTORUN.INF", ascii "[autorun] Open=a.exe")]) stick
      {}).1 := by
  have hopened : Opened (rootHost [(ascii "AUTORUN.INF", ascii "[autorun] Open=a.exe")]) stick {}
      { name := ascii "AUTORUN.INF" } (ascii "[autorun] Open=a.exe") :=
    rootHost_opened (by decide +kernel) (by decide +kernel)
  exact detectAutorun_found rfl (by decide +kernel) hopened
    ⟨ascii "open=", by decide +kernel, ascii "[autorun] ", ascii "Open=", ascii "a.exe",
      by decide +kernel, by decide +kernel, by decide +kernel⟩

/-- Blanks up to the bound of the buffer, and the command behind. -/
def behindBound : Bytes := List.replicate autorunMaxRead 32 ++ ascii "open="

lemma not_mentions_blanks (n : ℕ) : ∀ marker ∈ launchMarkers,
    ¬ Mentions (List.replicate n 32) marker := by
  rintro marker hmarker ⟨before, letters, after, hsplit, heq⟩
  have hword : ∀ marker ∈ launchMarkers, lowerAscii 61 ∈ marker.map lowerAscii := by decide
  have hsign := hword marker hmarker
  rw [← of_decide_eq_true heq] at hsign
  obtain ⟨c, hc, hlower⟩ := List.mem_map.mp hsign
  have hblank : c ∈ List.replicate n 32 := by
    rw [hsplit]
    simp [hc]
  rw [List.eq_of_mem_replicate hblank] at hlower
  revert hlower
  decide

/-- A command behind the bound is not found, nor one in the second of two spellings, nor one
behind a NUL. -/
theorem detectAutorun_incomplete :
    ¬ Complete (rootHost [(ascii "autorun.inf", behindBound)]) stick {} ∧
      ¬ Complete (rootHost [(ascii "autorun.inf", []), (ascii "AUTORUN.INF", ascii "open=a.exe")])
        stick {} ∧
      ¬ Complete (rootHost [(ascii "autorun.inf", 0 :: ascii "open=a.exe")]) stick {} := by
  refine ⟨?_, ?_, ?_⟩
  · intro hcomplete
    have hopened : Opened (rootHost [(ascii "autorun.inf", behindBound)]) stick {}
        { name := ascii "autorun.inf" } behindBound := rootHost_opened rfl (by decide +kernel)
    have hwarns := hcomplete _ rfl _ (List.mem_singleton_self _) (by decide +kernel) _ hopened
      ⟨ascii "open=", by decide +kernel, _, ascii "open=", [], (List.append_nil _).symm, by
        decide +kernel⟩
    obtain ⟨marker, hmarker, hcontains⟩ :=
      (detectAutorun_warns_iff rfl (by decide +kernel) hopened).mp hwarns
    have hblanks : cstr (behindBound.take autorunMaxRead) = List.replicate autorunMaxRead 32 := by
      rw [behindBound, List.take_left' List.length_replicate]
      exact cstr_eq_self fun hzero => absurd (List.eq_of_mem_replicate hzero) (by decide)
    rw [hblanks] at hcontains
    exact not_mentions_blanks _ marker hmarker ((containsCi_iff _ _).mp hcontains).2
  · intro hcomplete
    let files : List (Bytes × Bytes) :=
      [(ascii "autorun.inf", []), (ascii "AUTORUN.INF", ascii "open=a.exe")]
    have hlower : Opened (rootHost files) stick {} { name := ascii "autorun.inf" } [] :=
      rootHost_opened (by decide +kernel) (by decide +kernel)
    have hupper : Opened (rootHost files) stick {} { name := ascii "AUTORUN.INF" }
        (ascii "open=a.exe") := rootHost_opened (by decide +kernel) (by decide +kernel)
    have hwarns := hcomplete _ rfl { name := ascii "AUTORUN.INF" } (by decide +kernel)
      (by decide +kernel) _ hupper
      ⟨ascii "open=", by decide +kernel, [], ascii "open=", ascii "a.exe", by decide +kernel,
        by decide +kernel⟩
    exact absurd ((detectAutorun_warns_iff rfl (by decide +kernel) hlower).mp hwarns)
      (by decide +kernel)
  · intro hcomplete
    have hopened : Opened (rootHost [(ascii "autorun.inf", 0 :: ascii "open=a.exe")]) stick {}
        { name := ascii "autorun.inf" } (0 :: ascii "open=a.exe") :=
      rootHost_opened (by decide +kernel) (by decide +kernel)
    have hwarns := hcomplete _ rfl _ (List.mem_singleton_self _) (by decide +kernel) _ hopened
      ⟨ascii "open=", by decide +kernel, [0], ascii "open=", ascii "a.exe", by decide +kernel,
        by decide +kernel⟩
    exact absurd ((detectAutorun_warns_iff rfl (by decide +kernel) hopened).mp hwarns)
      (by decide +kernel)

end UsbSentinel.Autorun
