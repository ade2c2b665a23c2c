import UsbSentinel.ScanChecks
import UsbSentinel.VolumeTree

/-! What a scan opens: directories and files of the volume, the signature file, and the name
autorun inspection picks for itself. -/
namespace UsbSentinel.Scanner
open ByteString UsbSentinel.Path

variable {scan : Scan}

/-- The path an event opens. -/
def openedPath : Event → Option Bytes
  | .dirOpen path => some path
  | .fileOpen path => some path
  | _ => none

/-- Directories in `D`, small files in `F`, the root and the signature file. -/
def Allowed (scan : Scan) (D : Bytes → Prop) (F : Bytes → DirEntry → Prop) (e : Event) : Prop :=
  ∀ path, openedPath e = some path →
    D path ∨ path = scan.device.volumePath ∨
      (∃ entry, F path entry ∧ entry.sizeBytes.toNat ≤ HashMatch.maxFileSize) ∨
      HashMatch.resolveSignaturePath scan.host = some path

variable {D : Bytes → Prop} {F : Bytes → DirEntry → Prop}

theorem allowed_of_opens {path : Bytes} {entry : DirEntry} (hF : F path entry) {e : Event}
    (h : Registry.Opens scan.host path entry e) : Allowed scan D F e := by
  intro p hp
  rcases h with ⟨q, hq, rfl⟩ | ⟨rfl, hsize⟩
  · cases hp
    exact .inr (.inr (.inr hq))
  · cases hp
    exact .inr (.inr (.inl ⟨entry, hF, hsize⟩))

theorem allowed_of_silent {e : Event} (h : openedPath e = none) : Allowed scan D F e := by
  intro p hp
  rw [h] at hp
  cases hp

theorem dispatch_allowed {path : Bytes} {entry : DirEntry} (hF : F path entry)
    {slots : List Slot} (hslots : Registered slots) (w : World) :
    Trace.Continues (Allowed scan D F) w.trace (dispatch scan path entry slots w).2.trace := by
  induction slots generalizing w with
  | nil => exact .refl _ _
  | cons slot rest ih =>
    have hrest := ih fun s hs => hslots s (List.mem_cons_of_mem _ hs)
    refine Trace.Continues.trans ?_ (hrest _)
    have hrecord : Trace.Continues (Allowed scan D F) w.trace
        (w.record (.onFile slot.detector.id path entry)).trace :=
      .record (allowed_of_silent rfl)
    unfold handFile
    simp only
    split
    · rename_i f hf
      have hvisit := Registry.onFile_visits (hslots slot (List.mem_cons_self ..)) hf scan.host
        scan.device slot.result path entry (w.record (.onFile slot.detector.id path entry))
      exact hrecord.trans (hvisit.continues.mono fun e he => allowed_of_opens hF he)
    · exact hrecord

theorem Step.allowed {st st' : WalkState} (h : Step scan D F st st')
    (hslots : Registered st.slots) :
    Trace.Continues (Allowed scan D F) st.world.trace st'.world.trace := by
  cases h with
  | poll | cancel | excluded => exact .refl _ _
  | opened hD =>
    refine .record fun p hp => ?_
    cases hp
    exact .inl hD
  | failed =>
    have hprobe : Allowed scan D F (.dirOpen scan.device.volumePath) := by
      intro p hp
      cases hp
      exact .inr (.inl rfl)
    unfold classifyPathFailure World.dirOpen
    cases scan.host.dirOpen st.world.trace scan.device.volumePath with
    | ok listing => exact .record hprobe
    | error e => exact .record hprobe
  | visited hF =>
    rename_i path entry
    simp only [visitFile]
    refine Trace.Continues.trans ?_ (dispatch_allowed hF hslots _)
    have hcounted : Trace.Continues (Allowed scan D F) st.world.trace
        (st.world.record (.counted path entry)).trace := .record (allowed_of_silent rfl)
    split_ifs
    · exact hcounted.trans (.record (allowed_of_silent rfl))
    · exact hcounted

theorem Steps.allowed {st st' : WalkState} (h : Steps scan D F st st')
    (hslots : Registered st.slots) :
    Trace.Continues (Allowed scan D F) st.world.trace st'.world.trace := by
  induction h with
  | refl => exact .refl _ _
  | tail hsteps hlast ih =>
    exact ih.trans (hlast.allowed ((Steps.slotsKept hsteps hslots).registered hslots))

/-- The walk of a volume visits its directories and files. -/
theorem closed_of_presented {v : Volume} (hv : v.Presented scan.host scan.device.volumePath) :
    Closed scan (fun path => ∃ below, (path, below) ∈ v.dirs scan.host.kind scan.device.volumePath)
      (fun path entry => (path, entry) ∈ v.files scan.host.kind scan.device.volumePath) := by
  refine ⟨?_⟩
  rintro t dir listing entry path ⟨below, hmem⟩ hopen hentry hreparse hpath
  obtain ⟨rfl, -⟩ := pathJoin_eq_ok.mp hpath
  have hentry := hv.entries_subset hmem hopen hentry
  split_ifs with hdir
  · obtain ⟨sub, hsub⟩ := Forest.mem_dirs_of_entry hentry hdir hreparse
    exact ⟨sub, Volume.dirs_below hmem hsub⟩
  · exact Volume.mem_files hmem hentry (by simpa using hdir) hreparse

/-- No reparse point of the volume has the path of something that may be opened: a
directory, a file small enough to be hashed, the signature file, or what autorun inspection
picks from a listing of the root. -/
structure Clear (scan : Scan) (v : Volume) : Prop where
  directories : ∀ path ∈ v.flagged scan.host.kind scan.device.volumePath, ∀ below,
    (path, below) ∉ v.dirs scan.host.kind scan.device.volumePath
  files : ∀ path ∈ v.flagged scan.host.kind scan.device.volumePath, ∀ entry,
    (path, entry) ∈ v.files scan.host.kind scan.device.volumePath →
      HashMatch.maxFileSize < entry.sizeBytes.toNat
  signatures : ∀ path, HashMatch.resolveSignaturePath scan.host = some path →
    path ∉ v.flagged scan.host.kind scan.device.volumePath
  autorun : ∀ t, joined scan.host.kind scan.device.volumePath
      (Autorun.pickName (scan.host.dirOpen t scan.device.volumePath)) ∉
    v.flagged scan.host.kind scan.device.volumePath

theorem Clear.allowed {v : Volume} (hclear : Clear scan v) {e : Event}
    (h : Allowed scan
      (fun path => ∃ below, (path, below) ∈ v.dirs scan.host.kind scan.device.volumePath)
      (fun path entry => (path, entry) ∈ v.files scan.host.kind scan.device.volumePath) e)
    {path : Bytes} (hpath : path ∈ v.flagged scan.host.kind scan.device.volumePath) :
    openedPath e ≠ some path := by
  intro hopened
  rcases h path hopened with ⟨below, hmem⟩ | rfl | ⟨entry, hmem, hsize⟩ | hsignatures
  · exact hclear.directories path hpath below hmem
  · exact hclear.directories _ hpath v.top (List.mem_cons_self ..)
  · exact absurd hsize (Nat.not_le_of_lt (hclear.files path hpath entry hmem))
  · exact hclear.signatures path hsignatures hpath

/-- The scan opens no path of a reparse point, as a directory or as a file. -/
def LeavesReparsePoints (scan : Scan) (v : Volume) (signatures : SignatureState) : Prop :=
  ∀ e ∈ (scannerScan scan signatures).2.trace,
    ∀ path ∈ v.flagged scan.host.kind scan.device.volumePath,
      e ≠ .dirOpen path ∧ e ≠ .fileOpen path

/-- Every scan of a volume that is clear in this sense opens no reparse point of it. -/
theorem reparse_points_unopened {v : Volume} (signatures : SignatureState)
    (hv : v.Presented scan.host scan.device.volumePath) (hclear : Clear scan v) :
    LeavesReparsePoints scan v signatures := by
  have hroot : ∃ below, (scan.device.volumePath, below) ∈
      v.dirs scan.host.kind scan.device.volumePath := ⟨v.top, List.mem_cons_self ..⟩
  have hwalk : ∀ e ∈ (walkVolume scan signatures).2.world.trace,
      ∀ path ∈ v.flagged scan.host.kind scan.device.volumePath, openedPath e ≠ some path := by
    obtain ⟨events, htrace, hallowed⟩ := (walkVolume_steps (closed_of_presented hv) hroot
      signatures).allowed (initialState_registered signatures)
    intro e he path hpath
    rw [htrace] at he
    exact hclear.allowed (hallowed e he) hpath
  have hscan : ∀ e ∈ (scannerScan scan signatures).2.trace,
      ∀ path ∈ v.flagged scan.host.kind scan.device.volumePath, openedPath e ≠ some path := by
    unfold scannerScan detectorChecks
    simp only
    split_ifs with hincomplete
    · exact hwalk
    · rw [runWholeCheckDetectors_eq]
      obtain ⟨events, htrace, hopens⟩ := Autorun.detectAutorun_opens scan.host scan.device
        ((walkVolume scan signatures).2.world.record (.run Autorun.autorunId))
      intro e he path hpath hopened
      rw [htrace, List.mem_append, World.record_trace, List.mem_append,
        List.mem_singleton] at he
      rcases he with (he | rfl) | he
      · exact hwalk e he path hpath hopened
      · cases hopened
      · rcases hopens e he with rfl | rfl
        · cases hopened
          exact hclear.directories _ hpath v.top (List.mem_cons_self ..)
        · cases hopened
          exact hclear.autorun _ hpath
  intro e he path hpath
  exact ⟨fun h => hscan e he path hpath (by rw [h]; rfl),
    fun h => hscan e he path hpath (by rw [h]; rfl)⟩

/-- A root that lists one entry, on a host where nothing else can be opened. -/
def singleScan (entry : DirEntry) : Scan where
  host := { ScanHost.blank with
    dirOpen := fun _ path =>
      if path = ascii "/v" then .ok ⟨[entry], .notFound⟩ else .error .notFound
    dirOpen_refused := by
      intro t path e h
      split_ifs at h
      cases h
      decide }
  device := { volumePath := ascii "/v" }

def singleVolume (entry : DirEntry) : Volume :=
  ⟨.listed 1 .notFound, .cons entry (.listed 0 .notFound) .nil .nil⟩

theorem singleVolume_presented {entry : DirEntry}
    (h : entry.isDirectory = true → entry.isReparsePoint = false → False) :
    (singleVolume entry).Presented (singleScan entry).host
      (singleScan entry).device.volumePath := by
  have hopen : ∀ t, (singleScan entry).host.dirOpen t (ascii "/v") =
      .ok ⟨[entry], .notFound⟩ := fun t => by simp [singleScan]
  refine ⟨hopen [], fun t listing hl => ⟨1, ?_⟩, fun h1 h2 => (h h1 h2).elim, trivial⟩
  rw [← Except.ok.inj ((hopen t).symm.trans hl)]
  rfl

/-- A link named otherwise than autorun.inf. -/
def plainLink : DirEntry := { name := ascii "link", isReparsePoint := true }

theorem reparse_points_unopened_link :
    LeavesReparsePoints (singleScan plainLink) (singleVolume plainLink) {} := by
  refine reparse_points_unopened {} (singleVolume_presented (by decide)) ?_
  have hflagged : (singleVolume plainLink).flagged (singleScan plainLink).host.kind
      (singleScan plainLink).device.volumePath = [ascii "/v/link"] := by decide +kernel
  have hdirs : (singleVolume plainLink).dirs (singleScan plainLink).host.kind
      (singleScan plainLink).device.volumePath =
        [(ascii "/v", (singleVolume plainLink).top)] := rfl
  have hname : ∀ t, joined .posix (ascii "/v") (Autorun.pickName
      ((singleScan plainLink).host.dirOpen t (ascii "/v"))) = ascii "/v/autorun.inf" := by
    intro t
    have hopen : (singleScan plainLink).host.dirOpen t (ascii "/v") =
        .ok ⟨[plainLink], .notFound⟩ := by simp [singleScan]
    rw [hopen]
    decide +kernel
  refine ⟨?_, ?_, ?_, ?_⟩
  · rw [hflagged, hdirs]
    intro path hpath below hmem
    have hroot : path = ascii "/v" := (Prod.mk.inj (List.mem_singleton.mp hmem)).1
    rw [hroot] at hpath
    revert hpath
    decide +kernel
  · intro path _ entry hmem
    cases hmem
  · intro path hpath
    have hnone : HashMatch.resolveSignaturePath (singleScan plainLink).host = none := by
      decide +kernel
    rw [hnone] at hpath
    cases hpath
  · intro t hmem
    have hmem := (hname t) ▸ hmem
    rw [hflagged] at hmem
    revert hmem
    decide +kernel

def autorunLink : DirEntry := { name := ascii "AUTORUN.INF", isReparsePoint := true }

/-- The scan of a volume whose autorun.inf is a link opens the link. -/
theorem autorun_link_opened :
    (singleVolume autorunLink).Presented (singleScan autorunLink).host
        (singleScan autorunLink).device.volumePath ∧
      ¬ LeavesReparsePoints (singleScan autorunLink) (singleVolume autorunLink) {} := by
  refine ⟨singleVolume_presented (by decide), fun h => ?_⟩
  have hflagged : ascii "/v/AUTORUN.INF" ∈ (singleVolume autorunLink).flagged
      (singleScan autorunLink).host.kind (singleScan autorunLink).device.volumePath := by
    decide +kernel
  have hopened : .fileOpen (ascii "/v/AUTORUN.INF") ∈
      (scannerScan (singleScan autorunLink)).2.trace := by decide +kernel
  exact (h _ hopened _ hflagged).2 rfl

end UsbSentinel.Scanner
