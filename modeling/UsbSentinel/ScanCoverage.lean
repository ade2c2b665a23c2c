import UsbSentinel.ScanVisits

/-! What a scan without a skip or an exclusion covers: the files to which the shown entries lead
the walk in one way, within its depth and path limits, and no others. -/
namespace UsbSentinel.Scanner
open ByteString UsbSentinel.Path

variable {scan : Scan}

theorem Steps.fileCount {D : Bytes → Prop} {F : Bytes → DirEntry → Prop} {st st' : WalkState}
    (h : Steps scan D F st st') (hslots : Registered st.slots)
    (hst : st.fileCount = (countedFiles st.world.trace).length) :
    st'.fileCount = (countedFiles st'.world.trace).length := by
  induction h with
  | refl => exact hst
  | @tail b c hsteps hlast ih =>
    have hregistered := (Steps.slotsKept hsteps hslots).registered hslots
    cases hlast with
    | poll | cancel | excluded => exact ih
    | opened => exact ih.trans (congrArg List.length (opened_events b.world _ []).1.symm)
    | failed =>
      have hcount : (classifyPathFailure scan b).fileCount = b.fileCount := by
        unfold classifyPathFailure World.dirOpen
        cases scan.host.dirOpen b.world.trace scan.device.volumePath <;> rfl
      rw [hcount, (classifyPathFailure_events b []).1]
      exact ih
    | visited =>
      rw [visitFile_counted _ _ hregistered, List.length_append, ← ih]
      rfl

/-- The directories that were opened, in order. -/
def openedDirs (t : Trace) : List Bytes :=
  t.filterMap fun
    | .dirOpen path => some path
    | _ => none

/-- The scan covered the volume: each of its files was counted once and handed once to every
per-file detector. A directory with files was opened once, so that no file was counted for
another one of the same listed name. -/
structure Covered (scan : Scan) (m : Medium scan.host.kind) (signatures : SignatureState) : Prop where
  counted : (countedFiles (scannerScan scan signatures).2.trace).Perm
    (m.files scan.device.volumePath)
  once : ∀ s ∈ m.sites scan.device.volumePath, s.linked = false → s.files scan.host.kind ≠ [] →
    (openedDirs (walkVolume scan signatures).2.world.trace).count s.path = 1
  fileCount : (walkVolume scan signatures).2.fileCount = (m.files scan.device.volumePath).length
  handed : ∀ d ∈ Registry.detectors, d.onFile.isSome = true →
    (handedFiles d.id (scannerScan scan signatures).2.trace).Perm (m.files scan.device.volumePath)

theorem incomplete_of_completed {signatures : SignatureState}
    (h : (scannerScan scan signatures).1.status = .completed) :
    incomplete (walkVolume scan signatures).1 (walkVolume scan signatures).2 = false := by
  by_contra hno
  simp [scannerScan, hno] at h

/-- What a completed scan counted and handed over is what its walk did. -/
theorem scannerScan_events {signatures : SignatureState}
    (h : (scannerScan scan signatures).1.status = .completed) (d : Bytes) :
    countedFiles (scannerScan scan signatures).2.trace =
        countedFiles (walkVolume scan signatures).2.world.trace ∧
      handedFiles d (scannerScan scan signatures).2.trace =
        handedFiles d (walkVolume scan signatures).2.world.trace := by
  have htrace : (scannerScan scan signatures).2 =
      (Autorun.detectAutorun scan.host scan.device
        ((walkVolume scan signatures).2.world.record (.run Autorun.autorunId))).2 := by
    simp [scannerScan, detectorChecks, incomplete_of_completed h, runWholeCheckDetectors_eq]
  rw [htrace]
  exact (detectAutorun_events scan (walkVolume scan signatures).2.world d).2

/-- A completed scan without skips and exclusions visits every site as often as shown entries
lead there. -/
theorem walkVolume_visits {m : Medium scan.host.kind} {signatures : SignatureState}
    (hm : m.Presented scan.host scanMaxDepth scan.device.volumePath)
    (hcompleted : (scannerScan scan signatures).1.status = .completed)
    (hskipped : (scannerScan scan signatures).1.pathsSkipped = 0)
    (hexcluded : (scannerScan scan signatures).1.pathsExcluded = 0) :
    visits (walkVolume scan signatures).2.world.trace =
      total scan.host.kind (m.sites scan.device.volumePath) := by
  have hcomplete := incomplete_of_completed hcompleted
  simp only [incomplete, Bool.or_eq_false_iff, decide_eq_false_iff_not, not_not] at hcomplete
  have hgoes : (initialState scan signatures).stopped = false := rfl
  have hstart := hm.first
  cases hanswer : m.answer with
  | refused e he =>
    rw [hanswer] at hstart
    have hstatus : (walkVolume scan signatures).1 = e := by
      have hopen : scan.host.dirOpen (initialState scan signatures).world.trace
          scan.device.volumePath = .error e := hstart
      simp [walkVolume, walkDir, World.dirOpen, hopen, hgoes]
    exact absurd (hstatus.symm.trans hcomplete.1) he
  | listed n ending =>
    rw [hanswer] at hstart
    have hwalk : walkVolume scan signatures = _ := walkDir_listed scanMaxDepth hgoes hstart
    have hunmarked : Unmarked (initialState scan signatures) (walkVolume scan signatures).2 :=
      ⟨hcomplete.2, hskipped, hexcluded⟩
    rw [hwalk] at hunmarked ⊢
    have hdelivered : (m.root scan.device.volumePath).delivered = n := by
      rw [Medium.root, hanswer]
      rfl
    refine (@walkEntries_site scan (m.root scan.device.volumePath) scanMaxDepth n (Nat.zero_add _)
      ⟨Nat.zero_le _, .inl rfl⟩ hdelivered ending (initialState scan signatures)
      (initialState_registered signatures) (fun e he hentered hshort st' hslots h => ?_)
      hunmarked).trans ?_
    · exact walkDir_entry m.named (Nat.zero_add _) hm.opens he hentered hshort hslots h
    · rw [Medium.sites, total_cons, Medium.root, one_nsmul]
      exact zero_add _

/-! ### Counting the visits -/

lemma count_dir (t : Trace) (path : Bytes) :
    (visits t).count (.dir path) = (openedDirs t).count path := by
  simp only [visits, Multiset.coe_count]
  induction t with
  | nil => rfl
  | cons e t ih => cases e <;> simp [visitEvent, openedDirs, List.count_cons] <;> exact ih

lemma count_file (t : Trace) (f : Bytes × DirEntry) :
    (visits t).count (Visit.ofFile f) = (countedFiles t).count f := by
  simp only [visits, Multiset.coe_count]
  induction t with
  | nil => rfl
  | cons e t ih =>
    cases e with
    | counted path entry =>
      have hsame : ((.file path entry : Visit) == Visit.ofFile f) = ((path, entry) == f) := by
        rw [Bool.eq_iff_iff, beq_iff_eq, beq_iff_eq, Visit.ofFile, Visit.file.injEq, Prod.ext_iff]
      simp only [countedFiles, List.filterMap_cons, visitEvent, countedEvent, List.count_cons, hsame]
      rw [ih]
      rfl
    | dirOpen path =>
      have hsame : countedFiles (.dirOpen path :: t) = countedFiles t := rfl
      rw [hsame, ← ih]
      simp [visitEvent, Visit.ofFile]
    | _ => exact ih

section Count
variable {kind : Host} {m : Medium kind} {root : Bytes}

lemma ofFile_injective : Function.Injective Visit.ofFile := by
  rintro ⟨path, entry⟩ ⟨path', entry'⟩ h
  obtain ⟨rfl, rfl⟩ := Visit.file.inj h
  rfl

lemma count_total (x : Visit) (sites : List Site) :
    (total kind sites).count x = (sites.map fun s => s.ways * (met kind s).count x).sum := by
  induction sites with
  | nil => simp [total]
  | cons s rest ih =>
    rw [total_cons, Multiset.count_add, Multiset.count_nsmul, ih, List.map_cons, List.sum_cons]

lemma site_unique {s s' : Site} (hs : s ∈ m.sites root) (hs' : s' ∈ m.sites root)
    (hpath : s'.path = s.path) : s' = s :=
  List.inj_on_of_nodup_map Medium.sites_nodup hs' hs (congrArg (stem kind) hpath)

/-- A sum over the sites to which one of them adds. -/
lemma sum_single {s : Site} (hs : s ∈ m.sites root) (g : Site → ℕ)
    (hother : ∀ s' ∈ m.sites root, s' ≠ s → g s' = 0) : ((m.sites root).map g).sum = g s := by
  classical
  have hnodup : (m.sites root).Nodup := .of_map _ Medium.sites_nodup
  rw [List.sum_map_eq_nsmul_single s g fun s' hne hs' => hother s' hs' hne,
    List.count_eq_one_of_mem hnodup hs, one_nsmul]

lemma count_met_dir (s : Site) (path : Bytes) :
    (met kind s).count (.dir path) = if Reachable s ∧ s.path = path then 1 else 0 := by
  have hnone : ((seen kind s).map Visit.ofFile).count (.dir path) = 0 := by
    refine List.count_eq_zero.mpr fun hmem => ?_
    obtain ⟨f, _, hf⟩ := List.mem_map.mp hmem
    cases hf
  unfold met
  by_cases hreach : Reachable s
  · rw [if_pos hreach, Multiset.count_add, Multiset.coe_count, hnone, add_zero,
      Multiset.count_singleton]
    by_cases hpath : s.path = path
    · simp [hreach, hpath]
    · simp [hpath, Ne.symm hpath]
  · simp [hreach]

lemma count_met_file (s : Site) (f : Bytes × DirEntry) :
    (met kind s).count (Visit.ofFile f) = if Reachable s then (seen kind s).count f else 0 := by
  unfold met
  split_ifs
  · rw [Multiset.count_add, Multiset.coe_count,
      List.count_map_of_injective _ _ ofFile_injective, Multiset.count_singleton]
    exact Nat.zero_add _
  · rfl

/-- The openings of a site's directory. -/
lemma count_total_dir {s : Site} (hs : s ∈ m.sites root) :
    (total kind (m.sites root)).count (.dir s.path) = s.ways * (if Reachable s then 1 else 0) := by
  rw [count_total, sum_single hs]
  · rw [count_met_dir]
    simp
  · intro s' hs' hne
    rw [count_met_dir, if_neg fun h => hne (site_unique hs hs' h.2), mul_zero]

lemma seen_subset (s : Site) : ∀ f ∈ seen kind s, f ∈ s.files kind := by
  intro f hf
  have hshown := List.mem_of_mem_filter hf
  exact ((List.take_sublist _ _).filter _).map _ |>.subset hshown

/-- How often a file of a site is counted. -/
lemma count_total_file {s : Site} (hs : s ∈ m.sites root) {f : Bytes × DirEntry}
    (hf : f ∈ s.files kind) : (total kind (m.sites root)).count (Visit.ofFile f) =
      s.ways * (if Reachable s then (seen kind s).count f else 0) := by
  rw [count_total, sum_single hs]
  · rw [count_met_file]
  · intro s' hs' hne
    have hnone : (seen kind s').count f = 0 := by
      refine List.count_eq_zero.mpr fun hmem => hne ?_
      exact Medium.site_of_path hs' hs (seen_subset s' f hmem) hf rfl
    rw [count_met_file, hnone, ite_self, mul_zero]

/-- How often a file of a site is among the files. -/
lemma count_files {s : Site} (hs : s ∈ m.sites root) {f : Bytes × DirEntry}
    (hf : f ∈ s.files kind) :
    (m.files root).count f = if s.linked then 0 else (s.files kind).count f := by
  have hother : ∀ s' ∈ m.sites root, s' ≠ s → (s'.files kind).count f = 0 := by
    intro s' hs' hne
    exact List.count_eq_zero.mpr fun hmem => hne (Medium.site_of_path hs' hs hmem hf rfl)
  have hsum : (m.files root).count f =
      ((m.sites root).map fun s => if s.linked then 0 else (s.files kind).count f).sum := by
    rw [Medium.files, List.count_flatMap]
    generalize m.sites root = sites
    induction sites with
    | nil => rfl
    | cons s rest ih => cases hlinked : s.linked <;> simp [hlinked, ← ih]
  rw [hsum, sum_single hs]
  intro s' hs' hne
  rw [hother s' hs' hne, ite_self]

end Count

/-! ### Whole scans -/

/-- The walk counts each file of the site once: one chain of shown entries leads there, the listing
shows all files, and they are within the limits. -/
def Inside (kind : Host) (s : Site) : Prop :=
  ∀ f ∈ s.files kind, s.ways = 1 ∧ s.depth ≤ scanMaxDepth ∧ f.1.length < childPathMax ∧
    s.shown kind = s.files kind

/-- The walk counts no file of the site. -/
def Outside (kind : Host) (s : Site) : Prop :=
  ∀ f ∈ s.shown kind, s.ways = 0 ∨ scanMaxDepth < s.depth ∨ childPathMax ≤ f.1.length

section Sites
variable {kind : Host} {s : Site}

lemma path_le_of_mem {f : Bytes × DirEntry} (hf : f ∈ s.files kind) :
    s.path.length ≤ f.1.length := by
  obtain ⟨e, _, rfl⟩ := List.mem_map.mp hf
  exact joined_length_ge kind s.path e.name

lemma reachable_of_mem {f : Bytes × DirEntry} (hf : f ∈ s.files kind)
    (hdepth : s.depth ≤ scanMaxDepth) (hshort : f.1.length < childPathMax) : Reachable s :=
  ⟨hdepth, .inr ((path_le_of_mem hf).trans_lt hshort)⟩

/-- The walk is at the site once and sees all files there. -/
lemma inside_iff : Inside kind s ↔
    s.files kind = [] ∨ s.ways = 1 ∧ Reachable s ∧ seen kind s = s.files kind := by
  constructor
  · intro h
    by_cases hnone : s.files kind = []
    · exact .inl hnone
    obtain ⟨f, hf⟩ := List.exists_mem_of_ne_nil _ hnone
    obtain ⟨hways, hdepth, hshort, hshown⟩ := h f hf
    refine .inr ⟨hways, reachable_of_mem hf hdepth hshort, ?_⟩
    rw [seen, hshown, List.filter_eq_self]
    exact fun g hg => decide_eq_true (h g hg).2.2.1
  · rintro (hnone | ⟨hways, hreach, hseen⟩) f hf
    · rw [hnone] at hf
      cases hf
    · have hsub : (s.shown kind).Sublist (s.files kind) := ((List.take_sublist _ _).filter _).map _
      refine ⟨hways, hreach.1, ?_, hsub.eq_of_length_le ?_⟩
      · rw [← hseen] at hf
        exact of_decide_eq_true (List.mem_filter.mp hf).2
      · rw [← hseen]
        exact List.length_filter_le _ _

lemma outside_iff : Outside kind s ↔ s.ways = 0 ∨ ¬ Reachable s ∨ seen kind s = [] := by
  constructor
  · intro h
    by_cases hways : s.ways = 0
    · exact .inl hways
    by_cases hreach : Reachable s
    · refine .inr (.inr (List.filter_eq_nil_iff.mpr fun f hf => ?_))
      rcases h f hf with hzero | hdeep | hlong
      · exact absurd hzero hways
      · exact absurd hreach.1 (not_le.mpr hdeep)
      · simpa using hlong
    · exact .inr (.inl hreach)
  · rintro (hways | hreach | hseen) f hf
    · exact .inl hways
    · by_contra hno
      push Not at hno
      have hfile : f ∈ s.files kind := (((List.take_sublist _ _).filter _).map _).subset hf
      exact hreach (reachable_of_mem hfile hno.2.1 hno.2.2)
    · have hlong := List.filter_eq_nil_iff.mp hseen f hf
      exact .inr (.inr (by simpa using hlong))

/-- Where each file is counted as often as it is there, the walk counts no file below a reparse
point and every other one once. -/
lemma sound_of_counts
    (hcount : ∀ f ∈ s.files kind, s.ways * (if Reachable s then (seen kind s).count f else 0) =
      if s.linked then 0 else (s.files kind).count f)
    (honce : s.linked = false → s.files kind ≠ [] → s.ways = 1 ∧ Reachable s) :
    if s.linked then Outside kind s else Inside kind s := by
  cases hlinked : s.linked with
  | true =>
    rw [if_pos rfl, outside_iff]
    by_cases hways : s.ways = 0
    · exact .inl hways
    by_cases hreach : Reachable s
    · refine .inr (.inr (List.eq_nil_iff_forall_not_mem.mpr fun f hf => ?_))
      have hzero := hcount f (seen_subset s f hf)
      rw [if_pos hreach, hlinked, if_pos rfl, Nat.mul_eq_zero] at hzero
      exact absurd (hzero.resolve_left hways) (List.count_pos_iff.mpr hf).ne'
    · exact .inr (.inl hreach)
  | false =>
    rw [if_neg (by simp), inside_iff]
    by_cases hnone : s.files kind = []
    · exact .inl hnone
    obtain ⟨hways, hreach⟩ := honce hlinked hnone
    refine .inr ⟨hways, hreach, ?_⟩
    have hsub : (seen kind s).Sublist (s.files kind) :=
      List.filter_sublist.trans (((List.take_sublist _ _).filter _).map _)
    have hsame : (seen kind s).Perm (s.files kind) := by
      refine List.perm_iff_count.mpr fun f => ?_
      by_cases hf : f ∈ s.files kind
      · have h := hcount f hf
        rwa [if_pos hreach, hways, one_mul, hlinked, if_neg (by simp)] at h
      · rw [List.count_eq_zero.mpr hf, List.count_eq_zero.mpr fun hmem => hf (seen_subset s f hmem)]
    exact hsub.eq_of_length hsame.length_eq

lemma counts_of_sound (h : if s.linked then Outside kind s else Inside kind s)
    {f : Bytes × DirEntry} (hf : f ∈ s.files kind) :
    s.ways * (if Reachable s then (seen kind s).count f else 0) =
      if s.linked then 0 else (s.files kind).count f := by
  cases hlinked : s.linked with
  | true =>
    rw [hlinked, if_pos rfl, outside_iff] at h
    rw [if_pos rfl]
    rcases h with hways | hreach | hseen
    · rw [hways, zero_mul]
    · rw [if_neg hreach, mul_zero]
    · rw [hseen, List.count_nil, ite_self, mul_zero]
  | false =>
    rw [hlinked, if_neg (by simp), inside_iff] at h
    rcases h with hnone | ⟨hways, hreach, hseen⟩
    · rw [hnone] at hf
      cases hf
    · rw [hways, if_pos hreach, hseen, one_mul, if_neg (by simp)]

end Sites

section Volumes
variable {m : Medium scan.host.kind} {signatures : SignatureState}
  (hvisits : visits (walkVolume scan signatures).2.world.trace =
    total scan.host.kind (m.sites scan.device.volumePath))
include hvisits

/-- Where a file of a site lies, how often it was counted. -/
lemma count_counted {s : Site} (hs : s ∈ m.sites scan.device.volumePath) {f : Bytes × DirEntry}
    (hf : f ∈ s.files scan.host.kind) :
    (countedFiles (walkVolume scan signatures).2.world.trace).count f =
      s.ways * (if Reachable s then (seen scan.host.kind s).count f else 0) := by
  rw [← count_file, hvisits, count_total_file hs hf]

/-- What is counted lies at a site. -/
lemma site_of_counted {f : Bytes × DirEntry}
    (hf : f ∈ countedFiles (walkVolume scan signatures).2.world.trace) :
    ∃ s ∈ m.sites scan.device.volumePath, f ∈ s.files scan.host.kind := by
  have hcount : (total scan.host.kind (m.sites scan.device.volumePath)).count (Visit.ofFile f) ≠ 0 := by
    rw [← hvisits, count_file]
    exact (List.count_pos_iff.mpr hf).ne'
  rw [count_total] at hcount
  by_contra hnone
  push Not at hnone
  refine hcount (List.sum_eq_zero fun n hn => ?_)
  obtain ⟨s, hs, rfl⟩ := List.mem_map.mp hn
  have hzero : (seen scan.host.kind s).count f = 0 :=
    List.count_eq_zero.mpr fun hmem => hnone s hs (seen_subset s f hmem)
  rw [count_met_file, hzero, ite_self, mul_zero]

/-- The walk counts the files of the volume exactly when it counts those of each site that is not
below a reparse point once, and none below one. -/
theorem counted_iff :
    ((countedFiles (walkVolume scan signatures).2.world.trace).Perm
        (m.files scan.device.volumePath) ∧
      ∀ s ∈ m.sites scan.device.volumePath, s.linked = false → s.files scan.host.kind ≠ [] →
        (openedDirs (walkVolume scan signatures).2.world.trace).count s.path = 1) ↔
      ∀ s ∈ m.sites scan.device.volumePath,
        if s.linked then Outside scan.host.kind s else Inside scan.host.kind s := by
  constructor
  · rintro ⟨hperm, honce⟩ s hs
    refine sound_of_counts (fun f hf => ?_) fun hlinked hnone => ?_
    · rw [← count_counted hvisits hs hf, hperm.count_eq, count_files hs hf]
    · -- the one opening of the directory settles how the walk gets there
      have hopened := honce s hs hlinked hnone
      rw [← count_dir, hvisits, count_total_dir hs] at hopened
      have hreach : Reachable s := by
        by_contra hno
        simp [hno] at hopened
      exact ⟨by simpa [hreach] using hopened, hreach⟩
  · intro h
    constructor
    · refine List.perm_iff_count.mpr fun f => ?_
      by_cases hsite : ∃ s ∈ m.sites scan.device.volumePath, f ∈ s.files scan.host.kind
      · obtain ⟨s, hs, hf⟩ := hsite
        rw [count_counted hvisits hs hf, count_files hs hf]
        exact counts_of_sound (h s hs) hf
      · have hnot : f ∉ m.files scan.device.volumePath := by
          intro hmem
          obtain ⟨s, hs, hf⟩ := List.mem_flatMap.mp hmem
          exact hsite ⟨s, List.mem_of_mem_filter hs, hf⟩
        rw [List.count_eq_zero.mpr hnot,
          List.count_eq_zero.mpr fun hmem => hsite (site_of_counted hvisits hmem)]
    · intro s hs hlinked hnone
      have hs' := h s hs
      rw [hlinked, if_neg (by simp), inside_iff] at hs'
      obtain ⟨hways, hreach, _⟩ := hs'.resolve_left hnone
      rw [← count_dir, hvisits, count_total_dir hs, hways, if_pos hreach]

end Volumes

/-- A scan that completes without a skip or an exclusion covers the volume exactly when the
per-file detectors have their slots, or there is nothing to hand over, and the walk comes once to
every file that is not below a reparse point and to none that is. -/
theorem covered_iff {m : Medium scan.host.kind} {signatures : SignatureState}
    (hm : m.Presented scan.host scanMaxDepth scan.device.volumePath)
    (hcompleted : (scannerScan scan signatures).1.status = .completed)
    (hskipped : (scannerScan scan signatures).1.pathsSkipped = 0)
    (hexcluded : (scannerScan scan signatures).1.pathsExcluded = 0) :
    Covered scan m signatures ↔
      (scan.host.slotsMemory = true ∨ m.files scan.device.volumePath = []) ∧
        ∀ s ∈ m.sites scan.device.volumePath,
          if s.linked then Outside scan.host.kind s else Inside scan.host.kind s := by
  have hevents := scannerScan_events hcompleted
  have hcount : (walkVolume scan signatures).2.fileCount =
      (countedFiles (walkVolume scan signatures).2.world.trace).length :=
    (walkVolume_run signatures).fileCount (initialState_registered signatures) rfl
  rw [← counted_iff (walkVolume_visits hm hcompleted hskipped hexcluded)]
  constructor
  · intro h
    refine ⟨?_, (hevents []).1 ▸ h.counted, h.once⟩
    by_contra hnone
    simp only [not_or, Bool.not_eq_true] at hnone
    have hhash : Registry.hashMatch ∈ Registry.detectors := by simp [Registry.detectors]
    have hhanded := (h.handed _ hhash rfl).length_eq
    rw [(hevents _).2, walkVolume_handed signatures hhash rfl, hnone.1] at hhanded
    exact hnone.2 (List.length_eq_zero_iff.mp hhanded.symm)
  · rintro ⟨hslots, hperm, honce⟩
    refine ⟨(hevents []).1 ▸ hperm, honce, hcount.trans hperm.length_eq, fun d hd hf => ?_⟩
    rw [(hevents _).2, walkVolume_handed signatures hd hf]
    rcases hslots with hslots | hempty
    · rw [if_pos hslots]
      exact hperm
    · rw [hempty] at hperm ⊢
      rw [hperm.eq_nil, ite_self]

/-! ### A chain of directories -/

/-- One file below `n` directories. -/
def chainContents : ℕ → Contents
  | 0 => .cons (ascii "f") { name := ascii "f" } (.listed 0 .notFound) .nil .nil
  | n + 1 =>
    .cons (ascii "d") { name := ascii "d", isDirectory := true } (.listed 1 .notFound)
      (chainContents n) .nil

lemma chainContents_named (n : ℕ) : (chainContents n).WellNamed .posix := by
  have hfile : PlainName .posix (ascii "f") := ⟨by decide, by decide +kernel⟩
  have hdir : PlainName .posix (ascii "d") := ⟨by decide, by decide +kernel⟩
  induction n with
  | zero => exact ⟨by simp [Contents.names], hfile, hfile, trivial, trivial⟩
  | succ n ih => exact ⟨by simp [Contents.names], hdir, hdir, ih, trivial⟩

/-- A quiet host with a chain of `n` directories mounted at `/v`. -/
def chainScan (n : ℕ) : Scan where
  host := { ScanHost.blank with
    dirOpen := fun _ path =>
      if path.length < 2 + 2 * n then .ok ⟨[{ name := ascii "d", isDirectory := true }], .notFound⟩
      else if path.length = 2 + 2 * n then .ok ⟨[{ name := ascii "f" }], .notFound⟩
      else .error .notFound
    dirOpen_refused := by
      intro t path e h
      split_ifs at h
      obtain rfl := Except.error.inj h
      simp }
  device := { volumePath := ascii "/v" }

lemma chainScan_dirOpen (n : ℕ) (t : Trace) (path : Bytes) : (chainScan n).host.dirOpen t path =
    if path.length < 2 + 2 * n then .ok ⟨[{ name := ascii "d", isDirectory := true }], .notFound⟩
    else if path.length = 2 + 2 * n then .ok ⟨[{ name := ascii "f" }], .notFound⟩
    else .error .notFound := rfl

def chainMedium (n : ℕ) : Medium (chainScan n).host.kind :=
  ⟨.listed 1 .notFound, chainContents n, chainContents_named n⟩

lemma chain_joined {dir : Bytes} (hlast : dir.getLast?.any (isSeparator .posix) = false)
    (c : UInt8) : joined .posix dir [c] = dir ++ [47, c] := by
  unfold joined
  rw [if_neg (by simp [hlast])]
  rfl

lemma chainContents_opens {n k : ℕ} {dir : Bytes} (hdir : dir.length + 2 * k = 2 + 2 * n)
    (hlast : dir.getLast?.any (isSeparator .posix) = false) (levels : ℕ) :
    (chainContents k).Opens (chainScan n).host levels dir (chainContents k).names := by
  have hlength : ∀ c, (joined .posix dir [c]).length = dir.length + 2 := by
    intro c
    rw [chain_joined hlast]
    simp
  induction k generalizing dir levels with
  | zero =>
    cases levels with
    | zero => trivial
    | succ levels =>
      refine ⟨nofun, fun t => ⟨.notFound, ?_⟩, trivial⟩
      have hlen : (joined (chainScan n).host.kind dir (ascii "f")).length = dir.length + 2 :=
        hlength 102
      rw [chainScan_dirOpen, hlen, if_neg (by omega), if_neg (by omega)]
  | succ k ih =>
    cases levels with
    | zero => trivial
    | succ levels =>
      refine ⟨fun _ hname => absurd (List.mem_singleton.mpr rfl) hname, ⟨fun t => ?_, ?_⟩, trivial⟩
      · have hlen : (joined (chainScan n).host.kind dir (ascii "d")).length = dir.length + 2 :=
          hlength 100
        rw [chainScan_dirOpen, hlen]
        cases k with
        | zero =>
          rw [if_neg (by omega), if_pos (by omega)]
          rfl
        | succ k =>
          rw [if_pos (by omega)]
          rfl
      · have hlast' : (joined .posix dir [100]).getLast?.any (isSeparator .posix) = false := by
          rw [chain_joined hlast, List.getLast?_append]
          rfl
        refine @ih (joined .posix dir [100]) (by rw [hlength]; omega) hlast' levels fun c => ?_
        rw [chain_joined hlast']
        simp

lemma chainMedium_presented (n levels : ℕ) :
    (chainMedium n).Presented (chainScan n).host levels (chainScan n).device.volumePath := by
  have hlen : (ascii "/v").length = 2 := ascii_length _
  have hlast : (ascii "/v").getLast?.any (isSeparator .posix) = false := by decide +kernel
  refine ⟨?_, chainContents_opens (show (ascii "/v").length + 2 * n = _ by rw [hlen]) hlast levels⟩
  have hroot : (chainScan n).device.volumePath.length = 2 := hlen
  rw [chainScan_dirOpen, hroot]
  cases n with
  | zero =>
    rw [if_neg (by omega), if_pos (by omega)]
    rfl
  | succ n =>
    rw [if_pos (by omega)]
    rfl

/-- Two directories that are listed under one name, as the bytes caf\xE9 and caf\uFFFD are; only
the second one opens under it. -/
def twinScan : Scan where
  host := { ScanHost.blank with
    dirOpen := fun _ path =>
      if path = ascii "/v" then
        .ok ⟨List.replicate 2
          { name := ascii "caf" ++ [0xEF, 0xBF, 0xBD], isDirectory := true }, .notFound⟩
      else .ok ⟨[{ name := ascii "y" }], .notFound⟩
    dirOpen_refused := by
      intro t path e h
      split_ifs at h }
  device := { volumePath := ascii "/v" }

example : (scannerScan twinScan).1.status = .completed ∧
    countedFiles (scannerScan twinScan).2.trace =
      List.replicate 2 (ascii "/v/caf" ++ [0xEF, 0xBF, 0xBD] ++ ascii "/y", { name := ascii "y" }) := by
  decide +kernel

theorem covered_iff_chain : Covered (chainScan 1) (chainMedium 1) {} ↔
    ((chainScan 1).host.slotsMemory = true ∨
        (chainMedium 1).files (chainScan 1).device.volumePath = []) ∧
      ∀ s ∈ (chainMedium 1).sites (chainScan 1).device.volumePath,
        if s.linked then Outside (chainScan 1).host.kind s
        else Inside (chainScan 1).host.kind s :=
  covered_iff (chainMedium_presented 1 _) (by decide +kernel) (by decide +kernel)
    (by decide +kernel)

/-- A file below 65 directories: the scan completes without a skip or an exclusion and does
not count it. -/
theorem chain_uncovered :
    (chainMedium 65).Presented (chainScan 65).host scanMaxDepth (chainScan 65).device.volumePath ∧
      (scannerScan (chainScan 65)).1.status = .completed ∧
      (scannerScan (chainScan 65)).1.pathsSkipped = 0 ∧
      (scannerScan (chainScan 65)).1.pathsExcluded = 0 ∧
      ¬ Covered (chainScan 65) (chainMedium 65) {} := by
  refine ⟨chainMedium_presented 65 _, by decide +kernel, by decide +kernel, by decide +kernel, ?_⟩
  intro h
  have hnone : countedFiles (scannerScan (chainScan 65)).2.trace = [] := by decide +kernel
  have hlength := h.counted.length_eq
  rw [hnone] at hlength
  have hone : ((chainMedium 65).files (chainScan 65).device.volumePath).length = 1 := by
    decide +kernel
  rw [hone] at hlength
  cases hlength

/-- The chain as a forest. -/
def chain (n : ℕ) : Forest := (chainContents n).forest

def chainVolume (n : ℕ) : Volume := ⟨.listed 1 .notFound, chain n⟩

lemma chainContents_ownNamed (n : ℕ) : (chainContents n).OwnNamed := by
  induction n with
  | zero => exact ⟨nofun, trivial, trivial⟩
  | succ n ih => exact ⟨fun _ => rfl, ih, trivial⟩

theorem chainVolume_presented (n : ℕ) :
    (chainVolume n).Presented (chainScan n).host (chainScan n).device.volumePath := by
  have hopened : ∀ t, (chainScan n).host.dirOpen t (chainScan n).device.volumePath =
      (chainVolume n).answer.listing (chainVolume n).top.entries := by
    intro t
    have hforest : (chainVolume n).top.entries = (chainContents n).entries := (chainContents n).forest_entries
    rw [hforest]
    exact (chainMedium_presented n 0).first
  refine ⟨hopened [], fun t listing hopen => ⟨1, ?_⟩, ?_⟩
  · rw [hopened t] at hopen
    exact congrArg Listing.entries (Except.ok.inj hopen).symm
  · exact Contents.Opens.presented (fun levels => (chainMedium_presented n levels).opens)
      (chainContents_ownNamed n)

end UsbSentinel.Scanner
