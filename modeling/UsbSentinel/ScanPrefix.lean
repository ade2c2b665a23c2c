import UsbSentinel.ScanCoverage
import UsbSentinel.ScanMoves

/-! The order of a walk: what it counts and hands over is an initial piece of the volume's
files in listing order, the whole of them unless the walk was stopped. -/
namespace UsbSentinel.Scanner
open ByteString UsbSentinel.Path

variable (scan : Scan)

/-- The files of a forest that a walk may reach: regular, at most `scanMaxDepth` deep, with a
path that fits, outside the excluded trees; in listing order, each directory's files where it
is listed. -/
def scope (dir : Bytes) (depth : ℕ) : Forest → List (Bytes × DirEntry)
  | .nil => []
  | .cons entry _ below rest =>
    (if entry.isReparsePoint then []
      else if entry.isDirectory then
        if isExcluded scan.device (joined scan.host.kind dir entry.name) then []
        else scope (joined scan.host.kind dir entry.name) (depth + 1) below
      else if depth ≤ scanMaxDepth ∧
          (joined scan.host.kind dir entry.name).length < childPathMax then
        [(joined scan.host.kind dir entry.name, entry)]
      else []) ++ scope dir depth rest

/-- Those of them that the listings show; `left` counts the entries still shown. -/
def shownScope (dir : Bytes) (depth : ℕ) : ℕ → Forest → List (Bytes × DirEntry)
  | _, .nil => []
  | left, .cons entry answer below rest =>
    (if left = 0 ∨ entry.isReparsePoint = true then []
      else if entry.isDirectory then
        if isExcluded scan.device (joined scan.host.kind dir entry.name) then []
        else shownScope (joined scan.host.kind dir entry.name) (depth + 1) answer.delivered below
      else if depth ≤ scanMaxDepth ∧
          (joined scan.host.kind dir entry.name).length < childPathMax then
        [(joined scan.host.kind dir entry.name, entry)]
      else []) ++ shownScope dir depth (left - 1) rest

/-- The directory opens, and its listing runs through to the end. -/
def ListsAll (below : Forest) (answer : Answer) : Prop :=
  ∃ n, below.entries.length ≤ n ∧ answer = .listed n .notFound

/-- Every directory of the forest does so. -/
def Forest.AllList : Forest → Prop
  | .nil => True
  | .cons entry answer below rest =>
    (entry.isDirectory = true → entry.isReparsePoint = false →
      ListsAll below answer ∧ Forest.AllList below) ∧ Forest.AllList rest

def Volume.AllList (v : Volume) : Prop := ListsAll v.top v.answer ∧ Forest.AllList v.top

def volumeScope (v : Volume) : List (Bytes × DirEntry) := scope scan scan.device.volumePath 0 v.top

def volumeShown (v : Volume) : List (Bytes × DirEntry) :=
  shownScope scan scan.device.volumePath 0 v.answer.delivered v.top

variable {scan}

lemma shownScope_zero (dir : Bytes) (depth : ℕ) (forest : Forest) :
    shownScope scan dir depth 0 forest = [] := by
  induction forest with
  | nil => rfl
  | cons entry answer below rest _ ihrest => simp [shownScope, ihrest]

/-- Where every directory lists everything, every file is shown. -/
lemma shownScope_all {forest : Forest} (h : Forest.AllList forest) {dir : Bytes} {depth left : ℕ}
    (hleft : forest.entries.length ≤ left) :
    shownScope scan dir depth left forest = scope scan dir depth forest := by
  induction forest generalizing dir depth left with
  | nil => rfl
  | cons entry answer below rest ihbelow ihrest =>
    simp only [Forest.entries, List.length_cons] at hleft
    have hne : ¬ left = 0 := by omega
    simp only [shownScope, scope, hne, false_or]
    rw [ihrest h.2 (show rest.entries.length ≤ left - 1 by omega)]
    congr 1
    by_cases hreparse : entry.isReparsePoint = true
    · rw [if_pos hreparse, if_pos hreparse]
    rw [if_neg hreparse, if_neg hreparse]
    by_cases hdir : entry.isDirectory = true
    · obtain ⟨⟨n, hn, rfl⟩, hbelow⟩ := h.1 hdir (by simpa using hreparse)
      rw [if_pos hdir, if_pos hdir, Answer.delivered, ihbelow hbelow hn]
    · rw [if_neg hdir, if_neg hdir]

lemma volumeShown_all {v : Volume} (h : Volume.AllList v) :
    volumeShown scan v = volumeScope scan v := by
  obtain ⟨⟨n, hn, hanswer⟩, hbelow⟩ := h
  rw [volumeShown, hanswer]
  exact shownScope_all hbelow hn

/-- No path below a directory is shorter than the directory's, nor any file less deep. -/
lemma shownScope_bounds {dir : Bytes} {depth left : ℕ} {forest : Forest} {f : Bytes × DirEntry}
    (hf : f ∈ shownScope scan dir depth left forest) :
    dir.length ≤ f.1.length ∧ f.1.length < childPathMax ∧ depth ≤ scanMaxDepth := by
  induction forest generalizing dir depth left with
  | nil => cases hf
  | cons entry answer below rest ihbelow ihrest =>
    have hlonger := joined_length_ge scan.host.kind dir entry.name
    rcases List.mem_append.mp hf with hf | hf
    · split_ifs at hf with hnone hdir hexcluded hshort
      · cases hf
      · cases hf
      · obtain ⟨hlength, hfits, hdepth⟩ := ihbelow hf
        exact ⟨hlonger.trans hlength, hfits, by omega⟩
      · obtain rfl := List.mem_singleton.mp hf
        exact ⟨hlonger, hshort.2, hshort.1⟩
      · cases hf
    · exact ihrest hf

lemma shownScope_eq_nil {dir : Bytes} {depth left : ℕ} {forest : Forest}
    (h : childPathMax ≤ dir.length ∨ scanMaxDepth < depth) :
    shownScope scan dir depth left forest = [] := by
  rw [List.eq_nil_iff_forall_not_mem]
  intro f hf
  have hbounds := shownScope_bounds hf
  omega

/-- From `st` to `out` an initial piece of `files` was counted, all of them if the walk goes
on. -/
def CountsOf (files : List (Bytes × DirEntry)) (st out : WalkState) : Prop :=
  ∃ seen, countedFiles out.world.trace = countedFiles st.world.trace ++ seen ∧ seen <+: files ∧
    (out.stopped = false → seen = files)

lemma CountsOf.same {st out : WalkState}
    (h : countedFiles out.world.trace = countedFiles st.world.trace) : CountsOf [] st out :=
  ⟨[], by rw [h, List.append_nil], List.prefix_refl _, fun _ => rfl⟩

/-- A walk that stops counts no more. -/
lemma CountsOf.halt {st out : WalkState} {files : List (Bytes × DirEntry)}
    (h : countedFiles out.world.trace = countedFiles st.world.trace)
    (hstopped : out.stopped = true) : CountsOf files st out :=
  ⟨[], by rw [h, List.append_nil], List.nil_prefix, fun hgoes => by
    rw [hstopped] at hgoes
    cases hgoes⟩

lemma CountsOf.append {xs ys : List (Bytes × DirEntry)} {a b c : WalkState}
    (hab : CountsOf xs a b) (hgoes : b.stopped = false) (hbc : CountsOf ys b c) :
    CountsOf (xs ++ ys) a c := by
  obtain ⟨seen, hseen, _, hall⟩ := hab
  obtain ⟨seen', hseen', hpre, hall'⟩ := hbc
  obtain rfl := hall hgoes
  refine ⟨seen ++ seen', ?_, ?_, fun hc => ?_⟩
  · rw [hseen', hseen, List.append_assoc]
  · exact (List.prefix_append_right_inj seen).mpr hpre
  · rw [hall' hc]

/-- What is left out after a stop does not matter. -/
lemma CountsOf.extend {xs : List (Bytes × DirEntry)} {a b : WalkState} (hab : CountsOf xs a b)
    (hstopped : b.stopped = true) (ys : List (Bytes × DirEntry)) : CountsOf (xs ++ ys) a b := by
  obtain ⟨seen, hseen, hpre, _⟩ := hab
  refine ⟨seen, hseen, hpre.trans (List.prefix_append xs ys), fun hgoes => ?_⟩
  rw [hstopped] at hgoes
  cases hgoes

lemma walkEntries_nil_counts {descend : Bytes → WalkState → Status × WalkState} {dir : Bytes}
    {ending : Status} (st : WalkState) :
    CountsOf [] st (walkEntries scan descend dir ending [] st).2 := by
  apply CountsOf.same
  simp only [walkEntries]
  split_ifs
  · rfl
  · rfl
  · exact (classifyPathFailure_events st.polled []).1

/-- A directory below the root, given what the walk of its listing counts. -/
lemma walkDir_counts {below : Forest} {answer : Answer} {path : Bytes} {depth levels : ℕ}
    {st : WalkState} (hdepth : depth + levels = scanMaxDepth) (hgoes : st.stopped = false)
    (hopen : ∀ t, scan.host.dirOpen t path = answer.listing below.entries)
    (hbelow : ∀ {l left ending st'}, levels = l + 1 → st'.slots = st.slots →
      st'.stopped = false →
      CountsOf (shownScope scan path (depth + 1) left below) st'
        (walkEntries scan (walkDir scan l) path ending (below.entries.take left) st').2) :
    CountsOf (shownScope scan path (depth + 1) answer.delivered below) st
      (walkDir scan levels path st).2 := by
  cases levels with
  | zero =>
    rw [shownScope_eq_nil (.inr (by omega))]
    exact .same rfl
  | succ l =>
    cases answer with
    | refused e he =>
      rw [walkDir_refused hgoes (by omega) (hopen _), Answer.delivered, shownScope_zero]
      apply CountsOf.same
      rw [(classifyPathFailure_events (st.opened path) []).1, opened_counted]
    | listed n ending =>
      rw [walkDir_listed l hgoes (hopen _)]
      obtain ⟨seen, hseen, hrest⟩ := @hbelow l n ending (st.opened path) rfl rfl hgoes
      exact ⟨seen, by rw [hseen, opened_counted], hrest⟩

/-- The first entries of a listing: what is counted is an initial piece of what they show. By
induction on the forest, its subdirectories and its rest. -/
lemma walkEntries_counts {forest : Forest} {dir : Bytes} {depth levels left : ℕ}
    {ending : Status} {st : WalkState} (hdepth : depth + levels = scanMaxDepth)
    (hforest : forest.Presented scan.host dir) (hslots : Registered st.slots)
    (hgoes : st.stopped = false) :
    CountsOf (shownScope scan dir depth left forest) st
      (walkEntries scan (walkDir scan levels) dir ending (forest.entries.take left) st).2 := by
  induction forest generalizing dir depth levels left ending st with
  | nil =>
    simp only [Forest.entries, List.take_nil]
    exact walkEntries_nil_counts st
  | cons entry answer below rest ihbelow ihrest =>
    cases left with
    | zero =>
      rw [shownScope_zero, List.take_zero]
      exact walkEntries_nil_counts st
    | succ left =>
      simp only [Forest.entries, List.take_succ_cons]
      obtain ⟨outcome, houtcome, heq⟩ := walkEntries_cons scan (walkDir scan levels) dir ending
        entry (rest.entries.take left) st
      rw [heq]
      have hrest : ∀ {st' : WalkState}, Registered st'.slots → st'.stopped = false →
          CountsOf (shownScope scan dir depth left rest) st'
            (walkEntries scan (walkDir scan levels) dir ending (rest.entries.take left) st').2 :=
        fun hst' hgo => ihrest hdepth hforest.2 hst' hgo
      have hpolled : CountsOf [] st st.polled := .same rfl
      simp only [shownScope, Nat.add_sub_cancel, Nat.succ_ne_zero, false_or]
      cases houtcome with
      | cancelled => exact .halt rfl (by simp [WalkState.stopped])
      | reparse hreparse =>
        rw [if_pos hreparse]
        exact hpolled.append hgoes (hrest hslots hgoes)
      | tooLong hreparse hpath =>
        have hlong := le_joined_of_error hpath
        have hfits : ¬ (depth ≤ scanMaxDepth ∧
            (joined scan.host.kind dir entry.name).length < childPathMax) := by omega
        rw [shownScope_eq_nil (.inl hlong), if_neg hfits, ite_self, ite_self, ite_self]
        exact hpolled.append hgoes (hrest hslots hgoes)
      | file hreparse hpath hdir =>
        obtain ⟨rfl, hshort⟩ := pathJoin_eq_ok.mp hpath
        rw [if_neg (by simp [hreparse]), if_neg (by simp [hdir]),
          if_pos ⟨by omega, hshort⟩]
        have hvisited : CountsOf [(joined scan.host.kind dir entry.name, entry)] st
            (visitFile scan (joined scan.host.kind dir entry.name) entry st.polled) :=
          ⟨_, @visitFile_counted scan _ entry st.polled hslots, List.prefix_refl _, fun _ => rfl⟩
        exact hvisited.append hgoes (hrest (visitFile_registered hslots) hgoes)
      | excluded hreparse hpath hdir hexcluded =>
        obtain ⟨rfl, _⟩ := pathJoin_eq_ok.mp hpath
        rw [if_neg (by simp [hreparse]), if_pos hdir, if_pos hexcluded]
        have hmarked : CountsOf [] st { st.polled with pathsExcluded := st.pathsExcluded + 1 } :=
          .same rfl
        exact hmarked.append hgoes (hrest hslots hgoes)
      | entered hreparse hpath hdir hexcluded _ hstill =>
        obtain ⟨rfl, _⟩ := pathJoin_eq_ok.mp hpath
        obtain ⟨hopen, hbelow⟩ := hforest.1 hdir hreparse
        rw [if_neg (by simp [hreparse]), if_pos hdir, if_neg (by simp [hexcluded])]
        have hwalked := @walkDir_counts scan below answer _ depth levels st.polled hdepth hgoes
          hopen fun hl hst' hgo => ihbelow (by omega) hbelow (hst' ▸ hslots) hgo
        have hkept : Steps scan (fun _ => True) (fun _ _ => True) st.polled
            (walkDir scan levels (joined scan.host.kind dir entry.name) st.polled).2 :=
          walkDir_steps (closed_true scan) trivial st.polled
        have hregistered := (hkept.slotsKept hslots).registered hslots
        exact CountsOf.append hwalked hstill (hrest hregistered hstill)
      | ended hreparse hpath hdir hend hexcluded =>
        obtain ⟨rfl, _⟩ := pathJoin_eq_ok.mp hpath
        obtain ⟨hopen, hbelow⟩ := hforest.1 hdir hreparse
        rw [if_neg (by simp [hreparse]), if_pos hdir, if_neg (by simp [hexcluded])]
        have hwalked := @walkDir_counts scan below answer _ depth levels st.polled hdepth hgoes
          hopen fun hl hst' hgo => ihbelow (by omega) hbelow (hst' ▸ hslots) hgo
        have hstopped : (walkDir scan levels (joined scan.host.kind dir entry.name)
            st.polled).2.stopped = true := by
          rcases hend with hend | hend
          · exact absurd (walkDir_ok (by omega) _ _) hend
          · exact hend
        exact CountsOf.extend hwalked hstopped _

/-- A walk counts an initial piece of what the volume shows, all of it if it goes to the
end. -/
theorem walkVolume_counts {v : Volume} (hv : v.Presented scan.host scan.device.volumePath)
    (signatures : SignatureState) :
    ∃ seen, countedFiles (walkVolume scan signatures).2.world.trace = seen ∧
      seen <+: volumeShown scan v ∧
      ((walkVolume scan signatures).2.stopped = false → seen = volumeShown scan v) := by
  have hgoes : (initialState scan signatures).stopped = false := rfl
  have hstart := hv.first
  cases hanswer : v.answer with
  | refused e he =>
    rw [hanswer] at hstart
    have hopen : scan.host.dirOpen (initialState scan signatures).world.trace
        scan.device.volumePath = .error e := hstart
    have hwalk : (walkVolume scan signatures).2 =
        (initialState scan signatures).opened scan.device.volumePath := by
      simp [walkVolume, walkDir, World.dirOpen, hopen, hgoes, WalkState.opened]
    rw [volumeShown, hanswer, Answer.delivered, shownScope_zero, hwalk]
    exact ⟨[], rfl, List.prefix_refl _, fun _ => rfl⟩
  | listed n ending =>
    rw [hanswer] at hstart
    have hwalk : walkVolume scan signatures = _ := walkDir_listed scanMaxDepth hgoes hstart
    have hregistered : Registered
        ((initialState scan signatures).opened scan.device.volumePath).slots :=
      initialState_registered signatures
    obtain ⟨seen, hseen, hrest⟩ := @walkEntries_counts scan v.top scan.device.volumePath 0
      scanMaxDepth n ending _ (Nat.zero_add _) hv.below hregistered hgoes
    rw [volumeShown, hanswer, hwalk]
    exact ⟨seen, hseen, hrest⟩

/-- The sizes of files, added up without a bound. -/
def totalBytes (files : List (Bytes × DirEntry)) : ℕ :=
  (files.map fun f => f.2.sizeBytes.toNat).sum

lemma totalBytes_append (a b : List (Bytes × DirEntry)) :
    totalBytes (a ++ b) = totalBytes a + totalBytes b := by
  simp [totalBytes]

/-- The byte counter is the sum of the sizes counted, as far as it goes. -/
def CountsBytes (st : WalkState) : Prop :=
  st.byteCount.toNat = totalBytes (countedFiles st.world.trace) % 2 ^ 64

lemma Step.countsBytes {D : Bytes → Prop} {F : Bytes → DirEntry → Prop} {st st' : WalkState}
    (h : Step scan D F st st') (hslots : Registered st.slots) (hst : CountsBytes st) :
    CountsBytes st' := by
  unfold CountsBytes at hst ⊢
  cases h with
  | poll | cancel | excluded => exact hst
  | opened =>
    rw [(opened_events st.world _ []).1]
    exact hst
  | failed =>
    have hbytes : (classifyPathFailure scan st).byteCount = st.byteCount := by
      unfold classifyPathFailure World.dirOpen
      cases scan.host.dirOpen st.world.trace scan.device.volumePath <;> rfl
    rw [hbytes, (classifyPathFailure_events st []).1]
    exact hst
  | @visited path entry _ =>
    have hbytes : (visitFile scan path entry st).byteCount = st.byteCount + entry.sizeBytes := rfl
    rw [hbytes, visitFile_counted _ _ hslots, totalBytes_append, UInt64.toNat_add, hst,
      Nat.mod_add_mod]
    rfl

lemma Steps.countsBytes {D : Bytes → Prop} {F : Bytes → DirEntry → Prop} {st st' : WalkState}
    (h : Steps scan D F st st') (hslots : Registered st.slots) (hst : CountsBytes st) :
    CountsBytes st' := by
  induction h with
  | refl => exact hst
  | tail hsteps hlast ih =>
    exact hlast.countsBytes ((Steps.slotsKept hsteps hslots).registered hslots) ih

lemma walkVolume_countsBytes (signatures : SignatureState) :
    CountsBytes (walkVolume scan signatures).2 :=
  (walkVolume_run signatures).countsBytes (initialState_registered signatures) rfl

lemma walkVolume_fileCount (signatures : SignatureState) :
    (walkVolume scan signatures).2.fileCount =
      (countedFiles (walkVolume scan signatures).2.world.trace).length :=
  (walkVolume_run signatures).fileCount (initialState_registered signatures) rfl

lemma initialSlot_detector {signatures : SignatureState} {slot : Slot}
    (h : slot ∈ (initialState scan signatures).slots) :
    slot.detector ∈ Registry.detectors ∧ slot.detector.onFile.isSome = true ∧
      scan.host.slotsMemory = true := by
  unfold initialState prepareOnFileSlots at h
  split_ifs at h with hmemory
  · obtain ⟨d, hd, rfl⟩ := List.mem_map.mp h
    exact ⟨(List.mem_filter.mp hd).1, (List.mem_filter.mp hd).2, hmemory⟩
  · cases h

/-- Every directory of the volume opens whenever it is asked to, and lists all it holds. -/
structure FullyListed (scan : Scan) (v : Volume) : Prop where
  root : ∀ t, scan.host.dirOpen t scan.device.volumePath = v.answer.listing v.top.entries
  below : v.top.Presented scan.host scan.device.volumePath
  all : Volume.AllList v

lemma FullyListed.presented {v : Volume} (h : FullyListed scan v) :
    v.Presented scan.host scan.device.volumePath := by
  refine ⟨h.root [], ?_, h.below⟩
  intro t listing hopen
  obtain ⟨n, hn, hanswer⟩ := h.all.1
  rw [h.root t, hanswer] at hopen
  obtain rfl := Except.ok.inj hopen
  exact ⟨n, rfl⟩

/-- Such a volume is never taken for removed. -/
lemma FullyListed.present {v : Volume} (h : FullyListed scan v) (signatures : SignatureState) :
    (walkVolume scan signatures).2.deviceRemoved = false := by
  by_contra hremoved
  obtain ⟨st, _, _, ⟨e, hopen⟩, _⟩ :=
    (@walkVolume_halts scan signatures).removed (by simpa using hremoved)
  obtain ⟨n, hn, hanswer⟩ := h.all.1
  rw [h.root, hanswer] at hopen
  cases hopen

theorem walk_prefix {v : Volume} (hv : FullyListed scan v) (signatures : SignatureState) :
    (∃ seen, seen <+: volumeScope scan v ∧
      (∀ slot ∈ (initialState scan signatures).slots,
        handedFiles slot.detector.id (walkVolume scan signatures).2.world.trace = seen) ∧
      (walkVolume scan signatures).2.fileCount = seen.length ∧
      (walkVolume scan signatures).2.byteCount.toNat = totalBytes seen % 2 ^ 64 ∧
      ((∀ n, scan.cancel n = false) → seen = volumeScope scan v)) ∧
    Halts scan (initialState scan signatures) (walkVolume scan signatures).2 ∧
    ((walkVolume scan signatures).2.stopped = true →
      (scannerScan scan signatures).2 = (walkVolume scan signatures).2.world) := by
  have hhalts := @walkVolume_halts scan signatures
  refine ⟨?_, hhalts, scannerScan_stopped⟩
  obtain ⟨seen, hseen, hpre, hall⟩ := walkVolume_counts hv.presented signatures
  rw [volumeShown_all hv.all] at hpre hall
  refine ⟨seen, hpre, ?_, ?_, ?_, ?_⟩
  · intro slot hslot
    obtain ⟨hd, hf, hmemory⟩ := initialSlot_detector hslot
    rw [walkVolume_handed signatures hd hf, if_pos hmemory, hseen]
  · rw [walkVolume_fileCount, hseen]
  · have hbytes := @walkVolume_countsBytes scan signatures
    rw [CountsBytes, hseen] at hbytes
    exact hbytes
  · intro hnever
    apply hall
    have huncancelled : (walkVolume scan signatures).2.cancelled = false := by
      by_contra hcancelled
      obtain ⟨st, _, _, htrue, _⟩ := hhalts.cancelled (by simpa using hcancelled)
      rw [hnever] at htrue
      cases htrue
    simp [WalkState.stopped, huncancelled, hv.present signatures]

lemma chain_fullyListed : FullyListed (chainScan 1) (chainVolume 1) where
  root _ := (chainVolume_presented 1).first
  below := (chainVolume_presented 1).below
  all := by
    refine ⟨⟨1, le_rfl, rfl⟩, fun _ _ => ⟨⟨1, le_rfl, rfl⟩, ?_, trivial⟩, trivial⟩
    intro hdir
    cases hdir

theorem walk_prefix_chain :
    (walkVolume (chainScan 1) {}).2.fileCount =
      (volumeScope (chainScan 1) (chainVolume 1)).length := by
  obtain ⟨⟨seen, _, _, hcount, _, hall⟩, _⟩ := walk_prefix chain_fullyListed {}
  rw [hcount, hall fun _ => rfl]

end UsbSentinel.Scanner
