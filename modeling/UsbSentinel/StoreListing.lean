import UsbSentinel.StoreAtomic

/-! The directory listing behind `lastScan` on a POSIX disk: which files it counts, which
name it keeps, and where a report file lies. -/
namespace UsbSentinel.Store
open ByteString FileSystem UsbSentinel.Posix
open UsbSentinel.Path (Host stem joined)

section Tally

/-- `best` is the greatest of `names`, or none when there are none. -/
def Greatest (best : Option Bytes) (names : List Bytes) : Prop :=
  match best with
  | none => names = []
  | some b => b ∈ names ∧ ∀ n ∈ names, strLt b n = false

lemma Tally.add_of_report {t : Tally} {entry : DirEntry} (h : isReport entry = true)
    (hlen : entry.name.length < nameMax) :
    t.add entry = ⟨t.count + 1, match t.best with
      | none => some entry.name
      | some best => if strLt best entry.name then some entry.name else some best⟩ := by
  simp only [Tally.add, h, Bool.not_true, Bool.false_eq_true, if_false, cut_eq_self hlen]
  cases t.best <;> rfl

lemma Tally.add_greatest {t : Tally} {entry : DirEntry} {seen : List Bytes}
    (h : isReport entry = true) (hlen : entry.name.length < nameMax)
    (hseen : Greatest t.best seen) : Greatest (t.add entry).best (seen ++ [entry.name]) := by
  rw [Tally.add_of_report h hlen]
  cases hbest : t.best with
  | none =>
    rw [hbest] at hseen
    obtain rfl : seen = [] := hseen
    exact ⟨by simp, by simp⟩
  | some best =>
    rw [hbest] at hseen
    obtain ⟨hmem, hmax⟩ := hseen
    dsimp only
    split_ifs with hlt
    · refine ⟨by simp, fun n hn => ?_⟩
      rcases List.mem_append.mp hn with hn | hn
      · by_contra hgt
        have hnew := strLt_trans hlt (by simpa using hgt)
        rw [hmax n hn] at hnew
        exact absurd hnew (by simp)
      · rw [List.mem_singleton.mp hn, strLt_irrefl]
    · refine ⟨by simp [hmem], fun n hn => ?_⟩
      rcases List.mem_append.mp hn with hn | hn
      · exact hmax n hn
      · rw [List.mem_singleton.mp hn]
        simpa using hlt

/-- The loop counts the reports and ends on the greatest name. -/
theorem foldl_add {entries : List DirEntry} (hlen : ∀ e ∈ entries, e.name.length < nameMax)
    {t : Tally} {seen : List Bytes} (hseen : Greatest t.best seen) :
    (entries.foldl Tally.add t).count = t.count + (entries.filter isReport).length ∧
      Greatest (entries.foldl Tally.add t).best
        (seen ++ (entries.filter isReport).map DirEntry.name) := by
  induction entries generalizing t seen with
  | nil => simpa using hseen
  | cons entry entries ih =>
    have hrest : ∀ e ∈ entries, e.name.length < nameMax := fun e he => hlen e (by simp [he])
    rw [List.foldl_cons]
    cases hreport : isReport entry with
    | false =>
      have hsame : t.add entry = t := by simp [Tally.add, hreport]
      rw [hsame]
      simpa [hreport] using ih hrest hseen
    | true =>
      have hentry := hlen entry (by simp)
      have hadd : (t.add entry).count = t.count + 1 := by rw [Tally.add_of_report hreport hentry]
      obtain ⟨hcount, hgreatest⟩ := ih hrest (Tally.add_greatest hreport hentry hseen)
      simp only [hreport, List.filter_cons_of_pos, List.length_cons, List.map_cons]
      refine ⟨?_, by simpa using hgreatest⟩
      rw [hcount, hadd]
      omega

end Tally

/-- The listed names that `lastScan` counts as reports. -/
def counted (env : Behaviour) (d : Disk) (D : Key) : List RawDirent :=
  (rawDirents env d D).filter fun r => !isDotEntry r.name && isReport (fillEntry r)

lemma fillEntry_name_length (r : RawDirent) : (fillEntry r).name.length < nameMax := by
  rw [fillEntry_name]
  exact sanitizeLoop_length (by decide)

lemma Greatest.of_perm {best : Option Bytes} {a b : List Bytes} (h : Greatest best a)
    (hperm : a.Perm b) : Greatest best b := by
  cases best with
  | none =>
    obtain rfl : a = [] := h
    exact hperm.nil_eq.symm ▸ rfl
  | some best => exact ⟨hperm.mem_iff.mp h.1, fun n hn => h.2 n (hperm.mem_iff.mpr hn)⟩

section Disk
variable {env : Behaviour} {store : Store} {identity safe dir : Bytes} {d : Disk}

/-- A device that has no directory was never scanned. -/
theorem lastScan_of_no_dir (hsafe : safeId identity storePathMax = .ok safe)
    (hdir : deviceDir .posix store safe storePathMax = .ok dir) (hnone : d.fs.dirKey dir = none) :
    lastScan (storePlatform env) .posix store identity d = ((.ok, {}), d.tick) := by
  simp [lastScan, hsafe, hdir, storePlatform, dirOpen, hnone, statusFromErrno]

/-- With nothing refused, `lastScan` counts the directory's reports and reads the greatest
name. -/
theorem lastScan_of_dir (hsafe : safeId identity storePathMax = .ok safe)
    (hdir : deviceDir .posix store safe storePathMax = .ok dir) {D : Key}
    (hkey : d.fs.dirKey dir = some D) (hquiet : env.fault d.calls = none) :
    ∃ best, Greatest best ((counted env d D).map fun r => sanitizeUtf8 r.name nameMax) ∧
      lastScan (storePlatform env) .posix store identity d =
        ((.ok, match best with
          | none => { reportCount := (counted env d D).length }
          | some b => { newest b { reportCount := (counted env d D).length } with found := true }),
          d.tick) := by
  have hperm := env.order_perm d.calls (rawDirents env d D)
  have hentries : ∀ raws : List RawDirent, ((dirEntries raws).filter isReport) =
      (raws.filter fun r => !isDotEntry r.name && isReport (fillEntry r)).map fillEntry := by
    intro raws
    rw [dirEntries, List.filter_map, List.filter_filter]
    congr 2
    funext r
    simp [Bool.and_comm]
  have hlen : ∀ e ∈ dirEntries (env.order d.calls (rawDirents env d D)),
      e.name.length < nameMax := by
    intro e he
    obtain ⟨r, _, rfl⟩ := List.mem_map.mp he
    exact fillEntry_name_length r
  have hstart : Greatest ({} : Tally).best [] := rfl
  obtain ⟨hcount, hbest⟩ := foldl_add hlen hstart
  rw [hentries] at hcount hbest
  have hfilter := hperm.filter fun r => !isDotEntry r.name && isReport (fillEntry r)
  have htotal : ((dirEntries (env.order d.calls (rawDirents env d D))).foldl Tally.add {}).count =
      (counted env d D).length := by
    rw [hcount, List.length_map, hfilter.length_eq]
    exact Nat.zero_add _
  have hnames : Greatest ((dirEntries (env.order d.calls (rawDirents env d D))).foldl
      Tally.add {}).best ((counted env d D).map fun r => sanitizeUtf8 r.name nameMax) := by
    have hmapped := (hfilter.map fillEntry).map DirEntry.name
    have hrenamed : ((counted env d D).map fillEntry).map DirEntry.name =
        (counted env d D).map fun r => sanitizeUtf8 r.name nameMax := by
      rw [List.map_map]
      exact List.map_congr_left fun r _ => fillEntry_name r
    rw [← hrenamed]
    exact hbest.of_perm hmapped
  refine ⟨_, hnames, ?_⟩
  simp only [lastScan, hsafe, hdir, storePlatform, dirOpen, hkey, hquiet, htotal]
  rw [if_neg (by simp)]
  cases ((dirEntries (env.order d.calls (rawDirents env d D))).foldl Tally.add {}).best <;> rfl

end Disk

section Refresh

theorem writeThenReplace_frame (env : Behaviour) (final temp content : Bytes) (d : Disk) :
    Frame (fileAt d final ∪ fileAt d temp) d
        (writeThenReplace (storePlatform env) final temp content d).2 ∧
      SamePlaces d (writeThenReplace (storePlatform env) final temp content d).2 := by
  rcases hrun : writeThenReplace (storePlatform env) final temp content d with ⟨st, d'⟩
  by_cases hst : st = .ok
  · subst hst
    have hwrite := writeFile_frame env temp content d
    have hplaces := writeFile_places env temp content d
    simp only [writeThenReplace, storePlatform] at hrun
    split at hrun
    · next d₁ h₁ =>
      rw [h₁] at hwrite hplaces
      have hreplace := replaceFile_frame env final temp d₁
      have hreplaced := replaceFile_places env final temp d₁
      rw [hplaces.fileAt, hplaces.fileAt] at hreplace
      split at hrun
      · next d₂ h₂ =>
        obtain rfl := (Prod.ext_iff.mp hrun).2
        rw [h₂] at hreplace hreplaced
        exact ⟨(hwrite.mono Set.subset_union_right).trans hreplace, hplaces.trans hreplaced⟩
      · next hne _ => exact absurd (Prod.ext_iff.mp hrun).1 hne
    · next hne _ => exact absurd (Prod.ext_iff.mp hrun).1 hne
  · obtain ⟨hframe, hplaces⟩ := writeThenReplace_failed env hrun hst
    exact ⟨hframe.mono Set.subset_union_right, hplaces⟩

lemma lastScan_places (env : Behaviour) (store : Store) (identity : Bytes) (d : Disk) :
    (lastScan (storePlatform env) .posix store identity d).2 = d ∨
      (lastScan (storePlatform env) .posix store identity d).2 = d.tick := by
  unfold lastScan
  split
  · exact .inl rfl
  · split
    · exact .inl rfl
    · next dir _ =>
      have hopen := dirOpen_disk env dir d
      simp only [storePlatform]
      split
      · next h => exact .inr (by rw [← hopen, h])
      · next h => exact .inr (by rw [← hopen, h])
      · next h =>
        rw [h] at hopen
        split_ifs
        · exact .inr hopen
        · split <;> exact .inr hopen

lemma oldIndex_disk (env : Behaviour) (lib : Json.CLib) (memory : Memory) (path : Bytes)
    (d : Disk) : (oldIndex (storePlatform env) lib memory path d).2 = d.tick := by
  have hopen := fileOpenRead_disk env path d
  have hread : (readWholeFile (storePlatform env) memory.readBuffer path d).2 = d.tick := by
    simp only [readWholeFile, storePlatform]
    split
    · next h => rw [← hopen, h]
    · next h => rw [← hopen, h]
  unfold oldIndex
  split
  · next h => rw [← hread, h]
  · next h =>
    rw [h] at hread
    split_ifs
    · split <;> exact hread
    · exact hread

/-- The paths a refresh writes to. -/
def indexFile (store : Store) : Bytes := joined .posix store.root (ascii "index.json")
def indexTemp (store : Store) : Bytes := joined .posix store.root (ascii "index.json.tmp")

lemma indexFile_tmp (store : Store) : indexFile store ++ ascii ".tmp" = indexTemp store := by
  rw [indexFile, joined_append]
  rfl

/-- A refresh changes the index and its temporary file only. -/
theorem refreshIndex_frame (env : Behaviour) (lib : Json.CLib) (memory : Memory) (store : Store)
    (identity : Bytes) (d : Disk) :
    Frame (fileAt d (indexFile store) ∪ fileAt d (indexTemp store)) d
        (refreshIndex (storePlatform env) .posix lib memory store identity d).2 ∧
      SamePlaces d (refreshIndex (storePlatform env) .posix lib memory store identity d).2 := by
  have hscan := lastScan_places env store identity d
  have hticks : ∀ d₁ : Disk, d₁ = d ∨ d₁ = d.tick →
      Frame (fileAt d (indexFile store) ∪ fileAt d (indexTemp store)) d d₁ ∧ SamePlaces d d₁ := by
    rintro d₁ (rfl | rfl)
    · exact ⟨Frame.refl _ _, rfl, rfl⟩
    · exact ⟨Frame.tick _ _, rfl, rfl⟩
  unfold refreshIndex
  split
  · exact hticks d (.inl rfl)
  · split
    · exact hticks d (.inl rfl)
    · next path hpath =>
      obtain ⟨hpath, _⟩ := UsbSentinel.Path.pathJoin_eq_ok.mp hpath
      split
      · next last d₁ hlast =>
        rw [hlast] at hscan
        obtain ⟨hframe, hplaces⟩ := hticks d₁ hscan
        have hticked : SamePlaces d d₁.tick := hplaces.trans ⟨rfl, rfl⟩
        have hbefore := hframe.trans (Frame.tick _ d₁)
        dsimp only
        rw [oldIndex_disk]
        split
        · exact ⟨hbefore, hticked⟩
        · next text _ =>
          split_ifs
          · exact ⟨hbefore, hticked⟩
          · obtain ⟨hwrite, hwritten⟩ := writeThenReplace_frame env path
              (path ++ ascii ".tmp") text d₁.tick
            have hfile : path = indexFile store := hpath
            rw [hticked.fileAt, hticked.fileAt] at hwrite
            rw [hfile, indexFile_tmp] at hwrite hwritten ⊢
            split
            · next h =>
              rw [h] at hwrite hwritten
              exact ⟨hbefore.trans hwrite, hticked.trans hwritten⟩
            · next h =>
              rw [h] at hwrite hwritten
              exact ⟨hbefore.trans hwrite, hticked.trans hwritten⟩
      · next hlast =>
        rw [hlast] at hscan
        exact hticks _ hscan

end Refresh

end UsbSentinel.Store
