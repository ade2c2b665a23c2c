import UsbSentinel.Platform
import UsbSentinel.ScanHost

/-! Volumes as trees: what each directory holds, and how its listing goes. The files of a
volume are enumerated with the depth and the path they are found at. Every directory stands under
the name it is listed as. -/
namespace UsbSentinel
open ByteString UsbSentinel.Path

/-- What opening a directory gives: a refusal, or its first entries and then a status. -/
inductive Answer
  | refused (e : Status) (he : e ≠ .ok)
  | listed (delivered : ℕ) (ending : Status)

namespace Answer

def listing (entries : List DirEntry) : Answer → Except Status Listing
  | refused e _ => .error e
  | listed n ending => .ok ⟨entries.take n, ending⟩

def delivered : Answer → ℕ
  | refused _ _ => 0
  | listed n _ => n

end Answer

/-- The contents of a directory: each entry with what lies below it, if it is a
directory. -/
inductive Forest
  | nil
  | cons (entry : DirEntry) (answer : Answer) (below rest : Forest)

/-- Where a file lies: its path and entry, the depth of its directory, and whether the
listings on the way to it show it. -/
structure Spot where
  path : Bytes
  entry : DirEntry
  depth : ℕ
  shown : Bool

namespace Forest

def entries : Forest → List DirEntry
  | nil => []
  | cons entry _ _ rest => entry :: rest.entries

/-- The files that are neither reparse points nor below one. `left` counts the entries the
listing still shows. -/
def spots (kind : Host) (dir : Bytes) (depth : ℕ) (shown : Bool) : ℕ → Forest → List Spot
  | _, nil => []
  | left, cons entry answer below rest =>
    (if entry.isReparsePoint then []
      else if entry.isDirectory then
        spots kind (joined kind dir entry.name) (depth + 1) (shown && 0 < left)
          answer.delivered below
      else [⟨joined kind dir entry.name, entry, depth, shown && 0 < left⟩]) ++
      spots kind dir depth shown (left - 1) rest

/-- The directories that are neither reparse points nor below one. -/
def dirs (kind : Host) (dir : Bytes) : Forest → List (Bytes × Forest)
  | nil => []
  | cons entry _ below rest =>
    (if entry.isDirectory && !entry.isReparsePoint then
      (joined kind dir entry.name, below) :: dirs kind (joined kind dir entry.name) below
      else []) ++ dirs kind dir rest

/-- The paths of the reparse points. -/
def flagged (kind : Host) (dir : Bytes) : Forest → List Bytes
  | nil => []
  | cons entry _ below rest =>
    (if entry.isReparsePoint then [joined kind dir entry.name]
      else if entry.isDirectory then flagged kind (joined kind dir entry.name) below
      else []) ++ flagged kind dir rest

/-- The host lists each directory below `dir` as the forest says, opened under the name it is
listed as. A directory that is listed under another one's name is not presented. -/
def Presented (host : ScanHost) (dir : Bytes) : Forest → Prop
  | nil => True
  | cons entry answer below rest =>
    (entry.isDirectory = true → entry.isReparsePoint = false →
      (∀ t, host.dirOpen t (joined host.kind dir entry.name) = answer.listing below.entries) ∧
        Presented host (joined host.kind dir entry.name) below) ∧
      Presented host dir rest

end Forest

structure Volume where
  answer : Answer
  top : Forest

namespace Volume

def spots (v : Volume) (kind : Host) (root : Bytes) : List Spot :=
  v.top.spots kind root 0 true v.answer.delivered

/-- All files of the volume, each with its path. -/
def files (v : Volume) (kind : Host) (root : Bytes) : List (Bytes × DirEntry) :=
  (v.spots kind root).map fun s => (s.path, s.entry)

def dirs (v : Volume) (kind : Host) (root : Bytes) : List (Bytes × Forest) :=
  (root, v.top) :: v.top.dirs kind root

def flagged (v : Volume) (kind : Host) (root : Bytes) : List Bytes := v.top.flagged kind root

/-- The first opening of the root answers as the volume says; a later one may fail or break
off elsewhere. -/
structure Presented (v : Volume) (host : ScanHost) (root : Bytes) : Prop where
  first : host.dirOpen [] root = v.answer.listing v.top.entries
  later : ∀ t listing, host.dirOpen t root = .ok listing →
    ∃ n, listing.entries = v.top.entries.take n
  below : v.top.Presented host root

end Volume

theorem joined_length_ge (kind : Host) (dir name : Bytes) :
    dir.length ≤ (joined kind dir name).length := by
  rw [joined_length]
  unfold stem
  split_ifs
  · omega
  · rw [List.length_append]
    omega

namespace Forest

/-- A directory the forest has is listed as the forest says. -/
theorem Presented.listing {host : ScanHost} {dir : Bytes} {forest : Forest}
    (h : forest.Presented host dir) {path : Bytes} {below : Forest}
    (hmem : (path, below) ∈ forest.dirs host.kind dir) :
    ∃ answer : Answer, ∀ t, host.dirOpen t path = answer.listing below.entries := by
  induction forest generalizing dir with
  | nil => simp [dirs] at hmem
  | cons entry answer sub rest ihsub ihrest =>
    rcases List.mem_append.mp hmem with hmem | hmem
    · split_ifs at hmem with hdir
      · simp only [Bool.and_eq_true, Bool.not_eq_true'] at hdir
        obtain ⟨hopen, hsub⟩ := h.1 hdir.1 hdir.2
        rcases List.mem_cons.mp hmem with heq | hmem
        · obtain ⟨rfl, rfl⟩ := Prod.mk.inj heq
          exact ⟨answer, hopen⟩
        · exact ihsub hsub hmem
      · simp at hmem
    · exact ihrest h.2 hmem

/-- The enumeration of directories is closed under listing. -/
theorem dirs_below {kind : Host} {dir : Bytes} {forest : Forest} {path : Bytes} {below : Forest}
    (hmem : (path, below) ∈ forest.dirs kind dir) {sub : Bytes × Forest}
    (hsub : sub ∈ below.dirs kind path) : sub ∈ forest.dirs kind dir := by
  induction forest generalizing dir with
  | nil => simp [dirs] at hmem
  | cons entry answer inner rest ihinner ihrest =>
    rcases List.mem_append.mp hmem with hmem | hmem
    · split_ifs at hmem with hdir
      · refine List.mem_append_left _ ?_
        rw [if_pos hdir]
        rcases List.mem_cons.mp hmem with heq | hmem
        · obtain ⟨rfl, rfl⟩ := Prod.mk.inj heq
          exact List.mem_cons_of_mem _ hsub
        · exact List.mem_cons_of_mem _ (ihinner hmem)
      · simp at hmem
    · exact List.mem_append_right _ (ihrest hmem)

/-- The entry of a directory stands in the enumeration. -/
theorem mem_dirs_of_entry {kind : Host} {dir : Bytes} {forest : Forest} {entry : DirEntry}
    (hentry : entry ∈ forest.entries) (hdir : entry.isDirectory = true)
    (hreparse : entry.isReparsePoint = false) :
    ∃ below, (joined kind dir entry.name, below) ∈ forest.dirs kind dir := by
  induction forest with
  | nil => simp [entries] at hentry
  | cons first answer below rest _ ihrest =>
    rcases List.mem_cons.mp hentry with rfl | hentry
    · refine ⟨below, List.mem_append_left _ ?_⟩
      simp [hdir, hreparse]
    · obtain ⟨below', h⟩ := ihrest hentry
      exact ⟨below', List.mem_append_right _ h⟩

theorem mem_spots_of_entry {kind : Host} {dir : Bytes} {depth left : ℕ} {shown : Bool}
    {forest : Forest} {entry : DirEntry} (hentry : entry ∈ forest.entries)
    (hdir : entry.isDirectory = false) (hreparse : entry.isReparsePoint = false) :
    ∃ s ∈ forest.spots kind dir depth shown left,
      s.path = joined kind dir entry.name ∧ s.entry = entry := by
  induction forest generalizing left with
  | nil => simp [entries] at hentry
  | cons first answer below rest _ ihrest =>
    rcases List.mem_cons.mp hentry with rfl | hentry
    · refine ⟨⟨joined kind dir entry.name, entry, depth, shown && 0 < left⟩, ?_, rfl, rfl⟩
      refine List.mem_append_left _ ?_
      simp [hdir, hreparse]
    · obtain ⟨s, hs, h⟩ := ihrest hentry
      exact ⟨s, List.mem_append_right _ hs, h⟩

/-- The files of a directory of the forest are files of the forest. -/
theorem spots_below {kind : Host} {dir : Bytes} {depth left : ℕ} {shown : Bool} {forest : Forest}
    {path : Bytes} {below : Forest} (hmem : (path, below) ∈ forest.dirs kind dir) :
    ∃ depth' shown' left', ∀ s ∈ below.spots kind path depth' shown' left',
      s ∈ forest.spots kind dir depth shown left := by
  induction forest generalizing dir depth left shown with
  | nil => simp [dirs] at hmem
  | cons entry answer inner rest ihinner ihrest =>
    rcases List.mem_append.mp hmem with hmem | hmem
    · split_ifs at hmem with hdir
      · simp only [Bool.and_eq_true, Bool.not_eq_true'] at hdir
        have hspots : ∀ s ∈ inner.spots kind (joined kind dir entry.name) (depth + 1)
            (shown && 0 < left) answer.delivered,
            s ∈ (cons entry answer inner rest).spots kind dir depth shown left := by
          intro s hs
          refine List.mem_append_left _ ?_
          rw [if_neg (by simp [hdir.2]), if_pos hdir.1]
          exact hs
        rcases List.mem_cons.mp hmem with heq | hmem
        · obtain ⟨rfl, rfl⟩ := Prod.mk.inj heq
          exact ⟨_, _, _, hspots⟩
        · obtain ⟨depth', shown', left', h⟩ := ihinner hmem
          exact ⟨depth', shown', left', fun s hs => hspots s (h s hs)⟩
      · simp at hmem
    · obtain ⟨depth', shown', left', h⟩ := ihrest hmem
      exact ⟨depth', shown', left', fun s hs => List.mem_append_right _ (h s hs)⟩

end Forest

namespace Volume

theorem dirs_below {v : Volume} {kind : Host} {root path : Bytes} {below : Forest}
    (hmem : (path, below) ∈ v.dirs kind root) {sub : Bytes × Forest}
    (hsub : sub ∈ below.dirs kind path) : sub ∈ v.dirs kind root := by
  rcases List.mem_cons.mp hmem with heq | hmem
  · obtain ⟨rfl, rfl⟩ := Prod.mk.inj heq
    exact List.mem_cons_of_mem _ hsub
  · exact List.mem_cons_of_mem _ (Forest.dirs_below hmem hsub)

theorem mem_files {v : Volume} {kind : Host} {root path : Bytes} {below : Forest}
    (hmem : (path, below) ∈ v.dirs kind root) {entry : DirEntry}
    (hentry : entry ∈ below.entries) (hdir : entry.isDirectory = false)
    (hreparse : entry.isReparsePoint = false) :
    (joined kind path entry.name, entry) ∈ v.files kind root := by
  have hspot : ∃ s ∈ v.spots kind root, s.path = joined kind path entry.name ∧ s.entry = entry := by
    rcases List.mem_cons.mp hmem with heq | hmem
    · obtain ⟨rfl, rfl⟩ := Prod.mk.inj heq
      exact Forest.mem_spots_of_entry hentry hdir hreparse
    · obtain ⟨depth, shown, left, hbelow⟩ := Forest.spots_below hmem
      obtain ⟨s, hs, h⟩ := @Forest.mem_spots_of_entry kind path depth left shown _ _ hentry hdir
        hreparse
      exact ⟨s, hbelow s hs, h⟩
  obtain ⟨s, hs, hpath, hentry⟩ := hspot
  exact List.mem_map.mpr ⟨s, hs, Prod.ext hpath hentry⟩

/-- Every listing the host gives of a directory of the volume shows entries of it. -/
theorem Presented.entries_subset {v : Volume} {host : ScanHost} {root path : Bytes}
    (hv : v.Presented host root) {below : Forest} (hmem : (path, below) ∈ v.dirs host.kind root)
    {t : Trace} {listing : Listing} (hopen : host.dirOpen t path = .ok listing) :
    listing.entries ⊆ below.entries := by
  rcases List.mem_cons.mp hmem with heq | hmem
  · obtain ⟨rfl, rfl⟩ := Prod.mk.inj heq
    obtain ⟨n, hn⟩ := hv.later t listing hopen
    rw [hn]
    exact List.take_subset _ _
  · obtain ⟨answer, hanswer⟩ := hv.below.listing hmem
    rw [hanswer t] at hopen
    cases answer with
    | refused e he => cases hopen
    | listed n ending =>
      cases hopen
      exact List.take_subset _ _

end Volume
end UsbSentinel
