import UsbSentinel.FileSystem
import UsbSentinel.Platform
import UsbSentinel.PosixNames

/-! The POSIX platform over a file system: errno translation, directory entries and the
store's own writes, with failures injected at any call. -/
namespace UsbSentinel.Posix
open ByteString FileSystem

def statusFromErrno : Errno → Status
  | .eacces | .eperm | .erofs => .accessDenied
  | .enoent | .enotdir | .enxio | .enodev => .notFound
  | .enomem => .noMemory
  | .einval | .enametoolong | .eloop => .invalidArg
  | .enotsup => .unsupported
  | .eio | .ebusy | .etimedout => .io
  | .eexist | .eisdir | .enospc => .internal

inductive FileKind | regular | directory | symlink | other
  deriving DecidableEq, Repr

structure Stat where
  kind : FileKind
  size : UInt64
  deriving DecidableEq, Repr

/-- What `readdir` and `fstatat` say of one name; `dType` is none for `DT_UNKNOWN` and
`stat` is none when `fstatat` fails. -/
structure RawDirent where
  name : Bytes
  dType : Option FileKind := none
  stat : Option Stat := none
  deriving DecidableEq, Repr

def isDotEntry (name : Bytes) : Bool := name = dot || name = dotDot

def fillEntry (ent : RawDirent) : DirEntry :=
  let named : DirEntry :=
    { name := sanitizeUtf8 ent.name nameMax, isHidden := ent.name.head? = some 46 }
  match ent.stat with
  | none =>
    match ent.dType with
    | none => named
    | some kind =>
      { named with isDirectory := kind = .directory, isReparsePoint := kind = .symlink }
  | some st =>
    { named with
      isReparsePoint := st.kind = .symlink
      isDirectory := st.kind = .directory
      sizeBytes := if st.kind = .directory then 0 else st.size }

@[simp] theorem fillEntry_name (ent : RawDirent) :
    (fillEntry ent).name = sanitizeUtf8 ent.name nameMax := by
  unfold fillEntry
  split
  · split <;> rfl
  · rfl

/-- The entries `dir_next` returns for what `readdir` delivers. -/
def dirEntries (raws : List RawDirent) : List DirEntry :=
  (raws.filter fun r => !isDotEntry r.name).map fillEntry

/-- A refusal or failure of the host: of the device, of resources, or of a name it does not
allow (`ENAMETOOLONG`). What exists (`EEXIST`, `ENOENT`, `ENOTDIR`) is left to the file
system. -/
structure Fault where
  errno : Errno
  /-- None when the call is refused at once, else the bytes or entries it got through. -/
  progress : Option ℕ := none
  genuine : errno ≠ .eexist ∧ errno ≠ .enoent ∧ errno ≠ .enotdir := by decide

def Fault.status (f : Fault) : Status := statusFromErrno f.errno

/-- The choices an operating system makes: which calls fail, in which order a directory
is listed, which names cannot be examined, and how much a read returns. -/
structure Behaviour where
  fault : ℕ → Option Fault := fun _ => none
  order : ℕ → List RawDirent → List RawDirent := fun _ raws => raws
  order_perm : ∀ n raws, (order n raws).Perm raws := by exact fun _ _ => .refl _
  examinable : ℕ → Bytes → Bool := fun _ _ => true
  chunk : ℕ → ℕ → ℕ := fun _ _ => 4096

/-- Call `n` does not fail for a device that is gone (`ENXIO`, `ENODEV`), which is reported
as a missing file is. -/
def Behaviour.Attached (env : Behaviour) (n : ℕ) : Prop :=
  ∀ f, env.fault n = some f → f.status ≠ .notFound

lemma Behaviour.attached_of_quiet {env : Behaviour} {n : ℕ} (h : env.fault n = none) :
    env.Attached n := by
  intro f hf
  rw [h] at hf
  cases hf

/-- The host on which nothing fails. -/
def Behaviour.quiet : Behaviour := {}

/-- A file system with the number of calls made to it and every state it has been in. -/
structure Disk where
  fs : Fs
  calls : ℕ := 0
  history : List Fs := []

namespace Disk

def tick (d : Disk) : Disk := { d with calls := d.calls + 1 }

/-- One call that takes the file system through `states`. -/
def run (d : Disk) (states : List Fs) (fs : Fs) : Disk :=
  { fs, calls := d.calls + 1, history := d.history ++ states ++ [fs] }

@[simp] theorem tick_fs (d : Disk) : d.tick.fs = d.fs := rfl
@[simp] theorem tick_history (d : Disk) : d.tick.history = d.history := rfl
@[simp] theorem run_fs (d : Disk) (states : List Fs) (fs : Fs) : (d.run states fs).fs = fs := rfl

@[simp] theorem run_history (d : Disk) (states : List Fs) (fs : Fs) :
    (d.run states fs).history = d.history ++ states ++ [fs] := rfl

@[simp] theorem tick_calls (d : Disk) : d.tick.calls = d.calls + 1 := rfl

@[simp] theorem run_calls (d : Disk) (states : List Fs) (fs : Fs) :
    (d.run states fs).calls = d.calls + 1 := rfl

end Disk

variable (env : Behaviour)

def mkdir (path : Bytes) (d : Disk) : Except Errno Unit × Disk :=
  match env.fault d.calls with
  | some f => (.error f.errno, d.tick)
  | none =>
    match d.fs.mkdir path with
    | .error e => (.error e, d.tick)
    | .ok fs => (.ok (), d.run [] fs)

def pathMax : ℕ := 4096

/-- The loop over the indices of `path`: a directory is made at every separator and at
the end. -/
def makeDirsLoop (path : Bytes) : List ℕ → Disk → Status × Disk
  | [], d => (.ok, d)
  | i :: rest, d =>
    if i = path.length ∨ path[i]? = some slash then
      if i = 0 then makeDirsLoop path rest d
      else
        match mkdir env (path.take i) d with
        | (.ok (), d') => makeDirsLoop path rest d'
        | (.error e, d') =>
          if e = .eexist then makeDirsLoop path rest d' else (statusFromErrno e, d')
    else makeDirsLoop path rest d

def makeDirs (path : Bytes) (d : Disk) : Status × Disk :=
  if path.length = 0 ∨ path.length ≥ pathMax then (.invalidArg, d)
  else makeDirsLoop env path (List.range (path.length + 1)) d

/-- Opening truncates, and the data then arrives in prefixes: `n` of its bytes are the
last to reach the file. -/
def fill (d : Disk) (k : Key) (data : Bytes) (n : ℕ) : Disk :=
  d.run ((List.range n).map fun i => d.fs.put k (data.take i)) (d.fs.put k (data.take n))

def writeFile (path data : Bytes) (d : Disk) : Status × Disk :=
  match d.fs.locate path with
  | .error e => (statusFromErrno e, d.tick)
  | .ok k =>
    match env.fault d.calls with
    | none => (.ok, fill d k data data.length)
    | some f =>
      match f.progress with
      | none => (f.status, d.tick)
      | some n => (f.status, fill d k data (min n data.length))

def replaceFile (dest src : Bytes) (d : Disk) : Status × Disk :=
  match env.fault d.calls with
  | some f => (f.status, d.tick)
  | none =>
    match d.fs.rename src dest with
    | .error e => (statusFromErrno e, d.tick)
    | .ok fs => (.ok, d.run [] fs)

def deleteFile (path : Bytes) (d : Disk) : Status × Disk :=
  match env.fault d.calls with
  | some f => (f.status, d.tick)
  | none =>
    match d.fs.unlink path with
    | .error e => (if e = .enoent then .ok else statusFromErrno e, d.tick)
    | .ok fs => (.ok, d.run [] fs)

/-- Everything `readdir` can deliver for directory `k`, in no particular order. -/
def rawDirents (d : Disk) (k : Key) : List RawDirent :=
  let described (name : Bytes) (kind : FileKind) (size : ℕ) : RawDirent :=
    { name, dType := some kind
      stat := if env.examinable d.calls name then some ⟨kind, size.toUInt64⟩ else none }
  [⟨dot, none, none⟩, ⟨dotDot, none, none⟩] ++
    ((d.fs.dirNames k).map fun n => described n .directory 4096) ++
    (d.fs.fileNames k).map fun n =>
      described n .regular ((d.fs.content (k ++ [n])).getD []).length

def dirOpen (path : Bytes) (d : Disk) : Except Status Listing × Disk :=
  match d.fs.dirKey path with
  | none => (.error (statusFromErrno .enoent), d.tick)
  | some k =>
    let raws := env.order d.calls (rawDirents env d k)
    match env.fault d.calls with
    | none => (.ok ⟨dirEntries raws, .notFound⟩, d.tick)
    | some f =>
      match f.progress with
      | none => (.error f.status, d.tick)
      | some n => (.ok ⟨dirEntries (raws.take n), f.status⟩, d.tick)

def fileOpenRead (path : Bytes) (d : Disk) : Except Status FileStream × Disk :=
  match (d.fs.fileKey path).bind d.fs.content with
  | none => (.error (statusFromErrno .enoent), d.tick)
  | some content =>
    let chunk := env.chunk d.calls
    match env.fault d.calls with
    | none => (.ok { content, chunk }, d.tick)
    | some f =>
      match f.progress with
      | none => (.error f.status, d.tick)
      | some n => (.ok { content, chunk, failAt := some (n, f.status) }, d.tick)

/-- `d'` comes after `d`: no directory is lost, and outside `touched` every file keeps
its content in each state on the way. -/
structure Frame (touched : Set Key) (d d' : Disk) : Prop where
  extends_dirs : Fs.Extends d.fs d'.fs
  content : ∀ k, k ∉ touched → d'.fs.content k = d.fs.content k
  past : ∀ fs ∈ d'.history, fs ∈ d.history ∨ ∀ k, k ∉ touched → fs.content k = d.fs.content k

lemma Frame.refl (touched : Set Key) (d : Disk) : Frame touched d d :=
  ⟨.refl _, fun _ _ => rfl, fun _ h => .inl h⟩

lemma Frame.tick (touched : Set Key) (d : Disk) : Frame touched d d.tick :=
  ⟨.refl _, fun _ _ => rfl, fun _ h => .inl h⟩

lemma Frame.trans {touched : Set Key} {a b c : Disk} (hab : Frame touched a b)
    (hbc : Frame touched b c) : Frame touched a c := by
  refine ⟨hab.extends_dirs.trans hbc.extends_dirs, fun k hk => ?_, fun fs hfs => ?_⟩
  · exact (hbc.content k hk).trans (hab.content k hk)
  · rcases hbc.past fs hfs with h | h
    · exact hab.past fs h
    · exact .inr fun k hk => (h k hk).trans (hab.content k hk)

lemma Frame.mono {s t : Set Key} (hst : s ⊆ t) {d d' : Disk} (h : Frame s d d') :
    Frame t d d' := by
  refine ⟨h.extends_dirs, fun k hk => h.content k fun hs => hk (hst hs), fun fs hfs => ?_⟩
  rcases h.past fs hfs with hp | hp
  · exact .inl hp
  · exact .inr fun k hk => hp k fun hs => hk (hst hs)

lemma Frame.run {touched : Set Key} {d : Disk} {states : List Fs} {fs : Fs}
    (hdirs : Fs.Extends d.fs fs)
    (hkeep : ∀ s ∈ states ++ [fs], ∀ k, k ∉ touched → s.content k = d.fs.content k) :
    Frame touched d (d.run states fs) := by
  refine ⟨hdirs, hkeep fs (by simp), fun s hs => ?_⟩
  simp only [Disk.run_history, List.append_assoc] at hs
  rcases List.mem_append.mp hs with h | h
  · exact .inl h
  · exact .inr (hkeep s h)

lemma mkdir_frame (path : Bytes) (d : Disk) : Frame ∅ d (mkdir env path d).2 := by
  unfold mkdir
  split
  · exact Frame.tick _ _
  · split
    · exact Frame.tick _ _
    · next h =>
      obtain ⟨hext, hcontent, _⟩ := Fs.mkdir_spec h
      refine Frame.run hext fun s hs k _ => ?_
      obtain rfl : s = _ := by simpa using hs
      exact hcontent k

lemma makeDirsLoop_frame (path : Bytes) (is : List ℕ) (d : Disk) :
    Frame ∅ d (makeDirsLoop env path is d).2 := by
  induction is generalizing d with
  | nil => exact Frame.refl _ _
  | cons i rest ih =>
    have hstep := mkdir_frame env (path.take i) d
    simp only [makeDirsLoop]
    split_ifs
    · exact ih d
    · split
      · next heq => rw [heq] at hstep; exact hstep.trans (ih _)
      · next heq =>
        rw [heq] at hstep
        split_ifs
        · exact hstep.trans (ih _)
        · exact hstep
    · exact ih d

theorem makeDirs_frame (path : Bytes) (d : Disk) : Frame ∅ d (makeDirs env path d).2 := by
  unfold makeDirs
  split_ifs
  · exact Frame.refl _ _
  · exact makeDirsLoop_frame env _ _ _

lemma fill_frame (d : Disk) (k : Key) (data : Bytes) (n : ℕ) :
    Frame {k} d (fill d k data n) := by
  refine Frame.run (.of_dirs_eq rfl rfl) fun s hs k' hk' => ?_
  have hput : ∃ i, s = d.fs.put k (data.take i) := by
    rcases List.mem_append.mp hs with h | h
    · obtain ⟨i, _, rfl⟩ := List.mem_map.mp h
      exact ⟨i, rfl⟩
    · exact ⟨n, by simpa using h⟩
  obtain ⟨i, rfl⟩ := hput
  exact Fs.content_put_of_ne _ _ hk'

/-- The only file that `writeFile`, `replaceFile` or `deleteFile` changes at `path`. -/
def fileAt (d : Disk) (path : Bytes) : Set Key := {k | d.fs.locate path = .ok k}

theorem writeFile_frame (path data : Bytes) (d : Disk) :
    Frame (fileAt d path) d (writeFile env path data d).2 := by
  unfold writeFile
  split
  · exact Frame.tick _ _
  · next k hk =>
    have hsub : ({k} : Set Key) ⊆ fileAt d path :=
      Set.singleton_subset_iff.mpr hk
    split
    · exact (fill_frame d k data _).mono hsub
    · split
      · exact Frame.tick _ _
      · exact (fill_frame d k data _).mono hsub

theorem replaceFile_frame (dest src : Bytes) (d : Disk) :
    Frame (fileAt d dest ∪ fileAt d src) d (replaceFile env dest src d).2 := by
  unfold replaceFile
  split
  · exact Frame.tick _ _
  · split
    · exact Frame.tick _ _
    · next h =>
      obtain ⟨s, t, _, hs, ht, _, hcwd, hdirs, _, _, hrest⟩ := Fs.rename_spec h
      refine Frame.run (.of_dirs_eq hcwd hdirs) fun fs hfs k hk => ?_
      obtain rfl : fs = _ := by simpa using hfs
      exact hrest k (fun he => hk (.inr (he ▸ hs))) (fun he => hk (.inl (he ▸ ht)))

theorem deleteFile_frame (path : Bytes) (d : Disk) :
    Frame (fileAt d path) d (deleteFile env path d).2 := by
  unfold deleteFile
  split
  · exact Frame.tick _ _
  · split
    · exact Frame.tick _ _
    · next h =>
      obtain ⟨k, hk, hcwd, hdirs, _, hrest⟩ := Fs.unlink_spec h
      refine Frame.run (.of_dirs_eq hcwd hdirs) fun fs hfs k' hk' => ?_
      obtain rfl : fs = _ := by simpa using hfs
      exact hrest k' fun he => hk' (he ▸ hk)

/-- Paths resolve alike in two states. -/
structure SamePlaces (d d' : Disk) : Prop where
  cwd : d'.fs.cwd = d.fs.cwd
  dirs : d'.fs.dirs = d.fs.dirs

lemma SamePlaces.locate {d d' : Disk} (h : SamePlaces d d') (path : Bytes) :
    d'.fs.locate path = d.fs.locate path :=
  Fs.locate_congr h.cwd h.dirs path

lemma SamePlaces.fileAt {d d' : Disk} (h : SamePlaces d d') (path : Bytes) :
    fileAt d' path = fileAt d path := by
  simp only [Posix.fileAt, h.locate]

lemma SamePlaces.trans {a b c : Disk} (hab : SamePlaces a b) (hbc : SamePlaces b c) :
    SamePlaces a c :=
  ⟨hbc.cwd.trans hab.cwd, hbc.dirs.trans hab.dirs⟩

lemma writeFile_places (path data : Bytes) (d : Disk) :
    SamePlaces d (writeFile env path data d).2 := by
  unfold writeFile
  split
  · exact ⟨rfl, rfl⟩
  · split
    · exact ⟨rfl, rfl⟩
    · split <;> exact ⟨rfl, rfl⟩

lemma replaceFile_places (dest src : Bytes) (d : Disk) :
    SamePlaces d (replaceFile env dest src d).2 := by
  unfold replaceFile
  split
  · exact ⟨rfl, rfl⟩
  · split
    · exact ⟨rfl, rfl⟩
    · next h =>
      obtain ⟨_, _, _, _, _, _, hcwd, hdirs, _⟩ := Fs.rename_spec h
      exact ⟨hcwd, hdirs⟩

lemma deleteFile_places (path : Bytes) (d : Disk) :
    SamePlaces d (deleteFile env path d).2 := by
  unfold deleteFile
  split
  · exact ⟨rfl, rfl⟩
  · split
    · exact ⟨rfl, rfl⟩
    · next h =>
      obtain ⟨_, _, hcwd, hdirs, _⟩ := Fs.unlink_spec h
      exact ⟨hcwd, hdirs⟩

lemma dirOpen_disk (path : Bytes) (d : Disk) : (dirOpen env path d).2 = d.tick := by
  unfold dirOpen
  split
  · rfl
  · dsimp only
    split
    · rfl
    · split <;> rfl

lemma fileOpenRead_disk (path : Bytes) (d : Disk) : (fileOpenRead env path d).2 = d.tick := by
  unfold fileOpenRead
  split
  · rfl
  · dsimp only
    split
    · rfl
    · split <;> rfl

lemma statusFromErrno_ne_ok (e : Errno) : statusFromErrno e ≠ .ok := by
  cases e <;> decide

lemma writeFile_ok {path data : Bytes} {d d' : Disk} (h : writeFile env path data d = (.ok, d')) :
    ∃ k, d.fs.locate path = .ok k ∧ d' = fill d k data data.length := by
  unfold writeFile at h
  split at h
  · exact absurd (Prod.ext_iff.mp h).1 (statusFromErrno_ne_ok _)
  · next k hk =>
    split at h
    · exact ⟨k, hk, ((Prod.ext_iff.mp h).2).symm⟩
    · split at h <;> exact absurd (Prod.ext_iff.mp h).1 (statusFromErrno_ne_ok _)

lemma replaceFile_ok {dest src : Bytes} {d d' : Disk}
    (h : replaceFile env dest src d = (.ok, d')) :
    ∃ fs, d.fs.rename src dest = .ok fs ∧ d' = d.run [] fs := by
  unfold replaceFile at h
  split at h
  · exact absurd (Prod.ext_iff.mp h).1 (statusFromErrno_ne_ok _)
  · split at h
    · exact absurd (Prod.ext_iff.mp h).1 (statusFromErrno_ne_ok _)
    · next fs hfs => exact ⟨fs, hfs, ((Prod.ext_iff.mp h).2).symm⟩

lemma replaceFile_failed {dest src : Bytes} {d d' : Disk} {e : Status}
    (h : replaceFile env dest src d = (e, d')) (he : e ≠ .ok) : d' = d.tick := by
  unfold replaceFile at h
  split at h
  · exact ((Prod.ext_iff.mp h).2).symm
  · split at h
    · exact ((Prod.ext_iff.mp h).2).symm
    · exact absurd ((Prod.ext_iff.mp h).1).symm he

lemma mkdir_of_no_fault {path : Bytes} {d : Disk} (h : env.fault d.calls = none) :
    mkdir env path d = mkdir .quiet path d := by
  simp [mkdir, h, Behaviour.quiet]

lemma mkdir_calls (path : Bytes) (d : Disk) : (mkdir env path d).2.calls = d.calls + 1 := by
  unfold mkdir
  split
  · rfl
  · split <;> rfl

lemma makeDirsLoop_calls (path : Bytes) (is : List ℕ) (d : Disk) :
    d.calls ≤ (makeDirsLoop env path is d).2.calls := by
  induction is generalizing d with
  | nil => exact le_rfl
  | cons i rest ih =>
    have hstep := mkdir_calls env (path.take i) d
    simp only [makeDirsLoop]
    split_ifs
    · exact ih d
    · split
      · next d' heq =>
        rw [heq] at hstep
        exact (Nat.le_succ _).trans (hstep.ge.trans (ih d'))
      · next e d' heq =>
        rw [heq] at hstep
        split_ifs
        · exact (Nat.le_succ _).trans (hstep.ge.trans (ih d'))
        · exact (Nat.le_succ _).trans hstep.ge
    · exact ih d

/-- Faults outside the calls that the loop makes do not show. -/
lemma makeDirsLoop_of_no_fault {path : Bytes} {is : List ℕ} {d : Disk}
    (h : ∀ n, d.calls ≤ n → n < (makeDirsLoop .quiet path is d).2.calls → env.fault n = none) :
    makeDirsLoop env path is d = makeDirsLoop .quiet path is d := by
  induction is generalizing d with
  | nil => rfl
  | cons i rest ih =>
    have hcalls := mkdir_calls .quiet (path.take i) d
    simp only [makeDirsLoop] at h ⊢
    split_ifs at h ⊢
    · exact ih h
    · have hfault : env.fault d.calls = none := by
        refine h _ le_rfl ?_
        split
        · next heq =>
          rw [heq] at hcalls
          exact hcalls.ge.trans (makeDirsLoop_calls _ _ _ _)
        · next heq =>
          rw [heq] at hcalls
          split_ifs
          · exact hcalls.ge.trans (makeDirsLoop_calls _ _ _ _)
          · exact hcalls.ge
      rw [mkdir_of_no_fault env hfault]
      split
      · next heq =>
        rw [heq] at hcalls h
        exact ih fun n hn => h n (by dsimp only at hcalls; omega)
      · next e d' heq =>
        rw [heq] at hcalls h
        dsimp only at h hcalls
        split_ifs at h ⊢
        · exact ih fun n hn => h n (by omega)
        · rfl
    · exact ih h

/-- Where the directories could be made, no call was refused. -/
lemma makeDirsLoop_ok {path : Bytes} {is : List ℕ} {d d' : Disk}
    (h : makeDirsLoop env path is d = (.ok, d')) :
    makeDirsLoop .quiet path is d = (.ok, d') := by
  induction is generalizing d with
  | nil => exact h
  | cons i rest ih =>
    simp only [makeDirsLoop] at h ⊢
    split_ifs at h ⊢
    · exact ih h
    · cases hf : env.fault d.calls with
      | none =>
        rw [← mkdir_of_no_fault env hf]
        split at h
        · exact ih h
        · split_ifs at h ⊢
          · exact ih h
          · exact absurd (Prod.ext_iff.mp h).1 (statusFromErrno_ne_ok _)
      | some f =>
        have hmk : mkdir env (path.take i) d = (.error f.errno, d.tick) := by
          simp [mkdir, hf]
        rw [hmk] at h
        dsimp only at h
        rw [if_neg f.genuine.1] at h
        exact absurd (Prod.ext_iff.mp h).1 (statusFromErrno_ne_ok _)
    · exact ih h

theorem makeDirs_of_no_fault {path : Bytes} {d : Disk}
    (h : ∀ n, d.calls ≤ n → n < (makeDirs .quiet path d).2.calls → env.fault n = none) :
    makeDirs env path d = makeDirs .quiet path d := by
  unfold makeDirs at h ⊢
  split_ifs at h ⊢
  · rfl
  · exact makeDirsLoop_of_no_fault env h

theorem makeDirs_ok {path : Bytes} {d d' : Disk} (h : makeDirs env path d = (.ok, d')) :
    makeDirs .quiet path d = (.ok, d') := by
  unfold makeDirs at h ⊢
  split_ifs at h ⊢
  · exact absurd (Prod.ext_iff.mp h).1 (by simp)
  · exact makeDirsLoop_ok env h

def storePlatform : StorePlatform Disk where
  makeDirs := makeDirs env
  writeFile := writeFile env
  replaceFile := replaceFile env
  deleteFile := deleteFile env
  dirOpen := dirOpen env
  fileOpenRead := fileOpenRead env

end UsbSentinel.Posix
