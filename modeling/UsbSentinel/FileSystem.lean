import UsbSentinel.ByteString

/-! A hierarchical file system without links: directories and regular files are keyed
by their components from the root, and a path string is resolved through existing
directories, "." and "..". Names may have any length; a host that refuses the longer ones
does so at the call. -/
namespace FileSystem
open ByteString

inductive Errno
  | eacces | eperm | erofs | enoent | enotdir | enxio | enodev | enomem | einval
  | enametoolong | eloop | enotsup | eio | ebusy | etimedout | eexist | eisdir | enospc
  deriving DecidableEq, Repr

/-- The components that lead from the root to a directory or file. -/
abbrev Key := List Bytes

structure Fs where
  cwd : Key
  dirs : List Key
  files : AList (fun _ : Key => Bytes)

def slash : UInt8 := 47
def dot : Bytes := [46]
def dotDot : Bytes := [46, 46]

def splitSlash : Bytes → List Bytes
  | [] => [[]]
  | c :: rest =>
    if c = slash then [] :: splitSlash rest
    else
      match splitSlash rest with
      | [] => [[c]]
      | p :: ps => (c :: p) :: ps

/-- A path up to and including its last separator, and what follows. -/
def parentPart (path : Bytes) : Bytes := (path.reverse.dropWhile (· ≠ slash)).reverse
def lastPart (path : Bytes) : Bytes := (path.reverse.takeWhile (· ≠ slash)).reverse

/-- The names a path goes through; repeated and trailing separators disappear. -/
def components (path : Bytes) : List Bytes := (splitSlash path).filter (· ≠ [])

namespace Fs

def isDir (fs : Fs) (k : Key) : Bool := k = [] || k ∈ fs.dirs

/-- The directory that `names` lead to from `k`. -/
def walk (fs : Fs) : Key → List Bytes → Option Key
  | k, [] => some k
  | k, c :: rest =>
    if c = dot then fs.walk k rest
    else if c = dotDot then fs.walk k.dropLast rest
    else if fs.isDir (k ++ [c]) then fs.walk (k ++ [c]) rest
    else none

def start (fs : Fs) (path : Bytes) : Key := if path.head? = some slash then [] else fs.cwd

def dirKey (fs : Fs) (path : Bytes) : Option Key :=
  if path = [] then none else fs.walk (fs.start path) (components path)

/-- Where a file named by `names` lies or would be created, seen from directory `k`. -/
def place (fs : Fs) (k : Key) (names : List Bytes) : Option Key :=
  match names.getLast? with
  | none => none
  | some last =>
    if last = dot ∨ last = dotDot then none
    else (fs.walk k names.dropLast).map (· ++ [last])

def fileKey (fs : Fs) (path : Bytes) : Option Key :=
  if path = [] then none else fs.place (fs.start path) (components path)

def content (fs : Fs) (k : Key) : Option Bytes := fs.files.lookup k

def mkdir (fs : Fs) (path : Bytes) : Except Errno Fs :=
  if (fs.dirKey path).isSome then .error .eexist
  else
    match fs.fileKey path with
    | none => .error .enoent
    | some k =>
      if (fs.content k).isSome then .error .eexist
      else .ok { fs with dirs := k :: fs.dirs }

/-- The key at which `path` can be opened as a regular file that may be created. -/
def locate (fs : Fs) (path : Bytes) : Except Errno Key :=
  match fs.fileKey path with
  | none => .error .enoent
  | some k => if fs.isDir k then .error .eisdir else .ok k

def put (fs : Fs) (k : Key) (data : Bytes) : Fs := { fs with files := fs.files.insert k data }

/-- Rename a regular file, replacing a destination that exists. -/
def rename (fs : Fs) (src dest : Bytes) : Except Errno Fs :=
  match fs.locate src with
  | .error e => .error e
  | .ok s =>
    match fs.locate dest with
    | .error e => .error e
    | .ok d =>
      match fs.content s with
      | none => .error .enoent
      | some data =>
        if s = d then .ok fs else .ok { fs with files := (fs.files.erase s).insert d data }

def unlink (fs : Fs) (path : Bytes) : Except Errno Fs :=
  match fs.locate path with
  | .error e => .error e
  | .ok k =>
    if (fs.content k).isNone then .error .enoent
    else .ok { fs with files := fs.files.erase k }

/-- Names of the regular files directly in `k`. -/
def fileNames (fs : Fs) (k : Key) : List Bytes :=
  fs.files.keys.filterMap fun f =>
    match f.getLast? with
    | some n => if f.dropLast = k then some n else none
    | none => none

/-- Names of the directories directly in `k`. -/
def dirNames (fs : Fs) (k : Key) : List Bytes :=
  fs.dirs.filterMap fun f =>
    match f.getLast? with
    | some n => if f.dropLast = k then some n else none
    | none => none

end Fs

theorem splitSlash_ne_nil (a : Bytes) : splitSlash a ≠ [] := by
  cases a with
  | nil => simp [splitSlash]
  | cons c a =>
    simp only [splitSlash]
    split_ifs
    · simp
    · split <;> simp

theorem splitSlash_append (a b : Bytes) :
    splitSlash (a ++ slash :: b) = splitSlash a ++ splitSlash b := by
  induction a with
  | nil => simp [splitSlash]
  | cons c a ih =>
    simp only [List.cons_append, splitSlash, ih]
    split_ifs
    · rfl
    · cases h : splitSlash a with
      | nil => exact absurd h (splitSlash_ne_nil a)
      | cons p ps => rfl

theorem splitSlash_of_notMem {a : Bytes} (h : slash ∉ a) : splitSlash a = [a] := by
  induction a with
  | nil => rfl
  | cons c a ih =>
    simp only [List.mem_cons, not_or] at h
    simp [splitSlash, Ne.symm h.1, ih h.2]

theorem components_append (a b : Bytes) :
    components (a ++ slash :: b) = components a ++ components b := by
  simp [components, splitSlash_append]

theorem components_of_notMem {a : Bytes} (h : slash ∉ a) (hne : a ≠ []) :
    components a = [a] := by
  simp [components, splitSlash_of_notMem h, hne]

lemma parentPart_of_plain {p : Bytes} (h : slash ∉ p) : parentPart p = [] ∧ lastPart p = p := by
  have hall : ∀ c ∈ p.reverse, decide (c ≠ slash) = true := by
    intro c hc
    simpa using fun he : c = slash => h (he ▸ List.mem_reverse.mp hc)
  rw [parentPart, lastPart, List.dropWhile_eq_nil_iff.mpr hall, List.takeWhile_eq_self_iff.mpr hall]
  simp

lemma parentPart_of_slash {a b : Bytes} (h : slash ∉ b) :
    parentPart (a ++ slash :: b) = a ++ [slash] ∧ lastPart (a ++ slash :: b) = b := by
  have hall : ∀ c ∈ b.reverse, decide (c ≠ slash) = true := by
    intro c hc
    simpa using fun he : c = slash => h (he ▸ List.mem_reverse.mp hc)
  have hrev : (a ++ slash :: b).reverse = b.reverse ++ slash :: a.reverse := by simp
  rw [parentPart, lastPart, hrev, List.dropWhile_append_of_pos hall,
    List.takeWhile_append_of_pos hall]
  simp

@[simp] lemma components_append_slash (a : Bytes) : components (a ++ [slash]) = components a := by
  rw [components_append]
  simp [components, splitSlash]

/-- A leaf put behind a path's last separator is a component of its own. -/
lemma components_parentPart_append (p : Bytes) {leaf : Bytes} (hplain : slash ∉ leaf)
    (hne : leaf ≠ []) :
    components (parentPart p ++ leaf) = components (parentPart p) ++ [leaf] := by
  rcases exists_last slash p with hnone | ⟨a, b, rfl, hb⟩
  · rw [(parentPart_of_plain hnone).1, List.nil_append, components_of_notMem hplain hne]
    rfl
  · rw [(parentPart_of_slash hb).1, List.append_assoc, List.singleton_append, components_append,
      components_of_notMem hplain hne, components_append_slash]

lemma parentPart_append_lastPart (p : Bytes) :
    parentPart p ++ lastPart p = p ∧ slash ∉ lastPart p := by
  rcases exists_last slash p with hnone | ⟨a, b, rfl, hb⟩
  · obtain ⟨hparent, hlast⟩ := parentPart_of_plain hnone
    rw [hparent, hlast]
    exact ⟨rfl, hnone⟩
  · obtain ⟨hparent, hlast⟩ := @parentPart_of_slash a b hb
    rw [hparent, hlast]
    exact ⟨by simp, hb⟩

namespace Fs

theorem walk_append (fs : Fs) (k : Key) (a b : List Bytes) :
    fs.walk k (a ++ b) = (fs.walk k a).bind fun d => fs.walk d b := by
  induction a generalizing k with
  | nil => rfl
  | cons c a ih =>
    simp only [List.cons_append, walk]
    split_ifs
    · exact ih _
    · exact ih _
    · exact ih _
    · rfl

theorem place_append (fs : Fs) (k : Key) (a : List Bytes) {b : List Bytes} (hb : b ≠ []) :
    fs.place k (a ++ b) = (fs.walk k a).bind fun d => fs.place d b := by
  obtain ⟨b, last, rfl⟩ : ∃ b' last, b = b' ++ [last] :=
    ⟨_, _, (List.dropLast_append_getLast hb).symm⟩
  simp only [place, ← List.append_assoc, List.getLast?_concat, List.dropLast_concat, walk_append]
  split_ifs with hlast
  · cases fs.walk k a <;> rfl
  · cases fs.walk k a <;> rfl

/-- A later state that knows every directory an earlier one knew. -/
structure Extends (fs fs' : Fs) : Prop where
  cwd : fs'.cwd = fs.cwd
  dirs : ∀ k, fs.isDir k = true → fs'.isDir k = true

theorem Extends.refl (fs : Fs) : Extends fs fs := ⟨rfl, fun _ h => h⟩

theorem Extends.trans {a b c : Fs} (hab : Extends a b) (hbc : Extends b c) : Extends a c :=
  ⟨hbc.cwd.trans hab.cwd, fun k h => hbc.dirs k (hab.dirs k h)⟩

theorem Extends.walk {fs fs' : Fs} (h : Extends fs fs') {k d : Key} {names : List Bytes}
    (hw : fs.walk k names = some d) : fs'.walk k names = some d := by
  induction names generalizing k with
  | nil => exact hw
  | cons c names ih =>
    simp only [Fs.walk] at hw ⊢
    by_cases hdot : c = dot
    · rw [if_pos hdot] at hw ⊢
      exact ih hw
    rw [if_neg hdot] at hw ⊢
    by_cases hdd : c = dotDot
    · rw [if_pos hdd] at hw ⊢
      exact ih hw
    rw [if_neg hdd] at hw ⊢
    split_ifs at hw with hdir
    rw [if_pos (h.dirs _ hdir)]
    exact ih hw

theorem Extends.start {fs fs' : Fs} (h : Extends fs fs') (path : Bytes) :
    fs'.start path = fs.start path := by
  simp only [Fs.start, h.cwd]

theorem Extends.dirKey {fs fs' : Fs} (h : Extends fs fs') {path : Bytes} {d : Key}
    (hd : fs.dirKey path = some d) : fs'.dirKey path = some d := by
  unfold Fs.dirKey at hd ⊢
  split_ifs at hd ⊢
  rw [h.start]
  exact h.walk hd

theorem Extends.place {fs fs' : Fs} (h : Extends fs fs') {k f : Key} {names : List Bytes}
    (hp : fs.place k names = some f) : fs'.place k names = some f := by
  unfold Fs.place at hp ⊢
  split at hp
  · simp at hp
  · split_ifs at hp ⊢
    obtain ⟨d, hd, rfl⟩ := Option.map_eq_some_iff.mp hp
    exact Option.map_eq_some_iff.mpr ⟨d, h.walk hd, rfl⟩

theorem Extends.fileKey {fs fs' : Fs} (h : Extends fs fs') {path : Bytes} {f : Key}
    (hf : fs.fileKey path = some f) : fs'.fileKey path = some f := by
  unfold Fs.fileKey at hf ⊢
  split_ifs at hf ⊢
  rw [h.start]
  exact h.place hf

theorem mkdir_spec {fs fs' : Fs} {path : Bytes} (h : fs.mkdir path = .ok fs') :
    Extends fs fs' ∧ (∀ k, fs'.content k = fs.content k) ∧
      ∃ k, fs.fileKey path = some k ∧ fs.content k = none ∧ fs'.dirs = k :: fs.dirs := by
  unfold mkdir at h
  split_ifs at h
  split at h
  · simp at h
  · next k hk =>
    split_ifs at h with hc
    simp only [Except.ok.injEq] at h
    subst h
    refine ⟨⟨rfl, fun d hd => ?_⟩, fun _ => rfl, k, hk, by simpa using hc, rfl⟩
    simp only [isDir, Bool.or_eq_true, decide_eq_true_eq, List.mem_cons] at hd ⊢
    tauto

theorem locate_eq_ok {fs : Fs} {path : Bytes} {k : Key} :
    fs.locate path = .ok k ↔ fs.fileKey path = some k ∧ fs.isDir k = false := by
  unfold locate
  split
  · next h => simp [h]
  · next h =>
    split_ifs with hdir
    · simp only [false_iff, not_and, h, Option.some.injEq]
      rintro rfl
      simpa using hdir
    · simp only [Except.ok.injEq, h, Option.some.injEq]
      constructor
      · rintro rfl
        exact ⟨rfl, by simpa using hdir⟩
      · exact And.left

@[simp] theorem put_cwd (fs : Fs) (k : Key) (data : Bytes) : (fs.put k data).cwd = fs.cwd := rfl

@[simp] theorem put_dirs (fs : Fs) (k : Key) (data : Bytes) : (fs.put k data).dirs = fs.dirs := rfl

@[simp] theorem content_put_self (fs : Fs) (k : Key) (data : Bytes) :
    (fs.put k data).content k = some data :=
  AList.lookup_insert _

theorem content_put_of_ne (fs : Fs) {k k' : Key} (data : Bytes) (hne : k' ≠ k) :
    (fs.put k data).content k' = fs.content k' :=
  AList.lookup_insert_ne hne

theorem rename_spec {fs fs' : Fs} {src dest : Bytes} (h : fs.rename src dest = .ok fs') :
    ∃ s d data, fs.locate src = .ok s ∧ fs.locate dest = .ok d ∧
      fs.content s = some data ∧ fs'.cwd = fs.cwd ∧ fs'.dirs = fs.dirs ∧
      fs'.content d = some data ∧ (s ≠ d → fs'.content s = none) ∧
      ∀ k, k ≠ s → k ≠ d → fs'.content k = fs.content k := by
  unfold rename at h
  split at h
  · simp at h
  · next s hs =>
    split at h
    · simp at h
    · next d hd =>
      split at h
      · simp at h
      · next data hdata =>
        split_ifs at h with heq
        · obtain rfl := Except.ok.inj h
          exact ⟨s, d, data, hs, hd, hdata, rfl, rfl, heq ▸ hdata, fun hne => absurd heq hne,
            fun _ _ _ => rfl⟩
        · obtain rfl := Except.ok.inj h
          refine ⟨s, d, data, hs, hd, hdata, rfl, rfl, AList.lookup_insert _, fun _ => ?_,
            fun k hks hkd => ?_⟩
          · exact (AList.lookup_insert_ne heq).trans (AList.lookup_erase _ _)
          · exact (AList.lookup_insert_ne hkd).trans (AList.lookup_erase_ne hks)

theorem unlink_spec {fs fs' : Fs} {path : Bytes} (h : fs.unlink path = .ok fs') :
    ∃ k, fs.locate path = .ok k ∧ fs'.cwd = fs.cwd ∧ fs'.dirs = fs.dirs ∧
      fs'.content k = none ∧ ∀ k', k' ≠ k → fs'.content k' = fs.content k' := by
  unfold unlink at h
  split at h
  · simp at h
  · next k hk =>
    split_ifs at h
    obtain rfl := Except.ok.inj h
    exact ⟨k, hk, rfl, rfl, AList.lookup_erase _ _, fun k' hne => AList.lookup_erase_ne hne⟩

theorem Extends.of_dirs_eq {fs fs' : Fs} (hcwd : fs'.cwd = fs.cwd) (hdirs : fs'.dirs = fs.dirs) :
    Extends fs fs' :=
  ⟨hcwd, fun k h => by simpa only [isDir, hdirs] using h⟩

lemma isDir_congr {fs fs' : Fs} (hdirs : fs'.dirs = fs.dirs) (k : Key) :
    fs'.isDir k = fs.isDir k := by
  unfold isDir
  rw [hdirs]

lemma walk_congr {fs fs' : Fs} (hdirs : fs'.dirs = fs.dirs) (k : Key) (names : List Bytes) :
    fs'.walk k names = fs.walk k names := by
  induction names generalizing k with
  | nil => rfl
  | cons c names ih =>
    rw [walk, walk, isDir_congr hdirs, ih, ih, ih]

/-- Resolution looks at directories only. -/
lemma fileKey_congr {fs fs' : Fs} (hcwd : fs'.cwd = fs.cwd) (hdirs : fs'.dirs = fs.dirs)
    (path : Bytes) : fs'.fileKey path = fs.fileKey path := by
  simp only [fileKey, place, start, hcwd, walk_congr hdirs]

lemma locate_congr {fs fs' : Fs} (hcwd : fs'.cwd = fs.cwd) (hdirs : fs'.dirs = fs.dirs)
    (path : Bytes) : fs'.locate path = fs.locate path := by
  simp only [locate, fileKey_congr hcwd hdirs, isDir_congr hdirs]

lemma dirKey_congr {fs fs' : Fs} (hcwd : fs'.cwd = fs.cwd) (hdirs : fs'.dirs = fs.dirs)
    (path : Bytes) : fs'.dirKey path = fs.dirKey path := by
  simp only [dirKey, start, hcwd, walk_congr hdirs]

/-- A file keeps the last name of its path. -/
lemma fileKey_getLast {fs : Fs} {path : Bytes} {k : Key} (h : fs.fileKey path = some k) :
    k.getLast? = (components path).getLast? := by
  unfold fileKey place at h
  split_ifs at h
  split at h
  · simp at h
  · next last hlast =>
    split_ifs at h
    obtain ⟨d, _, rfl⟩ := Option.map_eq_some_iff.mp h
    rw [hlast, List.getLast?_concat]

/-- A file named behind the directory part of `c`, all of it looked up in `dir`. -/
theorem fileKey_below (fs : Fs) {dir leaf : Bytes} (c : Bytes) (hdir : dir ≠ [])
    (hplain : slash ∉ leaf) (hne : leaf ≠ []) (hdot : leaf ≠ dot) (hdotDot : leaf ≠ dotDot) :
    fs.fileKey (dir ++ slash :: (parentPart c ++ leaf)) =
      (fs.dirKey dir).bind fun D =>
        (fs.walk D (components (parentPart c))).map (· ++ [leaf]) := by
  have hnames : components (dir ++ slash :: (parentPart c ++ leaf)) =
      components dir ++ (components (parentPart c) ++ [leaf]) := by
    rw [components_append, components_parentPart_append c hplain hne]
  have hstart : fs.start (dir ++ slash :: (parentPart c ++ leaf)) = fs.start dir := by
    obtain ⟨b, bs, hb⟩ := List.exists_cons_of_ne_nil hdir
    rw [hb]
    rfl
  rw [fileKey, if_neg (by simp), hnames, place_append _ _ _ (by simp), hstart, dirKey, if_neg hdir]
  congr 1
  funext D
  simp [place, hdot, hdotDot]

theorem mem_fileNames {fs : Fs} {k : Key} {n : Bytes} :
    n ∈ fs.fileNames k ↔ (fs.content (k ++ [n])).isSome = true := by
  simp only [fileNames, List.mem_filterMap, content, AList.lookup_isSome, ← AList.mem_keys]
  constructor
  · rintro ⟨f, hf, hn⟩
    split at hn
    · next m hm =>
      split_ifs at hn with hk
      obtain ⟨init, rfl⟩ := List.getLast?_eq_some_iff.mp hm
      simp_all
    · simp at hn
  · exact fun h => ⟨k ++ [n], h, by simp⟩

theorem fileNames_nodup (fs : Fs) (k : Key) : (fs.fileNames k).Nodup := by
  refine (AList.keys_nodup fs.files).filterMap fun f g n hf hg => ?_
  have hkey : ∀ {f : Key}, n ∈ (match f.getLast? with
      | some m => if f.dropLast = k then some m else none
      | none => none) → f = k ++ [n] := by
    intro f hf
    split at hf
    · next m hm =>
      obtain ⟨init, rfl⟩ := List.getLast?_eq_some_iff.mp hm
      split_ifs at hf with hk
      · simp_all
      · simp at hf
    · simp at hf
  rw [hkey hf, hkey hg]

end Fs
end FileSystem
