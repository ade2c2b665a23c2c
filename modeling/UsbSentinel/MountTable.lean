import UsbSentinel.MountInfo

/-! What is read from a mount table in the kernel's format: the lines that match a device number,
and when the device gets their mount points, their type and their directory. -/
namespace UsbSentinel.DeviceLinux
open ByteString UsbSentinel.Path Strtok

/-! ### Matching lines -/

section Matching
variable (status : FileStatus) (majorNum minorNum : ℕ)

/-- The device number is the line's, or that of the block device its source names by an absolute
path. -/
def Belongs (mount : Mount) (source : Bytes) : Prop :=
  mount.devId = devNumber majorNum minorNum ∨
    source.head? = some slash ∧ status.stat source = some (.blockDevice majorNum minorNum)

instance : Decidable (Belongs status majorNum minorNum mount source) :=
  inferInstanceAs (Decidable (_ ∨ _))

/-- The mounts of the device, in the order of the table. -/
def matching (table : List Mount) : List Mount :=
  table.filter fun mount => Belongs status majorNum minorNum mount mount.source

def isDirectory (path : Bytes) : Bool := status.stat path = some .directory

/-- The first mount of the device whose mount point is a directory. -/
def rootMount (table : List Mount) : Option Mount :=
  (matching status majorNum minorNum table).find? fun mount => isDirectory status mount.mountPoint

/-- The fields as the table has them. -/
structure Filled (table : List Mount) (after : Device) : Prop where
  mountPoints : after.mountPoints =
    ((matching status majorNum minorNum table).take 4).map fun mount => mount.mountPoint.take 511
  filesystem : after.filesystem =
    ((matching status majorNum minorNum table).head?.map Mount.fstype).getD []
  volumePath : after.volumePath = [] ∨
    ∃ mount, rootMount status majorNum minorNum table = some mount ∧
      after.volumePath = stem .posix mount.mountPoint

variable (extra : Bytes)

/-- The mounts that are found by as much of a source as its buffer takes. -/
def found (table : List Mount) : List Mount :=
  table.filter fun mount =>
    Belongs status majorNum minorNum mount (decoded (mount.sourceField extra))

/-- The first of them whose mount point is a directory, as far as its buffer takes it. -/
def foundRoot (table : List Mount) : Option Mount :=
  (found status majorNum minorNum extra table).find? fun mount =>
    isDirectory status (decoded mount.mountPointField)

/-- What is found through buffers of 4096 bytes shows the same as what is there, and a type and a
directory's path fit theirs. -/
structure Fits (table : List Mount) : Prop where
  mountPoints : ((found status majorNum minorNum extra table).take 4).map
      (fun mount => mount.mountPoint.take 511) =
    ((matching status majorNum minorNum table).take 4).map fun mount => mount.mountPoint.take 511
  filesystem : ((found status majorNum minorNum extra table).head?.map fun mount =>
      mount.fstype.take 31) =
    (matching status majorNum minorNum table).head?.map Mount.fstype
  volumePath : ∀ shown, foundRoot status majorNum minorNum extra table = some shown →
    ∃ mount, rootMount status majorNum minorNum table = some mount ∧
      (stem .posix (decoded shown.mountPointField)).take 511 = stem .posix mount.mountPoint

end Matching

/-! ### One line -/

lemma filter_some {pieces : List Bytes} (h : ∀ piece ∈ pieces, piece ≠ []) :
    pieces.filter (· ≠ []) = pieces := by
  refine List.filter_eq_self.mpr fun piece hpiece => ?_
  simpa using h piece hpiece

namespace Mount
variable (extra : Bytes) (mount : Mount)

lemma isField {field : Bytes}
    (h : field ∈ [mount.id, mount.parent, mount.devId, mount.root, mount.options, mount.fstype,
      mount.superOptions] ++ mount.tags) : IsField field := mount.fields_plain field h

lemma mountPointField_isField : IsField mount.mountPointField := by
  obtain ⟨hsome, htext⟩ := mount.mountPoint_path
  have hescaped := @escapeField_isText [] _ htext
  rw [List.append_nil] at hescaped
  exact ⟨escapeField_ne_nil hsome, hescaped⟩

/-- What is read of the line. An empty source leaves its place to what follows it. -/
def read : MountLine where
  devId := mount.devId
  mountPoint := mount.mountPointField
  fstype := some mount.fstype
  source := some (if mount.source = [] then mount.superOptions else mount.sourceField extra)

lemma fields_text : ∀ field ∈ mount.fields extra ++ [mount.superOptions],
    0 ∉ field ∧ space ∉ field ∧ newline ∉ field := by
  intro field hfield
  simp only [fields, List.mem_append, List.mem_cons, List.not_mem_nil, or_false] at hfield
  rcases hfield with (((rfl | rfl | rfl | rfl | rfl | rfl) | htag) | rfl | rfl | rfl) | rfl
  case inl.inr.inl => decide
  case inl.inr.inr.inr => exact escapeField_isText mount.source_text
  case inl.inl.inl.inr.inr.inr.inr.inl => exact mount.mountPointField_isField.2
  case inl.inl.inr => exact (mount.isField (by simp [htag])).2
  all_goals exact (mount.isField (by simp)).2

lemma front_ne_nil : ∀ field ∈ [mount.id, mount.parent, mount.devId, mount.root,
    mount.mountPointField, mount.options] ++ mount.tags ++ [dash, mount.fstype], field ≠ [] := by
  intro field hfield
  simp only [List.mem_append, List.mem_cons, List.not_mem_nil, or_false] at hfield
  rcases hfield with ((rfl | rfl | rfl | rfl | rfl | rfl) | htag) | rfl | rfl
  case inr.inl => decide
  case inl.inl.inr.inr.inr.inr.inl => exact mount.mountPointField_isField.1
  case inl.inr => exact (mount.isField (by simp [htag])).1
  all_goals exact (mount.isField (by simp)).1

lemma tokens_line : tokens space (mount.line extra) =
    [mount.id, mount.parent, mount.devId, mount.root, mount.mountPointField, mount.options] ++
      (mount.tags ++ dash :: mount.fstype ::
        ([mount.sourceField extra, mount.superOptions].filter (· ≠ []))) := by
  have htext := mount.fields_text extra
  have hfields : mount.fields extra ++ [mount.superOptions] =
      ([mount.id, mount.parent, mount.devId, mount.root, mount.mountPointField, mount.options] ++
        mount.tags ++ [dash, mount.fstype]) ++ [mount.sourceField extra, mount.superOptions] := by
    simp [fields]
  rw [line, tokens_terminated (fun field hfield => (htext field (by simp [hfield])).2.1)
    (htext _ (by simp)).2.1, hfields, List.filter_append, filter_some mount.front_ne_nil]
  simp

lemma parseMountLine_line : parseMountLine (mount.line extra) = some (mount.read extra) := by
  have hskip : ∀ tail, (mount.tags ++ dash :: tail).dropWhile (· ≠ dash) = dash :: tail := by
    intro tail
    rw [List.dropWhile_append_of_pos fun tag htag => ?_]
    · simp
    · exact decide_eq_true fun heq => mount.tags_end (heq ▸ htag)
  have hlast : mount.superOptions ≠ [] := (mount.isField (by simp)).1
  simp only [parseMountLine, tokens_line, List.cons_append, List.nil_append, hskip]
  by_cases hsource : mount.source = []
  · have hempty : mount.sourceField extra = [] := by rw [sourceField, hsource]; rfl
    simp [read, hsource, hempty, hlast]
  · have hfield : mount.sourceField extra ≠ [] := escapeField_ne_nil hsource
    simp [read, hsource, hfield]

lemma line_text {c : UInt8} (hspace : c ≠ space)
    (hc : ∀ field ∈ mount.fields extra ++ [mount.superOptions], c ∉ field) :
    c ∉ mount.line extra := by
  intro hmem
  rcases List.mem_append.mp hmem with hfront | hlast
  · obtain ⟨field, hfield, hpiece⟩ := List.mem_flatMap.mp hfront
    rcases List.mem_append.mp hpiece with hin | hend
    · exact hc field (by simp [hfield]) hin
    · exact hspace (List.mem_singleton.mp hend)
  · exact hc _ (by simp) hlast

lemma line_plain : 0 ∉ mount.line extra ∧ newline ∉ mount.line extra ∧ mount.line extra ≠ [] := by
  have htext := mount.fields_text extra
  refine ⟨?_, ?_, ?_⟩
  · exact mount.line_text extra (by decide) fun field hfield => (htext field hfield).1
  · exact mount.line_text extra (by decide) fun field hfield => (htext field hfield).2.2
  · exact List.append_ne_nil_of_right_ne_nil _ (mount.isField (by simp)).1

end Mount

/-! ### The loop over the lines -/

section Loop
variable {status : FileStatus} {majorNum minorNum : ℕ} {extra : Bytes}

lemma decoded_head {c : UInt8} (hc : c ≠ backslash) (hzero : c ≠ 0) (rest : Bytes) :
    (decoded (c :: rest)).head? = some c := by
  have hcut : cut linuxPathMax (c :: rest) = c :: rest.take 4094 := rfl
  rw [decoded, hcut, unescape_plain hc, cstr, List.takeWhile_cons_of_pos (by simpa using hzero),
    List.head?_cons]

lemma isMatch_read (hmajor : majorNum < 2 ^ 32) (hminor : minorNum < 2 ^ 32) (mount : Mount) :
    isMatch status (devNumber majorNum minorNum) (mount.read extra) = true ↔
      Belongs status majorNum minorNum mount (decoded (mount.sourceField extra)) := by
  have hsource : ∀ field, (mount.source = [] → field = mount.superOptions) →
      (mount.source ≠ [] → field = mount.sourceField extra) →
      (sourceMatchesDevId status (decoded field) majorNum minorNum = true ↔
        (decoded (mount.sourceField extra)).head? = some slash ∧
          status.stat (decoded (mount.sourceField extra)) =
            some (.blockDevice majorNum minorNum)) := by
    intro field hempty hsome
    by_cases h : mount.source = []
    · obtain ⟨rest, hrest⟩ : ∃ rest, mount.superOptions = 114 :: rest := by
        have hstart := mount.superOptions_start
        cases hoptions : mount.superOptions with
        | nil =>
          rw [hoptions] at hstart
          cases hstart
        | cons c rest =>
          rw [hoptions] at hstart
          exact ⟨rest, by rw [Option.some.inj hstart]⟩
      have hhead := @decoded_head 114 (by decide) (by decide) rest
      have hfield : mount.sourceField extra = [] := by rw [Mount.sourceField, h]; rfl
      rw [hempty h, hrest, hfield, sourceMatchesDevId, hhead]
      simp [decoded, unescapeMountinfoField, cut, cstr, slash]
    · rw [hsome h, sourceMatchesDevId, Bool.and_eq_true, decide_eq_true_eq, decide_eq_true_eq]
  rw [isMatch, scanDevId_devNumber hmajor hminor, Bool.or_eq_true, decide_eq_true_eq, Belongs]
  refine or_congr_right (hsource _ ?_ ?_)
  · intro h
    exact if_pos h
  · intro h
    exact if_neg h

lemma takeLine_line (hmajor : majorNum < 2 ^ 32) (hminor : minorNum < 2 ^ 32) (device : Device)
    (mount : Mount) : takeLine status (devNumber majorNum minorNum) device (mount.line extra) =
      if Belongs status majorNum minorNum mount (decoded (mount.sourceField extra)) then
        takeMatch status device (mount.read extra)
      else device := by
  rw [takeLine, mount.parseMountLine_line]
  simp only [isMatch_read hmajor hminor]

/-- Only the lines that are found change the device. -/
lemma foldl_takeLine (hmajor : majorNum < 2 ^ 32) (hminor : minorNum < 2 ^ 32) (table : List Mount)
    (device : Device) :
    (table.map (Mount.line extra)).foldl (takeLine status (devNumber majorNum minorNum)) device =
      ((found status majorNum minorNum extra table).map (Mount.read extra)).foldl
        (takeMatch status) device := by
  induction table generalizing device with
  | nil => rfl
  | cons mount table ih =>
    rw [List.map_cons, List.foldl_cons, takeLine_line hmajor hminor, ih]
    by_cases h : Belongs status majorNum minorNum mount (decoded (mount.sourceField extra))
    · rw [if_pos h, found, found, List.filter_cons_of_pos (by simpa using h), List.map_cons,
        List.foldl_cons]
    · rw [if_neg h, found, found, List.filter_cons_of_neg (by simpa using h)]

lemma foldl_mountPoints (lines : List MountLine) (device : Device) :
    (lines.foldl (takeMatch status) device).mountPoints = device.mountPoints ++
      (lines.take (mountPointsMax - device.mountPoints.length)).map
        fun line => cut mountPointMax (decoded line.mountPoint) := by
  induction lines generalizing device with
  | nil => simp
  | cons line lines ih =>
    rw [List.foldl_cons, ih]
    by_cases hroom : device.mountPoints.length < mountPointsMax
    · have hleft : mountPointsMax - device.mountPoints.length =
          mountPointsMax - (device.mountPoints.length + 1) + 1 := by omega
      simp [takeMatch, hroom, hleft]
    · have hfull : mountPointsMax - device.mountPoints.length = 0 := by omega
      simp [takeMatch, hroom, hfull]

/-- A field that a line leaves alone once it is set. -/
lemma foldl_takeMatch_kept {field : Device → Bytes}
    (hset : ∀ device line, field device ≠ [] → field (takeMatch status device line) = field device)
    (lines : List MountLine) {device : Device} (hdevice : field device ≠ []) :
    field (lines.foldl (takeMatch status) device) = field device := by
  induction lines generalizing device with
  | nil => rfl
  | cons line lines ih =>
    have hstep := hset device line hdevice
    rw [List.foldl_cons, ih (by rw [hstep]; exact hdevice), hstep]

lemma takeMatch_filesystem (device : Device) (line : MountLine) (hdevice : device.filesystem ≠ []) :
    (takeMatch status device line).filesystem = device.filesystem := by
  cases hline : line.fstype <;> simp [takeMatch, hline, hdevice]

lemma takeMatch_volumePath (device : Device) (line : MountLine) (hdevice : device.volumePath ≠ []) :
    (takeMatch status device line).volumePath = device.volumePath := by
  simp [takeMatch, hdevice]

lemma foldl_filesystem (mounts : List Mount) {device : Device} (hdevice : device.filesystem = []) :
    ((mounts.map (Mount.read extra)).foldl (takeMatch status) device).filesystem =
      (mounts.head?.map fun mount => mount.fstype.take 31).getD [] := by
  cases mounts with
  | nil => exact hdevice
  | cons mount mounts =>
    have hsome : mount.fstype ≠ [] := (mount.isField (by simp)).1
    have hstep : (takeMatch status device (mount.read extra)).filesystem =
        mount.fstype.take 31 := by
      simp [takeMatch, Mount.read, hdevice, cut, fsNameMax]
    rw [List.map_cons, List.foldl_cons,
      foldl_takeMatch_kept takeMatch_filesystem _ (by rw [hstep]; simpa using hsome), hstep]
    rfl

lemma joinInto_stem (cap : ℕ) (base : Bytes) : joinInto cap base [] = cut cap (stem .posix base) := by
  unfold joinInto
  have hstem : joined .posix base [] = stem .posix base := by
    rw [joined_eq_stem_append, List.append_nil]
  cases hjoin : pathJoin .posix cap base [] with
  | error e => simp only [hstem]
  | ok path =>
    obtain ⟨rfl, hshort⟩ := pathJoin_eq_ok.mp hjoin
    simp only [hstem] at hshort ⊢
    exact (cut_eq_self hshort).symm

lemma stem_ne_nil (base : Bytes) : stem .posix base ≠ [] := by
  obtain ⟨front, last, heq, -⟩ := stem_ends_with_separator .posix base
  rw [heq]
  simp

lemma foldl_volumePath (mounts : List Mount) {device : Device} (hdevice : device.volumePath = []) :
    ((mounts.map (Mount.read extra)).foldl (takeMatch status) device).volumePath =
      ((mounts.find? fun mount => isDirectory status (decoded mount.mountPointField)).map
        fun mount => (stem .posix (decoded mount.mountPointField)).take 511).getD [] := by
  induction mounts generalizing device with
  | nil => exact hdevice
  | cons mount mounts ih =>
    rw [List.map_cons, List.foldl_cons, List.find?_cons]
    cases hdir : isDirectory status (decoded mount.mountPointField) with
    | false =>
      have hnot : status.stat (decoded mount.mountPointField) ≠ some .directory :=
        of_decide_eq_false hdir
      rw [ih (by simp [takeMatch, Mount.read, hdevice, hnot])]
    | true =>
      have hstat : status.stat (decoded mount.mountPointField) = some .directory :=
        of_decide_eq_true hdir
      have hstep : (takeMatch status device (mount.read extra)).volumePath =
          (stem .posix (decoded mount.mountPointField)).take 511 := by
        simp [takeMatch, Mount.read, hdevice, hstat, joinInto_stem, cut, volumePathMax]
      have hsome := stem_ne_nil (decoded mount.mountPointField)
      rw [foldl_takeMatch_kept takeMatch_volumePath _ (by rw [hstep]; simpa using hsome), hstep]
      rfl

/-! ### The table -/

lemma mountTable_text (extra : Bytes) (table : List Mount) : 0 ∉ mountTable extra table := by
  intro hmem
  obtain ⟨mount, -, hline⟩ := List.mem_flatMap.mp hmem
  rcases List.mem_append.mp hline with hin | hend
  · exact (mount.line_plain extra).1 hin
  · exact absurd (List.mem_singleton.mp hend) (by decide)

lemma tokens_mountTable (extra : Bytes) (table : List Mount) :
    tokens newline (mountTable extra table) = table.map (Mount.line extra) := by
  have htable : mountTable extra table =
      (table.map (Mount.line extra)).flatMap (· ++ [newline]) ++ [] := by
    simp [mountTable, List.flatMap_map]
  have hlines : ∀ line ∈ table.map (Mount.line extra), newline ∉ line ∧ line ≠ [] := by
    intro line hline
    obtain ⟨mount, -, rfl⟩ := List.mem_map.mp hline
    exact (mount.line_plain extra).2
  rw [htable, tokens_terminated (fun line hline => (hlines line hline).1) List.not_mem_nil,
    List.filter_append, filter_some fun line hline => (hlines line hline).2]
  simp

lemma readMountinfo_sound {file : FileStream} (hfile : file.failAt = none)
    (hsize : file.content.length < mountinfoCap) : readMountinfo file = file.content := by
  have hread := readLoop_sound hfile (fun total => min (mountinfoCap - 1 - total) mountinfoReadChunk)
    (n := 0) le_rfl (fun n hn => by simp only [mountinfoReadChunk]; omega) (.inl rfl) (.inl rfl)
    (Nat.zero_le _) (Nat.lt_succ_of_le (Nat.sub_le _ _))
  rw [List.take_zero, List.take_length] at hread
  rw [readMountinfo, hread]

/-- A device as its callers hand it over. -/
structure Unmounted (device : Device) : Prop where
  mountPoints : device.mountPoints = []
  volumePath : device.volumePath = []
  filesystem : device.filesystem = []

/-- The three fields after reading the table, said with the mounts that are found. -/
structure Read (status : FileStatus) (majorNum minorNum : ℕ) (extra : Bytes) (table : List Mount)
    (after : Device) : Prop where
  mountPoints : after.mountPoints = ((found status majorNum minorNum extra table).take 4).map
    fun mount => mount.mountPoint.take 511
  filesystem : after.filesystem = ((found status majorNum minorNum extra table).head?.map
    fun mount => mount.fstype.take 31).getD []
  volumePath : after.volumePath = ((foundRoot status majorNum minorNum extra table).map
    fun mount => (stem .posix (decoded mount.mountPointField)).take 511).getD []

lemma fillFreeBytes_read {table : List Mount} {device : Device}
    (h : Read status majorNum minorNum extra table device) :
    Read status majorNum minorNum extra table (fillFreeBytes status device) := by
  unfold fillFreeBytes
  split_ifs
  · exact h
  · split
    · exact h
    · exact ⟨h.mountPoints, h.filesystem, h.volumePath⟩

variable {table : List Mount} {file : FileStream} {device : Device}

lemma fillMountInfo_read (hcontent : file.content = mountTable extra table)
    (hfile : file.failAt = none) (hsize : file.content.length < mountinfoCap)
    (hmajor : majorNum < 2 ^ 32) (hminor : minorNum < 2 ^ 32) (hdevice : Unmounted device) :
    Read status majorNum minorNum extra table
      (fillMountInfo status (.ok file) true (devNumber majorNum minorNum) device) := by
  have hshown : ∀ mount : Mount, cut mountPointMax (decoded mount.mountPointField) =
      mount.mountPoint.take 511 := fun mount =>
    decoded_take (by decide) mount.mountPoint_path.2 (by decide)
  rw [fillMountInfo, if_pos rfl, readMountinfo_sound hfile hsize, hcontent,
    cstr_eq_self (mountTable_text extra table), tokens_mountTable,
    foldl_takeLine hmajor hminor]
  refine fillFreeBytes_read ⟨?_, ?_, ?_⟩
  · rw [foldl_mountPoints, hdevice.mountPoints, List.nil_append, List.length_nil, Nat.sub_zero,
      ← List.map_take, List.map_map]
    exact List.map_congr_left fun mount _ => hshown mount
  · exact foldl_filesystem _ hdevice.filesystem
  · exact foldl_volumePath _ hdevice.volumePath

/-- Where the same mount points are shown, there is none of both or there is one of both. -/
lemma shown_nil {ms ns : List Mount} {f : Mount → Bytes}
    (h : (ms.take 4).map f = (ns.take 4).map f) : ms = [] ↔ ns = [] := by
  simpa using congrArg (· = []) h

/-- Reading the table gives the fields it has for the device just when the buffers on the way
show what is there. -/
theorem fillMountInfo_filled (hcontent : file.content = mountTable extra table)
    (hfile : file.failAt = none) (hsize : file.content.length < mountinfoCap)
    (hmajor : majorNum < 2 ^ 32) (hminor : minorNum < 2 ^ 32) (hdevice : Unmounted device) :
    Filled status majorNum minorNum table
        (fillMountInfo status (.ok file) true (devNumber majorNum minorNum) device) ↔
      Fits status majorNum minorNum extra table := by
  have hread : Read status majorNum minorNum extra table _ :=
    fillMountInfo_read hcontent hfile hsize hmajor hminor hdevice
  generalize fillMountInfo status (.ok file) true (devNumber majorNum minorNum) device = after at hread
  constructor
  · intro h
    have hpoints := hread.mountPoints.symm.trans h.mountPoints
    refine ⟨hpoints, ?_, ?_⟩
    · have htype := hread.filesystem.symm.trans h.filesystem
      have hnone := shown_nil hpoints
      cases hfound : found status majorNum minorNum extra table with
      | nil =>
        rw [hnone.mp hfound]
        rfl
      | cons shown rest =>
        have hsome := mt hnone.mpr (hfound ▸ List.cons_ne_nil shown rest)
        obtain ⟨mount, others, hmatch⟩ := List.exists_cons_of_ne_nil hsome
        rw [hfound, hmatch] at htype
        rw [hmatch]
        exact congrArg some htype
    · intro shown hroot
      have hpath := hread.volumePath
      rw [hroot] at hpath
      have hpath' : after.volumePath = (stem .posix (decoded shown.mountPointField)).take 511 := hpath
      rcases h.volumePath with hempty | ⟨mount, hmount, hwhole⟩
      · rw [hpath'] at hempty
        exact absurd hempty (by simpa using stem_ne_nil (decoded shown.mountPointField))
      · exact ⟨mount, hmount, hpath'.symm.trans hwhole⟩
  · intro h
    refine ⟨hread.mountPoints.trans h.mountPoints, ?_, ?_⟩
    · rw [hread.filesystem, h.filesystem]
    · cases hroot : foundRoot status majorNum minorNum extra table with
      | none =>
        refine .inl ?_
        rw [hread.volumePath, hroot]
        rfl
      | some shown =>
        obtain ⟨mount, hmount, hpath⟩ := h.volumePath shown hroot
        refine .inr ⟨mount, hmount, ?_⟩
        rw [hread.volumePath, hroot, ← hpath]
        rfl

lemma found_of_short (hsource : ∀ mount ∈ table, (mount.sourceField extra).length < linuxPathMax) :
    found status majorNum minorNum extra table = matching status majorNum minorNum table := by
  have hreserved : backslash ∈ mangled ++ extra := List.mem_append_left _ (by decide)
  refine List.filter_congr fun mount hmount => ?_
  rw [Mount.sourceField, decoded_escapeField hreserved mount.source_text (hsource mount hmount)]

/-- Where every source and mount point fits the buffers of 4096 bytes, a type and a directory's
path are all that can be too long. -/
theorem fits_of_short
    (hsource : ∀ mount ∈ table, (mount.sourceField extra).length < linuxPathMax)
    (hpoint : ∀ mount ∈ table, mount.mountPointField.length < linuxPathMax) :
    Fits status majorNum minorNum extra table ↔
      (∀ mount, (matching status majorNum minorNum table).head? = some mount →
        mount.fstype.length < fsNameMax) ∧
      ∀ mount, rootMount status majorNum minorNum table = some mount →
        (stem .posix mount.mountPoint).length < volumePathMax := by
  have hfound : found status majorNum minorNum extra table = matching status majorNum minorNum table :=
    found_of_short hsource
  have hwhole : ∀ mount ∈ table, decoded mount.mountPointField = mount.mountPoint :=
    fun mount hmount => decoded_escapeField (by decide) mount.mountPoint_path.2 (hpoint mount hmount)
  have hroot : foundRoot status majorNum minorNum extra table =
      rootMount status majorNum minorNum table := by
    rw [foundRoot, rootMount, hfound]
    refine List.find?_congr fun mount hmount => ?_
    rw [hwhole mount (List.mem_of_mem_filter hmount)]
  have hmem : ∀ mount, rootMount status majorNum minorNum table = some mount → mount ∈ table :=
    fun mount hmount => List.mem_of_mem_filter (List.mem_of_find?_eq_some hmount)
  have hcut : ∀ {path : Bytes} {cap : ℕ}, 0 < cap → (path.take (cap - 1) = path ↔ path.length < cap) := by
    intro path cap hcap
    rw [List.take_eq_self_iff]
    omega
  constructor
  · intro h
    refine ⟨?_, ?_⟩
    · intro mount hmount
      have htype := h.filesystem
      rw [hfound, hmount] at htype
      exact (hcut (by decide)).mp (Option.some.inj htype)
    · intro mount hmount
      obtain ⟨other, hother, hpath⟩ := h.volumePath mount (hroot.trans hmount)
      obtain rfl := Option.some.inj (hmount.symm.trans hother)
      rw [hwhole mount (hmem mount hmount)] at hpath
      exact (hcut (by decide)).mp hpath
  · rintro ⟨htype, hpath⟩
    refine ⟨by rw [hfound], ?_, ?_⟩
    · rw [hfound]
      cases hhead : (matching status majorNum minorNum table).head? with
      | none => rfl
      | some mount => exact congrArg some ((hcut (by decide)).mpr (htype mount hhead))
    · intro shown hshown
      rw [hroot] at hshown
      refine ⟨shown, hshown, ?_⟩
      rw [hwhole shown (hmem shown hshown)]
      exact (hcut (by decide)).mpr (hpath shown hshown)

end Loop

/-! ### A stick and a deep directory -/

/-- A mount of a stick, by a helper whose own device number the table shows. -/
def stickMount : Mount where
  id := ascii "36"
  parent := ascii "28"
  devId := ascii "0:50"
  root := ascii "/"
  mountPoint := ascii "/media/My Drive"
  options := ascii "rw,nosuid"
  tags := [ascii "shared:1"]
  fstype := ascii "fuseblk"
  source := ascii "/dev/sdb1"
  superOptions := ascii "rw,user_id=0"
  fields_plain := by decide
  mountPoint_path := by decide
  source_text := by decide
  tags_end := by decide
  superOptions_start := by decide

def stickStatus : FileStatus where
  stat path :=
    if path = ascii "/dev/sdb1" then some (.blockDevice 8 17)
    else if path = ascii "/media/My Drive" then some .directory
    else none
  statvfs _ := none

theorem fillMountInfo_stick : Filled stickStatus 8 17 [stickMount]
    (fillMountInfo stickStatus (.ok { content := mountTable [] [stickMount] }) true
      (devNumber 8 17) blankDevice) := by
  have hsize : (mountTable [] [stickMount]).length < mountinfoCap := by decide +kernel
  have hcontent : ({ content := mountTable [] [stickMount] } : FileStream).content =
      mountTable [] [stickMount] := rfl
  refine (fillMountInfo_filled hcontent rfl hsize (by decide) (by decide)
    ⟨rfl, rfl, rfl⟩).mpr ?_
  refine (fits_of_short (by decide +kernel) (by decide +kernel)).mpr ⟨?_, ?_⟩
  · intro mount hmount
    have hfirst : (matching stickStatus 8 17 [stickMount]).head? = some stickMount := by
      decide +kernel
    obtain rfl := Option.some.inj (hfirst.symm.trans hmount)
    decide +kernel
  · intro mount hmount
    have hfirst : rootMount stickStatus 8 17 [stickMount] = some stickMount := by
      decide +kernel
    obtain rfl := Option.some.inj (hfirst.symm.trans hmount)
    decide +kernel

/-- Two names of the greatest length. -/
def deepPath : Bytes := slash :: List.replicate 255 97 ++ slash :: List.replicate 255 98

def deepMount : Mount :=
  { stickMount with
    devId := devNumber 8 17
    mountPoint := deepPath
    fields_plain := by decide
    mountPoint_path := by decide +kernel }

def deepStatus : FileStatus where
  stat path := if path = deepPath then some .directory else none
  statvfs _ := none

/-- The path of the deep directory is cut. -/
theorem fillMountInfo_cut :
    ¬∀ (status : FileStatus) (majorNum minorNum : ℕ) (extra : Bytes) (table : List Mount)
      (file : FileStream) (device : Device), file.content = mountTable extra table →
      file.failAt = none → file.content.length < mountinfoCap → majorNum < 2 ^ 32 →
      minorNum < 2 ^ 32 → Unmounted device →
      Filled status majorNum minorNum table
        (fillMountInfo status (.ok file) true (devNumber majorNum minorNum) device) := by
  intro hall
  have hsize : (mountTable [] [deepMount]).length < mountinfoCap := by decide +kernel
  have hblank : Unmounted blankDevice := ⟨rfl, rfl, rfl⟩
  have hfilled := hall deepStatus 8 17 [] [deepMount] { content := mountTable [] [deepMount] }
    blankDevice rfl rfl hsize (by decide) (by decide) hblank
  have hread : Read deepStatus 8 17 [] [deepMount] (fillMountInfo deepStatus
      (.ok { content := mountTable [] [deepMount] }) true (devNumber 8 17) blankDevice) :=
    fillMountInfo_read rfl rfl hsize (by decide) (by decide) hblank
  have hpath := hread.volumePath
  have hshown : foundRoot deepStatus 8 17 [] [deepMount] = some deepMount := by
    decide +kernel
  rcases hfilled.volumePath with hempty | ⟨mount, hmount, hwhole⟩
  · rw [hempty, hshown] at hpath
    revert hpath
    decide +kernel
  · have hroot : rootMount deepStatus 8 17 [deepMount] = some deepMount := by
      decide +kernel
    obtain rfl := Option.some.inj (hroot.symm.trans hmount)
    rw [hwhole, hshown] at hpath
    revert hpath
    decide +kernel

end UsbSentinel.DeviceLinux
