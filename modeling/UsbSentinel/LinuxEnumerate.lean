import UsbSentinel.MountTable
import UsbSentinel.ScanResult
import UsbSentinel.UnescapeNames

/-! The list of block devices of sysfs, and the volumes among them: every partition, and every
disk without one, each with what sysfs, the mount table and udev say of it. -/
namespace UsbSentinel.DeviceLinux
open ByteString UsbSentinel.Path

def labelMax : ℕ := 128

/-- What the system answers. The names of a directory are those up to the end of its listing or to
the first error; memory for the mount table is asked for once a device. -/
structure Kernel where
  sysfs : Sysfs
  status : FileStatus
  readdir : Bytes → Except Status (List Bytes)
  dirOpen : Bytes → Except Status Listing
  realpath : Bytes → Option Bytes
  mountinfo : Except Status FileStream
  malloc : Bytes → Bool

variable (kernel : Kernel)

/-! ### One entry -/

/-- A text without a number in front has no value. -/
def readSysfsU64 (path : Bytes) : Option UInt64 :=
  match readSysfsString kernel.sysfs path 32 with
  | .error _ => none
  | .ok text => if (scanUnsigned text).isSome then some (SignatureList.strtoull text).1 else none

def isPartitionEntry (entryDir : Bytes) : Bool :=
  match pathJoin .posix linuxPathMax entryDir (ascii "partition") with
  | .error _ => false
  | .ok path => attrFileExists kernel.sysfs path

def diskHasPartitionChildren (entryDir : Bytes) : Bool :=
  match kernel.dirOpen entryDir with
  | .error _ => false
  | .ok listing =>
    listing.entries.any fun child =>
      child.isDirectory &&
        match pathJoin .posix linuxPathMax entryDir child.name with
        | .error _ => false
        | .ok childPath => isPartitionEntry kernel childPath

def wholeDiskDir (entryDir : Bytes) (ownPartition : Bool) : Except Status Bytes :=
  if ownPartition then pathJoin .posix linuxPathMax entryDir (ascii "..")
  else if entryDir.length ≥ linuxPathMax then .error .noMemory
  else .ok entryDir

def fillCapacity (entryDir : Bytes) (device : Device) : Device :=
  match pathJoin .posix linuxPathMax entryDir (ascii "size") with
  | .error _ => device
  | .ok path =>
    match readSysfsU64 kernel path with
    | none => device
    | some sectors => { device with capacityBytes := sectors * 512 }

/-- The walk starts at the device of the whole disk. -/
def fillBus (entryDir : Bytes) (ownPartition : Bool) (device : Device) : Device :=
  match wholeDiskDir entryDir ownPartition with
  | .error _ => device
  | .ok diskDir =>
    match pathJoin .posix linuxPathMax diskDir (ascii "device") with
    | .error _ => device
    | .ok link =>
      match kernel.realpath link with
      | none => device
      | some resolved => usbWalkUp kernel.sysfs resolved device

/-- The entries of every directory that name the directory itself and the one above. -/
def isDots (name : Bytes) : Bool := name = ascii "." || name = ascii ".."

/-- The first link below "/dev/disk" that leads to the device. -/
def findDevDiskMatch (byDir devId : Bytes) : Option Bytes :=
  match scanDevId devId with
  | none => none
  | some (majorNum, minorNum) =>
    match pathJoin .posix linuxPathMax (ascii "/dev/disk") byDir with
    | .error _ => none
    | .ok byPath =>
      match kernel.readdir byPath with
      | .error _ => none
      | .ok names =>
        names.find? fun name =>
          !isDots name &&
            match pathJoin .posix linuxPathMax byPath name with
            | .error _ => false
            | .ok link => kernel.status.stat link = some (.blockDevice majorNum minorNum)

/-- What the number of the device leads to. -/
def fillByNumber (devId : Bytes) (device : Device) : Device :=
  let device := fillMountInfo kernel.status kernel.mountinfo (kernel.malloc devId) devId device
  { device with
    label :=
      match findDevDiskMatch kernel (ascii "by-label") devId with
      | none => device.label
      | some name => cstr (unescapeUdevName (cut labelMax name))
    mediaPresent :=
      device.mountPoints ≠ [] || (findDevDiskMatch kernel (ascii "by-uuid") devId).isSome }

/-- The device of an entry that is a volume. -/
def handleBlockEntry (blockDir name : Bytes) (isDir : Bool) : Option Device :=
  if !isDir then none
  else
    match pathJoin .posix linuxPathMax blockDir name with
    | .error _ => none
    | .ok entryDir =>
      let ownPartition := isPartitionEntry kernel entryDir
      if !ownPartition && diskHasPartitionChildren kernel entryDir then none
      else
        let device := fillBus kernel entryDir ownPartition
          (fillCapacity kernel entryDir { volumePath := [], busType := .unknown })
        match pathJoin .posix linuxPathMax entryDir (ascii "dev") with
        | .error _ => some device
        | .ok path =>
          match readSysfsString kernel.sysfs path 32 with
          | .error _ => some device
          | .ok devId => some (fillByNumber kernel devId device)

/-! ### The listing -/

/-- The entries in turn, until a device finds no room. -/
def listClassBlock (grow : ℕ → Bool) (blockDir : Bytes) :
    List Bytes → GrowList Device → Status × GrowList Device
  | [], list => (.ok, list)
  | name :: rest, list =>
    if isDots name then listClassBlock grow blockDir rest list
    else
      match pathJoin .posix linuxPathMax blockDir name with
      | .error _ => listClassBlock grow blockDir rest list
      | .ok childPath =>
        let isDir : Bool := kernel.status.stat childPath = some .directory
        match handleBlockEntry kernel blockDir name isDir with
        | none => listClassBlock grow blockDir rest list
        | some device =>
          match list.push 8 grow device with
          | (.ok, list) => listClassBlock grow blockDir rest list
          | (e, list) => (e, list)

def linuxEnumerate (grow : ℕ → Bool) (sysfsRoot : Bytes) : Status × GrowList Device :=
  match pathJoin .posix linuxPathMax sysfsRoot (ascii "class/block") with
  | .error _ => (.invalidArg, {})
  | .ok blockDir =>
    match kernel.readdir blockDir with
    | .error e => (e, {})
    | .ok names => listClassBlock kernel grow blockDir names {}

/-- `usbs_device_enumerate` on this source: after an error the list is empty. -/
def deviceEnumerate (grow : ℕ → Bool) (sysfsRoot : Bytes) : Except Status (List Device) :=
  match linuxEnumerate kernel grow sysfsRoot with
  | (.ok, list) => .ok list.items
  | (e, _) => .error e

/-! ### The block layer -/

/-- A disk, or a partition on one. `up` are the directories of the device that carries the disk,
the lowest first; a disk may have no device. -/
structure BlockDevice where
  name : Bytes
  partitionOf : Option Bytes := none
  majorNum : ℕ
  minorNum : ℕ
  sectors : ℕ
  up : Option (List Bytes) := none
  deriving DecidableEq, Repr

def BlockDevice.dir (blockDir : Bytes) (b : BlockDevice) : Bytes := blockDir ++ slash :: b.name

/-- The directory that sysfs shows the device of the disk in. -/
def BlockDevice.diskDir (blockDir : Bytes) (b : BlockDevice) : Bytes :=
  if b.partitionOf.isSome then b.dir blockDir ++ slash :: ascii ".." else b.dir blockDir

/-- A partition, or a disk without one: what can carry a file system. -/
def IsVolume (layer : List BlockDevice) (b : BlockDevice) : Bool :=
  b.partitionOf.isSome || layer.all fun p => p.partitionOf ≠ some b.name

/-- An attribute of one line that can be read to its end. -/
def ShowsLine (sysfs : Sysfs) (path line : Bytes) : Prop :=
  ∃ file, sysfs.openRead path = .ok file ∧ file.failAt = none ∧ file.content = line ++ [newline]

/-- How sysfs shows one block device of a layer. -/
structure ShowsDevice (blockDir : Bytes) (layer : List BlockDevice) (b : BlockDevice) : Prop where
  name : IsName b.name ∧ isDots b.name = false
  short : (b.dir blockDir).length + 300 < linuxPathMax
  directory : kernel.status.stat (b.dir blockDir) = some .directory
  partition : attrFileExists kernel.sysfs (b.dir blockDir ++ slash :: ascii "partition") =
    b.partitionOf.isSome
  /-- Below a disk, the directories with that attribute are its partitions. -/
  children : b.partitionOf = none → ∃ listing, kernel.dirOpen (b.dir blockDir) = .ok listing ∧
    (∀ child ∈ listing.entries, child.isDirectory = true → IsName child.name ∧
      child.name.length < 256 ∧
      (attrFileExists kernel.sysfs
          (b.dir blockDir ++ slash :: child.name ++ slash :: ascii "partition") = true ↔
        ∃ p ∈ layer, p.partitionOf = some b.name ∧ p.name = child.name)) ∧
    ∀ p ∈ layer, p.partitionOf = some b.name →
      ∃ child ∈ listing.entries, child.isDirectory = true ∧ child.name = p.name
  size : ShowsLine kernel.sysfs (b.dir blockDir ++ slash :: ascii "size") (decimal b.sectors)
  dev : ShowsLine kernel.sysfs (b.dir blockDir ++ slash :: ascii "dev")
    (devNumber b.majorNum b.minorNum)
  numbers : b.majorNum < 2 ^ 32 ∧ b.minorNum < 2 ^ 32 ∧ b.sectors < 2 ^ 64
  device : kernel.realpath (b.diskDir blockDir ++ slash :: ascii "device") = b.up.map dirPath
  up : ∀ up ∈ b.up, up ≠ [] ∧ (∀ name ∈ up, IsName name) ∧ (dirPath up).length < linuxPathMax

/-- The kernel shows the block devices in this order, and this mount table. -/
structure Shows (sysfsRoot extra : Bytes) (layer : List BlockDevice) (table : List Mount) :
    Prop where
  root : sysfsRoot.getLast?.any (isSeparator .posix) = false ∧ sysfsRoot.length < 1024
  listed : ∃ names, kernel.readdir (sysfsRoot ++ slash :: ascii "class/block") = .ok names ∧
    names.filter (!isDots ·) = layer.map BlockDevice.name
  devices : ∀ b ∈ layer, ShowsDevice kernel (sysfsRoot ++ slash :: ascii "class/block") layer b
  mounts : ∃ file, kernel.mountinfo = .ok file ∧ file.content = mountTable extra table ∧
    file.failAt = none ∧ file.content.length < mountinfoCap
  memory : ∀ devId, kernel.malloc devId = true
  stat_refused : ∀ path kind, kernel.status.stat path = some kind → path.length < linuxPathMax

/-- The first link of a directory of udev that leads to the device. -/
def udevLink (byDir : Bytes) (b : BlockDevice) : Option Bytes :=
  match kernel.readdir (ascii "/dev/disk/" ++ byDir) with
  | .error _ => none
  | .ok names =>
    names.find? fun name => !isDots name &&
      (kernel.status.stat (ascii "/dev/disk/" ++ byDir ++ slash :: name) =
        some (.blockDevice b.majorNum b.minorNum) : Bool)

/-- The device that is listed for a block device. -/
structure Describes (extra : Bytes) (table : List Mount) (b : BlockDevice) (device : Device) :
    Prop where
  capacity : device.capacityBytes = b.sectors.toUInt64 * 512
  busType : device.busType = .usb ↔
    ∃ up ∈ b.up, ∃ dir ∈ (ancestors up).take 12, IsUsbDevice kernel.sysfs dir
  known : device.busType = .usb ∨ device.busType = .unknown
  ids : ∀ up ∈ b.up, ∀ dir, Nearest kernel.sysfs up dir →
    device.usbVid = (attrText kernel.sysfs dir "idVendor" 16).take 4 ∧
      device.usbPid = (attrText kernel.sysfs dir "idProduct" 16).take 4 ∧
      device.vendor = attrText kernel.sysfs dir "manufacturer" idStrMax ∧
      device.product = attrText kernel.sysfs dir "product" idStrMax ∧
      device.serial = attrText kernel.sysfs dir "serial" idStrMax
  mounts : Read kernel.status b.majorNum b.minorNum extra table device
  label : ∀ upper others text, 0 ∉ text →
    udevLink kernel (ascii "by-label") b = some (escapeUdevName upper others text) →
    (escapeUdevName upper others text).length < labelMax → device.label = text
  media : device.mediaPresent = true ↔
    found kernel.status b.majorNum b.minorNum extra table ≠ [] ∨
      udevLink kernel (ascii "by-uuid") b ≠ none

/-! ### Paths and attributes -/

lemma unended_name {name : Bytes} (h : IsName name) (base : Bytes) :
    (base ++ slash :: name).getLast?.any (isSeparator .posix) = false := by
  obtain ⟨front, last, rfl⟩ := (List.eq_nil_or_concat name).resolve_left h.1
  have hlast : last ≠ slash := fun heq => h.2 (by simp [heq])
  have hend : base ++ slash :: List.concat front last = (base ++ slash :: front) ++ [last] := by
    simp
  rw [hend, List.getLast?_concat]
  simp [isSeparator, hlast]

lemma pathJoin_ok {dir : Bytes} (hdir : dir.getLast?.any (isSeparator .posix) = false)
    {leaf : Bytes} (hlength : dir.length + leaf.length + 1 < linuxPathMax) :
    pathJoin .posix linuxPathMax dir leaf = .ok (dir ++ slash :: leaf) := by
  have hjoined := joined_unended hdir leaf
  refine pathJoin_eq_ok.mpr ⟨hjoined.symm, ?_⟩
  rw [hjoined, List.length_append, List.length_cons]
  omega

lemma trimmed_line {line : Bytes} (h : ∀ c ∈ line, 32 < c) : trimmed (line ++ [newline]) = line := by
  unfold trimmed
  rw [List.rdropWhile_concat_pos _ _ _ (by decide)]
  rcases List.eq_nil_or_concat line with rfl | ⟨front, last, rfl⟩
  · rfl
  · have hlast : ¬ last ≤ 32 := by
      have hlarge := h last (by simp)
      simpa using hlarge
    rw [List.concat_eq_append, List.rdropWhile_concat_neg _ _ _ (by simpa using hlast)]

variable {kernel : Kernel}

/-- An attribute of printable bytes is read without its line end. -/
lemma readSysfsString_line {sysfs : Sysfs} {path line : Bytes} (h : ShowsLine sysfs path line)
    (hline : ∀ c ∈ line, 32 < c) {cap : ℕ} (hcap : line.length + 1 < cap) :
    readSysfsString sysfs path cap = .ok line := by
  obtain ⟨file, hopen, hfile, hcontent⟩ := h
  have hread : (readCapped (cap - 1) file).1 = line ++ [newline] := by
    rw [readCapped_sound hfile, hcontent, List.take_of_length_le]
    rw [List.length_append, List.length_singleton]
    omega
  have htext : 0 ∉ line := fun hmem => absurd (hline 0 hmem) (by decide)
  simp only [readSysfsString, hopen, hread, trimmed_line hline, cstr_eq_self htext]

lemma decimal_printable {n : ℕ} {c : UInt8} (h : c ∈ decimal n) : 32 < c := by
  exact UInt8.lt_of_lt_of_le (by decide) (decimal_digit h).1

lemma devNumber_printable {majorNum minorNum : ℕ} : ∀ c ∈ devNumber majorNum minorNum, 32 < c := by
  intro c hc
  rcases List.mem_append.mp hc with hc | hc
  · exact decimal_printable hc
  · rcases List.mem_cons.mp hc with rfl | hc
    · decide
    · exact decimal_printable hc

lemma devNumber_length {majorNum minorNum : ℕ} (hmajor : majorNum < 2 ^ 32)
    (hminor : minorNum < 2 ^ 32) : (devNumber majorNum minorNum).length ≤ 21 := by
  have hdigits : ∀ {n : ℕ}, n < 2 ^ 32 → (decimal n).length ≤ 10 := by
    intro n hn
    rw [decimal, List.length_map]
    exact Nat.toDigits_length 10 n 10 (by omega) (by omega)
  have h1 := hdigits hmajor
  have h2 := hdigits hminor
  rw [devNumber, List.length_append, List.length_cons]
  omega

lemma readSysfsU64_decimal {path : Bytes} {n : ℕ}
    (h : ShowsLine kernel.sysfs path (decimal n)) (hn : n < 2 ^ 64) :
    readSysfsU64 kernel path = some n.toUInt64 := by
  have hdigits : ∀ c ∈ decimal n, SignatureList.isDecimal c = true := fun _ hc =>
    isDecimal_decimal hc
  have hlength := decimal_length (n := n) (by omega)
  have hvalue : SignatureList.decimalValue (decimal n) = n := foldl_decimal n
  obtain ⟨_, hscan⟩ := scanUnsigned_digits (decimal_ne_nil n) hdigits
  have hnumber := (SignatureList.strtoull_plain (decimal_ne_nil n) hdigits (by rwa [hvalue])).2
  simp only [readSysfsU64, readSysfsString_line h (fun c hc => decimal_printable hc)
    (show (decimal n).length + 1 < 32 by omega), hscan, Option.isSome_some, if_true]
  refine congrArg some (UInt64.toNat_inj.mp ?_)
  rw [hnumber, hvalue]
  exact (UInt64.toNat_ofNat_of_lt' hn).symm

section Entry
variable {blockDir : Bytes} {layer : List BlockDevice} {b : BlockDevice}

lemma ShowsDevice.unended (h : ShowsDevice kernel blockDir layer b) :
    (b.dir blockDir).getLast?.any (isSeparator .posix) = false :=
  unended_name h.name.1 blockDir

/-- Joining an attribute of at most 200 bytes. -/
lemma ShowsDevice.join (h : ShowsDevice kernel blockDir layer b) {leaf : Bytes}
    (hleaf : leaf.length ≤ 256) : pathJoin .posix linuxPathMax (b.dir blockDir) leaf =
      .ok (b.dir blockDir ++ slash :: leaf) :=
  pathJoin_ok h.unended (by have := h.short; omega)

lemma ShowsDevice.isPartitionEntry_eq (h : ShowsDevice kernel blockDir layer b) :
    isPartitionEntry kernel (b.dir blockDir) = b.partitionOf.isSome := by
  rw [isPartitionEntry, h.join (by simp [ascii])]
  exact h.partition

lemma ShowsDevice.hasPartitions (h : ShowsDevice kernel blockDir layer b)
    (hdisk : b.partitionOf = none) : diskHasPartitionChildren kernel (b.dir blockDir) =
      layer.any fun p => p.partitionOf = some b.name := by
  obtain ⟨listing, hopen, hchildren, hlisted⟩ := h.children hdisk
  have hchild : ∀ child ∈ listing.entries, child.isDirectory = true →
      (match pathJoin .posix linuxPathMax (b.dir blockDir) child.name with
        | .error _ => false
        | .ok childPath => isPartitionEntry kernel childPath) =
      decide (∃ p ∈ layer, p.partitionOf = some b.name ∧ p.name = child.name) := by
    intro child hmem hdir
    obtain ⟨hname, hlength, hattr⟩ := hchildren child hmem hdir
    have hshort := h.short
    have hjoin : pathJoin .posix linuxPathMax (b.dir blockDir ++ slash :: child.name)
        (ascii "partition") = .ok (b.dir blockDir ++ slash :: child.name ++
          slash :: ascii "partition") := by
      refine pathJoin_ok (unended_name hname _) ?_
      simp only [List.length_append, List.length_cons, show (ascii "partition").length = 9 from rfl]
      omega
    rw [h.join hlength.le]
    simp only [isPartitionEntry, hjoin]
    rw [Bool.eq_iff_iff, hattr, decide_eq_true_eq]
  rw [diskHasPartitionChildren, hopen, Bool.eq_iff_iff, List.any_eq_true, List.any_eq_true]
  constructor
  · rintro ⟨child, hmem, hfound⟩
    rw [Bool.and_eq_true] at hfound
    rw [hchild child hmem hfound.1, decide_eq_true_eq] at hfound
    obtain ⟨p, hp, hof, _⟩ := hfound.2
    exact ⟨p, hp, decide_eq_true hof⟩
  · rintro ⟨p, hp, hof⟩
    obtain ⟨child, hmem, hdir, hname⟩ := hlisted p hp (of_decide_eq_true hof)
    refine ⟨child, hmem, ?_⟩
    rw [Bool.and_eq_true, hchild child hmem hdir, decide_eq_true_eq]
    exact ⟨hdir, p, hp, of_decide_eq_true hof, hname.symm⟩

end Entry

/-- What the mount table can change of a device. -/
def MountsOnly (before after : Device) : Prop :=
  after = { before with
    mountPoints := after.mountPoints
    volumePath := after.volumePath
    filesystem := after.filesystem
    freeBytes := after.freeBytes }

lemma MountsOnly.trans {a b c : Device} (hab : MountsOnly a b) (hbc : MountsOnly b c) :
    MountsOnly a c := by
  unfold MountsOnly at hab hbc ⊢
  rw [hab] at hbc
  exact hbc

lemma takeLine_mountsOnly (status : FileStatus) (devId line : Bytes) (device : Device) :
    MountsOnly device (takeLine status devId device line) := by
  unfold takeLine
  cases parseMountLine line with
  | none => rfl
  | some line =>
    simp only
    split_ifs
    · rfl
    · rfl

lemma fillMountInfo_mountsOnly (status : FileStatus) (mountinfo : Except Status FileStream)
    (malloc : Bool) (devId : Bytes) (device : Device) :
    MountsOnly device (fillMountInfo status mountinfo malloc devId device) := by
  have hlines : ∀ lines : List Bytes, ∀ device : Device,
      MountsOnly device (lines.foldl (takeLine status devId) device) := by
    intro lines
    induction lines with
    | nil => exact fun _ => rfl
    | cons line lines ih =>
      exact fun device => (takeLine_mountsOnly status devId line device).trans (ih _)
  have hfree : ∀ device : Device, MountsOnly device (fillFreeBytes status device) := by
    intro device
    unfold fillFreeBytes
    split_ifs
    · rfl
    · split
      · rfl
      · rfl
  unfold fillMountInfo
  split
  · rfl
  · split_ifs
    · exact (hlines _ device).trans (hfree _)
    · rfl

section Volume
variable {sysfsRoot blockDir extra : Bytes} {layer : List BlockDevice} {table : List Mount}
  {b : BlockDevice}

lemma ShowsDevice.fillCapacity_eq (h : ShowsDevice kernel blockDir layer b) (device : Device) :
    fillCapacity kernel (b.dir blockDir) device =
      { device with capacityBytes := b.sectors.toUInt64 * 512 } := by
  rw [fillCapacity, h.join (by simp [ascii])]
  simp only [readSysfsU64_decimal h.size h.numbers.2.2]

lemma ShowsDevice.fillBus_eq (h : ShowsDevice kernel blockDir layer b) (device : Device) :
    fillBus kernel (b.dir blockDir) b.partitionOf.isSome device =
      match b.up with
      | none => device
      | some up => usbWalkUp kernel.sysfs (dirPath up) device := by
  have hshort := h.short
  have hdisk : wholeDiskDir (b.dir blockDir) b.partitionOf.isSome = .ok (b.diskDir blockDir) := by
    unfold wholeDiskDir BlockDevice.diskDir
    split_ifs
    · exact h.join (by simp [ascii])
    · omega
    · rfl
  have hlink : pathJoin .posix linuxPathMax (b.diskDir blockDir) (ascii "device") =
      .ok (b.diskDir blockDir ++ slash :: ascii "device") := by
    have hdots : IsName (ascii "..") := by decide
    unfold BlockDevice.diskDir
    split_ifs
    · refine pathJoin_ok (unended_name hdots _) ?_
      simp only [List.length_append, List.length_cons, show (ascii "..").length = 2 from rfl,
        show (ascii "device").length = 6 from rfl]
      omega
    · exact h.join (by simp [ascii])
  simp only [fillBus, hdisk, hlink, h.device]
  cases b.up with
  | none => rfl
  | some up => rfl

/-- The search among the links of udev finds the first one that leads to the device. -/
lemma findDevDiskMatch_link (hstat : ∀ path kind, kernel.status.stat path = some kind →
      path.length < linuxPathMax) (hmajor : b.majorNum < 2 ^ 32) (hminor : b.minorNum < 2 ^ 32)
    {byDir : Bytes} (hby : IsName byDir) (hlength : byDir.length < 100) :
    findDevDiskMatch kernel byDir (devNumber b.majorNum b.minorNum) =
      udevLink kernel byDir b := by
  have hdisk : (ascii "/dev/disk").getLast?.any (isSeparator .posix) = false := by decide
  have hpath : ascii "/dev/disk" ++ slash :: byDir = ascii "/dev/disk/" ++ byDir := by
    simp [ascii, slash]
  have hjoin : pathJoin .posix linuxPathMax (ascii "/dev/disk") byDir =
      .ok (ascii "/dev/disk/" ++ byDir) := by
    rw [pathJoin_ok hdisk, hpath]
    simp only [show (ascii "/dev/disk").length = 9 from rfl, linuxPathMax]
    omega
  have hended : (ascii "/dev/disk/" ++ byDir).getLast?.any (isSeparator .posix) = false := by
    rw [← hpath]
    exact unended_name hby _
  rw [findDevDiskMatch, scanDevId_devNumber hmajor hminor]
  simp only [hjoin, udevLink]
  cases kernel.readdir (ascii "/dev/disk/" ++ byDir) with
  | error e => rfl
  | ok names =>
    refine congrArg (List.find? · names) (funext fun name => congrArg (!isDots name && ·) ?_)
    have hjoined := joined_unended hended name
    cases hlink : pathJoin .posix linuxPathMax (ascii "/dev/disk/" ++ byDir) name with
    | error e =>
      have hlong := le_joined_of_error hlink
      rw [hjoined] at hlong
      refine (decide_eq_false fun hsome => ?_).symm
      have hrefused := hstat _ _ hsome
      omega
    | ok link =>
      obtain ⟨rfl, _⟩ := pathJoin_eq_ok.mp hlink
      rw [hjoined]

/-- What the walk finds of a device, and that it leaves the rest alone. -/
structure Walked (kernel : Kernel) (b : BlockDevice) (before after : Device) : Prop where
  busType : after.busType = .usb ↔
    ∃ up ∈ b.up, ∃ dir ∈ (ancestors up).take 12, IsUsbDevice kernel.sysfs dir
  known : after.busType = .usb ∨ after.busType = .unknown
  ids : ∀ up ∈ b.up, ∀ dir, Nearest kernel.sysfs up dir →
    after.usbVid = (attrText kernel.sysfs dir "idVendor" 16).take 4 ∧
      after.usbPid = (attrText kernel.sysfs dir "idProduct" 16).take 4 ∧
      after.vendor = attrText kernel.sysfs dir "manufacturer" idStrMax ∧
      after.product = attrText kernel.sysfs dir "product" idStrMax ∧
      after.serial = attrText kernel.sysfs dir "serial" idStrMax
  kept : after = { before with
    busType := after.busType
    usbVid := after.usbVid
    usbPid := after.usbPid
    vendor := after.vendor
    product := after.product
    serial := after.serial }

lemma ShowsDevice.walked (h : ShowsDevice kernel blockDir layer b) {device : Device}
    (hdevice : Unclassified device) : Walked kernel b device
      (fillBus kernel (b.dir blockDir) b.partitionOf.isSome device) := by
  rw [h.fillBus_eq]
  cases hup : b.up with
  | none =>
    refine ⟨?_, .inr hdevice.busType, ?_, rfl⟩
    · simp [hdevice.busType, hup]
    · simp [hup]
  | some up =>
    obtain ⟨hne, hnames, hlength⟩ := h.up up hup
    have hself : ∀ {P : List Bytes → Prop}, (∃ u ∈ b.up, P u) ↔ P up := by
      intro P
      simp [hup]
    by_cases hfound : ∃ dir ∈ (ancestors up).take 12, IsUsbDevice kernel.sysfs dir
    · obtain ⟨dir, hnearest⟩ := exists_nearest hnames hfound
      simp only
      rw [usbWalkUp_nearest hne hnames hlength hdevice hnearest]
      refine ⟨iff_of_true rfl (hself.mpr hfound), .inl rfl, fun u hu other hother => ?_, rfl⟩
      obtain rfl := Option.some.inj (hup.symm.trans hu)
      rw [hnearest.unique hnames hother]
      exact ⟨rfl, rfl, rfl, rfl, rfl⟩
    · have hnone : ∀ dir ∈ (ancestors up).take 12, ¬IsUsbDevice kernel.sysfs dir :=
        fun dir hdir husb => hfound ⟨dir, hdir, husb⟩
      simp only
      rw [usbWalkUp_none hne hnames hlength device hnone]
      refine ⟨?_, .inr hdevice.busType, fun u hu dir hnearest => ?_, rfl⟩
      · rw [hdevice.busType, hself]
        exact iff_of_false nofun hfound
      · obtain rfl := Option.some.inj (hup.symm.trans hu)
        exact absurd hnearest.isUsbDevice (hnone dir hnearest.mem)

lemma shown_ne_nil {mounts : List Mount} {shown : List Bytes}
    (h : shown = (mounts.take 4).map fun mount => mount.mountPoint.take 511) :
    shown ≠ [] ↔ mounts ≠ [] := by
  rw [h]
  simp

lemma Shows.describes (h : Shows kernel sysfsRoot extra layer table) (hb : b ∈ layer)
    (hblock : blockDir = sysfsRoot ++ slash :: ascii "class/block") :
    Describes kernel extra table b (fillByNumber kernel (devNumber b.majorNum b.minorNum)
      (fillBus kernel (b.dir blockDir) b.partitionOf.isSome (fillCapacity kernel (b.dir blockDir)
        { volumePath := [], busType := .unknown }))) := by
  have hshown : ShowsDevice kernel blockDir layer b := hblock ▸ h.devices b hb
  obtain ⟨hmajor, hminor, _⟩ := hshown.numbers
  obtain ⟨file, hopen, hcontent, hfile, hsize⟩ := h.mounts
  have hlabel := findDevDiskMatch_link h.stat_refused hmajor hminor
    (show IsName (ascii "by-label") by decide) (by simp [ascii])
  have huuid := findDevDiskMatch_link h.stat_refused hmajor hminor
    (show IsName (ascii "by-uuid") by decide) (by simp [ascii])
  have hbare : Unclassified
      { volumePath := []
        busType := .unknown
        capacityBytes := b.sectors.toUInt64 * 512 } := ⟨rfl, rfl, rfl, rfl, rfl, rfl⟩
  have hwalked := hshown.walked hbare
  rw [hshown.fillCapacity_eq]
  generalize fillBus kernel (b.dir blockDir) b.partitionOf.isSome _ = walked at hwalked ⊢
  have hunmounted : Unmounted walked := by
    rw [hwalked.kept]
    exact ⟨rfl, rfl, rfl⟩
  have hread : Read kernel.status b.majorNum b.minorNum extra table _ :=
    fillMountInfo_read hcontent hfile hsize hmajor hminor hunmounted
  have honly := fillMountInfo_mountsOnly kernel.status kernel.mountinfo
    (kernel.malloc (devNumber b.majorNum b.minorNum)) (devNumber b.majorNum b.minorNum) walked
  rw [fillByNumber, hlabel, huuid]
  rw [hopen, h.memory] at honly ⊢
  generalize fillMountInfo kernel.status (.ok file) true (devNumber b.majorNum b.minorNum) walked =
    mounted at hread honly ⊢
  have hcapacity : mounted.capacityBytes = b.sectors.toUInt64 * 512 := by
    rw [honly, hwalked.kept]
  have hbus : mounted.busType = walked.busType := by rw [honly]
  refine ⟨hcapacity, ?_, ?_, fun up hup dir hnearest => ?_,
    ⟨hread.mountPoints, hread.filesystem, hread.volumePath⟩, ?_, ?_⟩
  · exact hbus ▸ hwalked.busType
  · exact hbus ▸ hwalked.known
  · have hids := hwalked.ids up hup dir hnearest
    rw [honly]
    exact hids
  · intro upper others text htext hlink hlength
    simp only [hlink]
    rw [cut_eq_self hlength, unescape_escapeUdevName, cstr_eq_self htext]
  · simp only [Bool.or_eq_true, decide_eq_true_eq, Option.isSome_iff_ne_none]
    exact or_congr_left (shown_ne_nil hread.mountPoints)

end Volume

/-! ### All entries -/

/-- The device that an entry of the listing becomes. -/
def listedDevice (kernel : Kernel) (blockDir name : Bytes) : Option Device :=
  match pathJoin .posix linuxPathMax blockDir name with
  | .error _ => none
  | .ok childPath =>
    handleBlockEntry kernel blockDir name (kernel.status.stat childPath = some .directory : Bool)

lemma listClassBlock_cons (grow : ℕ → Bool) (blockDir name : Bytes) (rest : List Bytes)
    (list : GrowList Device) : listClassBlock kernel grow blockDir (name :: rest) list =
      if isDots name then listClassBlock kernel grow blockDir rest list
      else
        match listedDevice kernel blockDir name with
        | none => listClassBlock kernel grow blockDir rest list
        | some device =>
          match list.push 8 grow device with
          | (.ok, list) => listClassBlock kernel grow blockDir rest list
          | (e, list) => (e, list) := by
  rw [listClassBlock, listedDevice]
  cases pathJoin .posix linuxPathMax blockDir name with
  | error e => rfl
  | ok childPath => rfl

lemma push_ok {grow : ℕ → Bool} {list list' : GrowList Device} {device : Device}
    (h : list.push 8 grow device = (.ok, list')) : list'.items = list.items ++ [device] := by
  unfold GrowList.push at h
  by_cases hfull : list.items.length = list.capacity
  · rw [if_pos hfull] at h
    generalize (if list.capacity = 0 then 8 else list.capacity * 2) = next at h
    simp only at h
    cases hgrow : grow next with
    | false =>
      rw [hgrow] at h
      cases (Prod.mk.inj h).1
    | true =>
      rw [hgrow] at h
      obtain rfl := (Prod.mk.inj h).2
      rfl
  · rw [if_neg hfull] at h
    obtain rfl := (Prod.mk.inj h).2
    rfl

/-- A listing that ends well has the device of every entry. -/
lemma listClassBlock_ok {grow : ℕ → Bool} {blockDir : Bytes} {names : List Bytes}
    {list list' : GrowList Device}
    (h : listClassBlock kernel grow blockDir names list = (.ok, list')) :
    list'.items = list.items ++
      (names.filter (!isDots ·)).filterMap (listedDevice kernel blockDir) := by
  induction names generalizing list with
  | nil =>
    obtain rfl := (Prod.mk.inj h).2
    simp
  | cons name rest ih =>
    rw [listClassBlock_cons] at h
    by_cases hdots : isDots name = true
    · rw [if_pos hdots] at h
      rw [ih h, List.filter_cons_of_neg (by simp [hdots])]
    · rw [if_neg hdots] at h
      rw [List.filter_cons_of_pos (by simp [hdots]), List.filterMap_cons]
      cases hlisted : listedDevice kernel blockDir name with
      | none =>
        rw [hlisted] at h
        exact ih h
      | some device =>
        rw [hlisted] at h
        cases hpush : list.push 8 grow device with
        | mk status pushed =>
          simp only [hpush] at h
          cases status with
          | ok =>
            rw [ih h, push_ok hpush]
            simp
          | _ => cases (Prod.mk.inj h).1

lemma push_granted {grow : ℕ → Bool} (hgrow : ∀ n, grow n = true) (list : GrowList Device)
    (device : Device) : (list.push 8 grow device).1 = .ok := by
  unfold GrowList.push
  split
  · rw [if_pos (hgrow _)]
  · rfl

lemma listClassBlock_granted {grow : ℕ → Bool} (hgrow : ∀ n, grow n = true) (blockDir : Bytes)
    (names : List Bytes) (list : GrowList Device) :
    (listClassBlock kernel grow blockDir names list).1 = .ok := by
  induction names generalizing list with
  | nil => rfl
  | cons name rest ih =>
    rw [listClassBlock_cons]
    split_ifs
    · exact ih list
    · cases listedDevice kernel blockDir name with
      | none => exact ih list
      | some device =>
        cases hpush : list.push 8 grow device with
        | mk status pushed =>
          obtain rfl : status = .ok := by
            rw [← push_granted hgrow list device, hpush]
          simp only [hpush]
          exact ih pushed

section Layer
variable {sysfsRoot extra : Bytes} {layer : List BlockDevice} {table : List Mount} {b : BlockDevice}

lemma classBlock_unended (sysfsRoot : Bytes) :
    (sysfsRoot ++ slash :: ascii "class/block").getLast?.any (isSeparator .posix) = false := by
  have hlast : (slash :: ascii "class/block").getLast? = some 107 := by decide
  rw [List.getLast?_append_of_ne_nil _ (List.cons_ne_nil _ _), hlast]
  rfl

/-- An entry is listed just if it is a volume. -/
lemma ShowsDevice.listedDevice_eq {blockDir : Bytes} (h : ShowsDevice kernel blockDir layer b)
    (hblock : blockDir.getLast?.any (isSeparator .posix) = false) :
    listedDevice kernel blockDir b.name =
      if IsVolume layer b then
        some (fillByNumber kernel (devNumber b.majorNum b.minorNum)
          (fillBus kernel (b.dir blockDir) b.partitionOf.isSome
            (fillCapacity kernel (b.dir blockDir) { volumePath := [], busType := .unknown })))
      else none := by
  have hshort := h.short
  obtain ⟨hmajor, hminor, _⟩ := h.numbers
  have hentry : pathJoin .posix linuxPathMax blockDir b.name = .ok (b.dir blockDir) := by
    refine pathJoin_ok hblock ?_
    rw [BlockDevice.dir, List.length_append, List.length_cons] at hshort
    omega
  have hdevId : readSysfsString kernel.sysfs (b.dir blockDir ++ slash :: ascii "dev") 32 =
      .ok (devNumber b.majorNum b.minorNum) := by
    have hlength := devNumber_length hmajor hminor
    exact readSysfsString_line h.dev devNumber_printable (by omega)
  have hskipped : (!isPartitionEntry kernel (b.dir blockDir) &&
      diskHasPartitionChildren kernel (b.dir blockDir)) = !IsVolume layer b := by
    rw [h.isPartitionEntry_eq, IsVolume]
    cases hdisk : b.partitionOf with
    | some disk => rfl
    | none =>
      rw [h.hasPartitions hdisk]
      simp [List.all_eq_not_any_not]
  simp only [listedDevice, hentry, handleBlockEntry, h.directory, decide_true, Bool.not_true,
    Bool.false_eq_true, if_false, hskipped]
  by_cases hvolume : IsVolume layer b = true
  · simp only [hvolume, Bool.not_true, Bool.false_eq_true, if_false, if_true,
      h.join (show (ascii "dev").length ≤ 256 by simp [ascii]), hdevId, h.isPartitionEntry_eq]
  · simp only [Bool.eq_false_iff.mpr hvolume, Bool.not_false, if_true, Bool.false_eq_true,
      if_false]

lemma forall₂_filterMap {α β : Type} {P : α → Bool} {f : α → Option β} {R : α → β → Prop}
    {l : List α} (h : ∀ a ∈ l, if P a then ∃ x, f a = some x ∧ R a x else f a = none) :
    List.Forall₂ R (l.filter P) (l.filterMap f) := by
  induction l with
  | nil => exact .nil
  | cons a l ih =>
    have hrest := ih fun x hx => h x (List.mem_cons_of_mem _ hx)
    have hfirst := h a (List.mem_cons_self ..)
    by_cases ha : P a = true
    · rw [if_pos ha] at hfirst
      obtain ⟨x, hx, hR⟩ := hfirst
      rw [List.filter_cons_of_pos ha, List.filterMap_cons_some hx]
      exact .cons hR hrest
    · rw [if_neg ha] at hfirst
      rw [List.filter_cons_of_neg ha, List.filterMap_cons_none hfirst]
      exact hrest

/-- The enumeration goes over the entries of the block class. -/
lemma Shows.linuxEnumerate_eq (h : Shows kernel sysfsRoot extra layer table) (grow : ℕ → Bool) :
    ∃ names, names.filter (!isDots ·) = layer.map BlockDevice.name ∧
      linuxEnumerate kernel grow sysfsRoot =
        listClassBlock kernel grow (sysfsRoot ++ slash :: ascii "class/block") names {} := by
  obtain ⟨names, hnames, hlisted⟩ := h.listed
  have hjoin : pathJoin .posix linuxPathMax sysfsRoot (ascii "class/block") =
      .ok (sysfsRoot ++ slash :: ascii "class/block") := by
    refine pathJoin_ok h.root.1 ?_
    have hshort := h.root.2
    simp only [show (ascii "class/block").length = 11 from rfl, linuxPathMax]
    omega
  refine ⟨names, hlisted, ?_⟩
  simp only [linuxEnumerate, hjoin, hnames]

lemma Shows.enumerated (h : Shows kernel sysfsRoot extra layer table) {grow : ℕ → Bool}
    {devices : List Device} (hdevices : deviceEnumerate kernel grow sysfsRoot = .ok devices) :
    List.Forall₂ (Describes kernel extra table) (layer.filter (IsVolume layer)) devices := by
  obtain ⟨names, hlisted, hrun⟩ := h.linuxEnumerate_eq grow
  rw [deviceEnumerate, hrun] at hdevices
  split at hdevices
  · next list hlist =>
    obtain rfl := Except.ok.inj hdevices
    rw [listClassBlock_ok hlist, hlisted, List.filterMap_map, List.nil_append]
    refine forall₂_filterMap fun b hb => ?_
    have hentry := (h.devices b hb).listedDevice_eq (classBlock_unended sysfsRoot)
    by_cases hvolume : IsVolume layer b = true
    · rw [if_pos hvolume] at hentry ⊢
      exact ⟨_, hentry, h.describes hb rfl⟩
    · rw [if_neg hvolume] at hentry ⊢
      exact hentry
  · cases hdevices

lemma Shows.enumerates (h : Shows kernel sysfsRoot extra layer table) {grow : ℕ → Bool}
    (hgrow : ∀ n, grow n = true) :
    ∃ devices, deviceEnumerate kernel grow sysfsRoot = .ok devices := by
  obtain ⟨names, _, hrun⟩ := h.linuxEnumerate_eq grow
  have hok := @listClassBlock_granted kernel _ hgrow
    (sysfsRoot ++ slash :: ascii "class/block") names {}
  rw [deviceEnumerate, hrun]
  generalize listClassBlock kernel grow _ names {} = result at hok ⊢
  obtain ⟨status, list⟩ := result
  obtain rfl : status = .ok := hok
  exact ⟨list.items, rfl⟩

/-- What is enumerated are the volumes of the block layer, in the order of the listing, each
described as sysfs, the mount table and udev show it; with memory for the list the enumeration
succeeds. -/
theorem enumerate_volumes (h : Shows kernel sysfsRoot extra layer table) (grow : ℕ → Bool) :
    (∀ devices, deviceEnumerate kernel grow sysfsRoot = .ok devices →
      List.Forall₂ (Describes kernel extra table) (layer.filter (IsVolume layer)) devices) ∧
      ((∀ n, grow n = true) → ∃ devices, deviceEnumerate kernel grow sysfsRoot = .ok devices) :=
  ⟨fun _ => h.enumerated, h.enumerates⟩

end Layer

/-! ### A stick with one partition -/

def entriesOf (table : List (Bytes × Bytes)) (path : Bytes) : Option Bytes :=
  (table.find? fun entry => entry.1 = path).map Prod.snd

lemma entriesOf_short {table : List (Bytes × Bytes)}
    (h : ∀ entry ∈ table, entry.1.length < linuxPathMax) {path text : Bytes}
    (hentry : entriesOf table path = some text) : path.length < linuxPathMax := by
  obtain ⟨entry, hfound, _⟩ := Option.map_eq_some_iff.mp hentry
  have hpath := List.find?_some hfound
  rw [← of_decide_eq_true hpath]
  exact h entry (List.mem_of_find?_eq_some hfound)

def partedFiles : List (Bytes × Bytes) :=
  [(ascii "/sys/class/block/sdb/size", ascii "204800\n"),
    (ascii "/sys/class/block/sdb/dev", ascii "8:16\n"),
    (ascii "/sys/class/block/sdb/sdb1/partition", ascii "1\n"),
    (ascii "/sys/class/block/sdb1/partition", ascii "1\n"),
    (ascii "/sys/class/block/sdb1/size", ascii "102400\n"),
    (ascii "/sys/class/block/sdb1/dev", ascii "8:17\n"),
    (ascii "/sys/devices/usb1/1-2/idVendor", ascii "0781\n"),
    (ascii "/sys/devices/usb1/1-2/idProduct", ascii "5583\n")]

def partedLinks : List (Bytes × Bytes) :=
  [(ascii "/sys/devices/usb1/1-2/subsystem", ascii "../../../bus/usb")]

lemma parted_short : (∀ entry ∈ partedFiles, entry.1.length < linuxPathMax) ∧
    ∀ entry ∈ partedLinks, entry.1.length < linuxPathMax ∧ 0 ∉ entry.2 ∧
      entry.2.length < linuxPathMax := by
  decide +kernel

def partedSysfs : Sysfs where
  readlink := entriesOf partedLinks
  openRead path :=
    match entriesOf partedFiles path with
    | none => .error .notFound
    | some content => .ok { content }
  readlink_refused := entriesOf_short fun entry hentry => (parted_short.2 entry hentry).1
  openRead_refused h := by
    split at h
    · cases h
    · next hentry => exact entriesOf_short parted_short.1 hentry
  target_path h := by
    obtain ⟨entry, hfound, rfl⟩ := Option.map_eq_some_iff.mp h
    exact (parted_short.2 entry (List.mem_of_find?_eq_some hfound)).2

def partedUp : List Bytes := [ascii "host3", ascii "1-2", ascii "usb1", ascii "devices", ascii "sys"]

def partedChildren : Listing where
  entries :=
    [{ name := ascii "queue", isDirectory := true }, { name := ascii "sdb1", isDirectory := true }]

/-- The places that are there, besides the files and links of sysfs. -/
def partedPlaces : List (Bytes × FileKind) :=
  [(ascii "/sys/class/block/sdb", .directory), (ascii "/sys/class/block/sdb1", .directory),
    (ascii "/media/My Drive", .directory), (ascii "/dev/sdb1", .blockDevice 8 17),
    (ascii "/dev/disk/by-label/My\\x20Drive", .blockDevice 8 17),
    (ascii "/dev/disk/by-uuid/1234-ABCD", .blockDevice 8 17)]

def partedListings : List (Bytes × List Bytes) :=
  [(ascii "/sys/class/block", [ascii ".", ascii "..", ascii "sdb", ascii "sdb1"]),
    (ascii "/dev/disk/by-label", [ascii ".", ascii "..", ascii "My\\x20Drive"]),
    (ascii "/dev/disk/by-uuid", [ascii ".", ascii "..", ascii "1234-ABCD"])]

def partedKernel : Kernel where
  sysfs := partedSysfs
  status := {
    stat path := (partedPlaces.find? fun place => place.1 = path).map Prod.snd
    statvfs _ := some (1000, 512) }
  readdir path :=
    match partedListings.find? fun listing => listing.1 = path with
    | some listing => .ok listing.2
    | none => .error .notFound
  dirOpen path :=
    if path = ascii "/sys/class/block/sdb" then .ok partedChildren else .error .notFound
  realpath path :=
    if path = ascii "/sys/class/block/sdb/device" ∨
        path = ascii "/sys/class/block/sdb1/../device" then some (dirPath partedUp)
    else none
  mountinfo := .ok { content := mountTable [] [stickMount] }
  malloc _ := true

def partedDisk : BlockDevice where
  name := ascii "sdb"
  majorNum := 8
  minorNum := 16
  sectors := 204800
  up := some partedUp

def partedPart : BlockDevice where
  name := ascii "sdb1"
  partitionOf := some (ascii "sdb")
  majorNum := 8
  minorNum := 17
  sectors := 102400
  up := some partedUp

/-- Where the kernel shows the block devices. -/
def partedDir : Bytes := ascii "/sys" ++ slash :: ascii "class/block"

def partedAttr (b : BlockDevice) (leaf : String) : Bytes := b.dir partedDir ++ slash :: ascii leaf

/-- What the two entries show, attribute by attribute, and the links and the mount of the second. -/
lemma parted_facts :
    (partedDir = ascii "/sys/class/block" ∧
      partedDisk.dir partedDir = ascii "/sys/class/block/sdb" ∧
      partedPart.dir partedDir = ascii "/sys/class/block/sdb1") ∧
    (∀ b ∈ [partedDisk, partedPart], (IsName b.name ∧ isDots b.name = false) ∧
      (b.dir partedDir).length + 300 < linuxPathMax ∧
      partedKernel.status.stat (b.dir partedDir) = some .directory ∧
      attrFileExists partedSysfs (partedAttr b "partition") = b.partitionOf.isSome ∧
      entriesOf partedFiles (partedAttr b "size") = some (decimal b.sectors ++ [newline]) ∧
      entriesOf partedFiles (partedAttr b "dev") =
        some (devNumber b.majorNum b.minorNum ++ [newline]) ∧
      partedKernel.realpath (b.diskDir partedDir ++ slash :: ascii "device") =
        b.up.map dirPath) ∧
    (∀ child ∈ partedChildren.entries, IsName child.name ∧ child.name.length < 256 ∧
      (attrFileExists partedSysfs
          (partedDisk.dir partedDir ++ slash :: child.name ++ slash :: ascii "partition") = true ↔
        ∃ p ∈ [partedDisk, partedPart], p.partitionOf = some partedDisk.name ∧
          p.name = child.name)) ∧
    (∀ p ∈ [partedDisk, partedPart], p.partitionOf = some partedDisk.name →
      ∃ child ∈ partedChildren.entries, child.isDirectory = true ∧ child.name = p.name) ∧
    ([ascii ".", ascii "..", ascii "sdb", ascii "sdb1"].filter (!isDots ·) =
      [partedDisk, partedPart].map BlockDevice.name) ∧
    (partedUp ≠ [] ∧ (∀ name ∈ partedUp, IsName name) ∧
      (dirPath partedUp).length < linuxPathMax) ∧
    [partedDisk, partedPart].filter (IsVolume [partedDisk, partedPart]) = [partedPart] ∧
    (∀ place ∈ partedPlaces, place.1.length < linuxPathMax) ∧
    (mountTable [] [stickMount]).length < mountinfoCap ∧
    (found partedKernel.status 8 17 [] [stickMount]).map Mount.mountPoint =
      [ascii "/media/My Drive"] ∧
    udevLink partedKernel (ascii "by-label") partedPart =
      some (escapeUdevName false [32] (ascii "My Drive")) ∧
    udevLink partedKernel (ascii "by-uuid") partedPart = some (ascii "1234-ABCD") := by
  decide +kernel

lemma parted_shows : Shows partedKernel (ascii "/sys") [] [partedDisk, partedPart] [stickMount] := by
  obtain ⟨⟨hblock, hdisk, _⟩, hdevices, hchildren, hlisted, hnames, hup, _, hplaces, htable, _⟩ :=
    parted_facts
  have hline : ∀ path line, entriesOf partedFiles path = some (line ++ [newline]) →
      ShowsLine partedSysfs path line := by
    intro path line hentry
    exact ⟨{ content := line ++ [newline] }, by simp only [partedSysfs, hentry], rfl, rfl⟩
  have hup' : ∀ up ∈ some partedUp, up ≠ [] ∧ (∀ name ∈ up, IsName name) ∧
      (dirPath up).length < linuxPathMax := by
    intro up hsome
    exact Option.some.inj hsome ▸ hup
  refine ⟨⟨by decide, by decide⟩, ⟨_, ?_, hnames⟩, ?_,
    ⟨{ content := mountTable [] [stickMount] }, rfl, rfl, rfl, htable⟩, fun _ => rfl, ?_⟩
  · change partedKernel.readdir partedDir = _
    rw [hblock]
    rfl
  · intro b hb
    obtain ⟨hname, hshort, hstat, hattr, hsize, hdev, hdevice⟩ := hdevices b hb
    rcases List.mem_cons.mp hb with rfl | hb
    · refine ⟨hname, hshort, hstat, hattr, fun _ => ⟨partedChildren, ?_, fun child hmem _ =>
        hchildren child hmem, hlisted⟩, hline _ _ hsize, hline _ _ hdev, by decide, hdevice, hup'⟩
      change partedKernel.dirOpen (partedDisk.dir partedDir) = _
      simp only [partedKernel, hdisk, if_true]
    · obtain rfl := List.mem_singleton.mp hb
      exact ⟨hname, hshort, hstat, hattr, nofun, hline _ _ hsize, hline _ _ hdev, by decide,
        hdevice, hup'⟩
  · intro path kind hstat
    obtain ⟨place, hfound, _⟩ := Option.map_eq_some_iff.mp hstat
    have hpath := List.find?_some hfound
    rw [← of_decide_eq_true hpath]
    exact hplaces place (List.mem_of_find?_eq_some hfound)

/-- The partition is listed with its mount, its label and its medium. -/
theorem parted_enumerated : ∃ device,
    deviceEnumerate partedKernel (fun _ => true) (ascii "/sys") = .ok [device] ∧
      Describes partedKernel [] [stickMount] partedPart device ∧
      device.mountPoints = [ascii "/media/My Drive"] ∧ device.label = ascii "My Drive" ∧
      device.mediaPresent = true := by
  obtain ⟨hlisted, hgranted⟩ := enumerate_volumes parted_shows fun _ => true
  obtain ⟨devices, hdevices⟩ := hgranted fun _ => rfl
  have hforall := hlisted devices hdevices
  obtain ⟨_, _, _, _, _, _, hvolumes, _, _, hmounts, hlabel, huuid⟩ := parted_facts
  rw [hvolumes] at hforall
  obtain ⟨device, hdescribes, hnil⟩ :
      ∃ device, Describes partedKernel [] [stickMount] partedPart device ∧ devices = [device] := by
    cases hforall with
    | cons hfirst hrest =>
      cases hrest
      exact ⟨_, hfirst, rfl⟩
  refine ⟨device, hnil ▸ hdevices, hdescribes, ?_, ?_, ?_⟩
  · have hshown : device.mountPoints =
        (((found partedKernel.status 8 17 [] [stickMount]).map Mount.mountPoint).take 4).map
          (List.take 511) := by
      rw [hdescribes.mounts.mountPoints, ← List.map_take, List.map_map]
      rfl
    rw [hshown, hmounts]
    rfl
  · exact hdescribes.label false [32] _ (by decide) hlabel (by decide)
  · exact hdescribes.media.mpr (.inr (by simp [huuid]))

end UsbSentinel.DeviceLinux
