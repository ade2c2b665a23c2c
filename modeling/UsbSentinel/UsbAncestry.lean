import UsbSentinel.Device
import UsbSentinel.Path
import UsbSentinel.ScanReads

/-! The walk up the device tree of sysfs to the USB device that carries a disk. -/
namespace UsbSentinel.DeviceLinux
open ByteString UsbSentinel.Path

def linuxPathMax : ℕ := 4096
def idStrMax : ℕ := 128

/-- What the kernel shows below the mount of sysfs. A path that is too long is refused, and a
link has a target that is a path. -/
structure Sysfs where
  readlink : Bytes → Option Bytes
  openRead : Bytes → Except Status FileStream
  readlink_refused : ∀ {path target}, readlink path = some target → path.length < linuxPathMax
  openRead_refused : ∀ {path file}, openRead path = .ok file → path.length < linuxPathMax
  target_path : ∀ {path target}, readlink path = some target →
    0 ∉ target ∧ target.length < linuxPathMax

variable (sysfs : Sysfs)

/-! ### The walk -/

def trimmed (text : Bytes) : Bytes := text.rdropWhile fun c => c ≤ 32

/-- An attribute without its line end, as far as the buffer takes it. -/
def readSysfsString (path : Bytes) (cap : ℕ) : Except Status Bytes :=
  match sysfs.openRead path with
  | .error e => .error e
  | .ok file => .ok (cstr (trimmed (readCapped (cap - 1) file).1))

def attrFileExists (path : Bytes) : Bool := (sysfs.openRead path).toOption.isSome

/-- What follows the last slash. -/
def baseName (path : Bytes) : Bytes := path.rtakeWhile (· ≠ slash)

def readSubsystemName (dir : Bytes) (cap : ℕ) : Bytes :=
  match pathJoin .posix linuxPathMax dir (ascii "subsystem") with
  | .error _ => []
  | .ok linkPath =>
    match sysfs.readlink linkPath with
    | none => []
    | some target => cut cap (baseName (cstr (target.take (linuxPathMax - 1))))

/-- A path without a slash has no parent, nor has one whose only slash is its first byte. -/
def truncateToParent (path : Bytes) : Option Bytes :=
  let front := path.rdropWhile (· ≠ slash)
  if front.length ≤ 1 then none else some front.dropLast

/-- What a successful read leaves in a field, and a failed one. -/
def stored (dir : Bytes) (leaf : String) (cap : ℕ) (before : Bytes) : Bytes :=
  match pathJoin .posix linuxPathMax dir (ascii leaf) with
  | .error _ => before
  | .ok path =>
    match readSysfsString sysfs path cap with
    | .error _ => []
    | .ok text => text

/-- The same for an id, which is kept when its attribute cannot be read. -/
def storedId (dir : Bytes) (leaf : String) (before : Bytes) : Bytes :=
  match pathJoin .posix linuxPathMax dir (ascii leaf) with
  | .error _ => before
  | .ok path =>
    match readSysfsString sysfs path 16 with
    | .error _ => before
    | .ok text => cut 5 (text.take 4)

def isUsbDeviceDir (dir : Bytes) : Bool :=
  readSubsystemName sysfs dir 64 = ascii "usb" &&
    match pathJoin .posix linuxPathMax dir (ascii "idVendor") with
    | .error _ => false
    | .ok path => attrFileExists sysfs path

def fillUsb (dir : Bytes) (device : Device) : Device :=
  { device with
    busType := .usb
    usbVid := storedId sysfs dir "idVendor" device.usbVid
    usbPid := storedId sysfs dir "idProduct" device.usbPid
    vendor := stored sysfs dir "manufacturer" idStrMax device.vendor
    product := stored sysfs dir "product" idStrMax device.product
    serial := stored sysfs dir "serial" idStrMax device.serial }

def usbWalkLoop : ℕ → Bytes → Device → Device
  | 0, _, device => device
  | depth + 1, current, device =>
    if isUsbDeviceDir sysfs current then fillUsb sysfs current device
    else
      match truncateToParent current with
      | none => device
      | some parent => usbWalkLoop depth parent device

def usbWalkUp (startDir : Bytes) (device : Device) : Device :=
  usbWalkLoop sysfs 12 (cut linuxPathMax startDir) device

/-! ### The chain of directories -/

/-- The path of a directory, its own name first. -/
def dirPath : List Bytes → Bytes
  | [] => []
  | name :: above => dirPath above ++ slash :: name

/-- The directories from this one upwards; the root of the file system is none of them. -/
def ancestors : List Bytes → List Bytes
  | [] => []
  | name :: above => dirPath (name :: above) :: ancestors above

def IsName (name : Bytes) : Prop := name ≠ [] ∧ slash ∉ name

instance : DecidablePred IsName := fun name => inferInstanceAs (Decidable (name ≠ [] ∧ slash ∉ name))

/-- The directory's subsystem is "usb" and it has a vendor id. -/
def IsUsbDevice (dir : Bytes) : Prop :=
  (∃ target, sysfs.readlink (dir ++ slash :: ascii "subsystem") = some target ∧
      baseName target = ascii "usb") ∧
    ∃ file, sysfs.openRead (dir ++ slash :: ascii "idVendor") = .ok file

/-- The text of an attribute, empty where there is none. -/
def attrText (dir : Bytes) (leaf : String) (cap : ℕ) : Bytes :=
  match sysfs.openRead (dir ++ slash :: ascii leaf) with
  | .error _ => []
  | .ok file => cstr (trimmed (readCapped (cap - 1) file).1)

/-- The lowest USB device among the first twelve directories. -/
def Nearest (up : List Bytes) (dir : Bytes) : Prop :=
  ∃ before rest, (ancestors up).take 12 = before ++ dir :: rest ∧
    (∀ d ∈ before, ¬IsUsbDevice sysfs d) ∧ IsUsbDevice sysfs dir

/-- A device as its callers hand it over. -/
structure Unclassified (device : Device) : Prop where
  busType : device.busType = .unknown
  usbVid : device.usbVid = []
  usbPid : device.usbPid = []
  vendor : device.vendor = []
  product : device.product = []
  serial : device.serial = []

structure Classified (up : List Bytes) (before after : Device) : Prop where
  usb_iff : after.busType = .usb ↔ ∃ dir ∈ (ancestors up).take 12, IsUsbDevice sysfs dir
  nearest : ∀ dir, Nearest sysfs up dir → after = { before with
    busType := .usb
    usbVid := (attrText sysfs dir "idVendor" 16).take 4
    usbPid := (attrText sysfs dir "idProduct" 16).take 4
    vendor := attrText sysfs dir "manufacturer" idStrMax
    product := attrText sysfs dir "product" idStrMax
    serial := attrText sysfs dir "serial" idStrMax }
  untouched : (∀ dir ∈ (ancestors up).take 12, ¬IsUsbDevice sysfs dir) → after = before
  paired : after.usbVid = [] ↔ after.usbPid = []

/-- The text of an attribute that reads to its end. -/
theorem attrText_sound {dir : Bytes} {leaf : String} {file : FileStream}
    (hopen : sysfs.openRead (dir ++ slash :: ascii leaf) = .ok file) (hfile : file.failAt = none)
    (cap : ℕ) :
    attrText sysfs dir leaf cap = cstr (trimmed (file.content.take (cap - 1))) := by
  simp only [attrText, hopen, readCapped_sound hfile]

/-! ### Paths -/

lemma joined_unended {dir : Bytes} (hdir : dir.getLast?.any (isSeparator .posix) = false)
    (leaf : Bytes) : joined .posix dir leaf = dir ++ slash :: leaf := by
  rw [joined, if_neg (by rw [hdir]; exact Bool.false_ne_true)]
  rfl

lemma dirPath_unended {name : Bytes} (hname : IsName name) (above : List Bytes) :
    (dirPath (name :: above)).getLast?.any (isSeparator .posix) = false := by
  obtain ⟨hsome, hplain⟩ := hname
  obtain ⟨front, last, rfl⟩ := (List.eq_nil_or_concat name).resolve_left hsome
  have hlast : last ≠ slash := by
    rintro rfl
    exact hplain (by simp)
  have hend : dirPath ((front ++ [last]) :: above) = (dirPath above ++ slash :: front) ++ [last] := by
    simp [dirPath]
  rw [List.concat_eq_append, hend, List.getLast?_concat]
  simp [isSeparator, hlast]

variable {up : List Bytes}

lemma ancestors_unended (hnames : ∀ name ∈ up, IsName name) :
    ∀ dir ∈ ancestors up, dir.getLast?.any (isSeparator .posix) = false := by
  induction up with
  | nil =>
    intro dir hdir
    cases hdir
  | cons name above ih =>
    intro dir hdir
    rcases List.mem_cons.mp hdir with rfl | habove
    · exact dirPath_unended (hnames name (List.mem_cons_self ..)) above
    · exact ih (fun n hn => hnames n (List.mem_cons_of_mem _ hn)) dir habove

lemma truncateToParent_dirPath {name : Bytes} (hname : IsName name) (above : List Bytes) :
    truncateToParent (dirPath (name :: above)) =
      if above = [] then none else some (dirPath above) := by
  have hfront : (dirPath (name :: above)).rdropWhile (· ≠ slash) = dirPath above ++ [slash] := by
    have hall : ∀ c ∈ name, decide (c ≠ slash) = true := by
      intro c hc
      exact decide_eq_true fun heq => hname.2 (heq ▸ hc)
    have hsplit : dirPath (name :: above) = (dirPath above ++ [slash]) ++ name := by
      simp [dirPath]
    rw [hsplit, List.rdropWhile, List.reverse_append,
      List.dropWhile_append_of_pos fun c hc => hall c (List.mem_reverse.mp hc)]
    simp
  simp only [truncateToParent, hfront]
  cases above with
  | nil => rfl
  | cons parent above =>
    have hlong : ¬(dirPath (parent :: above) ++ [slash]).length ≤ 1 := by
      simp only [dirPath, List.length_append, List.length_cons, List.length_nil]
      omega
    rw [if_neg hlong, if_neg (List.cons_ne_nil _ _), List.dropLast_concat]

/-! ### One directory -/

variable {sysfs : Sysfs} {dir : Bytes}

lemma readSubsystemName_iff (hdir : dir.getLast?.any (isSeparator .posix) = false) :
    readSubsystemName sysfs dir 64 = ascii "usb" ↔
      ∃ target, sysfs.readlink (dir ++ slash :: ascii "subsystem") = some target ∧
        baseName target = ascii "usb" := by
  have hjoined := joined_unended hdir (ascii "subsystem")
  have hnone : ([] : Bytes) ≠ ascii "usb" := by decide
  unfold readSubsystemName
  cases hjoin : pathJoin .posix linuxPathMax dir (ascii "subsystem") with
  | error e =>
    refine iff_of_false hnone ?_
    rintro ⟨target, hlink, -⟩
    have hlong := le_joined_of_error hjoin
    have hshort := sysfs.readlink_refused hlink
    rw [hjoined] at hlong
    omega
  | ok path =>
    obtain ⟨rfl, -⟩ := pathJoin_eq_ok.mp hjoin
    rw [hjoined]
    simp only
    cases hlink : sysfs.readlink (dir ++ slash :: ascii "subsystem") with
    | none => exact iff_of_false hnone (by simp)
    | some target =>
      obtain ⟨hplain, hlength⟩ := sysfs.target_path hlink
      have hmax : linuxPathMax = 4096 := rfl
      have hwhole : cstr (target.take (linuxPathMax - 1)) = target := by
        rw [List.take_of_length_le (by omega), cstr_eq_self hplain]
      have hcut : cut 64 (baseName target) = ascii "usb" ↔ baseName target = ascii "usb" := by
        constructor
        · intro h
          have hshort := congrArg List.length h
          have hthree : (ascii "usb").length = 3 := ascii_length _
          rw [cut_length, hthree] at hshort
          rwa [cut_eq_self (by omega)] at h
        · intro h
          rw [h]
          decide
      simp only [hwhole, hcut, Option.some.injEq, exists_eq_left']

lemma isUsbDeviceDir_iff (hdir : dir.getLast?.any (isSeparator .posix) = false) :
    isUsbDeviceDir sysfs dir = true ↔ IsUsbDevice sysfs dir := by
  have hjoined := joined_unended hdir (ascii "idVendor")
  rw [isUsbDeviceDir, Bool.and_eq_true, decide_eq_true_eq, readSubsystemName_iff hdir, IsUsbDevice]
  refine and_congr_right fun _ => ?_
  cases hjoin : pathJoin .posix linuxPathMax dir (ascii "idVendor") with
  | error e =>
    refine iff_of_false Bool.false_ne_true ?_
    rintro ⟨file, hopen⟩
    have hlong := le_joined_of_error hjoin
    have hshort := sysfs.openRead_refused hopen
    rw [hjoined] at hlong
    omega
  | ok path =>
    obtain ⟨rfl, -⟩ := pathJoin_eq_ok.mp hjoin
    simp only [hjoined, attrFileExists]
    cases sysfs.openRead (dir ++ slash :: ascii "idVendor") <;> simp [Except.toOption]

/-- What cannot be joined cannot be opened either. -/
lemma attrText_of_long (hdir : dir.getLast?.any (isSeparator .posix) = false) {leaf : String}
    {e : Status} (hjoin : pathJoin .posix linuxPathMax dir (ascii leaf) = .error e) (cap : ℕ) :
    attrText sysfs dir leaf cap = [] := by
  have hlong := le_joined_of_error hjoin
  rw [joined_unended hdir] at hlong
  unfold attrText
  cases hopen : sysfs.openRead (dir ++ slash :: ascii leaf) with
  | error e => rfl
  | ok file =>
    have hshort := sysfs.openRead_refused hopen
    omega

lemma stored_attrText (hdir : dir.getLast?.any (isSeparator .posix) = false) (leaf : String)
    (cap : ℕ) : stored sysfs dir leaf cap [] = attrText sysfs dir leaf cap := by
  unfold stored
  cases hjoin : pathJoin .posix linuxPathMax dir (ascii leaf) with
  | error e => rw [attrText_of_long hdir hjoin]
  | ok path =>
    obtain ⟨rfl, -⟩ := pathJoin_eq_ok.mp hjoin
    rw [joined_unended hdir]
    simp only [readSysfsString, attrText]
    cases sysfs.openRead (dir ++ slash :: ascii leaf) <;> rfl

lemma storedId_attrText (hdir : dir.getLast?.any (isSeparator .posix) = false) (leaf : String) :
    storedId sysfs dir leaf [] = (attrText sysfs dir leaf 16).take 4 := by
  unfold storedId
  cases hjoin : pathJoin .posix linuxPathMax dir (ascii leaf) with
  | error e =>
    rw [attrText_of_long hdir hjoin]
    rfl
  | ok path =>
    obtain ⟨rfl, -⟩ := pathJoin_eq_ok.mp hjoin
    rw [joined_unended hdir]
    simp only [readSysfsString, attrText]
    cases sysfs.openRead (dir ++ slash :: ascii leaf) with
    | error e => rfl
    | ok file =>
      refine cut_eq_self ?_
      rw [List.length_take]
      omega

/-! ### The whole walk -/

/-- The walk stops at the first directory of the chain that is a USB device. -/
lemma usbWalkLoop_find (depth : ℕ) (hup : up ≠ []) (hnames : ∀ name ∈ up, IsName name)
    (device : Device) : usbWalkLoop sysfs depth (dirPath up) device =
      match ((ancestors up).take depth).find? (isUsbDeviceDir sysfs) with
      | none => device
      | some dir => fillUsb sysfs dir device := by
  induction depth generalizing up with
  | zero => rfl
  | succ depth ih =>
    obtain ⟨name, above, rfl⟩ := List.exists_cons_of_ne_nil hup
    have hname := hnames name (List.mem_cons_self ..)
    have habove : ∀ n ∈ above, IsName n := fun n hn => hnames n (List.mem_cons_of_mem _ hn)
    rw [usbWalkLoop, ancestors, List.take_succ_cons, List.find?_cons]
    cases hmatch : isUsbDeviceDir sysfs (dirPath (name :: above)) with
    | true => rfl
    | false =>
      rw [truncateToParent_dirPath hname]
      by_cases hnil : above = []
      · subst hnil
        rw [if_pos rfl]
        simp [ancestors]
      · rw [if_neg hnil]
        simpa using ih hnil habove

lemma nearest_iff (hnames : ∀ name ∈ up, IsName name) :
    Nearest sysfs up dir ↔
      ((ancestors up).take 12).find? (isUsbDeviceDir sysfs) = some dir := by
  have hmatch : ∀ d ∈ (ancestors up).take 12,
      (isUsbDeviceDir sysfs d = true ↔ IsUsbDevice sysfs d) := fun d hd =>
    isUsbDeviceDir_iff (ancestors_unended hnames d (List.mem_of_mem_take hd))
  rw [List.find?_eq_some_iff_append]
  constructor
  · rintro ⟨before, rest, hsplit, hbefore, hdir⟩
    refine ⟨(hmatch dir (by rw [hsplit]; simp)).mpr hdir, before, rest, hsplit, ?_⟩
    intro d hd
    have hnot := mt (hmatch d (by rw [hsplit]; simp [hd])).mp (hbefore d hd)
    simpa using hnot
  · rintro ⟨hdir, before, rest, hsplit, hbefore⟩
    refine ⟨before, rest, hsplit, ?_, (hmatch dir (by rw [hsplit]; simp)).mp hdir⟩
    intro d hd husb
    have htrue := (hmatch d (by rw [hsplit]; simp [hd])).mpr husb
    have hfalse := hbefore d hd
    rw [htrue] at hfalse
    cases hfalse

lemma exists_nearest (hnames : ∀ name ∈ up, IsName name)
    (h : ∃ dir ∈ (ancestors up).take 12, IsUsbDevice sysfs dir) :
    ∃ dir, Nearest sysfs up dir := by
  obtain ⟨dir, hdir, husb⟩ := h
  have hunended := ancestors_unended hnames dir (List.mem_of_mem_take hdir)
  have hsome := List.find?_isSome.mpr ⟨dir, hdir, (isUsbDeviceDir_iff hunended).mpr husb⟩
  obtain ⟨found, hfound⟩ := Option.isSome_iff_exists.mp hsome
  exact ⟨found, (nearest_iff hnames).mpr hfound⟩

lemma Nearest.mem (h : Nearest sysfs up dir) : dir ∈ (ancestors up).take 12 := by
  obtain ⟨before, rest, hsplit, -, -⟩ := h
  rw [hsplit]
  simp

lemma Nearest.isUsbDevice (h : Nearest sysfs up dir) : IsUsbDevice sysfs dir := by
  obtain ⟨before, rest, -, -, husb⟩ := h
  exact husb

lemma Nearest.unique {other : Bytes} (hnames : ∀ name ∈ up, IsName name)
    (h : Nearest sysfs up dir) (hother : Nearest sysfs up other) : dir = other := by
  have hfound := (nearest_iff hnames).mp h
  rw [(nearest_iff hnames).mp hother] at hfound
  exact (Option.some.inj hfound).symm

/-- The device after a walk that finds a USB device. -/
lemma usbWalkUp_nearest (hup : up ≠ []) (hnames : ∀ name ∈ up, IsName name)
    (hlength : (dirPath up).length < linuxPathMax) {device : Device} (hdevice : Unclassified device)
    (h : Nearest sysfs up dir) : usbWalkUp sysfs (dirPath up) device = { device with
      busType := .usb
      usbVid := (attrText sysfs dir "idVendor" 16).take 4
      usbPid := (attrText sysfs dir "idProduct" 16).take 4
      vendor := attrText sysfs dir "manufacturer" idStrMax
      product := attrText sysfs dir "product" idStrMax
      serial := attrText sysfs dir "serial" idStrMax } := by
  have hunended := ancestors_unended hnames dir (List.mem_of_mem_take h.mem)
  rw [usbWalkUp, cut_eq_self hlength, usbWalkLoop_find 12 hup hnames, (nearest_iff hnames).mp h]
  simp only [fillUsb, hdevice.usbVid, hdevice.usbPid, hdevice.vendor, hdevice.product,
    hdevice.serial, storedId_attrText hunended, stored_attrText hunended]

lemma usbWalkUp_none (hup : up ≠ []) (hnames : ∀ name ∈ up, IsName name)
    (hlength : (dirPath up).length < linuxPathMax) (device : Device)
    (h : ∀ dir ∈ (ancestors up).take 12, ¬IsUsbDevice sysfs dir) :
    usbWalkUp sysfs (dirPath up) device = device := by
  have hnone : ((ancestors up).take 12).find? (isUsbDeviceDir sysfs) = none := by
    refine List.find?_eq_none.mpr fun dir hdir hmatch => h dir hdir ?_
    exact (isUsbDeviceDir_iff (ancestors_unended hnames dir (List.mem_of_mem_take hdir))).mp hmatch
  rw [usbWalkUp, cut_eq_self hlength, usbWalkLoop_find 12 hup hnames, hnone]

lemma take_four_eq_nil (text : Bytes) : text.take 4 = [] ↔ text = [] := by
  simp

theorem usbWalkUp_classified (hup : up ≠ []) (hnames : ∀ name ∈ up, IsName name)
    (hlength : (dirPath up).length < linuxPathMax) {device : Device}
    (hdevice : Unclassified device) :
    Classified sysfs up device (usbWalkUp sysfs (dirPath up) device) ↔
      ∀ dir, Nearest sysfs up dir →
        (attrText sysfs dir "idVendor" 16 = [] ↔ attrText sysfs dir "idProduct" 16 = []) := by
  constructor
  · intro h dir hnearest
    have hpaired := h.paired
    rw [usbWalkUp_nearest hup hnames hlength hdevice hnearest] at hpaired
    simpa only [take_four_eq_nil] using hpaired
  · intro hpairs
    by_cases hfound : ∃ dir ∈ (ancestors up).take 12, IsUsbDevice sysfs dir
    · obtain ⟨dir, hnearest⟩ := exists_nearest hnames hfound
      have hafter := usbWalkUp_nearest hup hnames hlength hdevice hnearest
      refine ⟨?_, ?_, ?_, ?_⟩
      · rw [hafter]
        exact iff_of_true rfl hfound
      · intro other hother
        rw [hafter, hnearest.unique hnames hother]
      · intro hnone
        exact absurd hnearest.isUsbDevice (hnone dir hnearest.mem)
      · rw [hafter]
        simpa only [take_four_eq_nil] using hpairs dir hnearest
    · have hnone : ∀ dir ∈ (ancestors up).take 12, ¬IsUsbDevice sysfs dir := fun dir hdir husb =>
        hfound ⟨dir, hdir, husb⟩
      rw [usbWalkUp_none hup hnames hlength device hnone]
      refine ⟨?_, ?_, fun _ => rfl, ?_⟩
      · rw [hdevice.busType]
        exact iff_of_false nofun hfound
      · intro dir hnearest
        exact absurd hnearest.isUsbDevice (hnone dir hnearest.mem)
      · rw [hdevice.usbVid, hdevice.usbPid]

/-- A stick in one port; its product id may be missing. -/
def stick (idProduct : Option Bytes) : Sysfs where
  readlink path :=
    if path = ascii "/sys/usb1/1-2/subsystem" then some (ascii "../../../bus/usb") else none
  openRead path :=
    if path = ascii "/sys/usb1/1-2/idVendor" then .ok { content := ascii "0781\n" }
    else
      match idProduct with
      | none => .error .notFound
      | some text =>
        if path = ascii "/sys/usb1/1-2/idProduct" then .ok { content := text } else .error .notFound
  readlink_refused h := by
    split at h
    · rename_i hpath
      rw [hpath]
      decide
    · cases h
  openRead_refused h := by
    split at h
    · rename_i hpath
      rw [hpath]
      decide
    · split at h
      · cases h
      · split at h
        · rename_i hpath
          rw [hpath]
          decide
        · cases h
  target_path h := by
    split at h
    · obtain rfl := Option.some.inj h
      decide
    · cases h

/-- The path of the stick's interface, which is no USB device itself. -/
def stickChain : List Bytes := ["1-2:1.0", "1-2", "usb1", "sys"].map ascii

def blankDevice : Device := { volumePath := [], busType := .unknown }

lemma blankDevice_unclassified : Unclassified blankDevice := ⟨rfl, rfl, rfl, rfl, rfl, rfl⟩

theorem usbWalkUp_stick : Classified (stick (some (ascii "5583\n"))) stickChain blankDevice
    (usbWalkUp (stick (some (ascii "5583\n"))) (dirPath stickChain) blankDevice) := by
  refine (usbWalkUp_classified (by decide) (by decide) (by decide) blankDevice_unclassified).mpr ?_
  intro dir hnearest
  have hfound : ((ancestors stickChain).take 12).find?
      (isUsbDeviceDir (stick (some (ascii "5583\n")))) = some (ascii "/sys/usb1/1-2") := by
    decide +kernel
  rw [nearest_iff (by decide), hfound] at hnearest
  obtain rfl := Option.some.inj hnearest
  decide +kernel

/-- A vendor id without a product id leaves the pair half filled. -/
theorem usbWalkUp_halfPair :
    ¬∀ (sysfs : Sysfs) (up : List Bytes), up ≠ [] → (∀ name ∈ up, IsName name) →
      (dirPath up).length < linuxPathMax → ∀ device, Unclassified device →
      Classified sysfs up device (usbWalkUp sysfs (dirPath up) device) := by
  intro hall
  have hpaired := (hall (stick none) stickChain (by decide) (by decide) (by decide) blankDevice
    blankDevice_unclassified).paired
  revert hpaired
  decide +kernel

end UsbSentinel.DeviceLinux
