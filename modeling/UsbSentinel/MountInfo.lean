import UsbSentinel.ScanReads
import UsbSentinel.SignatureLine
import UsbSentinel.Strtok
import UsbSentinel.UsbAncestry

/-! The mount points, the volume path and the file system of a device, from the mount table of
the kernel. -/
namespace UsbSentinel.DeviceLinux
open ByteString UsbSentinel.Path Strtok

def mountinfoCap : ℕ := 1024 * 1024
def mountinfoReadChunk : ℕ := 8192
def fsNameMax : ℕ := 32

def space : UInt8 := 32
def newline : UInt8 := 10
def dash : Bytes := [45]

inductive FileKind
  | directory
  | blockDevice (major minor : ℕ)
  | other
  deriving DecidableEq, Repr

/-- What the system answers about a path; of a file system, its free blocks and their size. -/
structure FileStatus where
  stat : Bytes → Option FileKind
  statvfs : Bytes → Option (UInt64 × UInt64)

def isOctalDigit (c : UInt8) : Bool := 48 ≤ c && c ≤ 55

def unescapeMountinfoField : Bytes → Bytes
  | a :: b :: c :: d :: rest =>
    if a = backslash && isOctalDigit b && isOctalDigit c && isOctalDigit d then
      ((b - 48) * 64 + (c - 48) * 8 + (d - 48)) :: unescapeMountinfoField rest
    else a :: unescapeMountinfoField (b :: c :: d :: rest)
  | short => short

/-- A field in a buffer of its own, decoded there. -/
def decoded (field : Bytes) : Bytes := cstr (unescapeMountinfoField (cut linuxPathMax field))

/-- One `%u` of `sscanf`: its value and what is left. -/
def scanUnsigned (text : Bytes) : Option (ℕ × Bytes) :=
  let body := text.dropWhile SignatureList.isCSpace
  let sign := body.head?.any fun c => c = 43 || c = 45
  let digits := if sign then body.tail else body
  let number := digits.takeWhile SignatureList.isDecimal
  let value := SignatureList.decimalValue number
  if number = [] then none
  else
    let converted :=
      if 2 ^ 64 ≤ value then 2 ^ 64 - 1
      else if body.head? = some 45 then 2 ^ 64 - value
      else value
    some (converted % 2 ^ 32, digits.drop number.length)

/-- The two numbers of "major:minor". -/
def scanDevId (devId : Bytes) : Option (ℕ × ℕ) :=
  match scanUnsigned devId with
  | none => none
  | some (majorNum, rest) =>
    if rest.head? = some 58 then
      (scanUnsigned rest.tail).map fun scanned => (majorNum, scanned.1)
    else none

/-- What is read of a line: its third and its fifth field, and the two behind the dash, which a
line may lack. -/
structure MountLine where
  devId : Bytes
  mountPoint : Bytes
  fstype : Option Bytes
  source : Option Bytes
  deriving DecidableEq, Repr

def parseMountLine (line : Bytes) : Option MountLine :=
  match tokens space line with
  | _ :: _ :: devId :: _ :: mountPoint :: _ :: more =>
    match more.dropWhile (· ≠ dash) with
    | [] => none
    | _ :: described => some ⟨devId, mountPoint, described[0]?, described[1]?⟩
  | _ => none

variable (status : FileStatus)

def sourceMatchesDevId (source : Bytes) (majorNum minorNum : ℕ) : Bool :=
  source.head? = some slash && status.stat source = some (.blockDevice majorNum minorNum)

def isMatch (devId : Bytes) (line : MountLine) : Bool :=
  line.devId = devId ||
    match scanDevId devId, line.source with
    | some (majorNum, minorNum), some source =>
      sourceMatchesDevId status (decoded source) majorNum minorNum
    | _, _ => false

/-- The buffer after a join whose status nobody looks at: a refused path is cut. -/
def joinInto (cap : ℕ) (base leaf : Bytes) : Bytes :=
  match pathJoin .posix cap base leaf with
  | .ok path => path
  | .error _ => cut cap (joined .posix base leaf)

def takeMatch (device : Device) (line : MountLine) : Device :=
  let mountPoint := decoded line.mountPoint
  { device with
    mountPoints :=
      if device.mountPoints.length < mountPointsMax then
        device.mountPoints ++ [cut mountPointMax mountPoint]
      else device.mountPoints
    volumePath :=
      if device.volumePath = [] ∧ status.stat mountPoint = some .directory then
        joinInto volumePathMax mountPoint []
      else device.volumePath
    filesystem :=
      match line.fstype with
      | none => device.filesystem
      | some fstype => if device.filesystem = [] then cut fsNameMax fstype else device.filesystem }

def takeLine (devId : Bytes) (device : Device) (line : Bytes) : Device :=
  match parseMountLine line with
  | none => device
  | some line => if isMatch status devId line then takeMatch status device line else device

/-- Reading ends at the first error, and with a full buffer. -/
def readMountinfo (file : FileStream) : Bytes :=
  (readLoop file (fun total => min (mountinfoCap - 1 - total) mountinfoReadChunk)
    (file.content.length + 1) []).1

def fillFreeBytes (device : Device) : Device :=
  if device.volumePath = [] then device
  else
    match status.statvfs device.volumePath with
    | none => device
    | some (bavail, frsize) => { device with freeBytes := bavail * frsize }

/-- `malloc` says whether the buffer for the table can be had. -/
def fillMountInfo (mountinfo : Except Status FileStream) (malloc : Bool) (devId : Bytes)
    (device : Device) : Device :=
  match mountinfo with
  | .error _ => device
  | .ok file =>
    if malloc then
      fillFreeBytes status
        ((tokens newline (cstr (readMountinfo file))).foldl (takeLine status devId) device)
    else device

def octalEscape (c : UInt8) : Bytes := [backslash, 48 + c / 64, 48 + c / 8 % 8, 48 + c % 8]

/-- A field with the bytes of a set in octal. -/
def escapeField (reserved field : Bytes) : Bytes :=
  field.flatMap fun c => if c ∈ reserved then octalEscape c else [c]

/-- Space, tab, newline and backslash. -/
def mangled : Bytes := [space, 9, newline, backslash]

def IsField (field : Bytes) : Prop := field ≠ [] ∧ 0 ∉ field ∧ space ∉ field ∧ newline ∉ field

instance : DecidablePred IsField := fun field =>
  inferInstanceAs (Decidable (field ≠ [] ∧ 0 ∉ field ∧ space ∉ field ∧ newline ∉ field))

/-- One mount. Its source may be empty, and what follows the source starts with "rw" or "ro". -/
structure Mount where
  id : Bytes
  parent : Bytes
  devId : Bytes
  root : Bytes
  mountPoint : Bytes
  options : Bytes
  tags : List Bytes := []
  fstype : Bytes
  source : Bytes
  superOptions : Bytes
  fields_plain : ∀ field ∈ [id, parent, devId, root, options, fstype, superOptions] ++ tags,
    IsField field
  mountPoint_path : mountPoint ≠ [] ∧ 0 ∉ mountPoint
  source_text : 0 ∉ source
  tags_end : dash ∉ tags
  superOptions_start : superOptions.head? = some 114
  deriving DecidableEq

namespace Mount
variable (extra : Bytes)

/-- The kernel may put more bytes of a source in octal than of a mount point. -/
def sourceField (mount : Mount) : Bytes := escapeField (mangled ++ extra) mount.source

def mountPointField (mount : Mount) : Bytes := escapeField mangled mount.mountPoint

/-- The fields that a space follows. -/
def fields (mount : Mount) : List Bytes :=
  [mount.id, mount.parent, mount.devId, mount.root, mount.mountPointField, mount.options] ++
    mount.tags ++ [dash, mount.fstype, mount.sourceField extra]

def line (mount : Mount) : Bytes :=
  (mount.fields extra).flatMap (· ++ [space]) ++ mount.superOptions

end Mount

def mountTable (extra : Bytes) (table : List Mount) : Bytes :=
  table.flatMap fun mount => mount.line extra ++ [newline]

def devNumber (majorNum minorNum : ℕ) : Bytes := decimal majorNum ++ 58 :: decimal minorNum

set_option maxRecDepth 8000 in
lemma octalEscape_digits (c : UInt8) :
    isOctalDigit (48 + c / 64) = true ∧ isOctalDigit (48 + c / 8 % 8) = true ∧
      isOctalDigit (48 + c % 8) = true ∧
      (48 + c / 64 - 48) * 64 + (48 + c / 8 % 8 - 48) * 8 + (48 + c % 8 - 48) = c := by
  revert c
  decide

lemma unescape_octalEscape (c : UInt8) (rest : Bytes) :
    unescapeMountinfoField (octalEscape c ++ rest) = c :: unescapeMountinfoField rest := by
  obtain ⟨hhigh, hmiddle, hlow, hvalue⟩ := octalEscape_digits c
  simp only [octalEscape, List.cons_append, List.nil_append, unescapeMountinfoField, hhigh, hmiddle,
    hlow, hvalue, decide_true, Bool.and_self, if_true]

lemma unescape_plain {c : UInt8} (hc : c ≠ backslash) (rest : Bytes) :
    unescapeMountinfoField (c :: rest) = c :: unescapeMountinfoField rest := by
  have hfalse : decide (c = backslash) = false := decide_eq_false hc
  match rest with
  | [] => rfl
  | [x] => rfl
  | [x, y] => rfl
  | x :: y :: z :: rest =>
    simp only [unescapeMountinfoField, hfalse, Bool.false_and, Bool.false_eq_true, if_false]

lemma escapeField_cons (reserved : Bytes) (c : UInt8) (field : Bytes) :
    escapeField reserved (c :: field) =
      (if c ∈ reserved then octalEscape c else [c]) ++ escapeField reserved field := rfl

/-- The part of an escaped field that is kept decodes to a part of the field. -/
lemma unescape_take {reserved : Bytes} (hreserved : backslash ∈ reserved) {count limit : ℕ}
    (hlimit : 4 * count ≤ limit) (field : Bytes) :
    (unescapeMountinfoField ((escapeField reserved field).take limit)).take count =
      field.take count := by
  induction field generalizing count limit with
  | nil =>
    rw [escapeField, List.flatMap_nil, List.take_nil]
    rfl
  | cons c field ih =>
    cases count with
    | zero => rfl
    | succ count =>
      rw [escapeField_cons]
      by_cases hc : c ∈ reserved
      · obtain ⟨left, rfl⟩ : ∃ left, limit = left + 4 := ⟨limit - 4, by omega⟩
        rw [if_pos hc, List.take_append, show (octalEscape c).length = 4 from rfl,
          List.take_of_length_le (show (octalEscape c).length ≤ left + 4 by simp [octalEscape]),
          unescape_octalEscape, Nat.add_sub_cancel, List.take_succ_cons, ih (by omega)]
        rfl
      · obtain ⟨left, rfl⟩ : ∃ left, limit = left + 1 := ⟨limit - 1, by omega⟩
        have hplain : c ≠ backslash := fun heq => hc (heq ▸ hreserved)
        rw [if_neg hc, List.singleton_append, List.take_succ_cons, unescape_plain hplain,
          List.take_succ_cons, ih (by omega)]
        rfl

lemma unescape_escapeField {reserved : Bytes} (hreserved : backslash ∈ reserved) (field : Bytes) :
    unescapeMountinfoField (escapeField reserved field) = field := by
  induction field with
  | nil => rfl
  | cons c field ih =>
    rw [escapeField_cons]
    by_cases hc : c ∈ reserved
    · rw [if_pos hc, unescape_octalEscape, ih]
    · have hplain : c ≠ backslash := fun heq => hc (heq ▸ hreserved)
      rw [if_neg hc, List.singleton_append, unescape_plain hplain, ih]

lemma decoded_take {reserved : Bytes} (hreserved : backslash ∈ reserved) {field : Bytes}
    (htext : 0 ∉ field) {count : ℕ} (hcount : 4 * count < linuxPathMax) :
    (decoded (escapeField reserved field)).take count = field.take count := by
  have htext' : 0 ∉ field.take count := fun hmem => htext (List.mem_of_mem_take hmem)
  rw [decoded, cut, cstr, List.take_takeWhile, unescape_take hreserved (by omega)]
  exact cstr_eq_self htext'

/-- A field that the buffer takes whole. -/
lemma decoded_escapeField {reserved : Bytes} (hreserved : backslash ∈ reserved) {field : Bytes}
    (htext : 0 ∉ field) (hfits : (escapeField reserved field).length < linuxPathMax) :
    decoded (escapeField reserved field) = field := by
  rw [decoded, cut_eq_self hfits, unescape_escapeField hreserved, cstr_eq_self htext]

/-- A byte of the set is not seen in an escaped field unless escaping puts it there. -/
lemma not_mem_escapeField {reserved field : Bytes} {d : UInt8} (hescape : ∀ c, d ∉ octalEscape c)
    (hd : d ∈ reserved ∨ d ∉ field) : d ∉ escapeField reserved field := by
  intro hmem
  obtain ⟨c, hc, hpiece⟩ := List.mem_flatMap.mp hmem
  split_ifs at hpiece with hreserved
  · exact hescape c hpiece
  · obtain rfl := List.mem_singleton.mp hpiece
    rcases hd with hin | hout
    · exact hreserved hin
    · exact hout hc

lemma escapeField_ne_nil {reserved field : Bytes} (hfield : field ≠ []) :
    escapeField reserved field ≠ [] := by
  obtain ⟨c, rest, rfl⟩ := List.exists_cons_of_ne_nil hfield
  rw [escapeField_cons]
  split_ifs <;> simp [octalEscape]

set_option maxRecDepth 8000 in
lemma escapeField_isText {extra field : Bytes} (htext : 0 ∉ field) :
    0 ∉ escapeField (mangled ++ extra) field ∧ space ∉ escapeField (mangled ++ extra) field ∧
      newline ∉ escapeField (mangled ++ extra) field := by
  have hescape : ∀ c, 0 ∉ octalEscape c ∧ space ∉ octalEscape c ∧ newline ∉ octalEscape c := by
    decide
  refine ⟨?_, ?_, ?_⟩
  · exact not_mem_escapeField (fun c => (hescape c).1) (.inr htext)
  · exact not_mem_escapeField (fun c => (hescape c).2.1)
      (.inl (List.mem_append_left _ (by decide)))
  · exact not_mem_escapeField (fun c => (hescape c).2.2)
      (.inl (List.mem_append_left _ (by decide)))

lemma scanUnsigned_decimal {n : ℕ} (hn : n < 2 ^ 32) {rest : Bytes}
    (hrest : ∀ c ∈ rest.head?, SignatureList.isDecimal c = false) :
    scanUnsigned (decimal n ++ rest) = some (n, rest) := by
  have hdigits : ∀ c ∈ decimal n, SignatureList.isDecimal c = true := by
    intro c hc
    simpa [SignatureList.isDecimal] using decimal_digit hc
  have hstop : rest.takeWhile SignatureList.isDecimal = [] := by
    cases rest with
    | nil => rfl
    | cons c rest => exact List.takeWhile_cons_of_neg (by simp [hrest c rfl])
  have hnumber : (decimal n ++ rest).takeWhile SignatureList.isDecimal = decimal n := by
    rw [List.takeWhile_append_of_pos hdigits, hstop, List.append_nil]
  have hvalue : SignatureList.decimalValue (decimal n) = n := foldl_decimal n
  obtain ⟨c, digits, hcons⟩ := List.exists_cons_of_ne_nil (decimal_ne_nil n)
  have hfirst := decimal_digit (hcons ▸ List.mem_cons_self : c ∈ decimal n)
  have hbody : (decimal n ++ rest).dropWhile SignatureList.isCSpace = decimal n ++ rest := by
    rw [hcons]
    refine List.dropWhile_cons_of_neg ?_
    simp only [SignatureList.isCSpace]
    grind
  have hhead : (decimal n ++ rest).head? = some c := by rw [hcons]; rfl
  have hplus : c ≠ 43 ∧ c ≠ 45 := by grind
  have hsign : ((decimal n ++ rest).head?.any fun c => decide (c = 43) || decide (c = 45)) = false := by
    simp [hhead, hplus]
  have hminus : (decimal n ++ rest).head? ≠ some 45 := by
    rw [hhead]
    simpa using hplus.2
  have hsmall : ¬2 ^ 64 ≤ n := by omega
  simp only [scanUnsigned, hbody, hsign, Bool.false_eq_true, if_false, hnumber, hvalue,
    if_neg hsmall, if_neg hminus, if_neg (decimal_ne_nil n), Nat.mod_eq_of_lt hn,
    List.drop_left]

lemma isDecimal_decimal {n : ℕ} {c : UInt8} (h : c ∈ decimal n) :
    SignatureList.isDecimal c = true := by
  obtain ⟨hlow, hhigh⟩ := decimal_digit h
  simp [SignatureList.isDecimal, hlow, hhigh]

/-- Behind digits alone nothing is left. -/
lemma scanUnsigned_digits {digits : Bytes} (hne : digits ≠ [])
    (h : ∀ c ∈ digits, SignatureList.isDecimal c = true) :
    ∃ n, scanUnsigned digits = some (n, []) := by
  obtain ⟨c, rest, rfl⟩ := List.exists_cons_of_ne_nil hne
  have hfirst := h c (List.mem_cons_self ..)
  obtain ⟨hplus, hminus⟩ := SignatureList.decimal_not_sign hfirst
  have hstart : (c :: rest).dropWhile SignatureList.isCSpace = c :: rest :=
    List.dropWhile_cons_of_neg (by simp [SignatureList.decimal_not_space hfirst])
  have hnumber : (c :: rest).takeWhile SignatureList.isDecimal = c :: rest :=
    List.takeWhile_eq_self_iff.mpr h
  unfold scanUnsigned
  simp only [hstart, List.head?_cons, Option.any_some, hplus, hminus, decide_false, Bool.or_self,
    Bool.false_eq_true, if_false, hnumber, if_neg hne, List.drop_length]
  exact ⟨_, rfl⟩

lemma scanDevId_devNumber {majorNum minorNum : ℕ} (hmajor : majorNum < 2 ^ 32)
    (hminor : minorNum < 2 ^ 32) :
    scanDevId (devNumber majorNum minorNum) = some (majorNum, minorNum) := by
  have hcolon : ∀ c ∈ ((58 : UInt8) :: decimal minorNum).head?, SignatureList.isDecimal c = false := by
    intro c hc
    obtain rfl := Option.some.inj hc
    rfl
  have hlast := @scanUnsigned_decimal _ hminor [] (by simp)
  rw [List.append_nil] at hlast
  rw [scanDevId, devNumber, scanUnsigned_decimal hmajor hcolon]
  simp [hlast]

end UsbSentinel.DeviceLinux
