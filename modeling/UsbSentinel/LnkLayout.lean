import UsbSentinel.LnkBounds

/-! The layout of a shortcut after MS-SHLLINK, section by section, and the parser as its
inverse: it decodes every shortcut and rejects every one that is cut off. -/
namespace UsbSentinel.LnkInspect
open ByteString

/-! ### Parts of a buffer -/

def leBytes : ℕ → ℕ → Bytes
  | 0, _ => []
  | width + 1, value => value.toUInt8 :: leBytes width (value / 256)

@[simp] lemma leBytes_length (width value : ℕ) : (leBytes width value).length = width := by
  induction width generalizing value with
  | zero => rfl
  | succ width ih => rw [leBytes, List.length_cons, ih]

lemma littleEndian_leBytes (width value : ℕ) :
    littleEndian (leBytes width value) = value % 256 ^ width := by
  induction width generalizing value with
  | zero => rw [leBytes, littleEndian, Nat.pow_zero, Nat.mod_one]
  | succ width ih =>
    have hbyte : value.toUInt8.toNat = value % 256 := UInt8.toNat_ofNat'
    rw [leBytes, littleEndian, ih, hbyte, Nat.pow_succ, Nat.mul_comm (256 ^ width), Nat.mod_mul]

/-- The bytes `part` lie at `offset`. -/
def LiesAt (buf : Bytes) (offset : ℕ) (part : Bytes) : Prop :=
  ∃ before after, buf = before ++ (part ++ after) ∧ before.length = offset

section Parts
variable {buf part a b : Bytes} {offset : ℕ}

lemma LiesAt.self (part after : Bytes) : LiesAt (part ++ after) 0 part := ⟨[], after, rfl, rfl⟩

lemma LiesAt.left (h : LiesAt buf offset (a ++ b)) : LiesAt buf offset a := by
  obtain ⟨before, after, rfl, hoffset⟩ := h
  exact ⟨before, b ++ after, by rw [List.append_assoc], hoffset⟩

lemma LiesAt.right (h : LiesAt buf offset (a ++ b)) : LiesAt buf (offset + a.length) b := by
  obtain ⟨before, after, rfl, hoffset⟩ := h
  refine ⟨before ++ a, after, ?_, ?_⟩
  · rw [List.append_assoc, List.append_assoc]
  · rw [List.length_append, hoffset]

lemma LiesAt.take_drop (h : LiesAt buf offset part) :
    (buf.drop offset).take part.length = part := by
  obtain ⟨before, after, rfl, rfl⟩ := h
  rw [List.drop_left, List.take_left]

lemma LiesAt.fits (h : LiesAt buf offset part) : offset + part.length ≤ buf.length := by
  obtain ⟨before, after, rfl, rfl⟩ := h
  rw [List.length_append, List.length_append]
  omega

lemma LiesAt.inRange (h : LiesAt buf offset part) :
    inRange buf.length offset part.length = true := (Traced.inRange_iff _ _ _).mpr h.fits

lemma LiesAt.readU16 {value : ℕ} (h : LiesAt buf offset (leBytes 2 value)) (hvalue : value < 256 ^ 2) :
    readU16 buf offset = some value := by
  have hrange : LnkInspect.inRange buf.length offset 2 = true := by
    simpa only [leBytes_length] using h.inRange
  have hbytes : (buf.drop offset).take 2 = leBytes 2 value := by
    simpa only [leBytes_length] using h.take_drop
  rw [LnkInspect.readU16, if_pos hrange, hbytes, littleEndian_leBytes, Nat.mod_eq_of_lt hvalue]

lemma LiesAt.readU32 {value : ℕ} (h : LiesAt buf offset (leBytes 4 value)) (hvalue : value < 256 ^ 4) :
    readU32 buf offset = some value := by
  have hrange : LnkInspect.inRange buf.length offset 4 = true := by
    simpa only [leBytes_length] using h.inRange
  have hbytes : (buf.drop offset).take 4 = leBytes 4 value := by
    simpa only [leBytes_length] using h.take_drop
  rw [LnkInspect.readU32, if_pos hrange, hbytes, littleEndian_leBytes, Nat.mod_eq_of_lt hvalue]

end Parts

/-! ### The sections -/

def charSize (isUnicode : Bool) : ℕ := if isUnicode then 2 else 1

/-- The item identifiers behind the header. -/
structure IdList where
  items : Bytes
  sized : items.length < 2 ^ 16

/-- A LinkInfo structure. `ahead` is what stands before the path: the rest of a longer header
and the volume's description. -/
structure LinkInfo where
  headerSize : ℕ
  /-- The flags other than that of the local base path. -/
  moreFlags : ℕ
  volumeIdOffset : ℕ
  commonNetworkOffset : ℕ
  commonSuffixOffset : ℕ
  ahead : Bytes
  localBasePath : Option Bytes
  behind : Bytes
  headerSize_ge : 0x1C ≤ headerSize
  headerSize_lt : headerSize < 2 ^ 32
  moreFlags_lt : moreFlags < 2 ^ 31
  path_plain : ∀ path ∈ localBasePath, (0 : UInt8) ∉ path ∧ path.length ≤ 519
  sized : 28 + ahead.length + 520 + behind.length < 2 ^ 32

/-- A counted string whose content is skipped. -/
structure Block (isUnicode : Bool) where
  count : ℕ
  chars : Bytes
  sized : count < 2 ^ 16
  chars_length : chars.length = count * charSize isUnicode

/-- The command line: ASCII without NUL. -/
structure Arguments where
  text : Bytes
  ascii : ∀ c ∈ text, c ≠ 0 ∧ c < 0x80
  short : text.length ≤ 1023

structure Shortcut where
  isUnicode : Bool
  /-- Bit 6, and the bits from 8 on, of the flags. -/
  hasIconLocation : Bool
  moreFlags : ℕ
  /-- From the attributes to the end of the header. -/
  attributes : Bytes
  idList : Option IdList
  linkInfo : Option LinkInfo
  name : Option (Block isUnicode)
  relativePath : Option (Block isUnicode)
  workingDir : Option (Block isUnicode)
  arguments : Option Arguments
  moreFlags_lt : moreFlags < 2 ^ 24
  attributes_length : attributes.length = 52

def IdList.encode (l : IdList) : Bytes := leBytes 2 l.items.length ++ l.items

def LinkInfo.pathBytes (i : LinkInfo) : Bytes :=
  match i.localBasePath with
  | some path => path ++ [0]
  | none => []

def LinkInfo.pathOffset (i : LinkInfo) : ℕ := if i.localBasePath.isSome then 28 + i.ahead.length else 0

def LinkInfo.flags (i : LinkInfo) : ℕ := i.localBasePath.isSome.toNat + 2 * i.moreFlags

def LinkInfo.size (i : LinkInfo) : ℕ :=
  28 + i.ahead.length + i.pathBytes.length + i.behind.length

def LinkInfo.encode (i : LinkInfo) : Bytes :=
  leBytes 4 i.size ++ (leBytes 4 i.headerSize ++ (leBytes 4 i.flags ++
    (leBytes 4 i.volumeIdOffset ++ (leBytes 4 i.pathOffset ++ (leBytes 4 i.commonNetworkOffset ++
      (leBytes 4 i.commonSuffixOffset ++ (i.ahead ++ (i.pathBytes ++ i.behind))))))))

def Block.encode {isUnicode : Bool} (b : Block isUnicode) : Bytes := leBytes 2 b.count ++ b.chars

def encodeChars (isUnicode : Bool) (text : Bytes) : Bytes :=
  if isUnicode then text.flatMap fun c => [c, 0] else text

def Arguments.encode (isUnicode : Bool) (a : Arguments) : Bytes :=
  leBytes 2 a.text.length ++ encodeChars isUnicode a.text

def encodeOption {α : Type} (encode : α → Bytes) : Option α → Bytes
  | some a => encode a
  | none => []

namespace Shortcut

def flags (s : Shortcut) : ℕ :=
  s.idList.isSome.toNat + 2 * s.linkInfo.isSome.toNat + 4 * s.name.isSome.toNat +
    8 * s.relativePath.isSome.toNat + 16 * s.workingDir.isSome.toNat +
    32 * s.arguments.isSome.toNat + 64 * s.hasIconLocation.toNat + 128 * s.isUnicode.toNat +
    256 * s.moreFlags

def header (s : Shortcut) : Bytes :=
  leBytes 4 lnkHeaderSize ++ (shellLinkClsid ++ (leBytes 4 s.flags ++ s.attributes))

/-- The header and the declared sections in their order. -/
def encode (s : Shortcut) : Bytes :=
  s.header ++ (encodeOption IdList.encode s.idList ++ (encodeOption LinkInfo.encode s.linkInfo ++
    (encodeOption Block.encode s.name ++ (encodeOption Block.encode s.relativePath ++
      (encodeOption Block.encode s.workingDir ++
        encodeOption (Arguments.encode s.isUnicode) s.arguments)))))

def target (s : Shortcut) : Bytes := ((s.linkInfo.bind LinkInfo.localBasePath).getD [])

def argumentText (s : Shortcut) : Bytes := ((s.arguments.map Arguments.text).getD [])

end Shortcut

/-! ### Decoding -/

section Decode
variable {buf : Bytes} {offset : ℕ}

lemma hasFlag_iff (flags bit : ℕ) : hasFlag flags (2 ^ bit) = true ↔ flags / 2 ^ bit % 2 = 1 := by
  rw [hasFlag, decide_eq_true_iff, Nat.and_two_pow, Nat.testBit_eq_decide_div_mod_eq]
  by_cases hbit : flags / 2 ^ bit % 2 = 1
  · simp [hbit]
  · simp [hbit]

/-- The flag that says whether a section is declared. -/
lemma hasFlag_eq {flags mask : ℕ} (bit : ℕ) (hmask : mask = 2 ^ bit) {declared : Bool}
    (h : flags / 2 ^ bit % 2 = declared.toNat) : hasFlag flags mask = declared := by
  rw [hmask, Bool.eq_iff_iff, hasFlag_iff, h]
  cases declared <;> simp

lemma Shortcut.hasFlags (s : Shortcut) :
    hasFlag s.flags flagLinkTargetIdList = s.idList.isSome ∧
      hasFlag s.flags flagLinkInfo = s.linkInfo.isSome ∧
      hasFlag s.flags flagName = s.name.isSome ∧
      hasFlag s.flags flagRelativePath = s.relativePath.isSome ∧
      hasFlag s.flags flagWorkingDir = s.workingDir.isSome ∧
      hasFlag s.flags flagArguments = s.arguments.isSome ∧
      hasFlag s.flags flagIsUnicode = s.isUnicode := by
  have h₀ := Bool.toNat_lt s.idList.isSome
  have h₁ := Bool.toNat_lt s.linkInfo.isSome
  have h₂ := Bool.toNat_lt s.name.isSome
  have h₃ := Bool.toNat_lt s.relativePath.isSome
  have h₄ := Bool.toNat_lt s.workingDir.isSome
  have h₅ := Bool.toNat_lt s.arguments.isSome
  have h₆ := Bool.toNat_lt s.hasIconLocation
  have h₇ := Bool.toNat_lt s.isUnicode
  refine ⟨hasFlag_eq 0 rfl ?_, hasFlag_eq 1 rfl ?_, hasFlag_eq 2 rfl ?_,
    hasFlag_eq 3 rfl ?_, hasFlag_eq 4 rfl ?_, hasFlag_eq 5 rfl ?_,
    hasFlag_eq 7 rfl ?_⟩ <;> unfold Shortcut.flags <;> omega

lemma Shortcut.flags_lt (s : Shortcut) : s.flags < 256 ^ 4 := by
  have h₀ := Bool.toNat_lt s.idList.isSome
  have h₁ := Bool.toNat_lt s.linkInfo.isSome
  have h₂ := Bool.toNat_lt s.name.isSome
  have h₃ := Bool.toNat_lt s.relativePath.isSome
  have h₄ := Bool.toNat_lt s.workingDir.isSome
  have h₅ := Bool.toNat_lt s.arguments.isSome
  have h₆ := Bool.toNat_lt s.hasIconLocation
  have h₇ := Bool.toNat_lt s.isUnicode
  have h₈ := s.moreFlags_lt
  unfold Shortcut.flags
  omega

lemma skipIdList_at (l : Option IdList) {flags : ℕ}
    (hflag : hasFlag flags flagLinkTargetIdList = l.isSome)
    (h : LiesAt buf offset (encodeOption IdList.encode l)) :
    skipIdList buf flags offset = some (offset + (encodeOption IdList.encode l).length) := by
  rw [skipIdList, hflag]
  cases l with
  | none => rfl
  | some l =>
    have hitems : inRange buf.length (offset + 2) l.items.length = true := by
      have hrange := h.right.inRange
      rwa [leBytes_length] at hrange
    rw [if_pos Option.isSome_some, h.left.readU16 l.sized]
    simp only [hitems, if_true]
    rw [encodeOption, IdList.encode, List.length_append, leBytes_length, Nat.add_assoc]

lemma readStringData_at {isUnicode : Bool} {count : ℕ} {chars : Bytes} (hcount : count < 2 ^ 16)
    (hchars : chars.length = count * charSize isUnicode)
    (h : LiesAt buf offset (leBytes 2 count ++ chars)) :
    readStringData buf offset isUnicode =
      some (storedChars isUnicode chars, offset + (leBytes 2 count ++ chars).length) := by
  have hright := h.right
  rw [leBytes_length] at hright
  have hrange := hright.inRange
  have htake := hright.take_drop
  unfold charSize at hchars
  rw [hchars] at hrange htake
  rw [readStringData, h.left.readU16 hcount]
  simp only [hrange, htake, if_true]
  rw [List.length_append, leBytes_length, hchars, Nat.add_assoc]

lemma skipString_at {isUnicode : Bool} (b : Option (Block isUnicode)) {flags mask : ℕ}
    (hunicode : hasFlag flags flagIsUnicode = isUnicode) (hflag : hasFlag flags mask = b.isSome)
    (h : LiesAt buf offset (encodeOption Block.encode b)) :
    skipString buf flags mask offset = some (offset + (encodeOption Block.encode b).length) := by
  rw [skipString, hflag, hunicode]
  cases b with
  | none => rfl
  | some b =>
    rw [if_pos Option.isSome_some, readStringData_at b.sized b.chars_length h]
    rfl

lemma storedChars_encodeChars (isUnicode : Bool) {text : Bytes} (h : ∀ c ∈ text, c ≠ 0 ∧ c < 0x80) :
    storedChars isUnicode (encodeChars isUnicode text) = text := by
  induction text with
  | nil => cases isUnicode <;> rfl
  | cons c text ih =>
    have hc : ¬ c ≥ 0x80 := UInt8.not_le.mpr (h c List.mem_cons_self).2
    have htail := ih fun x hx => h x (List.mem_cons_of_mem c hx)
    cases isUnicode with
    | true =>
      have hstored : storedChar true c 0 = c := by simp [storedChar, hc]
      change storedChar true c 0 :: storedChars true (encodeChars true text) = c :: text
      rw [hstored, htail]
    | false =>
      have hstored : storedChar false c 0 = c := by simp [storedChar, hc]
      have hcons : storedChars false (c :: text) = storedChar false c 0 :: storedChars false text := by
        cases text <;> rfl
      change storedChars false (c :: text) = c :: text
      rw [hcons, hstored]
      exact congrArg _ htail

lemma encodeChars_length (isUnicode : Bool) (text : Bytes) :
    (encodeChars isUnicode text).length = text.length * charSize isUnicode := by
  cases isUnicode with
  | true =>
    induction text with
    | nil => rfl
    | cons c text ih =>
      simp only [encodeChars, if_true, List.flatMap_cons, List.length_append, List.length_cons,
        List.length_nil, charSize] at ih ⊢
      omega
  | false => simp [encodeChars, charSize]

lemma readArguments_at {isUnicode : Bool} (a : Option Arguments) {flags : ℕ}
    (hunicode : hasFlag flags flagIsUnicode = isUnicode)
    (hflag : hasFlag flags flagArguments = a.isSome)
    (h : LiesAt buf offset (encodeOption (Arguments.encode isUnicode) a)) :
    readArguments buf flags offset = some ((a.map Arguments.text).getD [],
      offset + (encodeOption (Arguments.encode isUnicode) a).length) := by
  rw [readArguments, hflag, hunicode]
  cases a with
  | none => rfl
  | some a =>
    have hshort : a.text.length < lnkArgsMax := Nat.lt_succ_of_le a.short
    have hread := readStringData_at (Nat.lt_trans hshort (by decide))
      (encodeChars_length isUnicode a.text) h
    rw [if_pos Option.isSome_some, hread, storedChars_encodeChars isUnicode a.ascii, Option.map_some,
      cut_eq_self hshort]
    rfl

lemma LinkInfo.pathBytes_length_le (i : LinkInfo) : i.pathBytes.length ≤ 520 := by
  unfold pathBytes
  cases hpath : i.localBasePath with
  | none => exact Nat.zero_le _
  | some path =>
    have hshort := (i.path_plain path hpath).2
    simp only [List.length_append, List.length_singleton]
    omega

lemma LinkInfo.size_lt (i : LinkInfo) : i.size < 256 ^ 4 := by
  have hpath := i.pathBytes_length_le
  have hsized := i.sized
  unfold size
  omega

lemma LinkInfo.flags_lt (i : LinkInfo) : i.flags < 256 ^ 4 := by
  have hdeclared := Bool.toNat_lt i.localBasePath.isSome
  have hmore := i.moreFlags_lt
  unfold flags
  omega

lemma LinkInfo.encode_length (i : LinkInfo) : i.encode.length = i.size := by
  simp only [encode, List.length_append, leBytes_length, size]
  omega

/-- The path is the string at its offset, read up to the end of the structure. -/
lemma readLocalBasePath_at (i : LinkInfo)
    (hoffset : LiesAt buf (offset + 16) (leBytes 4 i.pathOffset))
    (hpath : LiesAt buf (offset + (28 + i.ahead.length)) (i.pathBytes ++ i.behind)) :
    readLocalBasePath buf offset i.size i.headerSize i.flags = some (i.localBasePath.getD []) := by
  have hsize : offset + i.size =
      offset + (28 + i.ahead.length) + (i.pathBytes ++ i.behind).length := by
    rw [List.length_append, LinkInfo.size]
    omega
  have hrest : (buf.take (offset + i.size)).drop (offset + (28 + i.ahead.length)) =
      i.pathBytes ++ i.behind := by
    rw [hsize, List.drop_take, Nat.add_sub_cancel_left]
    exact hpath.take_drop
  have hflag : hasFlag i.flags infoVolumeAndLocalBasePath = i.localBasePath.isSome := by
    have hdeclared := Bool.toNat_lt i.localBasePath.isSome
    refine hasFlag_eq 0 rfl ?_
    unfold LinkInfo.flags
    omega
  rw [readLocalBasePath, hflag]
  cases hcase : i.localBasePath with
  | none =>
    rw [if_neg (fun h => absurd h.2 (by decide))]
    rfl
  | some path =>
    obtain ⟨hplain, hshort⟩ := i.path_plain path hcase
    have hpathOffset : i.pathOffset = 28 + i.ahead.length := by
      rw [LinkInfo.pathOffset, hcase]
      rfl
    have hpathBytes : i.pathBytes = path ++ [0] := by
      rw [LinkInfo.pathBytes, hcase]
    have hkept : path.length < lnkTargetMax := Nat.lt_succ_of_le hshort
    have hless : i.pathOffset < i.size := by
      rw [hpathOffset, LinkInfo.size, hpathBytes, List.length_append, List.length_singleton]
      omega
    have hread := hoffset.readU32 (Nat.lt_trans hless i.size_lt)
    rw [if_pos ⟨i.headerSize_ge, Option.isSome_some⟩, hread]
    simp only
    rw [if_neg (Nat.not_le.mpr hless), readCstringAnsi,
      if_neg (fun h => h.elim (by omega) (by decide)), hpathOffset, hrest, hpathBytes,
      List.append_assoc, List.singleton_append, cstr_append_zero, cstr_eq_self hplain,
      cut_eq_self hkept]
    rfl

lemma readLinkInfo_at (i : Option LinkInfo) {flags : ℕ}
    (hflag : hasFlag flags flagLinkInfo = i.isSome)
    (h : LiesAt buf offset (encodeOption LinkInfo.encode i)) :
    readLinkInfo buf flags offset = some ((i.bind LinkInfo.localBasePath).getD [],
      offset + (encodeOption LinkInfo.encode i).length) := by
  rw [readLinkInfo, hflag]
  cases i with
  | none => rfl
  | some i =>
    have hwhole : inRange buf.length offset i.size = true := by
      have hrange := h.inRange
      rwa [encodeOption, i.encode_length] at hrange
    have hsecond := h.right
    have hthird := hsecond.right
    have hfourth := hthird.right
    have hfifth := hfourth.right
    have hpath := hfifth.right.right.right.right
    simp only [leBytes_length, Nat.add_assoc, Nat.reduceAdd] at hsecond hthird hfifth hpath
    have hfour : ¬ i.size < 4 := by
      unfold LinkInfo.size
      omega
    rw [if_pos Option.isSome_some, h.left.readU32 i.size_lt]
    simp only [hwhole, hfour, Bool.not_true, Bool.false_or, decide_false, Bool.false_eq_true, if_false]
    rw [hsecond.left.readU32 i.headerSize_lt, hthird.left.readU32 i.flags_lt]
    have hlocal := readLocalBasePath_at i hfifth.left hpath
    simp only [hlocal, Option.map_some, Option.bind_some, encodeOption, i.encode_length]

lemma Shortcut.header_length (s : Shortcut) : s.header.length = lnkHeaderSize := by
  have hattributes := s.attributes_length
  have hclsid : shellLinkClsid.length = 16 := rfl
  simp only [header, List.length_append, leBytes_length, lnkHeaderSize]
  omega

/-- The sections follow each other, and each reader ends where the next section starts. -/
theorem parseLnk_encode (s : Shortcut) (extra : Bytes) :
    parseLnk (s.encode ++ extra) =
      some ({ target := s.target, arguments := s.argumentText }, s.encode.length) := by
  obtain ⟨hidList, hlinkInfo, hname, hrelative, hworking, harguments, hunicode⟩ := s.hasFlags
  have hwhole : LiesAt (s.encode ++ extra) 0 s.encode := .self _ _
  have hclsid := hwhole.left.right.left
  have hflags := hwhole.left.right.right.left
  have h₁ := hwhole.right
  have h₂ := h₁.right
  have h₃ := h₂.right
  have h₄ := h₃.right
  have h₅ := h₄.right
  have h₆ := h₅.right
  have hmagic := hclsid.take_drop
  have hlength : shellLinkClsid.length = 16 := rfl
  have hlong := hwhole.left.fits
  simp only [leBytes_length, hlength, Nat.zero_add, Nat.reduceAdd] at hmagic hflags
  simp only [s.header_length, Nat.zero_add] at h₁ h₂ h₃ h₄ h₅ h₆ hlong
  have hheader : readU32 (s.encode ++ extra) 0 = some lnkHeaderSize :=
    hwhole.left.left.readU32 (by decide)
  rw [parseLnk, if_neg (Nat.not_lt.mpr hlong), hheader]
  simp only [Option.bind_eq_bind, Option.bind_some]
  rw [if_neg (not_not_intro rfl), if_neg (not_not_intro hmagic), hflags.readU32 s.flags_lt,
    Option.bind_some, skipIdList_at s.idList hidList h₁.left, Option.bind_some,
    readLinkInfo_at s.linkInfo hlinkInfo h₂.left, Option.bind_some,
    skipString_at s.name hunicode hname h₃.left, Option.bind_some,
    skipString_at s.relativePath hunicode hrelative h₄.left, Option.bind_some,
    skipString_at s.workingDir hunicode hworking h₅.left, Option.bind_some,
    readArguments_at s.arguments hunicode harguments h₆, Option.bind_some]
  refine congrArg some (Prod.ext rfl ?_)
  simp only [Shortcut.encode, List.length_append, s.header_length, Nat.add_assoc]

end Decode

/-! ### Shortcuts that are cut off

What the parser accepts it accepts with more bytes behind, and to the same end. -/

section Longer
variable {buf : Bytes} (rest : Bytes) {offset : ℕ}

lemma take_drop_append {count : ℕ} (h : offset + count ≤ buf.length) :
    ((buf ++ rest).drop offset).take count = (buf.drop offset).take count := by
  rw [List.drop_append_of_le_length (by omega), List.take_append_of_le_length]
  rw [List.length_drop]
  omega

lemma inRange_append {count : ℕ} (h : inRange buf.length offset count = true) :
    inRange (buf ++ rest).length offset count = true := by
  rw [Traced.inRange_iff] at h ⊢
  rw [List.length_append]
  omega

lemma readU16_append {value : ℕ} (h : readU16 buf offset = some value) :
    readU16 (buf ++ rest) offset = some value := by
  unfold readU16 at h ⊢
  split_ifs at h with hrange
  rw [if_pos (inRange_append rest hrange),
    take_drop_append rest ((Traced.inRange_iff _ _ _).mp hrange)]
  exact h

lemma readU32_append {value : ℕ} (h : readU32 buf offset = some value) :
    readU32 (buf ++ rest) offset = some value := by
  unfold readU32 at h ⊢
  split_ifs at h with hrange
  rw [if_pos (inRange_append rest hrange),
    take_drop_append rest ((Traced.inRange_iff _ _ _).mp hrange)]
  exact h

lemma skipIdList_append {flags behind : ℕ} (h : skipIdList buf flags offset = some behind) :
    skipIdList (buf ++ rest) flags offset = some behind := by
  unfold skipIdList at h ⊢
  by_cases hflag : hasFlag flags flagLinkTargetIdList = true
  · rw [if_pos hflag] at h ⊢
    cases hsize : readU16 buf offset with
    | none => simp [hsize] at h
    | some size =>
      simp only [hsize] at h
      split_ifs at h with hrange
      rw [readU16_append rest hsize]
      simp only
      rw [if_pos (inRange_append rest hrange), h]
  · rw [if_neg hflag] at h ⊢
    exact h

lemma readLocalBasePath_append {infoSize headerSize infoFlags : ℕ} {path : Bytes}
    (hinfo : offset + infoSize ≤ buf.length)
    (h : readLocalBasePath buf offset infoSize headerSize infoFlags = some path) :
    readLocalBasePath (buf ++ rest) offset infoSize headerSize infoFlags = some path := by
  unfold readLocalBasePath at h ⊢
  split_ifs at h ⊢ with hdeclared
  · cases hfield : readU32 buf (offset + 16) with
    | none => simp [hfield] at h
    | some pathOff =>
      rw [readU32_append rest hfield]
      simp only [hfield] at h ⊢
      unfold readCstringAnsi at h ⊢
      rwa [List.take_append_of_le_length hinfo]
  · exact h

lemma readLinkInfo_append {flags : ℕ} {r : Bytes × ℕ} (h : readLinkInfo buf flags offset = some r) :
    readLinkInfo (buf ++ rest) flags offset = some r := by
  unfold readLinkInfo at h ⊢
  by_cases hflag : hasFlag flags flagLinkInfo = true
  · rw [if_pos hflag] at h ⊢
    cases hsize : readU32 buf offset with
    | none => simp [hsize] at h
    | some infoSize =>
      simp only [hsize] at h
      by_cases hbad : (!inRange buf.length offset infoSize || decide (infoSize < 4)) = true
      · rw [if_pos hbad] at h
        exact nomatch h
      · rw [if_neg hbad] at h
        simp only [Bool.or_eq_true, Bool.not_eq_true', not_or, Bool.not_eq_false] at hbad
        have hgood : ¬ (!inRange (buf ++ rest).length offset infoSize ||
            decide (infoSize < 4)) = true := by
          simp only [inRange_append rest hbad.1, Bool.not_true, Bool.false_or]
          exact hbad.2
        rw [readU32_append rest hsize]
        simp only
        rw [if_neg hgood]
        cases hheader : readU32 buf (offset + 4) with
        | none => simp [hheader] at h
        | some headerSize =>
          cases hflags : readU32 buf (offset + 8) with
          | none => simp [hheader, hflags] at h
          | some infoFlags =>
            simp only [hheader, hflags] at h
            obtain ⟨path, hpath, rfl⟩ := Option.map_eq_some_iff.mp h
            rw [readU32_append rest hheader, readU32_append rest hflags]
            simp only
            rw [readLocalBasePath_append rest ((Traced.inRange_iff _ _ _).mp hbad.1) hpath,
              Option.map_some]
  · rw [if_neg hflag] at h ⊢
    exact h

lemma readStringData_append {isUnicode : Bool} {r : Bytes × ℕ}
    (h : readStringData buf offset isUnicode = some r) :
    readStringData (buf ++ rest) offset isUnicode = some r := by
  unfold readStringData at h ⊢
  cases hcount : readU16 buf offset with
  | none => simp [hcount] at h
  | some count =>
    rw [readU16_append rest hcount]
    simp only [hcount] at h ⊢
    by_cases hrange : inRange buf.length (offset + 2) (count * if isUnicode then 2 else 1) = true
    · rw [if_pos hrange] at h
      rw [if_pos (inRange_append rest hrange),
        take_drop_append rest ((Traced.inRange_iff _ _ _).mp hrange)]
      exact h
    · rw [if_neg hrange] at h
      exact nomatch h

lemma skipString_append {flags mask behind : ℕ} (h : skipString buf flags mask offset = some behind) :
    skipString (buf ++ rest) flags mask offset = some behind := by
  unfold skipString at h ⊢
  split_ifs at h ⊢
  · obtain ⟨r, hr, rfl⟩ := Option.map_eq_some_iff.mp h
    rw [readStringData_append rest hr, Option.map_some]
  · exact h

lemma readArguments_append {flags : ℕ} {r : Bytes × ℕ}
    (h : readArguments buf flags offset = some r) :
    readArguments (buf ++ rest) flags offset = some r := by
  unfold readArguments at h ⊢
  split_ifs at h ⊢
  · obtain ⟨data, hdata, rfl⟩ := Option.map_eq_some_iff.mp h
    rw [readStringData_append rest hdata, Option.map_some]
  · exact h

theorem parseLnk_append {r : Parsed × ℕ} (h : parseLnk buf = some r) :
    parseLnk (buf ++ rest) = some r := by
  unfold parseLnk at h ⊢
  simp only [Option.bind_eq_bind] at h ⊢
  by_cases hshort : buf.length < lnkHeaderSize
  · rw [if_pos hshort] at h
    exact nomatch h
  have hlong : ¬ (buf ++ rest).length < lnkHeaderSize := by
    rw [List.length_append]
    omega
  have hclsidRange : 4 + 16 ≤ buf.length := by
    unfold lnkHeaderSize at hshort
    omega
  rw [if_neg hshort] at h
  rw [if_neg hlong, take_drop_append rest hclsidRange]
  obtain ⟨headerSize, hheader, h⟩ := Option.bind_eq_some_iff.mp h
  rw [readU32_append rest hheader, Option.bind_some]
  by_cases hsize : headerSize ≠ lnkHeaderSize
  · rw [if_pos hsize] at h
    exact nomatch h
  rw [if_neg hsize] at h ⊢
  by_cases hclsid : (buf.drop 4).take 16 ≠ shellLinkClsid
  · rw [if_pos hclsid] at h
    exact nomatch h
  rw [if_neg hclsid] at h ⊢
  obtain ⟨flags, hflags, h⟩ := Option.bind_eq_some_iff.mp h
  obtain ⟨o₁, hidList, h⟩ := Option.bind_eq_some_iff.mp h
  obtain ⟨info, hinfo, h⟩ := Option.bind_eq_some_iff.mp h
  obtain ⟨o₃, hname, h⟩ := Option.bind_eq_some_iff.mp h
  obtain ⟨o₄, hrelative, h⟩ := Option.bind_eq_some_iff.mp h
  obtain ⟨o₅, hworking, h⟩ := Option.bind_eq_some_iff.mp h
  obtain ⟨arguments, harguments, h⟩ := Option.bind_eq_some_iff.mp h
  rw [readU32_append rest hflags, Option.bind_some, skipIdList_append rest hidList,
    Option.bind_some, readLinkInfo_append rest hinfo, Option.bind_some,
    skipString_append rest hname, Option.bind_some, skipString_append rest hrelative,
    Option.bind_some, skipString_append rest hworking, Option.bind_some,
    readArguments_append rest harguments, Option.bind_some, h]

end Longer

/-- The arguments are kept without a NUL among them. -/
lemma Shortcut.cstr_argumentText (s : Shortcut) : cstr s.argumentText = s.argumentText := by
  unfold argumentText
  cases s.arguments with
  | none => rfl
  | some a => exact cstr_eq_self fun hzero => (a.ascii 0 hzero).1 rfl

/-- A shortcut is decoded to its target and its arguments, whatever follows its sections, and is
malformed when it ends anywhere before. -/
theorem parseLnk_decodes (s : Shortcut) (extra : Bytes) :
    (∃ p, parseLnk (s.encode ++ extra) = some (p, s.encode.length) ∧ p.target = s.target ∧
        p.argumentText = s.argumentText) ∧
      ∀ n < s.encode.length, parseLnk ((s.encode ++ extra).take n) = none := by
  refine ⟨⟨_, parseLnk_encode s extra, rfl, s.cstr_argumentText⟩, ?_⟩
  intro n hn
  rw [List.take_append_of_le_length (Nat.le_of_lt hn)]
  cases hparse : parseLnk (s.encode.take n) with
  | none => rfl
  | some r =>
    have hwhole := parseLnk_append (s.encode.drop n) hparse
    have hdecoded := parseLnk_encode s []
    rw [List.take_append_drop] at hwhole
    rw [List.append_nil, hwhole] at hdecoded
    have hend : r.2 = s.encode.length := congrArg Prod.snd (Option.some.inj hdecoded)
    have hle := parseLnk_le hparse
    rw [hend, List.length_take] at hle
    omega

/-- The shortcut to `C:\cmd.exe`, section by section. -/
def cmdShortcut : Shortcut where
  isUnicode := true
  hasIconLocation := false
  moreFlags := 0
  attributes := List.replicate 52 0
  idList := some { items := [31, 80, 0, 0], sized := by decide }
  linkInfo := some
    { headerSize := 28
      moreFlags := 0
      volumeIdOffset := 0
      commonNetworkOffset := 0
      commonSuffixOffset := 0
      ahead := [9, 9, 9]
      localBasePath := some (ascii "C:\\cmd.exe")
      behind := [7]
      headerSize_ge := by decide
      headerSize_lt := by decide
      moreFlags_lt := by decide
      path_plain := by decide
      sized := by decide }
  name := some { count := 1, chars := [110, 0], sized := by decide, chars_length := rfl }
  relativePath := some { count := 2, chars := [46, 0, 92, 0], sized := by decide, chars_length := rfl }
  workingDir := some { count := 1, chars := [67, 0], sized := by decide, chars_length := rfl }
  arguments := some { text := ascii "/c", ascii := by decide +kernel, short := by decide }
  moreFlags_lt := by decide
  attributes_length := List.length_replicate

example : cmdShortcut.encode = fullShortcut := by decide +kernel

end UsbSentinel.LnkInspect
