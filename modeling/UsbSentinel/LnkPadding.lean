import UsbSentinel.ScanReads
import UsbSentinel.Verdict

/-! What the shortcut rules see of a shortcut's strings: bounded copies, the arguments only
up to a NUL. A word behind that is not found. -/
namespace UsbSentinel.LnkInspect
open ByteString

/-! ### Where the strings lie -/

/-- The strings of a shortcut, whole: the local base path up to its NUL, and the bytes of the
arguments block. -/
structure Strings where
  localBasePath : Bytes := []
  isUnicode : Bool := false
  arguments : Bytes := []
  deriving DecidableEq, Repr

def locateBasePath (buf : Bytes) (offset infoSize headerSize infoFlags : ℕ) : Option Bytes :=
  if 0x1C ≤ headerSize ∧ hasFlag infoFlags infoVolumeAndLocalBasePath then
    match readU32 buf (offset + 16) with
    | none => none
    | some pathOff =>
      if pathOff ≥ infoSize then none
      else some (cstr ((buf.take (offset + infoSize)).drop (offset + pathOff)))
  else some []

def locateLinkInfo (buf : Bytes) (flags offset : ℕ) : Option (Bytes × ℕ) :=
  if hasFlag flags flagLinkInfo then
    match readU32 buf offset with
    | none => none
    | some infoSize =>
      if !inRange buf.length offset infoSize || infoSize < 4 then none
      else
        match readU32 buf (offset + 4), readU32 buf (offset + 8) with
        | some headerSize, some infoFlags =>
          (locateBasePath buf offset infoSize headerSize infoFlags).map fun path =>
            (path, offset + infoSize)
        | _, _ => none
  else some ([], offset)

def locateArguments (buf : Bytes) (flags offset : ℕ) : Option (Bytes × ℕ) :=
  if hasFlag flags flagArguments then
    match readU16 buf offset with
    | none => none
    | some count =>
      let byteLen := count * if hasFlag flags flagIsUnicode then 2 else 1
      if inRange buf.length (offset + 2) byteLen then
        some ((buf.drop (offset + 2)).take byteLen, offset + 2 + byteLen)
      else none
  else some ([], offset)

/-- The strings of a well-formed shortcut, and the offset behind them. -/
def locate (buf : Bytes) : Option (Strings × ℕ) := do
  if buf.length < lnkHeaderSize then none
  else
    let headerSize ← readU32 buf 0
    if headerSize ≠ lnkHeaderSize then none
    else if (buf.drop 4).take 16 ≠ shellLinkClsid then none
    else
      let flags ← readU32 buf 20
      let offset ← skipIdList buf flags lnkHeaderSize
      let (localBasePath, offset) ← locateLinkInfo buf flags offset
      let offset ← skipString buf flags flagName offset
      let offset ← skipString buf flags flagRelativePath offset
      let offset ← skipString buf flags flagWorkingDir offset
      let (arguments, offset) ← locateArguments buf flags offset
      some ({ localBasePath, isUnicode := hasFlag flags flagIsUnicode, arguments }, offset)

/-- The copies that the parser keeps. -/
def Strings.kept (s : Strings) : Parsed where
  target := cut lnkTargetMax s.localBasePath
  arguments := cut lnkArgsMax (storedChars s.isUnicode s.arguments)

lemma readLocalBasePath_eq (buf : Bytes) (offset infoSize headerSize infoFlags : ℕ) :
    readLocalBasePath buf offset infoSize headerSize infoFlags =
      (locateBasePath buf offset infoSize headerSize infoFlags).map (cut lnkTargetMax) := by
  unfold readLocalBasePath locateBasePath
  split_ifs with hdeclared
  · cases readU32 buf (offset + 16) with
    | none => rfl
    | some pathOff =>
      simp only
      split_ifs with hrange
      · rfl
      · have hbound : ¬ (offset + pathOff > offset + infoSize ∨ lnkTargetMax = 0) := by
          unfold lnkTargetMax
          omega
        rw [readCstringAnsi, if_neg hbound]
        rfl
  · rfl

lemma readLinkInfo_eq (buf : Bytes) (flags offset : ℕ) :
    readLinkInfo buf flags offset =
      (locateLinkInfo buf flags offset).map fun r => (cut lnkTargetMax r.1, r.2) := by
  unfold readLinkInfo locateLinkInfo
  split_ifs with hflag
  · cases readU32 buf offset with
    | none => rfl
    | some infoSize =>
      simp only
      split_ifs
      · rfl
      · cases readU32 buf (offset + 4) with
        | none => rfl
        | some headerSize =>
          cases readU32 buf (offset + 8) with
          | none => rfl
          | some infoFlags =>
            simp [readLocalBasePath_eq, Function.comp_def]
  · rfl

lemma readArguments_eq (buf : Bytes) (flags offset : ℕ) :
    readArguments buf flags offset =
      (locateArguments buf flags offset).map fun r =>
        (cut lnkArgsMax (storedChars (hasFlag flags flagIsUnicode) r.1), r.2) := by
  unfold readArguments locateArguments readStringData
  by_cases hflag : hasFlag flags flagArguments = true
  · rw [if_pos hflag, if_pos hflag]
    cases readU16 buf offset with
    | none => rfl
    | some count =>
      simp only
      by_cases hrange : inRange buf.length (offset + 2)
          (count * if hasFlag flags flagIsUnicode then 2 else 1) = true
      · rw [if_pos hrange, if_pos hrange]
        rfl
      · rw [if_neg hrange, if_neg hrange]
        rfl
  · rw [if_neg hflag, if_neg hflag]
    have hnil : storedChars (hasFlag flags flagIsUnicode) [] = [] := by simp [storedChars]
    rw [Option.map_some, hnil]
    rfl

/-- The parser accepts what can be located, and keeps its copies. -/
theorem parseLnk_eq (buf : Bytes) :
    parseLnk buf = (locate buf).map fun r => (r.1.kept, r.2) := by
  unfold parseLnk locate
  by_cases hshort : buf.length < lnkHeaderSize
  · rw [if_pos hshort, if_pos hshort]
    rfl
  · rw [if_neg hshort, if_neg hshort]
    cases readU32 buf 0 with
    | none => rfl
    | some headerSize =>
      simp only [Option.bind_eq_bind, Option.bind_some]
      by_cases hheader : headerSize ≠ lnkHeaderSize
      · rw [if_pos hheader, if_pos hheader]
        rfl
      · rw [if_neg hheader, if_neg hheader]
        by_cases hclsid : (buf.drop 4).take 16 ≠ shellLinkClsid
        · rw [if_pos hclsid, if_pos hclsid]
          rfl
        · rw [if_neg hclsid, if_neg hclsid]
          simp [readLinkInfo_eq, readArguments_eq, Strings.kept, Option.map_bind,
            Option.bind_map]

/-! ### Words in the arguments -/

/-- The characters of the block; what is not ASCII has none. -/
def units (isUnicode : Bool) : Bytes → List (Option UInt8)
  | [] => []
  | low :: rest =>
    if isUnicode then
      match rest with
      | [] => []
      | high :: rest => (if high = 0 ∧ low < 0x80 then some low else none) :: units true rest
    else (if low < 0x80 then some low else none) :: units false rest

/-- The word stands in a row of characters, in either case. -/
def Spells (chars : List (Option UInt8)) (word : Bytes) : Prop :=
  ∃ before letters after, chars = before ++ letters.map some ++ after ∧ equalsCi letters word = true

/-- The strings hold what the rules look for. -/
def Suspicious (chars : List (Option UInt8)) (localBasePath : Bytes) : Prop :=
  (∃ marker ∈ argumentMarkers, Spells chars marker) ∨
    ∃ interpreter ∈ interpreterBasenames,
      equalsCi (basenameOf localBasePath) interpreter = true

/-- What is left of the characters: the first 1023, up to a NUL. -/
def shown (chars : List (Option UInt8)) : List (Option UInt8) :=
  (chars.take (lnkArgsMax - 1)).takeWhile (· ≠ some 0)

lemma storedChars_eq (isUnicode : Bool) (block : Bytes) :
    storedChars isUnicode block = (units isUnicode block).map fun c => c.getD 63 := by
  fun_induction units isUnicode block with
  | case1 => rfl
  | case2 low => simp [storedChars]
  | case3 low high rest ih =>
    have hchar : storedChar true low high =
        (if high = 0 ∧ low < 0x80 then some low else none).getD 63 := by
      unfold storedChar
      simp only [if_true]
      by_cases hascii : high = 0 ∧ low < 0x80
      · rw [if_pos hascii, if_neg (by simp [hascii.1, UInt8.not_le.mpr hascii.2])]
        rfl
      · rw [if_neg hascii, if_pos (by
          by_cases hhigh : high = 0
          · exact .inr (UInt8.not_lt.mp fun h => hascii ⟨hhigh, h⟩)
          · exact .inl hhigh)]
        rfl
    simp only [storedChars, if_true, List.map_cons, ih, hchar]
  | case4 isUnicode low rest hansi ih =>
    have hfalse : isUnicode = false := by simpa using hansi
    subst hfalse
    have hchar : storedChar false low 0 = (if low < 0x80 then some low else none).getD 63 := by
      unfold storedChar
      simp only [Bool.false_eq_true, if_false]
      by_cases hascii : low < 0x80
      · rw [if_pos hascii, if_neg (UInt8.not_le.mpr hascii)]
        rfl
      · rw [if_neg hascii, if_pos (UInt8.not_lt.mp hascii)]
        rfl
    have hstored : storedChars false (low :: rest) =
        storedChar false low 0 :: storedChars false rest := by
      cases rest <;> rfl
    rw [hstored, hchar, ih, List.map_cons]

lemma cstr_map_getD (chars : List (Option UInt8)) :
    cstr (chars.map fun c => c.getD 63) =
      (chars.takeWhile (· ≠ some 0)).map fun c => c.getD 63 := by
  have hzero : ∀ c : Option UInt8, (c.getD 63 ≠ 0) ↔ c ≠ some 0 := by
    intro c
    cases c with
    | none => simp
    | some c => simp
  unfold cstr
  rw [List.takeWhile_map]
  congr 2
  funext c
  simpa using (hzero c).not

/-- The text the rules search is what is shown of the block. -/
lemma argumentText_kept (s : Strings) :
    s.kept.argumentText = (shown (units s.isUnicode s.arguments)).map fun c => c.getD 63 := by
  have htext : s.kept.argumentText =
      cstr ((storedChars s.isUnicode s.arguments).take (lnkArgsMax - 1)) := rfl
  rw [htext, storedChars_eq, ← List.map_take, cstr_map_getD]
  rfl

lemma lowerAscii_question : ∀ c : UInt8, lowerAscii c = 63 → c = 63 := by decide +kernel

/-- A word without a question mark is found exactly where it is spelt. -/
lemma spells_iff {chars : List (Option UInt8)} {word : Bytes} (hne : word ≠ [])
    (hquestion : (63 : UInt8) ∉ word) :
    Spells chars word ↔ containsCi (chars.map fun c => c.getD 63) word = true := by
  rw [containsCi_iff]
  constructor
  · rintro ⟨before, letters, after, rfl, heq⟩
    refine ⟨hne, before.map fun c => c.getD 63, letters, after.map fun c => c.getD 63, ?_, heq⟩
    simp [Function.comp_def]
  · rintro ⟨_, before, letters, after, hsplit, heq⟩
    obtain ⟨front, back, rfl, hfront, hback⟩ := List.map_eq_append_iff.mp hsplit
    obtain ⟨start, middle, rfl, hstart, hmiddle⟩ := List.map_eq_append_iff.mp hfront
    refine ⟨start, letters, back, ?_, heq⟩
    have hsome : middle = letters.map some := by
      rw [← hmiddle, List.map_map]
      refine (List.map_id middle).symm.trans (List.map_congr_left fun c hc => ?_)
      cases c with
      | some c => rfl
      | none =>
        exfalso
        have hmem : (63 : UInt8) ∈ letters := by
          rw [← hmiddle]
          exact List.mem_map.mpr ⟨none, hc, rfl⟩
        have hlower : (63 : UInt8) ∈ word.map lowerAscii := by
          rw [← of_decide_eq_true heq]
          exact List.mem_map.mpr ⟨63, hmem, rfl⟩
        obtain ⟨d, hd, hlowered⟩ := List.mem_map.mp hlower
        rw [lowerAscii_question d hlowered] at hd
        exact hquestion hd
    rw [hsome]

lemma markers_plain : ∀ marker ∈ argumentMarkers, marker ≠ [] ∧ (63 : UInt8) ∉ marker := by
  decide

lemma matchedMarker_iff (s : Strings) :
    (matchedMarker s.kept).isSome = true ↔
      ∃ marker ∈ argumentMarkers, Spells (shown (units s.isUnicode s.arguments)) marker := by
  have hfind : (argumentMarkers.find? (containsCi s.kept.argumentText)).isSome = true ↔
      ∃ marker ∈ argumentMarkers, Spells (shown (units s.isUnicode s.arguments)) marker := by
    rw [List.find?_isSome]
    refine exists_congr fun marker => and_congr_right fun hmarker => ?_
    obtain ⟨hne, hquestion⟩ := markers_plain marker hmarker
    rw [spells_iff hne hquestion, ← argumentText_kept]
  rw [← hfind, matchedMarker]
  by_cases hhave : s.kept.haveArguments = true
  · rw [if_pos hhave]
  · rw [if_neg hhave]
    refine iff_of_false (by simp) ?_
    have hnil : s.kept.argumentText = [] := by
      simpa [Parsed.haveArguments] using hhave
    rw [hnil]
    decide

lemma targetsInterpreter_iff (s : Strings) :
    targetsInterpreter s.kept = true ↔
      ∃ interpreter ∈ interpreterBasenames,
        equalsCi (basenameOf (cut lnkTargetMax s.localBasePath)) interpreter = true := by
  have htarget : s.kept.target = cut lnkTargetMax s.localBasePath := rfl
  unfold targetsInterpreter Parsed.haveTarget
  rw [Bool.and_eq_true, List.any_eq_true, decide_eq_true_eq, htarget]
  refine and_iff_right_of_imp ?_
  rintro ⟨interpreter, hinterpreter, heq⟩ hnil
  rw [hnil] at heq
  revert interpreter
  decide

/-! ### The finding -/

/-- The shortcut is read to the end, and there is room for a finding. -/
structure Inspected (host : ScanHost) (fullPath content : Bytes) (entry : DirEntry) (w : World) :
    Prop where
  shortcut : hasLnkExtension entry.name = true
  listed : entry.sizeBytes.toNat ≤ lnkMaxRead
  small : content.length ≤ lnkMaxRead
  malloc : host.malloc w.trace = true
  opened : ∃ file, host.fileOpen w.trace fullPath = .ok file ∧ file.failAt = none ∧
    file.content = content
  room : ∀ n, host.findingMemory (w.record (.fileOpen fullPath)).trace n = true

def PushedHigh (before after : CheckResult) : Prop :=
  ∃ finding, after.findings.items = before.findings.items ++ [finding] ∧ finding.severity = .high

lemma not_pushedHigh {before after : CheckResult}
    (h : after.findings.items = before.findings.items) : ¬ PushedHigh before after := by
  rintro ⟨finding, hpushed, _⟩
  have hlength := congrArg List.length hpushed
  rw [h, List.length_append, List.length_singleton] at hlength
  omega

lemma addFinding_pushedHigh {grow : ℕ → Bool} (hgrow : ∀ n, grow n = true) (r : CheckResult)
    (path message : Bytes) : PushedHigh r (r.addFinding grow .high path message) :=
  ⟨_, CheckResult.addFinding_items hgrow r .high path message, rfl⟩

/-- Where the location policy has no say, a finding is pushed for what is shown. -/
theorem judged_pushedHigh_iff {content : Bytes} {s : Strings} {stop : ℕ}
    (hvalid : locate content = some (s, stop)) {grow : ℕ → Bool} (hgrow : ∀ n, grow n = true)
    (path : Bytes) (sha256Hex : Option Bytes) (result : CheckResult) :
    PushedHigh result ((judged .none content sha256Hex).apply grow path result) ↔
      Suspicious (shown (units s.isUnicode s.arguments)) (cut lnkTargetMax s.localBasePath) := by
  rw [Suspicious, ← matchedMarker_iff, ← targetsInterpreter_iff, judged, parseLnk_eq, hvalid]
  simp only [Option.map_some]
  have hpolicy : (decide (LnkPolicy.none = LnkPolicy.suppressAll) ||
      (decide (LnkPolicy.none = LnkPolicy.attackShape) &&
        !(targetsInterpreter s.kept && (matchedMarker s.kept).isSome))) = false := rfl
  rw [hpolicy]
  by_cases hfound : (targetsInterpreter s.kept || (matchedMarker s.kept).isSome) = true
  · rw [if_pos hfound]
    simp only [Bool.false_eq_true, if_false, Verdict.apply_finding]
    refine iff_of_true (addFinding_pushedHigh hgrow _ _ _) ?_
    rwa [Bool.or_eq_true, or_comm] at hfound
  · rw [if_neg hfound, show ({} : Verdict) = { suppressed := false } from rfl,
      Verdict.apply_silent]
    refine iff_of_false (not_pushedHigh rfl) ?_
    rwa [Bool.or_eq_true, or_comm] at hfound

theorem onFile_pushedHigh_iff {host : ScanHost} {fullPath content : Bytes} {entry : DirEntry}
    {w : World} (h : Inspected host fullPath content entry w) {device : Device}
    (hplace : lnkPolicyFor device (Location.relative device.volumePath fullPath) = .none)
    {s : Strings} {stop : ℕ} (hvalid : locate content = some (s, stop)) (result : CheckResult) :
    PushedHigh result (onFile host device result fullPath entry w).1 ↔
      Suspicious (shown (units s.isUnicode s.arguments)) (cut lnkTargetMax s.localBasePath) := by
  obtain ⟨file, hopen, hsound, rfl⟩ := h.opened
  have hlisted : ¬ entry.sizeBytes.toNat > lnkMaxRead := not_lt.mpr h.listed
  have hread : (readCapped lnkMaxRead file).1 = file.content := by
    rw [readCapped_sound hsound, List.take_of_length_le h.small]
  have hexamined : examine host .none fullPath entry w =
      (judged .none file.content
        (if host.hashBegin (w.record (.fileOpen fullPath)).trace &&
            host.hashFinish (w.record (.fileOpen fullPath)).trace
          then some (host.sha256Hex file.content) else none),
        w.record (.fileOpen fullPath)) := by
    unfold examine World.fileOpen
    simp only [h.shortcut, Bool.not_true, Bool.false_eq_true, if_false, hlisted, h.malloc, hopen,
      hread]
  rw [onFile_eq host device result fullPath entry w .none hplace, hexamined]
  exact judged_pushedHigh_iff hvalid h.room _ _ _

theorem padding_iff {host : ScanHost} {fullPath content : Bytes} {entry : DirEntry} {w : World}
    (h : Inspected host fullPath content entry w) {device : Device}
    (hplace : lnkPolicyFor device (Location.relative device.volumePath fullPath) = .none)
    {s : Strings} {stop : ℕ} (hvalid : locate content = some (s, stop)) (result : CheckResult) :
    (Suspicious (units s.isUnicode s.arguments) s.localBasePath →
        PushedHigh result (onFile host device result fullPath entry w).1) ↔
      (Suspicious (units s.isUnicode s.arguments) s.localBasePath →
        Suspicious (shown (units s.isUnicode s.arguments))
          (cut lnkTargetMax s.localBasePath)) := by
  rw [onFile_pushedHigh_iff h hplace hvalid]

/-- A shortcut that holds nothing but ANSI arguments. -/
def shortcutOf (arguments : Bytes) : Bytes :=
  [0x4C, 0, 0, 0] ++ shellLinkClsid ++ [0x20, 0, 0, 0] ++ List.replicate 52 0 ++
    [(arguments.length % 256).toUInt8, (arguments.length / 256).toUInt8] ++ arguments

def shortcutHost (arguments : Bytes) : ScanHost :=
  { ScanHost.blank with fileOpen := fun _ _ => .ok { content := shortcutOf arguments } }

def shortcutEntry (arguments : Bytes) : DirEntry :=
  { name := ascii "a.lnk", sizeBytes := (shortcutOf arguments).length.toUInt64 }

def stick : Device := { volumePath := ascii "/v" }

lemma shortcut_inspected {arguments : Bytes} (h : arguments.length < 2000) :
    Inspected (shortcutHost arguments) (ascii "/v/a.lnk") (shortcutOf arguments)
      (shortcutEntry arguments) {} := by
  have hlength : (shortcutOf arguments).length = 78 + arguments.length := by
    unfold shortcutOf shellLinkClsid
    simp only [List.length_append, List.length_cons, List.length_nil, List.length_replicate]
  have hlisted : (shortcutEntry arguments).sizeBytes.toNat = 78 + arguments.length := by
    unfold shortcutEntry
    simp only [hlength, Nat.toUInt64, UInt64.toNat_ofNat']
    omega
  have hsmall : 78 + arguments.length ≤ lnkMaxRead := by
    unfold lnkMaxRead
    omega
  refine ⟨rfl, ?_, ?_, rfl, ⟨_, rfl, rfl, rfl⟩, fun _ => rfl⟩
  · rw [hlisted]
    exact hsmall
  · rw [hlength]
    exact hsmall

/-- A marker in front is found. -/
theorem shown_marker :
    PushedHigh (CheckResult.init lnkInspectId)
      (onFile (shortcutHost (ascii "-Enc")) stick (CheckResult.init lnkInspectId)
        (ascii "/v/a.lnk") (shortcutEntry (ascii "-Enc")) {}).1 := by
  have hlocated : locate (shortcutOf (ascii "-Enc")) =
      some ({ arguments := ascii "-Enc" }, 82) := by decide +kernel
  have hspelt : ∀ path, Suspicious (units false (ascii "-Enc")) path := fun path =>
    .inl ⟨ascii "-enc", by decide +kernel, [], ascii "-Enc", [], by decide +kernel,
      by decide +kernel⟩
  refine (padding_iff (shortcut_inspected (by decide)) rfl hlocated _).mpr (fun _ => ?_)
    (hspelt _)
  have hshown : shown (units false (ascii "-Enc")) = units false (ascii "-Enc") := by
    decide +kernel
  rw [hshown]
  exact hspelt _

lemma not_spells_replicate (n : ℕ) (c : UInt8) {word : Bytes}
    (hword : ∃ d ∈ word, lowerAscii d ≠ lowerAscii c) :
    ¬ Spells (List.replicate n (some c)) word := by
  rintro ⟨before, letters, after, hsplit, heq⟩
  obtain ⟨d, hd, hne⟩ := hword
  have hlower : lowerAscii d ∈ letters.map lowerAscii := by
    rw [of_decide_eq_true heq]
    exact List.mem_map_of_mem hd
  obtain ⟨e, he, hlowered⟩ := List.mem_map.mp hlower
  have hmem : some e ∈ List.replicate n (some c) := by
    rw [hsplit]
    simp [he]
  have hec : e = c := by simpa using List.eq_of_mem_replicate hmem
  rw [hec] at hlowered
  exact hne hlowered.symm

lemma units_replicate (n : ℕ) (block : Bytes) :
    units false (List.replicate n 32 ++ block) =
      List.replicate n (some 32) ++ units false block := by
  induction n with
  | zero => rfl
  | succ n ih =>
    have hunits : ∀ rest, units false (32 :: rest) = some 32 :: units false rest := by
      intro rest
      cases rest <;> rfl
    rw [List.replicate_succ, List.cons_append, hunits, ih, List.replicate_succ, List.cons_append]

def padded : Bytes := List.replicate 1023 32 ++ ascii "-enc"

/-- A marker behind 1023 blanks is not. -/
theorem padded_marker :
    ¬ (Suspicious (units false padded) [] →
      PushedHigh (CheckResult.init lnkInspectId)
        (onFile (shortcutHost padded) stick (CheckResult.init lnkInspectId)
          (ascii "/v/a.lnk") (shortcutEntry padded) {}).1) := by
  have hlocated : locate (shortcutOf padded) = some ({ arguments := padded }, 1105) := by
    decide +kernel
  have hspelt : Suspicious (units false padded) [] := by
    refine .inl ⟨ascii "-enc", by decide +kernel, List.replicate 1023 (some 32), ascii "-enc", [],
      ?_, by decide +kernel⟩
    rw [padded, units_replicate, List.append_nil]
    decide +kernel
  have hshown : shown (units false padded) = List.replicate 1023 (some 32) := by
    rw [padded, units_replicate, shown, lnkArgsMax, List.take_left' (List.length_replicate ..)]
    exact List.takeWhile_eq_self_iff.mpr fun c hc => by rw [List.eq_of_mem_replicate hc]; rfl
  intro h
  have hpushed := (onFile_pushedHigh_iff (shortcut_inspected (by decide +kernel)) rfl hlocated
    _).mp (h hspelt)
  obtain ⟨marker, hmarker, hspells⟩ | ⟨interpreter, hinterpreter, heq⟩ := hpushed
  · have hword : ∀ marker ∈ argumentMarkers, ∃ d ∈ marker, lowerAscii d ≠ lowerAscii 32 := by
      decide +kernel
    rw [hshown] at hspells
    exact not_spells_replicate 1023 32 (hword marker hmarker) hspells
  · revert interpreter
    decide +kernel

end UsbSentinel.LnkInspect
