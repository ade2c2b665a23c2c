import UsbSentinel.LnkTrace

/-! The shortcut parser stays within its buffer: every index, every size and every store, over
whole runs, and the strings that a run leaves in the record. -/
namespace UsbSentinel.LnkInspect
open ByteString

namespace Traced
open Machine

/-- The field with a copied string in it. -/
def filled (field stored : Bytes) : Bytes := (fill 0 stored field).set stored.length 0

lemma readU16_some {buf : Bytes} {offset value : ℕ} (h : LnkInspect.readU16 buf offset = some value) :
    offset + 2 ≤ buf.length ∧ value < 65536 := by
  unfold LnkInspect.readU16 at h
  split_ifs at h with hrange
  have hwithin := (inRange_iff _ _ _).mp hrange
  rw [take_drop_succ _ _ (by omega), take_drop_succ _ _ (by omega), List.take_zero] at h
  have hvalue := Option.some.inj h
  have hlow := UInt8.toNat_lt (buf.getD offset 0)
  have hhigh := UInt8.toNat_lt (buf.getD (offset + 1) 0)
  simp only [littleEndian] at hvalue
  omega

lemma readU32_some {buf : Bytes} {offset value : ℕ} (h : LnkInspect.readU32 buf offset = some value) :
    offset + 4 ≤ buf.length := by
  unfold LnkInspect.readU32 at h
  split_ifs at h with hrange
  exact (inRange_iff _ _ _).mp hrange

lemma readCstringAnsi_some {buf : Bytes} {bound offset outCap : ℕ} {stored : Bytes}
    (h : LnkInspect.readCstringAnsi buf bound offset outCap = some stored) :
    ∃ text, stored = cut outCap (cstr text) := by
  unfold LnkInspect.readCstringAnsi at h
  split_ifs at h
  exact ⟨_, (Option.some.inj h).symm⟩

section Sections
variable {buf : Bytes}

theorem storeChars_reads (hlen : buf.length < wordSize) (offset : ℕ) (isUnicode : Bool)
    (outCap count : ℕ) (out : Option Bytes) (hout : out ≠ none → 0 < outCap)
    (hfits : offset + 2 + count * (if isUnicode then 2 else 1) ≤ buf.length) :
    Reads buf.length (storeChars buf offset isUnicode outCap count out)
      (some (out.map fun field => filled field (cut outCap (storedChars isUnicode
        ((buf.drop (offset + 2)).take (count * if isUnicode then 2 else 1)))))) := by
  cases out with
  | none => exact .pure _
  | some field =>
    have hpos : 0 < outCap := hout (Option.some_ne_none _)
    have hloop := charsLoop_reads hlen offset isUnicode outCap count 0 0 field hpos (by omega)
    simp only [Nat.zero_mul, Nat.add_zero, Nat.sub_zero, Nat.zero_add] at hloop
    refine .bind hloop (.bind (.note ?_) (.pure _))
    have hshort := cut_length outCap (storedChars isUnicode
      ((buf.drop (offset + 2)).take (count * if isUnicode then 2 else 1)))
    unfold cut at hshort
    change _ < outCap
    omega

theorem readStringData_reads (hlen : buf.length < wordSize) (offset : ℕ) (isUnicode : Bool)
    (out : Option Bytes) (outCap : ℕ) (hout : out ≠ none → 0 < outCap) :
    Reads buf.length (readStringData buf offset isUnicode out outCap)
      ((LnkInspect.readStringData buf offset isUnicode).map fun r =>
        (out.map fun field => filled field (cut outCap r.1), r.2)) := by
  have hcount := readU16_reads hlen offset
  unfold LnkInspect.readStringData
  cases hread : LnkInspect.readU16 buf offset with
  | none =>
    rw [hread] at hcount
    exact .bind_none hcount
  | some count =>
    have hsome := readU16_some hread
    have hbyteLen : count * (if isUnicode then 2 else 1) < wordSize := by
      unfold wordSize
      split_ifs <;> omega
    rw [hread] at hcount
    refine .bind hcount (.bind (sized_reads (count * if isUnicode then 2 else 1) (by push_cast; rfl)
      hbyteLen) ?_)
    refine .bind (sized_reads (offset + 2) (by push_cast; rfl) (by omega)) ?_
    refine .bind (inRange_reads hlen _ _) ?_
    simp only
    by_cases hrange : LnkInspect.inRange buf.length (offset + 2)
        (count * if isUnicode then 2 else 1) = true
    · have hwithin := (inRange_iff _ _ _).mp hrange
      rw [hrange, if_pos rfl]
      refine .bind (storeChars_reads hlen offset isUnicode outCap count out hout hwithin) ?_
      exact .bind (sized_reads (offset + 2 + count * if isUnicode then 2 else 1) (by push_cast; rfl)
        (by omega)) (.pure _)
    · rw [Bool.not_eq_true] at hrange
      rw [hrange, if_neg Bool.false_ne_true]
      exact .stop

theorem skipIdList_reads (hlen : buf.length < wordSize) (flags offset : ℕ) :
    Reads buf.length (skipIdList buf flags offset) (LnkInspect.skipIdList buf flags offset) := by
  unfold skipIdList LnkInspect.skipIdList
  by_cases hflag : hasFlag flags flagLinkTargetIdList = true
  · have hsize := readU16_reads hlen offset
    rw [if_pos hflag, if_pos hflag]
    cases hread : LnkInspect.readU16 buf offset with
    | none =>
      rw [hread] at hsize
      exact .bind_none hsize
    | some size =>
      have hsome := readU16_some hread
      rw [hread] at hsize
      refine .bind hsize (.bind (sized_reads (offset + 2) (by push_cast; rfl) (by omega)) ?_)
      refine .bind (inRange_reads hlen _ _) ?_
      simp only
      by_cases hrange : LnkInspect.inRange buf.length (offset + 2) size = true
      · have hwithin := (inRange_iff _ _ _).mp hrange
        rw [hrange, if_pos rfl]
        exact sized_reads (offset + 2 + size) (by push_cast; ring) (by omega)
      · rw [Bool.not_eq_true] at hrange
        rw [hrange, if_neg Bool.false_ne_true]
        exact .stop
  · rw [if_neg hflag, if_neg hflag]
    exact .pure _

theorem skipString_reads (hlen : buf.length < wordSize) (flags mask offset : ℕ) :
    Reads buf.length (skipString buf flags mask offset)
      (LnkInspect.skipString buf flags mask offset) := by
  unfold skipString LnkInspect.skipString
  by_cases hflag : hasFlag flags mask = true
  · have hread := readStringData_reads hlen offset (hasFlag flags flagIsUnicode) none 0
      (fun h => absurd rfl h)
    rw [if_pos hflag, if_pos hflag]
    cases hdata : LnkInspect.readStringData buf offset (hasFlag flags flagIsUnicode) with
    | none =>
      rw [hdata] at hread
      exact .bind_none hread
    | some r =>
      rw [hdata] at hread
      exact .bind hread (.pure _)
  · rw [if_neg hflag, if_neg hflag]
    exact .pure _

theorem bytesAt_reads (first count : ℕ) (hfits : first + count ≤ buf.length) :
    Reads buf.length (bytesAt buf first count) (some ((buf.drop first).take count)) := by
  induction count generalizing first with
  | zero => exact .pure _
  | succ count ih =>
    rw [take_drop_succ buf count (by omega)]
    exact .bind (byteAt_reads (by omega)) (.bind (ih (first + 1) (by omega)) (.pure _))

lemma filled_keeps {field : Bytes} {capacity : ℕ} (stored : Bytes)
    (hfield : Terminated capacity field) (hpos : 0 < capacity) :
    Terminated capacity (filled field (cut capacity stored)) ∧
      cstr (filled field (cut capacity stored)) = cstr (cut capacity stored) := by
  have hshort := cut_length capacity stored
  exact terminated_set_fill hfield.1 (by omega)

lemma cstr_cut_cstr (capacity : ℕ) (b : Bytes) :
    cstr (cut capacity (cstr b)) = cut capacity (cstr b) := by
  refine cstr_eq_self fun hzero => ?_
  have hmem : (0 : UInt8) ∈ cstr b := List.mem_of_mem_take hzero
  simpa using List.mem_takeWhile_imp hmem

/-- The local base path goes into the target field, which was empty. -/
theorem readLocalBasePath_stores (hlen : buf.length + 4 < wordSize) {offset infoSize : ℕ}
    (headerSize infoFlags : ℕ) (hflags : offset + 12 ≤ buf.length)
    (hinfo : offset + infoSize ≤ buf.length) {w₀ w : Work} (hw : Unmoved buf.length w₀ w)
    (hempty : cstr w₀.target = []) :
    wp (readLocalBasePath buf offset infoSize headerSize infoFlags)
      (fun res w' =>
        let r := LnkInspect.readLocalBasePath buf offset infoSize headerSize infoFlags
        Safe buf.length w' ∧ w'.arguments = w₀.arguments ∧ res = outcome (r.map fun _ => ()) ∧
          ∀ path, r = some path → cstr w'.target = path) w := by
  have hword : buf.length < wordSize := by omega
  unfold readLocalBasePath LnkInspect.readLocalBasePath
  by_cases hdeclared : 0x1C ≤ headerSize ∧ hasFlag infoFlags infoVolumeAndLocalBasePath
  · rw [if_pos hdeclared, if_pos hdeclared]
    have hfield : Reads buf.length (sized (offset + 16)) (some (offset + 16)) :=
      sized_reads (offset + 16) (by push_cast; rfl) (by omega)
    refine hfield.wp_bind hw ?_ (fun _ h => nomatch h)
    intro field w₁ hfieldEq hw₁
    obtain rfl := Option.some.inj hfieldEq
    refine (readU32_reads hword (offset + 16)).wp_bind hw₁ ?_ ?_
    · intro pathOff w₂ hread hw₂
      rw [hread]
      simp only
      by_cases hrange : pathOff ≥ infoSize
      · rw [if_pos hrange, if_pos hrange]
        exact (wp_stop _ _ _).mpr ⟨hw₂.safe, hw₂.arguments, rfl, fun _ h => nomatch h⟩
      · rw [if_neg hrange, if_neg hrange]
        have hoffset : Reads buf.length (sized (offset + pathOff)) (some (offset + pathOff)) :=
          sized_reads (offset + pathOff) (by push_cast; rfl) (by omega)
        have hbound : Reads buf.length (sized (offset + infoSize)) (some (offset + infoSize)) :=
          sized_reads (offset + infoSize) (by push_cast; rfl) (by omega)
        refine hoffset.wp_bind hw₂ ?_ (fun _ h => nomatch h)
        intro pathOffset w₃ hoffsetEq hw₃
        obtain rfl := Option.some.inj hoffsetEq
        refine hbound.wp_bind hw₃ ?_ (fun _ h => nomatch h)
        intro bound w₄ hboundEq hw₄
        obtain rfl := Option.some.inj hboundEq
        have hcopy := readCstringAnsi_reads hinfo hword (offset + pathOff) lnkTargetMax w₄.target
        refine wp_state_bind (hcopy.wp_bind hw₄ ?_ ?_)
        · intro target w₅ htarget hw₅
          obtain ⟨stored, hstored, rfl⟩ := Option.map_eq_some_iff.mp htarget
          obtain ⟨text, rfl⟩ := readCstringAnsi_some hstored
          have hkept := filled_keeps (cstr text) hw₄.safe.target (by decide)
          rw [hstored]
          refine (wp_change _ _ _).mpr ⟨⟨hw₅.safe.accesses, hkept.1, hw₅.safe.arguments⟩,
            hw₅.arguments, rfl, ?_⟩
          intro path hpath
          rw [← Option.some.inj hpath]
          exact hkept.2.trans (cstr_cut_cstr _ _)
        · intro w₅ hnone hw₅
          rw [Option.map_eq_none_iff.mp hnone]
          exact ⟨hw₅.safe, hw₅.arguments, rfl, fun _ h => nomatch h⟩
    · intro w₂ hnone hw₂
      rw [hnone]
      exact ⟨hw₂.safe, hw₂.arguments, rfl, fun _ h => nomatch h⟩
  · rw [if_neg hdeclared, if_neg hdeclared]
    refine (wp_pure _ _ _).mpr ⟨hw.safe, hw.arguments, rfl, ?_⟩
    intro path hpath
    rw [hw.target, hempty, Option.some.inj hpath]

theorem readLinkInfo_stores (hlen : buf.length + 4 < wordSize) (flags offset : ℕ) {w₀ w : Work}
    (hw : Unmoved buf.length w₀ w) (hempty : cstr w₀.target = []) :
    wp (readLinkInfo buf flags offset)
      (fun res w' =>
        let r := LnkInspect.readLinkInfo buf flags offset
        Safe buf.length w' ∧ w'.arguments = w₀.arguments ∧ res = outcome (r.map Prod.snd) ∧
          ∀ path behind, r = some (path, behind) → cstr w'.target = path) w := by
  have hword : buf.length < wordSize := by omega
  unfold readLinkInfo LnkInspect.readLinkInfo
  by_cases hflag : hasFlag flags flagLinkInfo = true
  · rw [if_pos hflag, if_pos hflag]
    refine (readU32_reads hword offset).wp_bind hw ?_ ?_
    · intro infoSize w₁ hsize hw₁
      rw [hsize]
      refine (inRange_reads hword offset infoSize).wp_bind hw₁ ?_ (fun _ h => nomatch h)
      intro ok w₂ hok hw₂
      obtain rfl := Option.some.inj hok
      simp only
      by_cases hbad : (!LnkInspect.inRange buf.length offset infoSize ||
          decide (infoSize < 4)) = true
      · rw [if_pos hbad, if_pos hbad]
        exact (wp_stop _ _ _).mpr ⟨hw₂.safe, hw₂.arguments, rfl, fun _ _ h => nomatch h⟩
      · rw [if_neg hbad, if_neg hbad]
        have hinfo : offset + infoSize ≤ buf.length ∧ 4 ≤ infoSize := by
          simp only [Bool.or_eq_true, Bool.not_eq_true', decide_eq_true_eq, not_or,
            Bool.not_eq_false, inRange_iff] at hbad
          omega
        have hsecond : Reads buf.length (sized (offset + 4)) (some (offset + 4)) :=
          sized_reads (offset + 4) (by push_cast; rfl) (by omega)
        refine hsecond.wp_bind hw₂ ?_ (fun _ h => nomatch h)
        intro second w₃ hsecondEq hw₃
        obtain rfl := Option.some.inj hsecondEq
        refine (readU32_reads hword (offset + 4)).wp_bind hw₃ ?_ ?_
        · intro headerSize w₄ hheader hw₄
          have height := readU32_some hheader
          have hthird : Reads buf.length (sized (offset + 8)) (some (offset + 8)) :=
            sized_reads (offset + 8) (by push_cast; rfl) (by omega)
          rw [hheader]
          refine hthird.wp_bind hw₄ ?_ (fun _ h => nomatch h)
          intro third w₅ hthirdEq hw₅
          obtain rfl := Option.some.inj hthirdEq
          refine (readU32_reads hword (offset + 8)).wp_bind hw₅ ?_ ?_
          · intro infoFlags w₆ hflags hw₆
            rw [hflags]
            simp only
            have hpath := readLocalBasePath_stores hlen headerSize infoFlags
              (readU32_some hflags) hinfo.1 hw₆ hempty
            refine wp_bind hpath ?_ ?_
            · intro _ w₇ h₇
              obtain ⟨hsafe, harguments, hres, htarget⟩ := h₇
              cases hr : LnkInspect.readLocalBasePath buf offset infoSize headerSize infoFlags with
              | none =>
                rw [hr] at hres
                exact nomatch hres
              | some path =>
                have hend : Reads buf.length (sized (offset + infoSize)) (some (offset + infoSize)) :=
                  sized_reads (offset + infoSize) (by push_cast; rfl) (by omega)
                refine wp_mono (hend w₇ w₇ ⟨hsafe, rfl, rfl⟩) ?_
                intro res w₈ h₈
                refine ⟨h₈.2.safe, h₈.2.arguments.trans harguments, h₈.1, ?_⟩
                intro path' behind heq
                rw [h₈.2.target, htarget path hr]
                exact congrArg Prod.fst (Option.some.inj heq)
            · intro e w₇ h₇
              obtain ⟨hsafe, harguments, hres, _⟩ := h₇
              cases hr : LnkInspect.readLocalBasePath buf offset infoSize headerSize infoFlags with
              | none => exact ⟨hsafe, harguments, rfl, fun _ _ h => nomatch h⟩
              | some path =>
                rw [hr] at hres
                exact nomatch hres
          · intro w₆ hnone hw₆
            rw [hnone]
            exact ⟨hw₆.safe, hw₆.arguments, rfl, fun _ _ h => nomatch h⟩
        · intro w₄ hnone hw₄
          rw [hnone]
          exact ⟨hw₄.safe, hw₄.arguments, rfl, fun _ _ h => nomatch h⟩
    · intro w₁ hnone hw₁
      rw [hnone]
      exact ⟨hw₁.safe, hw₁.arguments, rfl, fun _ _ h => nomatch h⟩
  · rw [if_neg hflag, if_neg hflag]
    refine (wp_pure _ _ _).mpr ⟨hw.safe, hw.arguments, rfl, ?_⟩
    intro path behind h
    rw [hw.target, hempty]
    exact congrArg Prod.fst (Option.some.inj h)

theorem readArguments_stores (hlen : buf.length < wordSize) (flags offset : ℕ) {w₀ w : Work}
    (hw : Unmoved buf.length w₀ w) (hempty : cstr w₀.arguments = []) :
    wp (readArguments buf flags offset)
      (fun res w' =>
        let r := LnkInspect.readArguments buf flags offset
        Safe buf.length w' ∧ w'.target = w₀.target ∧ res = outcome (r.map Prod.snd) ∧
          ∀ stored behind, r = some (stored, behind) → cstr w'.arguments = cstr stored) w := by
  unfold readArguments LnkInspect.readArguments
  by_cases hflag : hasFlag flags flagArguments = true
  · rw [if_pos hflag, if_pos hflag]
    have hread := readStringData_reads hlen offset (hasFlag flags flagIsUnicode)
      (some w.arguments) lnkArgsMax (fun _ => by decide)
    refine wp_state_bind (hread.wp_bind hw ?_ ?_)
    · intro r w₁ hr hw₁
      obtain ⟨⟨chars, behind⟩, hdata, rfl⟩ := Option.map_eq_some_iff.mp hr
      have hkept := filled_keeps chars hw.safe.arguments (by decide)
      rw [hdata]
      refine wp_change_bind ((wp_pure _ _ _).mpr
        ⟨⟨hw₁.safe.accesses, hw₁.safe.target, hkept.1⟩, hw₁.target, rfl, ?_⟩)
      intro stored behind' heq
      have hstored : cut lnkArgsMax chars = stored := congrArg Prod.fst (Option.some.inj heq)
      rw [← hstored]
      exact hkept.2
    · intro w₁ hnone hw₁
      rw [Option.map_eq_none_iff.mp hnone]
      exact ⟨hw₁.safe, hw₁.target, rfl, fun _ _ h => nomatch h⟩
  · rw [if_neg hflag, if_neg hflag]
    refine (wp_pure _ _ _).mpr ⟨hw.safe, hw.target, rfl, ?_⟩
    intro stored behind h
    have hstored : [] = stored := congrArg Prod.fst (Option.some.inj h)
    rw [hw.arguments, hempty, ← hstored]
    rfl

/-- What the four sections of strings are read as. -/
def strings (buf : Bytes) (flags offset : ℕ) : Option (Bytes × ℕ) := do
  let offset ← LnkInspect.skipString buf flags flagName offset
  let offset ← LnkInspect.skipString buf flags flagRelativePath offset
  let offset ← LnkInspect.skipString buf flags flagWorkingDir offset
  LnkInspect.readArguments buf flags offset

lemma strings_map (flags offset : ℕ) (target : Bytes) :
    ((LnkInspect.skipString buf flags flagName offset).bind fun offset =>
      (LnkInspect.skipString buf flags flagRelativePath offset).bind fun offset =>
        (LnkInspect.skipString buf flags flagWorkingDir offset).bind fun offset =>
          (LnkInspect.readArguments buf flags offset).bind fun s =>
            some (({ target, arguments := s.1 } : Parsed), s.2)) =
      (strings buf flags offset).map fun s => ({ target, arguments := s.1 }, s.2) := by
  unfold strings
  simp only [Option.bind_eq_bind, Option.map_eq_bind, Option.bind_assoc]
  rfl

theorem strings_run (hlen : buf.length < wordSize) (flags offset : ℕ) {w₀ : Work}
    (hw₀ : Safe buf.length w₀) (hempty : cstr w₀.arguments = []) :
    wp (do
        let offset ← skipString buf flags flagName offset
        let offset ← skipString buf flags flagRelativePath offset
        let offset ← skipString buf flags flagWorkingDir offset
        readArguments buf flags offset)
      (fun res w =>
        let r := strings buf flags offset
        Safe buf.length w ∧ w.target = w₀.target ∧ res = outcome (r.map Prod.snd) ∧
          ∀ stored behind, r = some (stored, behind) → cstr w.arguments = cstr stored) w₀ := by
  have hstart : Unmoved buf.length w₀ w₀ := ⟨hw₀, rfl, rfl⟩
  have hskip := fun mask offset => skipString_reads hlen flags mask offset
  unfold strings
  simp only [Option.bind_eq_bind]
  refine (hskip flagName offset).wp_bind hstart ?_ ?_
  · intro offset₁ w₁ hname hw₁
    rw [hname, Option.bind_some]
    refine (hskip flagRelativePath offset₁).wp_bind hw₁ ?_ ?_
    · intro offset₂ w₂ hrelative hw₂
      rw [hrelative, Option.bind_some]
      refine (hskip flagWorkingDir offset₂).wp_bind hw₂ ?_ ?_
      · intro offset₃ w₃ hworking hw₃
        rw [hworking, Option.bind_some]
        exact readArguments_stores hlen flags offset₃ hw₃ hempty
      · intro w₃ hnone hw₃
        rw [hnone]
        exact ⟨hw₃.safe, hw₃.target, rfl, fun _ _ h => nomatch h⟩
    · intro w₂ hnone hw₂
      rw [hnone]
      exact ⟨hw₂.safe, hw₂.target, rfl, fun _ _ h => nomatch h⟩
  · intro w₁ hnone hw₁
    rw [hnone]
    exact ⟨hw₁.safe, hw₁.target, rfl, fun _ _ h => nomatch h⟩

lemma safe_initial : Safe buf.length {} where
  accesses := fun _ h => nomatch h
  target := ⟨List.length_replicate, by decide⟩
  arguments := ⟨List.length_replicate, List.mem_replicate.mpr ⟨by decide, rfl⟩⟩

/-- The sections behind the header, from a record that has just been cleared. -/
theorem parseLnk_run (hlen : buf.length + 4 < wordSize) :
    wp (parseLnk buf)
      (fun res w =>
        let r := LnkInspect.parseLnk buf
        Safe buf.length w ∧ res = outcome (r.map Prod.snd) ∧
          ∀ p offset, r = some (p, offset) →
            cstr w.target = p.target ∧ cstr w.arguments = p.argumentText) {} := by
  have hword : buf.length < wordSize := by omega
  have hstart : Unmoved buf.length {} {} := ⟨safe_initial, rfl, rfl⟩
  unfold parseLnk LnkInspect.parseLnk
  simp only [Option.bind_eq_bind]
  by_cases hshort : buf.length < lnkHeaderSize
  · rw [if_pos hshort, if_pos hshort]
    exact (wp_stop _ _ _).mpr ⟨safe_initial, rfl, fun _ _ h => nomatch h⟩
  rw [if_neg hshort, if_neg hshort]
  refine (readU32_reads hword 0).wp_bind hstart ?_ ?_
  · intro headerSize w₁ hheader hw₁
    rw [hheader, Option.bind_some]
    by_cases hbad : headerSize ≠ lnkHeaderSize
    · rw [if_pos hbad, if_pos hbad]
      exact (wp_stop _ _ _).mpr ⟨hw₁.safe, rfl, fun _ _ h => nomatch h⟩
    rw [if_neg hbad, if_neg hbad]
    have hclsid : Reads buf.length (bytesAt buf 4 16) (some ((buf.drop 4).take 16)) :=
      bytesAt_reads 4 16 (by unfold lnkHeaderSize at hshort; omega)
    refine hclsid.wp_bind hw₁ ?_ (fun _ h => nomatch h)
    intro clsid w₂ hclsidEq hw₂
    obtain rfl := Option.some.inj hclsidEq
    by_cases hmagic : (buf.drop 4).take 16 ≠ shellLinkClsid
    · rw [if_pos hmagic, if_pos hmagic]
      exact (wp_stop _ _ _).mpr ⟨hw₂.safe, rfl, fun _ _ h => nomatch h⟩
    rw [if_neg hmagic, if_neg hmagic]
    refine (readU32_reads hword 20).wp_bind hw₂ ?_ ?_
    · intro flags w₃ hflags hw₃
      rw [hflags, Option.bind_some]
      refine (skipIdList_reads hword flags lnkHeaderSize).wp_bind hw₃ ?_ ?_
      · intro offset w₄ hidList hw₄
        rw [hidList, Option.bind_some]
        refine wp_bind (readLinkInfo_stores hlen flags offset hw₄ (by decide)) ?_ ?_
        · intro offset₂ w₅ h₅
          obtain ⟨hsafe, harguments, hres, htarget⟩ := h₅
          cases hinfo : LnkInspect.readLinkInfo buf flags offset with
          | none =>
            rw [hinfo] at hres
            exact nomatch hres
          | some r =>
            rw [hinfo] at hres
            obtain rfl := Except.ok.inj hres
            have hempty : cstr w₅.arguments = [] := by
              rw [harguments]
              decide
            rw [Option.bind_some, strings_map]
            refine wp_mono (strings_run hword flags r.2 hsafe hempty) ?_
            intro res w h
            obtain ⟨hsafe', htarget', hres', hstored⟩ := h
            refine ⟨hsafe', ?_, ?_⟩
            · rw [hres', Option.map_map]
              rfl
            · intro p behind heq
              obtain ⟨s, hs, hp⟩ := Option.map_eq_some_iff.mp heq
              obtain rfl := congrArg Prod.fst hp
              exact ⟨(congrArg cstr htarget').trans (htarget r.1 r.2 hinfo), hstored s.1 s.2 hs⟩
        · intro e w₅ h₅
          obtain ⟨hsafe, harguments, hres, _⟩ := h₅
          cases hinfo : LnkInspect.readLinkInfo buf flags offset with
          | none => exact ⟨hsafe, rfl, fun _ _ h => nomatch h⟩
          | some r =>
            rw [hinfo] at hres
            exact nomatch hres
      · intro w₄ hnone hw₄
        rw [hnone]
        exact ⟨hw₄.safe, rfl, fun _ _ h => nomatch h⟩
    · intro w₃ hnone hw₃
      rw [hnone]
      exact ⟨hw₃.safe, rfl, fun _ _ h => nomatch h⟩
  · intro w₁ hnone hw₁
    rw [hnone]
    exact ⟨hw₁.safe, rfl, fun _ _ h => nomatch h⟩

end Sections

end Traced

/-! ### The whole parser -/

section Parser
variable {buf : Bytes}

lemma skipIdList_le {flags offset behind : ℕ} (h : skipIdList buf flags offset = some behind)
    (hle : offset ≤ buf.length) : behind ≤ buf.length := by
  unfold skipIdList at h
  split_ifs at h
  · cases hsize : readU16 buf offset with
    | none => simp [hsize] at h
    | some size =>
      simp only [hsize] at h
      split_ifs at h with hrange
      rw [← Option.some.inj h]
      exact (Traced.inRange_iff _ _ _).mp hrange
  · rwa [← Option.some.inj h]

lemma readLinkInfo_le {flags offset : ℕ} {r : Bytes × ℕ}
    (h : readLinkInfo buf flags offset = some r) (hle : offset ≤ buf.length) :
    r.2 ≤ buf.length := by
  unfold readLinkInfo at h
  split_ifs at h
  · cases hsize : readU32 buf offset with
    | none => simp [hsize] at h
    | some infoSize =>
      simp only [hsize] at h
      split_ifs at h with hbad
      have hrange : inRange buf.length offset infoSize = true := by
        simp only [Bool.or_eq_true, Bool.not_eq_true', not_or, Bool.not_eq_false] at hbad
        exact hbad.1
      split at h
      · obtain ⟨target, _, rfl⟩ := Option.map_eq_some_iff.mp h
        exact (Traced.inRange_iff _ _ _).mp hrange
      · exact nomatch h
  · rwa [← Option.some.inj h]

lemma readStringData_le {offset : ℕ} {isUnicode : Bool} {r : Bytes × ℕ}
    (h : readStringData buf offset isUnicode = some r) : r.2 ≤ buf.length := by
  unfold readStringData at h
  cases hcount : readU16 buf offset with
  | none => simp [hcount] at h
  | some count =>
    simp only [hcount] at h
    by_cases hrange : inRange buf.length (offset + 2) (count * if isUnicode then 2 else 1) = true
    · rw [if_pos hrange] at h
      rw [← Option.some.inj h]
      exact (Traced.inRange_iff _ _ _).mp hrange
    · rw [if_neg hrange] at h
      exact nomatch h

lemma skipString_le {flags mask offset behind : ℕ}
    (h : skipString buf flags mask offset = some behind) (hle : offset ≤ buf.length) :
    behind ≤ buf.length := by
  unfold skipString at h
  split_ifs at h
  · obtain ⟨r, hr, rfl⟩ := Option.map_eq_some_iff.mp h
    exact readStringData_le hr
  · rwa [← Option.some.inj h]

lemma readArguments_le {flags offset : ℕ} {r : Bytes × ℕ}
    (h : readArguments buf flags offset = some r) (hle : offset ≤ buf.length) :
    r.2 ≤ buf.length := by
  unfold readArguments at h
  split_ifs at h
  · obtain ⟨data, hdata, rfl⟩ := Option.map_eq_some_iff.mp h
    have hbehind : data.2 ≤ buf.length := readStringData_le hdata
    exact hbehind
  · rwa [← Option.some.inj h]

/-- Every section keeps the offset within the buffer. -/
theorem parseLnk_le {r : Parsed × ℕ} (h : parseLnk buf = some r) : r.2 ≤ buf.length := by
  unfold parseLnk at h
  simp only [Option.bind_eq_bind] at h
  by_cases hshort : buf.length < lnkHeaderSize
  · rw [if_pos hshort] at h
    exact nomatch h
  rw [if_neg hshort] at h
  obtain ⟨headerSize, _, h⟩ := Option.bind_eq_some_iff.mp h
  by_cases hheader : headerSize ≠ lnkHeaderSize
  · rw [if_pos hheader] at h
    exact nomatch h
  rw [if_neg hheader] at h
  by_cases hclsid : (buf.drop 4).take 16 ≠ shellLinkClsid
  · rw [if_pos hclsid] at h
    exact nomatch h
  rw [if_neg hclsid] at h
  obtain ⟨flags, _, h⟩ := Option.bind_eq_some_iff.mp h
  obtain ⟨o₁, hidList, h⟩ := Option.bind_eq_some_iff.mp h
  obtain ⟨info, hinfo, h⟩ := Option.bind_eq_some_iff.mp h
  obtain ⟨o₃, hname, h⟩ := Option.bind_eq_some_iff.mp h
  obtain ⟨o₄, hrelative, h⟩ := Option.bind_eq_some_iff.mp h
  obtain ⟨o₅, hworking, h⟩ := Option.bind_eq_some_iff.mp h
  obtain ⟨arguments, harguments, h⟩ := Option.bind_eq_some_iff.mp h
  have h₁ := skipIdList_le hidList (Nat.le_of_not_lt hshort)
  have h₅ := skipString_le hworking (skipString_le hrelative (skipString_le hname
    (readLinkInfo_le hinfo h₁)))
  rw [← Option.some.inj h]
  exact readArguments_le harguments h₅

end Parser

/-- What a parser run over `len` bytes keeps to, ended as `res` in the state `w`. -/
structure InBounds (len : ℕ) (res : Except Unit ℕ) (w : Work) : Prop where
  reads : ∀ index, .read index ∈ w.accesses → index < len
  sizes : ∀ value : ℤ, .size value ∈ w.accesses → 0 ≤ value ∧ value < wordSize
  stores : ∀ capacity index, .store capacity index ∈ w.accesses → index < capacity
  target : Terminated lnkTargetMax w.target
  arguments : Terminated lnkArgsMax w.arguments
  offset : ∀ offset, res = .ok offset → offset ≤ len

/-- The two runs over one buffer end alike and extract the same strings. -/
theorem traced_agrees (buf : Bytes) (hmemory : buf.length + (lnkTargetMax + lnkArgsMax) ≤ wordSize) :
    (Traced.parseLnk buf {}).1 = Traced.outcome ((parseLnk buf).map Prod.snd) ∧
      ∀ p offset, parseLnk buf = some (p, offset) →
        cstr (Traced.parseLnk buf {}).2.target = p.target ∧
          cstr (Traced.parseLnk buf {}).2.arguments = p.argumentText := by
  have hlen : buf.length + 4 < wordSize := by
    unfold lnkTargetMax lnkArgsMax at hmemory
    omega
  exact (Traced.parseLnk_run hlen).2

/-- The buffer and the record it is parsed into lie apart in memory, so that both fit the
address space. -/
theorem parseLnk_inBounds (buf : Bytes)
    (hmemory : buf.length + (lnkTargetMax + lnkArgsMax) ≤ wordSize) :
    InBounds buf.length (Traced.parseLnk buf {}).1 (Traced.parseLnk buf {}).2 := by
  have hlen : buf.length + 4 < wordSize := by
    unfold lnkTargetMax lnkArgsMax at hmemory
    omega
  obtain ⟨hsafe, hres, _⟩ := Traced.parseLnk_run hlen
  refine ⟨fun _ => hsafe.accesses _, fun _ => hsafe.accesses _, fun _ _ => hsafe.accesses _,
    hsafe.target, hsafe.arguments, ?_⟩
  intro offset hok
  rw [hok] at hres
  cases hparse : parseLnk buf with
  | none =>
    rw [hparse] at hres
    exact nomatch hres
  | some r =>
    rw [hparse] at hres
    rw [Except.ok.inj hres]
    exact parseLnk_le hparse

/-- A shortcut to `C:\cmd.exe` with every section, its strings in Unicode. -/
def fullShortcut : Bytes :=
  [76, 0, 0, 0] ++ shellLinkClsid ++ [0xBF, 0, 0, 0] ++ List.replicate 52 0 ++
    [4, 0, 31, 80, 0, 0] ++
    [43, 0, 0, 0, 28, 0, 0, 0, 1, 0, 0, 0, 0, 0, 0, 0, 31, 0, 0, 0, 0, 0, 0, 0, 0, 0, 0, 0] ++
    [9, 9, 9] ++ ascii "C:\\cmd.exe" ++ [0, 7] ++
    [1, 0, 110, 0] ++ [2, 0, 46, 0, 92, 0] ++ [1, 0, 67, 0] ++ [2, 0, 47, 0, 99, 0]

lemma fullShortcut_parsed : (parseLnk fullShortcut).map Prod.snd = some fullShortcut.length ∧
    fullShortcut.length = 145 := by
  decide +kernel

theorem parseLnk_inBounds_full : (Traced.parseLnk fullShortcut {}).1 = .ok 145 ∧
    InBounds 145 (Traced.parseLnk fullShortcut {}).1 (Traced.parseLnk fullShortcut {}).2 := by
  obtain ⟨hparsed, hlength⟩ := fullShortcut_parsed
  have hmemory : fullShortcut.length + (lnkTargetMax + lnkArgsMax) ≤ wordSize := by
    rw [hlength]
    decide
  have hwhole := (traced_agrees fullShortcut hmemory).1
  have hbounds := parseLnk_inBounds fullShortcut hmemory
  rw [hparsed, hlength] at hwhole
  rw [hlength] at hbounds
  exact ⟨hwhole, hbounds⟩

end UsbSentinel.LnkInspect
