import UsbSentinel.LnkInspect
import UsbSentinel.Machine

/-! The shortcut parser index by index: which bytes it reads, which sizes it computes and
where it stores, with the sizes in a machine word. -/
namespace UsbSentinel.LnkInspect
open ByteString

/-- One past the largest value of a `size_t`. -/
def wordSize : ℕ := 2 ^ 64

inductive Access
  | read (index : ℕ)
  /-- The value of a size expression before it is stored in a word. -/
  | size (value : ℤ)
  | store (capacity index : ℕ)
  deriving DecidableEq, Repr

def Access.Allowed (len : ℕ) : Access → Prop
  | .read index => index < len
  | .size value => 0 ≤ value ∧ value < wordSize
  | .store capacity index => index < capacity

/-- What has been accessed, and the two fields of the parsed record. -/
structure Work where
  accesses : List Access := []
  target : Bytes := List.replicate lnkTargetMax 0
  arguments : Bytes := List.replicate lnkArgsMax 0

def Terminated (capacity : ℕ) (field : Bytes) : Prop := field.length = capacity ∧ 0 ∈ field

/-- A parser step; it stops where the source returns false. -/
abbrev Step := Machine Work Unit

namespace Traced
open Machine

def note (a : Access) : Step Unit := change fun w => { w with accesses := w.accesses ++ [a] }

def byteAt (buf : Bytes) (index : ℕ) : Step UInt8 := do
  note (.read index)
  pure (buf.getD index 0)

def sized (value : ℤ) : Step ℕ := do
  note (.size value)
  pure (value % wordSize).toNat

def inRange (len offset count : ℕ) : Step Bool :=
  if count > len then pure false
  else do
    let last ← sized (len - count)
    pure (decide (offset ≤ last))

def readU16 (buf : Bytes) (offset : ℕ) : Step ℕ := do
  let ok ← inRange buf.length offset 2
  if !ok then stop ()
  else do
    let low ← byteAt buf offset
    let second ← sized (offset + 1)
    let high ← byteAt buf second
    pure (littleEndian [low, high])

def readU32 (buf : Bytes) (offset : ℕ) : Step ℕ := do
  let ok ← inRange buf.length offset 4
  if !ok then stop ()
  else do
    let b₀ ← byteAt buf offset
    let second ← sized (offset + 1)
    let b₁ ← byteAt buf second
    let third ← sized (offset + 2)
    let b₂ ← byteAt buf third
    let fourth ← sized (offset + 3)
    let b₃ ← byteAt buf fourth
    pure (littleEndian [b₀, b₁, b₂, b₃])

/-- The loop over the string: `o` counts what has been stored in `out`. -/
def cstringLoop (buf : Bytes) (bound outCap i o : ℕ) (out : Bytes) : Step (Bytes × ℕ) :=
  if i < bound then do
    let c ← byteAt buf i
    if c = 0 then pure (out, o)
    else do
      note (.size (i + 1))
      if o + 1 < outCap then do
        note (.store outCap o)
        cstringLoop buf bound outCap (i + 1) (o + 1) (out.set o c)
      else cstringLoop buf bound outCap (i + 1) o out
  else pure (out, o)
termination_by bound - i

def readCstringAnsi (buf : Bytes) (bound offset : ℕ) (out : Bytes) (outCap : ℕ) : Step Bytes :=
  if offset > bound ∨ outCap = 0 then stop ()
  else do
    let (out, o) ← cstringLoop buf bound outCap offset 0 out
    note (.store outCap o)
    pure (out.set o 0)

/-- The second byte of a wide character. -/
def highByte (buf : Bytes) (isUnicode : Bool) (charOffset : ℕ) : Step UInt8 :=
  if isUnicode then do
    let second ← sized (charOffset + 1)
    byteAt buf second
  else pure 0

/-- The loop over the characters `i`, `i + 1`, … of a block, `left` of them. -/
def charsLoop (buf : Bytes) (offset : ℕ) (isUnicode : Bool) (outCap : ℕ) :
    ℕ → ℕ → ℕ → Bytes → Step (Bytes × ℕ)
  | 0, _, o, out => pure (out, o)
  | left + 1, i, o, out => do
    let charOffset ← sized (offset + 2 + i * (if isUnicode then 2 else 1 : ℕ))
    let low ← byteAt buf charOffset
    let high ← highByte buf isUnicode charOffset
    if o + 1 < outCap then do
      note (.store outCap o)
      charsLoop buf offset isUnicode outCap left (i + 1) (o + 1)
        (out.set o (storedChar isUnicode low high))
    else charsLoop buf offset isUnicode outCap left (i + 1) o out

/-- The field after the block has been copied into it, none where the caller passes none. -/
def storeChars (buf : Bytes) (offset : ℕ) (isUnicode : Bool) (outCap count : ℕ) :
    Option Bytes → Step (Option Bytes)
  | none => pure none
  | some field => do
    let (field, o) ← charsLoop buf offset isUnicode outCap count 0 0 field
    note (.store outCap o)
    pure (some (field.set o 0))

/-- The field and the offset behind the block. -/
def readStringData (buf : Bytes) (offset : ℕ) (isUnicode : Bool) (out : Option Bytes)
    (outCap : ℕ) : Step (Option Bytes × ℕ) := do
  let count ← readU16 buf offset
  let byteLen ← sized (count * (if isUnicode then 2 else 1 : ℕ))
  let start ← sized (offset + 2)
  let ok ← inRange buf.length start byteLen
  if !ok then stop ()
  else do
    let stored ← storeChars buf offset isUnicode outCap count out
    let behind ← sized (offset + 2 + byteLen)
    pure (stored, behind)

def skipIdList (buf : Bytes) (flags offset : ℕ) : Step ℕ :=
  if hasFlag flags flagLinkTargetIdList then do
    let size ← readU16 buf offset
    let start ← sized (offset + 2)
    let ok ← inRange buf.length start size
    if !ok then stop ()
    else sized (offset + (2 + size))
  else pure offset

def readLocalBasePath (buf : Bytes) (offset infoSize headerSize infoFlags : ℕ) : Step Unit :=
  if 0x1C ≤ headerSize ∧ hasFlag infoFlags infoVolumeAndLocalBasePath then do
    let field ← sized (offset + 16)
    let pathOff ← readU32 buf field
    if pathOff ≥ infoSize then stop ()
    else do
      let pathOffset ← sized (offset + pathOff)
      let bound ← sized (offset + infoSize)
      let work ← state
      let target ← readCstringAnsi buf bound pathOffset work.target lnkTargetMax
      change fun w => { w with target }
  else pure ()

def readLinkInfo (buf : Bytes) (flags offset : ℕ) : Step ℕ :=
  if hasFlag flags flagLinkInfo then do
    let infoSize ← readU32 buf offset
    let ok ← inRange buf.length offset infoSize
    if !ok || infoSize < 4 then stop ()
    else do
      let second ← sized (offset + 4)
      let headerSize ← readU32 buf second
      let third ← sized (offset + 8)
      let infoFlags ← readU32 buf third
      readLocalBasePath buf offset infoSize headerSize infoFlags
      sized (offset + infoSize)
  else pure offset

def skipString (buf : Bytes) (flags mask offset : ℕ) : Step ℕ :=
  if hasFlag flags mask then do
    let r ← readStringData buf offset (hasFlag flags flagIsUnicode) none 0
    pure r.2
  else pure offset

def readArguments (buf : Bytes) (flags offset : ℕ) : Step ℕ :=
  if hasFlag flags flagArguments then do
    let work ← state
    let (stored, offset) ←
      readStringData buf offset (hasFlag flags flagIsUnicode) (some work.arguments) lnkArgsMax
    change fun w => { w with arguments := stored.getD w.arguments }
    pure offset
  else pure offset

/-- The bytes `first`, `first + 1`, … as `memcmp` may read them. -/
def bytesAt (buf : Bytes) (first : ℕ) : ℕ → Step Bytes
  | 0 => pure []
  | left + 1 => do
    let b ← byteAt buf first
    let rest ← bytesAt buf (first + 1) left
    pure (b :: rest)

/-- The offset the parser ends at. -/
def parseLnk (buf : Bytes) : Step ℕ :=
  if buf.length < lnkHeaderSize then stop ()
  else do
    let headerSize ← readU32 buf 0
    if headerSize ≠ lnkHeaderSize then stop ()
    else do
      let clsid ← bytesAt buf 4 16
      if clsid ≠ shellLinkClsid then stop ()
      else do
        let flags ← readU32 buf 20
        let offset ← skipIdList buf flags lnkHeaderSize
        let offset ← readLinkInfo buf flags offset
        let offset ← skipString buf flags flagName offset
        let offset ← skipString buf flags flagRelativePath offset
        let offset ← skipString buf flags flagWorkingDir offset
        readArguments buf flags offset

/-! ### The readers

They leave the record as it is, and their result is that of the readers over lists. -/

structure Safe (len : ℕ) (w : Work) : Prop where
  accesses : ∀ a ∈ w.accesses, a.Allowed len
  target : Terminated lnkTargetMax w.target
  arguments : Terminated lnkArgsMax w.arguments

/-- A safe state whose fields are those of `w₀`. -/
structure Unmoved (len : ℕ) (w₀ w : Work) : Prop where
  safe : Safe len w
  target : w.target = w₀.target
  arguments : w.arguments = w₀.arguments

def outcome {α : Type} : Option α → Except Unit α
  | some a => .ok a
  | none => .error ()

/-- From every safe state the step has the result `r`, accesses what is allowed and leaves
both fields alone. -/
def Reads {α : Type} (len : ℕ) (m : Step α) (r : Option α) : Prop :=
  ∀ w₀ w, Unmoved len w₀ w → wp m (fun res w' => res = outcome r ∧ Unmoved len w₀ w') w

section Rules
variable {α β : Type} {len : ℕ}

theorem Reads.pure (a : α) : Reads len (pure a) (some a) := fun _ _ hw =>
  (wp_pure _ _ _).mpr ⟨rfl, hw⟩

theorem Reads.stop : Reads len (stop () : Step α) none := fun _ _ hw =>
  (wp_stop _ _ _).mpr ⟨rfl, hw⟩

theorem Reads.note {a : Access} (ha : a.Allowed len) : Reads len (note a) (some ()) := by
  intro w₀ w hw
  refine (wp_change _ _ _).mpr ⟨rfl, ⟨?_, hw.safe.target, hw.safe.arguments⟩, hw.target,
    hw.arguments⟩
  intro b hb
  rcases List.mem_append.mp hb with hb | hb
  · exact hw.safe.accesses b hb
  · rw [List.mem_singleton.mp hb]
    exact ha

/-- A step behind one that reads: the fields are still those of `w₀`. -/
theorem Reads.wp_bind {m : Step α} {f : α → Step β} {r : Option α} {w₀ w : Work}
    {post : Except Unit β → Work → Prop} (hm : Reads len m r) (hw : Unmoved len w₀ w)
    (hsome : ∀ a w', r = some a → Unmoved len w₀ w' → wp (f a) post w')
    (hnone : ∀ w', r = none → Unmoved len w₀ w' → post (.error ()) w') :
    wp (m >>= f) post w := by
  refine Machine.wp_bind (hm w₀ w hw) ?_ ?_
  · intro a t ht
    cases r with
    | none => exact nomatch ht.1
    | some b =>
      obtain rfl := Except.ok.inj ht.1
      exact hsome a t rfl ht.2
  · intro e t ht
    cases r with
    | none => exact hnone t rfl ht.2
    | some b => exact nomatch ht.1

theorem Reads.bind {m : Step α} {f : α → Step β} {a : α} {r : Option β}
    (hm : Reads len m (some a)) (hf : Reads len (f a) r) : Reads len (m >>= f) r := by
  intro w₀ w hw
  refine hm.wp_bind hw ?_ (fun _ h => nomatch h)
  intro b t hb ht
  obtain rfl := Option.some.inj hb
  exact hf w₀ t ht

theorem Reads.bind_none {m : Step α} {f : α → Step β} (hm : Reads len m none) :
    Reads len (m >>= f) none := fun _ _ hw =>
  hm.wp_bind hw (fun _ _ h => nomatch h) fun _ _ ht => ⟨rfl, ht⟩

end Rules

section Readers
variable {buf : Bytes} {len : ℕ}

theorem byteAt_reads {index : ℕ} (h : index < buf.length) :
    Reads buf.length (byteAt buf index) (some (buf.getD index 0)) :=
  .bind (.note h) (.pure _)

theorem sized_reads {value : ℤ} (size : ℕ) (hvalue : value = size) (h : size < wordSize) :
    Reads len (sized value) (some size) := by
  have hbound : 0 ≤ value ∧ value < wordSize := by omega
  have hmod : (value % wordSize).toNat = size := by
    rw [Int.emod_eq_of_lt hbound.1 hbound.2, hvalue, Int.toNat_natCast]
  have hnoted : Reads len (sized value) (some (value % wordSize).toNat) :=
    .bind (.note hbound) (.pure _)
  rwa [hmod] at hnoted

theorem inRange_reads (hlen : len < wordSize) (offset count : ℕ) :
    Reads len (inRange len offset count) (some (LnkInspect.inRange len offset count)) := by
  unfold inRange LnkInspect.inRange
  by_cases hcount : count > len
  · rw [if_pos hcount, decide_eq_false (by omega), Bool.false_and]
    exact .pure _
  · have hcast : (len : ℤ) - count = ((len - count : ℕ) : ℤ) := by omega
    rw [if_neg hcount, decide_eq_true (by omega), Bool.true_and]
    exact .bind (sized_reads (len - count) hcast (by omega)) (.pure _)

lemma take_drop_succ (bytes : Bytes) {i : ℕ} (count : ℕ) (h : i < bytes.length) :
    (bytes.drop i).take (count + 1) = bytes.getD i 0 :: (bytes.drop (i + 1)).take count := by
  rw [List.drop_eq_getElem_cons h, List.take_succ_cons, List.getD_eq_getElem _ _ h]

lemma inRange_iff (len offset count : ℕ) :
    LnkInspect.inRange len offset count = true ↔ offset + count ≤ len := by
  simp only [LnkInspect.inRange, Bool.and_eq_true, decide_eq_true_eq]
  omega

theorem readU16_reads (hlen : buf.length < wordSize) (offset : ℕ) :
    Reads buf.length (readU16 buf offset) (LnkInspect.readU16 buf offset) := by
  unfold LnkInspect.readU16
  refine .bind (inRange_reads hlen offset 2) ?_
  by_cases hrange : LnkInspect.inRange buf.length offset 2 = true
  · have hwithin := (inRange_iff _ _ _).mp hrange
    rw [hrange, if_pos rfl, take_drop_succ _ _ (by omega), take_drop_succ _ _ (by omega)]
    refine .bind (byteAt_reads (by omega)) ?_
    refine .bind (sized_reads (offset + 1) (by push_cast; rfl) (by omega)) ?_
    exact .bind (byteAt_reads (by omega)) (.pure _)
  · rw [Bool.not_eq_true] at hrange
    rw [hrange, if_neg Bool.false_ne_true]
    exact .stop

theorem readU32_reads (hlen : buf.length < wordSize) (offset : ℕ) :
    Reads buf.length (readU32 buf offset) (LnkInspect.readU32 buf offset) := by
  unfold LnkInspect.readU32
  refine .bind (inRange_reads hlen offset 4) ?_
  by_cases hrange : LnkInspect.inRange buf.length offset 4 = true
  · have hwithin := (inRange_iff _ _ _).mp hrange
    rw [hrange, if_pos rfl, take_drop_succ _ _ (by omega), take_drop_succ _ _ (by omega),
      take_drop_succ _ _ (by omega), take_drop_succ _ _ (by omega)]
    refine .bind (byteAt_reads (by omega)) ?_
    refine .bind (sized_reads (offset + 1) (by push_cast; rfl) (by omega)) ?_
    refine .bind (byteAt_reads (by omega)) ?_
    refine .bind (sized_reads (offset + 2) (by push_cast; rfl) (by omega)) ?_
    refine .bind (byteAt_reads (by omega)) ?_
    refine .bind (sized_reads (offset + 3) (by push_cast; rfl) (by omega)) ?_
    exact .bind (byteAt_reads (by omega)) (.pure _)
  · rw [Bool.not_eq_true] at hrange
    rw [hrange, if_neg Bool.false_ne_true]
    exact .stop

end Readers

/-! ### The copy loops -/

/-- The field with `stored` written from index `o` on. -/
def fill : ℕ → Bytes → Bytes → Bytes
  | _, [], out => out
  | o, c :: stored, out => fill (o + 1) stored (out.set o c)

lemma fill_eq (stored : Bytes) :
    ∀ (o : ℕ) (out : Bytes), o + stored.length ≤ out.length →
      fill o stored out = out.take o ++ stored ++ out.drop (o + stored.length) := by
  induction stored with
  | nil =>
    intro o out _
    simp [fill]
  | cons c stored ih =>
    intro o out hfits
    rw [List.length_cons] at hfits
    have hlength : (out.set o c).length = out.length := List.length_set
    have htake : (out.set o c).take (o + 1) = out.take o ++ [c] := by
      rw [List.take_set, List.take_succ_eq_append_getElem (by omega), List.set_append_right _ _ (by simp)]
      simp [Nat.min_eq_left (show o ≤ out.length by omega)]
    have hdrop : (out.set o c).drop (o + 1 + stored.length) = out.drop (o + (stored.length + 1)) := by
      rw [List.drop_set_of_lt (by omega), Nat.add_assoc, Nat.add_comm 1]
    rw [fill, ih (o + 1) (out.set o c) (by omega), htake, hdrop, List.length_cons]
    simp

/-- What the field holds once the NUL is written behind what was stored. -/
lemma set_fill {stored out : Bytes} (h : stored.length < out.length) :
    (fill 0 stored out).set stored.length 0 = stored ++ 0 :: out.drop (stored.length + 1) := by
  rw [fill_eq stored 0 out (by omega), List.take_zero, List.nil_append, Nat.zero_add,
    List.set_append_right _ _ (Nat.le_refl _), Nat.sub_self, List.drop_eq_getElem_cons h,
    List.set_cons_zero]

/-- The field after a copy: NUL-terminated, and read back as what was stored. -/
lemma terminated_set_fill {stored out : Bytes} {outCap : ℕ} (hout : out.length = outCap)
    (h : stored.length < outCap) :
    Terminated outCap ((fill 0 stored out).set stored.length 0) ∧
      cstr ((fill 0 stored out).set stored.length 0) = cstr stored := by
  rw [set_fill (by omega)]
  refine ⟨⟨?_, by simp⟩, cstr_append_zero _ _⟩
  rw [List.length_append, List.length_cons, List.length_drop]
  omega

section Loops
variable {buf : Bytes}

theorem cstringLoop_reads {bound : ℕ} (hbound : bound ≤ buf.length) (hlen : buf.length < wordSize)
    (outCap i o : ℕ) (out : Bytes) (ho : o < outCap) :
    let stored := (cstr ((buf.take bound).drop i)).take (outCap - 1 - o)
    Reads buf.length (cstringLoop buf bound outCap i o out)
      (some (fill o stored out, o + stored.length)) := by
  induction hleft : bound - i generalizing i o out with
  | zero =>
    have hend : (buf.take bound).drop i = [] := by
      rw [List.drop_eq_nil_iff, List.length_take]
      omega
    rw [hend, cstringLoop, if_neg (by omega)]
    simp only [cstr, List.takeWhile_nil, List.take_nil, fill]
    exact .pure _
  | succ left ih =>
    have hi : i < bound := by omega
    have hnext : (buf.take bound).drop i = buf.getD i 0 :: (buf.take bound).drop (i + 1) := by
      have htake : i < (buf.take bound).length := by
        rw [List.length_take]
        omega
      rw [List.drop_eq_getElem_cons htake, List.getElem_take, List.getD_eq_getElem]
    rw [cstringLoop, if_pos hi, hnext]
    refine .bind (byteAt_reads (by omega)) ?_
    by_cases hc : buf.getD i 0 = 0
    · have hempty : cstr (buf.getD i 0 :: (buf.take bound).drop (i + 1)) = [] := by
        rw [hc]
        rfl
      rw [if_pos hc, hempty]
      simp only [List.take_nil, fill]
      exact .pure _
    · have hcons : cstr (buf.getD i 0 :: (buf.take bound).drop (i + 1)) =
          buf.getD i 0 :: cstr ((buf.take bound).drop (i + 1)) := by
        simp only [cstr, List.takeWhile_cons, decide_eq_true hc, if_true, ne_eq]
      have hsize : (Access.size (i + 1)).Allowed buf.length := by
        constructor <;> omega
      rw [if_neg hc, hcons]
      refine .bind (.note hsize) ?_
      by_cases hroom : o + 1 < outCap
      · have hstep := ih (i + 1) (o + 1) (out.set o (buf.getD i 0)) hroom (by omega)
        have hcap : outCap - 1 - o = (outCap - 1 - (o + 1)) + 1 := by omega
        have hstore : (Access.store outCap o).Allowed buf.length := ho
        rw [if_pos hroom, hcap, List.take_succ_cons]
        simp only [fill, List.length_cons]
        simp only [Nat.add_right_comm o 1] at hstep
        exact .bind (.note hstore) hstep
      · have hstep := ih (i + 1) o out ho (by omega)
        have hcap : outCap - 1 - o = 0 := by omega
        rw [if_neg hroom]
        rw [hcap] at hstep ⊢
        exact hstep

theorem readCstringAnsi_reads {bound : ℕ} (hbound : bound ≤ buf.length)
    (hlen : buf.length < wordSize) (offset outCap : ℕ) (out : Bytes) :
    Reads buf.length (readCstringAnsi buf bound offset out outCap)
      ((LnkInspect.readCstringAnsi buf bound offset outCap).map fun stored =>
        (fill 0 stored out).set stored.length 0) := by
  unfold readCstringAnsi LnkInspect.readCstringAnsi
  by_cases hbad : offset > bound ∨ outCap = 0
  · rw [if_pos hbad, if_pos hbad]
    exact .stop
  · have hloop := cstringLoop_reads hbound hlen outCap offset 0 out (by omega)
    have hshort : (cut outCap (cstr ((buf.take bound).drop offset))).length < outCap := by
      rw [cut_length]
      omega
    rw [if_neg hbad, if_neg hbad, Option.map_some]
    simp only [Nat.sub_zero, Nat.zero_add] at hloop
    exact .bind hloop (.bind (.note hshort) (.pure _))

lemma storedChars_step (isUnicode : Bool) {start left : ℕ}
    (hfits : start + (left + 1) * (if isUnicode then 2 else 1) ≤ buf.length) :
    storedChars isUnicode ((buf.drop start).take ((left + 1) * if isUnicode then 2 else 1)) =
      storedChar isUnicode (buf.getD start 0) (if isUnicode then buf.getD (start + 1) 0 else 0) ::
        storedChars isUnicode
          ((buf.drop (start + if isUnicode then 2 else 1)).take (left * if isUnicode then 2 else 1)) := by
  cases isUnicode with
  | true =>
    simp only [if_true] at hfits ⊢
    rw [Nat.add_mul, take_drop_succ buf _ (by omega), take_drop_succ buf _ (by omega)]
    rfl
  | false =>
    simp only [Bool.false_eq_true, if_false, Nat.mul_one] at hfits ⊢
    rw [take_drop_succ buf _ (by omega)]
    cases (buf.drop (start + 1)).take left <;> rfl

theorem highByte_reads (hlen : buf.length < wordSize) (isUnicode : Bool) {charOffset : ℕ}
    (hfits : charOffset + (if isUnicode then 2 else 1) ≤ buf.length) :
    Reads buf.length (highByte buf isUnicode charOffset)
      (some (if isUnicode then buf.getD (charOffset + 1) 0 else 0)) := by
  cases isUnicode with
  | true =>
    simp only [if_true] at hfits ⊢
    exact .bind (sized_reads (charOffset + 1) (by push_cast; rfl) (by omega))
      (byteAt_reads (by omega))
  | false => exact .pure _

theorem charsLoop_reads (hlen : buf.length < wordSize) (offset : ℕ) (isUnicode : Bool)
    (outCap left i o : ℕ) (out : Bytes) (ho : o < outCap)
    (hfits : offset + 2 + i * (if isUnicode then 2 else 1) +
      left * (if isUnicode then 2 else 1) ≤ buf.length) :
    let start := offset + 2 + i * if isUnicode then 2 else 1
    let stored := (storedChars isUnicode
      ((buf.drop start).take (left * if isUnicode then 2 else 1))).take (outCap - 1 - o)
    Reads buf.length (charsLoop buf offset isUnicode outCap left i o out)
      (some (fill o stored out, o + stored.length)) := by
  induction left generalizing i o out with
  | zero =>
    simp only [Nat.zero_mul, List.take_zero, storedChars, List.take_nil, fill, charsLoop]
    exact .pure _
  | succ left ih =>
    have hstep := storedChars_step isUnicode hfits
    have hsucc : offset + 2 + (i * if isUnicode then 2 else 1) + (if isUnicode then 2 else 1) =
        offset + 2 + (i + 1) * if isUnicode then 2 else 1 := by
      rw [Nat.add_mul, Nat.one_mul, Nat.add_assoc]
    have hpos : 0 < if isUnicode then 2 else 1 := by
      split_ifs <;> omega
    rw [Nat.add_mul left, Nat.one_mul] at hfits
    simp only [hstep, charsLoop]
    refine .bind (sized_reads (offset + 2 + i * if isUnicode then 2 else 1)
      (by push_cast; rfl) (by omega)) ?_
    refine .bind (byteAt_reads (by omega)) ?_
    refine .bind (highByte_reads hlen isUnicode (by omega)) ?_
    by_cases hroom : o + 1 < outCap
    · have hnext := ih (i + 1) (o + 1) (out.set o (storedChar isUnicode
        (buf.getD (offset + 2 + i * if isUnicode then 2 else 1) 0)
        (if isUnicode then buf.getD (offset + 2 + (i * if isUnicode then 2 else 1) + 1) 0 else 0)))
        hroom (by omega)
      have hcap : outCap - 1 - o = (outCap - 1 - (o + 1)) + 1 := by omega
      have hstore : (Access.store outCap o).Allowed buf.length := ho
      rw [if_pos hroom, hcap, List.take_succ_cons, hsucc]
      simp only [fill, List.length_cons]
      simp only [Nat.add_right_comm o 1] at hnext
      exact .bind (.note hstore) hnext
    · have hnext := ih (i + 1) o out ho (by omega)
      have hcap : outCap - 1 - o = 0 := by omega
      rw [if_neg hroom]
      rw [hcap] at hnext ⊢
      exact hnext

end Loops

end Traced

end UsbSentinel.LnkInspect
