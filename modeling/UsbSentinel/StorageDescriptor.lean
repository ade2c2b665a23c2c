import UsbSentinel.Device
import UsbSentinel.LnkInspect
import UsbSentinel.Machine

/-! The descriptor of a storage device: the bytes of its buffer that are read for the strings of
the device, and the fields in which these are left. -/
namespace UsbSentinel.DeviceWin32
open ByteString
open UsbSentinel.LnkInspect (littleEndian)

def idStrMax : ℕ := 128
def descriptorBufferSize : ℕ := 1024

/-- `sizeof(STORAGE_DEVICE_DESCRIPTOR)`. -/
def descriptorSize : ℕ := 40

/-! ### Memory -/

inductive TextField
  | vendor | product | serial
  deriving DecidableEq, Repr

inductive Access
  /-- A byte of the descriptor buffer. -/
  | read (index : ℕ)
  /-- A byte of a field of the device. -/
  | store (index : ℕ)
  deriving DecidableEq, Repr

def Access.Allowed : Access → Prop
  | .read index => index < descriptorBufferSize
  | .store index => index < idStrMax

instance : DecidablePred Access.Allowed
  | .read index => inferInstanceAs (Decidable (index < descriptorBufferSize))
  | .store index => inferInstanceAs (Decidable (index < idStrMax))

/-- What has been accessed, and what the descriptor says of the device. -/
structure Work where
  accesses : List Access
  busType : BusType
  removableMedia : Bool
  texts : TextField → Bytes

/-- The device as `usbs_device_init` leaves it. -/
def deviceInit : Work := ⟨[], .unknown, false, fun _ => List.replicate idStrMax 0⟩

/-- A step of the query; nothing is said of it after a read outside the buffer. -/
abbrev Step := Machine Work Unit

open Machine

def note (a : Access) : Step Unit := change fun w => { w with accesses := w.accesses ++ [a] }

def outside (index : ℕ) : Step α := do
  note (.read index)
  stop ()

def byteAt (buffer : Bytes) (index : ℕ) : Step UInt8 :=
  if index < buffer.length then do
    note (.read index)
    pure (buffer.getD index 0)
  else outside index

def store (field : TextField) (index : ℕ) (c : UInt8) : Step Unit := do
  note (.store index)
  change fun w => { w with texts := Function.update w.texts field ((w.texts field).set index c) }

/-! ### A string of the descriptor -/

/-- The index of the terminator. Behind the last byte of the buffer there is nothing left to
find it in. -/
def strlenLoop (buffer : Bytes) : ℕ → ℕ → Step ℕ
  | 0, i => outside i
  | left + 1, i => do
    let c ← byteAt buffer i
    if c = 0 then pure i else strlenLoop buffer left (i + 1)

/-- `while (start < end && src[start] <= ' ')`, with `left` bytes from `start` to `end`. -/
def startLoop (buffer : Bytes) : ℕ → ℕ → Step ℕ
  | 0, start => pure start
  | left + 1, start => do
    let c ← byteAt buffer start
    if c ≤ 32 then startLoop buffer left (start + 1) else pure start

/-- `while (end > start && src[end - 1] <= ' ')`. -/
def endLoop (buffer : Bytes) : ℕ → ℕ → Step ℕ
  | 0, finish => pure finish
  | left + 1, finish => do
    let c ← byteAt buffer (finish - 1)
    if c ≤ 32 then endLoop buffer left (finish - 1) else pure finish

/-- `memcpy(dst + o, buffer + start, left)`. -/
def copyLoop (buffer : Bytes) (field : TextField) : ℕ → ℕ → ℕ → Step Unit
  | 0, _, _ => pure ()
  | left + 1, start, o => do
    let c ← byteAt buffer start
    store field o c
    copyLoop buffer field left (start + 1) (o + 1)

def copyTrimmed (buffer : Bytes) (src : ℕ) (field : TextField) (cap : ℕ) : Step Unit :=
  if cap = 0 then pure ()
  else do
    store field 0 0
    let terminator ← strlenLoop buffer (buffer.length - src) src
    let start ← startLoop buffer (terminator - src) src
    let finish ← endLoop buffer (terminator - start) terminator
    let len := if finish - start ≥ cap then cap - 1 else finish - start
    copyLoop buffer field len start 0
    store field len 0

/-! ### The descriptor -/

def busTypeFromStorage : ℕ → BusType
  | 7 => .usb
  | 0xB => .sata
  | 0x11 => .nvme
  | 1 => .scsi
  | 0xC => .sd
  | 0xD => .sd
  | 0 => .unknown
  | _ => .other

/-- Where the descriptor has the offset of a string. -/
def TextField.offsetField : TextField → ℕ
  | .vendor => 12
  | .product => 16
  | .serial => 24

def readDword (buffer : Bytes) (index : ℕ) : Step ℕ := do
  let b₀ ← byteAt buffer index
  let b₁ ← byteAt buffer (index + 1)
  let b₂ ← byteAt buffer (index + 2)
  let b₃ ← byteAt buffer (index + 3)
  pure (littleEndian [b₀, b₁, b₂, b₃])

/-- An offset of 0 is that of a string which is absent. -/
def copyText (buffer : Bytes) (returned : ℕ) (field : TextField) : Step Unit := do
  let offset ← readDword buffer field.offsetField
  if offset ≠ 0 ∧ offset < returned then copyTrimmed buffer offset field idStrMax else pure ()

/-- The answer is what the control call left in the buffer, with the length it returned, or none
where it failed. -/
def queryStorageDescriptor (answer : Option (Bytes × ℕ)) : Step Bool :=
  match answer with
  | none => pure false
  | some (buffer, returned) =>
    if returned < descriptorSize then pure false
    else do
      let bus ← readDword buffer 28
      change fun w => { w with busType := busTypeFromStorage bus }
      let removable ← byteAt buffer 10
      change fun w => { w with removableMedia := removable ≠ 0 }
      copyText buffer returned .vendor
      copyText buffer returned .product
      copyText buffer returned .serial
      pure true

/-! ### Steps that stay inside -/

def Good (w : Work) : Prop := ∀ a ∈ w.accesses, a.Allowed

def Terminated (text : Bytes) : Prop := text.length = idStrMax ∧ 0 ∈ text

/-- Nothing outside is accessed, and of the device only this field is changed. -/
structure Kept (field : TextField) (w t : Work) : Prop where
  good : Good w → Good t
  length : (t.texts field).length = (w.texts field).length
  others : ∀ other, other ≠ field → t.texts other = w.texts other

variable {buffer : Bytes} {field : TextField} {w : Work}

lemma Kept.refl (field : TextField) (w : Work) : Kept field w w := ⟨id, rfl, fun _ _ => rfl⟩

lemma Kept.trans {t u : Work} (h : Kept field w t) (h' : Kept field t u) : Kept field w u :=
  ⟨fun hw => h'.good (h.good hw), h'.length.trans h.length,
    fun other hother => (h'.others other hother).trans (h.others other hother)⟩

lemma good_append (hw : Good w) {a : Access} (ha : a.Allowed) :
    ∀ b ∈ w.accesses ++ [a], b.Allowed := by
  intro b hb
  rcases List.mem_append.mp hb with hold | hnew
  · exact hw b hold
  · rw [List.mem_singleton.mp hnew]
    exact ha

/-- The step comes to its end, with a result that satisfies `post`. -/
def Returns (field : TextField) (m : Step α) (post : α → Work → Prop) (w : Work) : Prop :=
  wp m (fun r t => ∃ a, r = .ok a ∧ post a t ∧ Kept field w t) w

lemma Returns.pure {a : α} {post : α → Work → Prop} (h : post a w) :
    Returns field (pure a) post w := ⟨a, rfl, h, .refl field w⟩

lemma Returns.bind {m : Step α} {f : α → Step β} {mid : α → Work → Prop} {post : β → Work → Prop}
    (hm : Returns field m mid w)
    (hf : ∀ a t, mid a t → Kept field w t → Returns field (f a) post t) :
    Returns field (m >>= f) post w := by
  refine wp_bind hm ?_ ?_
  · rintro a t ⟨b, hb, hmid, hkept⟩
    obtain rfl := Except.ok.inj hb
    obtain ⟨c, hc, hpost, hrest⟩ := hf a t hmid hkept
    exact ⟨c, hc, hpost, hkept.trans hrest⟩
  · rintro e t ⟨b, hb, _⟩
    cases hb

lemma Returns.imp {m : Step α} {post post' : α → Work → Prop} (hm : Returns field m post w)
    (himp : ∀ a t, post a t → post' a t) : Returns field m post' w := by
  obtain ⟨a, ha, hpost, hkept⟩ := hm
  exact ⟨a, ha, himp a _ hpost, hkept⟩

lemma byteAt_returns (hbuffer : buffer.length = descriptorBufferSize) {i : ℕ}
    (hi : i < buffer.length) :
    Returns field (byteAt buffer i) (fun c t => c = buffer.getD i 0 ∧ t.texts = w.texts) w := by
  have hread : (Access.read i).Allowed := hi.trans_eq hbuffer
  rw [byteAt, if_pos hi]
  exact ⟨_, rfl, ⟨rfl, rfl⟩, fun hw => good_append hw hread, rfl, fun _ _ => rfl⟩

lemma store_returns {o : ℕ} (ho : o < idStrMax) (c : UInt8) :
    Returns field (store field o c) (fun _ t => t.texts field = (w.texts field).set o c) w := by
  refine ⟨(), rfl, Function.update_self _ _ _, fun hw => good_append hw ho, ?_, ?_⟩
  · change (Function.update w.texts field _ field).length = _
    rw [Function.update_self, List.length_set]
  · intro other hother
    exact Function.update_of_ne hother _ _

/-! ### The loops -/

lemma drop_getD {i : ℕ} (hi : i < buffer.length) :
    buffer.drop i = buffer.getD i 0 :: buffer.drop (i + 1) := by
  rw [List.drop_eq_getElem_cons hi, List.getD_eq_getElem _ _ hi]

lemma strlenLoop_returns (hbuffer : buffer.length = descriptorBufferSize) {left i : ℕ}
    (hleft : i + left = buffer.length) (hend : 0 ∈ buffer.drop i) :
    Returns field (strlenLoop buffer left i) (fun e _ => i ≤ e ∧ e < buffer.length) w := by
  induction left generalizing i w with
  | zero =>
    rw [List.drop_eq_nil_of_le (by omega)] at hend
    cases hend
  | succ left ih =>
    have hi : i < buffer.length := by omega
    refine (byteAt_returns hbuffer hi).bind fun c t hc _ => ?_
    by_cases hzero : c = 0
    · rw [if_pos hzero]
      exact .pure ⟨le_rfl, hi⟩
    · rw [drop_getD hi, ← hc.1] at hend
      have hlater := (List.mem_cons.mp hend).resolve_left (Ne.symm hzero)
      rw [if_neg hzero]
      refine (ih (by omega) hlater).imp fun e _ he => ?_
      omega

/-- Without a terminator the loop reads on behind the buffer. -/
lemma strlenLoop_outside {left i : ℕ} (hleft : i + left = buffer.length)
    (hend : 0 ∉ buffer.drop i) :
    wp (strlenLoop buffer left i) (fun r t => r = .error () ∧ .read buffer.length ∈ t.accesses) w := by
  induction left generalizing i w with
  | zero =>
    obtain rfl : i = buffer.length := hleft
    exact ⟨rfl, List.mem_append_right _ (List.mem_singleton_self _)⟩
  | succ left ih =>
    have hi : i < buffer.length := by omega
    rw [drop_getD hi, List.mem_cons, not_or] at hend
    rw [strlenLoop, byteAt, if_pos hi]
    refine wp_bind (show wp _ (fun r _ => r = .ok (buffer.getD i 0)) w from rfl) ?_ ?_
    · intro c t hc
      obtain rfl := Except.ok.inj hc
      rw [if_neg (Ne.symm hend.1)]
      exact ih (by omega) hend.2
    · intro e t he
      cases he

lemma startLoop_returns (hbuffer : buffer.length = descriptorBufferSize) {left start : ℕ}
    (hleft : start + left ≤ buffer.length) :
    Returns field (startLoop buffer left start)
      (fun s _ => start ≤ s ∧ s ≤ start + left) w := by
  induction left generalizing start w with
  | zero => exact .pure ⟨le_rfl, le_rfl⟩
  | succ left ih =>
    refine (byteAt_returns hbuffer (by omega)).bind fun c t _ _ => ?_
    by_cases hspace : c ≤ 32
    · rw [if_pos hspace]
      refine (ih (by omega)).imp fun s _ hs => ?_
      omega
    · rw [if_neg hspace]
      exact .pure ⟨le_rfl, Nat.le_add_right _ _⟩

lemma endLoop_returns (hbuffer : buffer.length = descriptorBufferSize) {left finish : ℕ}
    (hleft : left ≤ finish) (hfinish : finish ≤ buffer.length) :
    Returns field (endLoop buffer left finish)
      (fun e _ => finish - left ≤ e ∧ e ≤ finish) w := by
  induction left generalizing finish w with
  | zero => exact .pure ⟨le_rfl, le_rfl⟩
  | succ left ih =>
    refine (byteAt_returns hbuffer (by omega)).bind fun c t _ _ => ?_
    by_cases hspace : c ≤ 32
    · rw [if_pos hspace]
      refine (ih (by omega) (by omega)).imp fun e _ he => ?_
      omega
    · rw [if_neg hspace]
      exact .pure ⟨Nat.sub_le _ _, le_rfl⟩

lemma copyLoop_returns (hbuffer : buffer.length = descriptorBufferSize) {left start o : ℕ}
    (hsource : start + left ≤ buffer.length) (hfield : o + left ≤ idStrMax) :
    Returns field (copyLoop buffer field left start o) (fun _ _ => True) w := by
  induction left generalizing start o w with
  | zero => exact .pure trivial
  | succ left ih =>
    refine (byteAt_returns hbuffer (by omega)).bind fun c t _ _ => ?_
    refine (store_returns (by omega) c).bind fun _ t' _ _ => ?_
    exact ih (by omega) (by omega)

/-! ### A string of the descriptor, terminated or not -/

theorem copyTrimmed_returns (hbuffer : buffer.length = descriptorBufferSize) {src : ℕ}
    (hsrc : src < buffer.length) (hend : 0 ∈ buffer.drop src)
    (hfield : (w.texts field).length = idStrMax) :
    Returns field (copyTrimmed buffer src field idStrMax) (fun _ t => 0 ∈ t.texts field) w := by
  rw [copyTrimmed, if_neg (by decide)]
  refine (store_returns (by decide) 0).bind fun _ t₁ _ h₁ => ?_
  refine (strlenLoop_returns hbuffer (by omega) hend).bind fun terminator t₂ hterm h₂ => ?_
  refine (startLoop_returns hbuffer (by omega)).bind fun start t₃ hstart h₃ => ?_
  refine (endLoop_returns hbuffer (by omega) (by omega)).bind fun finish t₄ hfinish h₄ => ?_
  dsimp only
  set len := if finish - start ≥ idStrMax then idStrMax - 1 else finish - start with hlen
  have hfits : len < idStrMax := by
    have hpos : 0 < idStrMax := by decide
    rw [hlen]
    split_ifs <;> omega
  have hinside : start + len ≤ buffer.length := by
    rw [hlen]
    split_ifs <;> omega
  refine (copyLoop_returns hbuffer hinside (by omega)).bind fun _ t₅ _ h₅ => ?_
  refine (store_returns hfits 0).imp fun _ t₆ htext => ?_
  have hroom : len < (t₅.texts field).length := by
    rw [((((h₁.trans h₂).trans h₃).trans h₄).trans h₅).length, hfield]
    exact hfits
  rw [htext]
  exact List.mem_set hroom 0

theorem copyTrimmed_outside {src : ℕ} (hsrc : src < buffer.length) (hend : 0 ∉ buffer.drop src) :
    wp (copyTrimmed buffer src field idStrMax)
      (fun r t => r = .error () ∧ .read buffer.length ∈ t.accesses) w := by
  rw [copyTrimmed, if_neg (by decide)]
  refine wp_bind (store_returns (by decide : 0 < idStrMax) 0) ?_ ?_
  · intro _ t _
    refine wp_bind (strlenLoop_outside (show src + (buffer.length - src) = buffer.length by omega)
      hend) ?_ ?_
    · intro e u he
      cases he.1
    · intro e u he
      exact ⟨rfl, he.2⟩
  · rintro e t ⟨_, he, _⟩
    cases he

def offsetOf (buffer : Bytes) (field : TextField) : ℕ :=
  littleEndian ((buffer.drop field.offsetField).take 4)

lemma readDword_returns (hbuffer : buffer.length = descriptorBufferSize) {i : ℕ}
    (hi : i + 3 < buffer.length) :
    Returns field (readDword buffer i)
      (fun n t => n = littleEndian ((buffer.drop i).take 4) ∧ t.texts = w.texts) w := by
  refine (byteAt_returns hbuffer (by omega)).bind fun b₀ _ h₀ _ => ?_
  refine (byteAt_returns hbuffer (by omega)).bind fun b₁ _ h₁ _ => ?_
  refine (byteAt_returns hbuffer (by omega)).bind fun b₂ _ h₂ _ => ?_
  refine (byteAt_returns hbuffer hi).bind fun b₃ _ h₃ _ => .pure ⟨?_, ?_⟩
  · rw [drop_getD (by omega), drop_getD (by omega), drop_getD (by omega), drop_getD hi, h₀.1, h₁.1,
      h₂.1, h₃.1]
    rfl
  · rw [h₃.2, h₂.2, h₁.2, h₀.2]

lemma offsetField_inside (hbuffer : buffer.length = descriptorBufferSize) (field : TextField) :
    field.offsetField + 3 < buffer.length := by
  rw [hbuffer]
  cases field <;> decide

/-- The offset is that of a string, as the query sees it. -/
def Present (buffer : Bytes) (returned : ℕ) (field : TextField) : Prop :=
  offsetOf buffer field ≠ 0 ∧ offsetOf buffer field < returned

/-- The string, if there is one, ends in the buffer. -/
def Ends (buffer : Bytes) (returned : ℕ) (field : TextField) : Prop :=
  Present buffer returned field → 0 ∈ buffer.drop (offsetOf buffer field)

instance : Decidable (Ends buffer returned field) :=
  inferInstanceAs (Decidable (_ ≠ 0 ∧ _ < returned → 0 ∈ buffer.drop _))

def Safe (w : Work) : Prop := Good w ∧ ∀ field, Terminated (w.texts field)

lemma copyText_safe (hbuffer : buffer.length = descriptorBufferSize) {returned : ℕ}
    (hreturned : returned ≤ descriptorBufferSize) (hends : Ends buffer returned field)
    (hw : Safe w) :
    wp (copyText buffer returned field) (fun r t => r = .ok () ∧ Safe t) w := by
  have hrun : Returns field (copyText buffer returned field) (fun _ t => 0 ∈ t.texts field) w := by
    refine (readDword_returns hbuffer (offsetField_inside hbuffer field)).bind
      fun offset t hoffset _ => ?_
    obtain rfl : offset = offsetOf buffer field := hoffset.1
    by_cases hpresent : offsetOf buffer field ≠ 0 ∧ offsetOf buffer field < returned
    · rw [if_pos hpresent]
      have hinside : offsetOf buffer field < buffer.length := by
        rw [hbuffer]
        exact hpresent.2.trans_le hreturned
      refine copyTrimmed_returns hbuffer hinside (hends hpresent) ?_
      rw [hoffset.2]
      exact (hw.2 field).1
    · rw [if_neg hpresent]
      refine .pure ?_
      rw [hoffset.2]
      exact (hw.2 field).2
  obtain ⟨a, ha, hzero, hkept⟩ := hrun
  refine ⟨ha, hkept.good hw.1, fun other => ?_⟩
  by_cases hother : other = field
  · subst hother
    exact ⟨hkept.length.trans (hw.2 other).1, hzero⟩
  · rw [hkept.others other hother]
    exact hw.2 other

lemma copyText_outside (hbuffer : buffer.length = descriptorBufferSize) {returned : ℕ}
    (hreturned : returned ≤ descriptorBufferSize) (hends : ¬ Ends buffer returned field) :
    wp (copyText buffer returned field) (fun r t => r = .error () ∧ ¬ Safe t) w := by
  obtain ⟨hpresent, hzero⟩ := Classical.not_imp.mp hends
  have hinside : offsetOf buffer field < buffer.length := by
    rw [hbuffer]
    exact hpresent.2.trans_le hreturned
  have hread : ¬ (Access.read buffer.length).Allowed := by
    rw [hbuffer]
    exact Nat.lt_irrefl _
  refine wp_bind (@readDword_returns _ field w hbuffer _ (offsetField_inside hbuffer field)) ?_ ?_
  · rintro offset t ⟨_, hresult, hoffset, _⟩
    obtain rfl := Except.ok.inj hresult
    obtain rfl : offset = offsetOf buffer field := hoffset.1
    unfold Present at hpresent
    rw [if_pos hpresent]
    refine wp_mono (copyTrimmed_outside hinside hzero) fun r u hrun => ⟨hrun.1, fun hsafe => ?_⟩
    exact hread (hsafe.1 _ hrun.2)
  · rintro e t ⟨_, he, _⟩
    cases he

/-- One string of the query, and what follows it. -/
lemma copyText_then (hbuffer : buffer.length = descriptorBufferSize) {returned : ℕ}
    (hreturned : returned ≤ descriptorBufferSize) (hw : Safe w) {rest : Step Bool} {c : Prop}
    (hrest : ∀ t, Safe t → wp rest (fun _ u => Safe u ↔ c) t) :
    wp (copyText buffer returned field >>= fun _ => rest)
      (fun _ u => Safe u ↔ Ends buffer returned field ∧ c) w := by
  by_cases hends : Ends buffer returned field
  · refine wp_bind (copyText_safe hbuffer hreturned hends hw) ?_ ?_
    · intro _ t ht
      exact wp_mono (hrest t ht.2) fun _ u hu => hu.trans (and_iff_right hends).symm
    · rintro e t ⟨he, _⟩
      cases he
  · refine wp_bind (copyText_outside hbuffer hreturned hends) ?_ ?_
    · rintro a t ⟨ha, _⟩
      cases ha
    · intro e t ht
      exact iff_of_false ht.2 fun h => hends h.1

/-- The string ends in the buffer if there is a zero byte at or behind its offset. -/
lemma ends_iff (hbuffer : buffer.length = descriptorBufferSize) {returned : ℕ} :
    Ends buffer returned field ↔ (Present buffer returned field →
      ∃ index, offsetOf buffer field ≤ index ∧ index < descriptorBufferSize ∧
        buffer.getD index 0 = 0) := by
  refine imp_congr_right fun _ => ?_
  rw [List.mem_iff_getElem, ← hbuffer]
  constructor
  · rintro ⟨i, hi, hzero⟩
    rw [List.length_drop] at hi
    refine ⟨offsetOf buffer field + i, Nat.le_add_right _ _, by omega, ?_⟩
    rw [List.getElem_drop] at hzero
    rw [List.getD_eq_getElem _ _ (by omega), hzero]
  · rintro ⟨index, hle, hlt, hzero⟩
    refine ⟨index - offsetOf buffer field, by rw [List.length_drop]; omega, ?_⟩
    rw [List.getD_eq_getElem _ _ hlt] at hzero
    rw [List.getElem_drop]
    simpa only [Nat.add_sub_cancel' hle] using hzero

/-- Reads in front of the strings leave the device as it is. -/
lemma read_safe {m : Step α} {post : α → Work → Prop} (hw : Safe w)
    (hm : Returns field m (fun a t => post a t ∧ t.texts = w.texts) w) :
    wp m (fun r t => (∃ a, r = .ok a) ∧ Safe t) w := by
  obtain ⟨a, ha, ⟨_, htexts⟩, hkept⟩ := hm
  refine ⟨⟨a, ha⟩, hkept.good hw.1, ?_⟩
  rw [htexts]
  exact hw.2

/-- The query stays inside exactly if it returned no whole descriptor, or every string ends. -/
lemma queryStorageDescriptor_ends {buffer : Bytes} {returned : ℕ} {device : Work}
    (hbuffer : buffer.length = descriptorBufferSize) (hreturned : returned ≤ descriptorBufferSize)
    (hdevice : Safe device) :
    Safe (queryStorageDescriptor (some (buffer, returned)) device).2 ↔
      (returned < descriptorSize ∨ ∀ field, Ends buffer returned field) := by
  have hends : (∀ field, Ends buffer returned field) ↔ (Ends buffer returned .vendor ∧
      Ends buffer returned .product ∧ Ends buffer returned .serial ∧ True) := by
    refine ⟨fun h => ⟨h _, h _, h _, trivial⟩, fun h field => ?_⟩
    cases field
    · exact h.1
    · exact h.2.1
    · exact h.2.2.1
  rw [hends]
  by_cases hshort : returned < descriptorSize
  · rw [queryStorageDescriptor, if_pos hshort]
    exact iff_of_true hdevice (Or.inl hshort)
  · rw [or_iff_right hshort]
    change wp (queryStorageDescriptor (some (buffer, returned))) (fun _ t => Safe t ↔ _) device
    rw [queryStorageDescriptor, if_neg hshort]
    refine wp_bind (read_safe hdevice (@readDword_returns _ .vendor _ hbuffer 28
      (by rw [hbuffer]; decide))) ?_ ?_
    · rintro bus t ⟨_, ht⟩
      refine wp_change_bind ?_
      have ht' : Safe { t with busType := busTypeFromStorage bus } := ht
      refine wp_bind (read_safe ht' (@byteAt_returns _ .vendor _ hbuffer 10
        (by rw [hbuffer]; decide))) ?_ ?_
      · rintro removable u ⟨_, hu⟩
        refine wp_change_bind ?_
        have hu' : Safe { u with removableMedia := removable ≠ 0 } := hu
        refine copyText_then hbuffer hreturned hu' fun _ h₁ => ?_
        refine copyText_then hbuffer hreturned h₁ fun _ h₂ => ?_
        refine copyText_then hbuffer hreturned h₂ fun _ h₃ => ?_
        exact iff_of_true h₃ trivial
      · rintro e u ⟨⟨_, he⟩, _⟩
        cases he
    · rintro e t ⟨⟨_, he⟩, _⟩
      cases he

/-- The query stays in its buffer and leaves terminated fields exactly if it returned no whole
descriptor, or every string that it copies ends in the buffer. -/
theorem queryStorageDescriptor_safe_iff {buffer : Bytes} {returned : ℕ} {device : Work}
    (hbuffer : buffer.length = descriptorBufferSize) (hreturned : returned ≤ descriptorBufferSize)
    (hdevice : Safe device) :
    Safe (queryStorageDescriptor (some (buffer, returned)) device).2 ↔
      (returned < descriptorSize ∨ ∀ field, Present buffer returned field →
        ∃ index, offsetOf buffer field ≤ index ∧ index < descriptorBufferSize ∧
          buffer.getD index 0 = 0) := by
  rw [queryStorageDescriptor_ends hbuffer hreturned hdevice]
  simp only [ends_iff hbuffer]

lemma deviceInit_safe : Safe deviceInit := by
  refine ⟨fun _ ha => absurd ha List.not_mem_nil, fun field => ⟨rfl, ?_⟩⟩
  exact List.mem_replicate.mpr ⟨by decide, rfl⟩

/-- A USB descriptor whose vendor string lies at `offset`. -/
def vendorDescriptor (offset : ℕ) (text : Bytes) : Bytes :=
  [40, 0, 0, 0, 0, 4, 0, 0, 0, 0, 1, 0, UInt8.ofNat offset, UInt8.ofNat (offset / 256), 0, 0] ++
    List.replicate 12 0 ++ [7, 0, 0, 0] ++ List.replicate (offset - 32) 0 ++ text

/-- A vendor and a product string, both terminated. -/
def terminatedDescriptor : Bytes :=
  (vendorDescriptor 64 (ascii "SanDisk " ++ [0] ++ ascii "Ultra" ++ List.replicate 946 0)).set 16 73

theorem queryStorageDescriptor_safe_terminated :
    Safe (queryStorageDescriptor (some (terminatedDescriptor, 1024)) deviceInit).2 := by
  have hends : terminatedDescriptor.length = descriptorBufferSize ∧
      terminatedDescriptor.getD 1023 0 = 0 ∧ offsetOf terminatedDescriptor .vendor = 64 ∧
      offsetOf terminatedDescriptor .product = 73 ∧ offsetOf terminatedDescriptor .serial = 0 := by
    decide +kernel
  obtain ⟨hlength, hlast, hvendor, hproduct, hserial⟩ := hends
  refine (queryStorageDescriptor_safe_iff hlength (by decide) deviceInit_safe).mpr
    (.inr fun field _ => ⟨1023, ?_, by decide, hlast⟩)
  cases field with
  | vendor => omega
  | product => omega
  | serial => omega

/-- A vendor string that fills the last bytes of the buffer is read on behind it. -/
theorem queryStorageDescriptor_reads_outside :
    ¬ ∀ (buffer : Bytes) (returned : ℕ) (device : Work), buffer.length = descriptorBufferSize →
      returned ≤ descriptorBufferSize → Safe device →
      Safe (queryStorageDescriptor (some (buffer, returned)) device).2 := by
  intro h
  have hlength : (vendorDescriptor 1000 (List.replicate 24 65)).length = descriptorBufferSize := by
    decide +kernel
  have hsafe := h _ 1024 deviceInit hlength (by decide) deviceInit_safe
  have hends := ((queryStorageDescriptor_ends hlength (by decide) deviceInit_safe).mp
    hsafe).resolve_left (by decide) .vendor
  exact absurd hends (by decide +kernel)

end UsbSentinel.DeviceWin32
