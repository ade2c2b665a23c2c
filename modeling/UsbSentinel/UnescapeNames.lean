import UsbSentinel.InPlace
import UsbSentinel.MountInfo

/-! The two decoders of escaped names, in the buffer of the name: octal digits in the mount table
of the kernel, hexadecimal ones in the links of udev. -/
namespace UsbSentinel.DeviceLinux
open ByteString UsbSentinel.Path InPlace

/-- The byte that four others escape. -/
def mountinfoEscaped (a b c d : UInt8) : Option UInt8 :=
  if a = backslash && isOctalDigit b && isOctalDigit c && isOctalDigit d then
    some ((b - 48) * 64 + (c - 48) * 8 + (d - 48))
  else none

def isXDigit (c : UInt8) : Bool :=
  (48 ≤ c && c ≤ 57) || (65 ≤ c && c ≤ 70) || (97 ≤ c && c ≤ 102)

def xDigitValue (c : UInt8) : UInt8 :=
  if c ≤ 57 then c - 48 else if c ≤ 70 then c - 55 else c - 87

def udevEscaped (a b c d : UInt8) : Option UInt8 :=
  if a = backslash && b = 120 && isXDigit c && isXDigit d then
    some (16 * xDigitValue c + xDigitValue d)
  else none

/-- What is written for the front of a text, and how far the read pointer moves. -/
def nextItem (escaped : UInt8 → UInt8 → UInt8 → UInt8 → Option UInt8) : Bytes → UInt8 × ℕ
  | a :: b :: c :: d :: _ =>
    match escaped a b c d with
    | some value => (value, 4)
    | none => (a, 1)
  | short => (short.headD 0, 1)

/-- Both pointers start at the front of the buffer. -/
def unescapeInPlace (escaped : UInt8 → UInt8 → UInt8 → UInt8 → Option UInt8) (text : Bytes) :
    Cursor UInt8 :=
  rewrite 0 (nextItem escaped) (text.length + 1) ⟨text, 0, 0, []⟩

def unescapeMountinfoFieldInPlace (field : Bytes) : Cursor UInt8 :=
  unescapeInPlace mountinfoEscaped field

def unescapeUdevNameInPlace (name : Bytes) : Cursor UInt8 := unescapeInPlace udevEscaped name

/-- The name that the decoder leaves, as a text of its own. -/
def unescapeUdevName : Bytes → Bytes
  | a :: b :: c :: d :: rest =>
    match udevEscaped a b c d with
    | some value => value :: unescapeUdevName rest
    | none => a :: unescapeUdevName (b :: c :: d :: rest)
  | short => short

lemma nextItem_items {escaped : UInt8 → UInt8 → UInt8 → UInt8 → Option UInt8}
    (hzero : ∀ a b c d, b = 0 ∨ c = 0 ∨ d = 0 → escaped a b c d = none) :
    Items 0 (nextItem escaped) := by
  have hplain : ∀ (a : UInt8) (rest : Bytes), 0 ∈ rest.take 3 →
      nextItem escaped (a :: rest) = (a, 1) := by
    intro a rest hmem
    match rest with
    | [] => rfl
    | [_] => rfl
    | [_, _] => rfl
    | b :: c :: d :: rest =>
      have hnone := hzero a b c d (by simpa [eq_comm] using hmem)
      rw [nextItem, hnone]
  refine ⟨fun rest => ?_, fun {name} hne _ => ?_, fun {name} behind hne hname => ?_⟩
  · unfold nextItem
    split
    · split <;> exact Nat.succ_pos _
    · exact Nat.one_pos
  · match name with
    | [_] => exact le_rfl
    | [_, _] => exact Nat.succ_le_succ (Nat.zero_le _)
    | [_, _, _] => exact Nat.succ_le_succ (Nat.zero_le _)
    | a :: b :: c :: d :: rest =>
      have hlength : 4 ≤ (a :: b :: c :: d :: rest).length := by
        simp only [List.length_cons]
        omega
      rw [nextItem]
      split
      · exact hlength
      · exact (by decide : 1 ≤ 4).trans hlength
  · match name with
    | [a] => exact hplain a _ (by simp)
    | [a, b] => exact hplain a _ (by simp)
    | [a, b, c] => exact hplain a _ (by simp)
    | a :: b :: c :: d :: rest => rfl

lemma mountinfo_items : Items 0 (nextItem mountinfoEscaped) := by
  refine nextItem_items fun a b c d h => ?_
  have hzero : isOctalDigit 0 = false := by decide
  rcases h with rfl | rfl | rfl
  all_goals simp only [mountinfoEscaped, hzero, Bool.and_false, Bool.false_and, Bool.false_eq_true,
    if_false]

lemma udev_items : Items 0 (nextItem udevEscaped) := by
  refine nextItem_items fun a b c d h => ?_
  have hzero : isXDigit 0 = false := by decide
  have hx : decide ((0 : UInt8) = 120) = false := by decide
  rcases h with rfl | rfl | rfl
  all_goals simp only [udevEscaped, hzero, hx, Bool.and_false, Bool.false_and, Bool.false_eq_true,
    if_false]

lemma mountinfo_decodes : Decodes (nextItem mountinfoEscaped) unescapeMountinfoField := by
  refine ⟨rfl, fun {name} hne => ?_⟩
  match name with
  | [_] => rfl
  | [_, _] => rfl
  | [_, _, _] => rfl
  | a :: b :: c :: d :: rest =>
    rw [unescapeMountinfoField, nextItem, mountinfoEscaped]
    split_ifs <;> rfl

lemma udev_decodes : Decodes (nextItem udevEscaped) unescapeUdevName := by
  refine ⟨rfl, fun {name} hne => ?_⟩
  match name with
  | [_] => rfl
  | [_, _] => rfl
  | [_, _, _] => rfl
  | a :: b :: c :: d :: rest =>
    rw [unescapeUdevName, nextItem]
    split <;> rfl

/-- The text in the buffer after the loop, and what was behind it. -/
theorem unescapeInPlace_text {escaped : UInt8 → UInt8 → UInt8 → UInt8 → Option UInt8}
    (hitems : Items 0 (nextItem escaped)) {f : Bytes → Bytes} (hf : Decodes (nextItem escaped) f)
    {name : Bytes} (hname : 0 ∉ name) (behind : Bytes) :
    ∃ gap, (unescapeInPlace escaped (name ++ 0 :: behind)).text =
      f name ++ 0 :: (gap ++ behind) := by
  have hturns : name.length < (name ++ 0 :: behind).length + 1 := by
    rw [List.length_append]
    omega
  exact rewrite_text hitems hf hturns hname [] [] behind []

lemma unescapeInPlace_behind {escaped : UInt8 → UInt8 → UInt8 → UInt8 → Option UInt8}
    (hitems : Items 0 (nextItem escaped)) (text : Bytes) :
    ∀ p ∈ (unescapeInPlace escaped text).positions, p.2 ≤ p.1 :=
  rewrite_behind hitems.advances le_rfl fun _ hp => absurd hp List.not_mem_nil

def udevHex (upper : Bool) (n : UInt8) : UInt8 :=
  if n < 10 then 48 + n else if upper then 55 + n else 87 + n

def udevEscape (upper : Bool) (c : UInt8) : Bytes :=
  [backslash, 120, udevHex upper (c / 16), udevHex upper (c % 16)]

/-- A name with the backslash and other bytes in hexadecimal. -/
def escapeUdevName (upper : Bool) (others name : Bytes) : Bytes :=
  name.flatMap fun c => if c ∈ backslash :: others then udevEscape upper c else [c]

set_option maxRecDepth 8000 in
lemma udevEscape_digits (upper : Bool) (c : UInt8) :
    isXDigit (udevHex upper (c / 16)) = true ∧ isXDigit (udevHex upper (c % 16)) = true ∧
      16 * xDigitValue (udevHex upper (c / 16)) + xDigitValue (udevHex upper (c % 16)) = c := by
  revert upper c
  decide

lemma udevEscape_text (upper : Bool) (c : UInt8) : 0 ∉ udevEscape upper c := by
  obtain ⟨hhigh, hlow, _⟩ := udevEscape_digits upper c
  have hzero : isXDigit 0 ≠ true := by decide
  simp only [udevEscape, List.mem_cons, List.not_mem_nil, or_false, not_or]
  refine ⟨by decide, by decide, ?_, ?_⟩
  · exact fun h => hzero (h ▸ hhigh)
  · exact fun h => hzero (h ▸ hlow)

lemma nextItem_udevEscape (upper : Bool) (c : UInt8) (rest : Bytes) :
    nextItem udevEscaped (udevEscape upper c ++ rest) = (c, 4) := by
  obtain ⟨hhigh, hlow, hvalue⟩ := udevEscape_digits upper c
  simp only [udevEscape, List.cons_append, List.nil_append, nextItem, udevEscaped, hhigh, hlow,
    hvalue, decide_true, Bool.and_self, if_true]

lemma nextItem_plain {c : UInt8} (hc : c ≠ backslash) (rest : Bytes) :
    nextItem udevEscaped (c :: rest) = (c, 1) := by
  have hfalse : decide (c = backslash) = false := decide_eq_false hc
  match rest with
  | [] => rfl
  | [_] => rfl
  | [_, _] => rfl
  | x :: y :: z :: rest =>
    simp only [nextItem, udevEscaped, hfalse, Bool.false_and, Bool.false_eq_true, if_false]

lemma unescape_escapeUdevName (upper : Bool) (others name : Bytes) :
    unescapeUdevName (escapeUdevName upper others name) = name := by
  refine udev_decodes.flatMap (fun c => ?_) (fun c rest => ?_) name
  · split_ifs <;> exact List.cons_ne_nil _ _
  · by_cases hc : c ∈ backslash :: others
    · rw [if_pos hc, nextItem_udevEscape]
      rfl
    · have hplain : c ≠ backslash := fun heq => hc (heq ▸ List.mem_cons_self)
      rw [if_neg hc]
      exact nextItem_plain hplain rest

lemma escapeUdevName_text {upper : Bool} {others name : Bytes} (hname : 0 ∉ name) :
    0 ∉ escapeUdevName upper others name := by
  intro hmem
  obtain ⟨c, hc, hzero⟩ := List.mem_flatMap.mp hmem
  split_ifs at hzero
  · exact udevEscape_text upper c hzero
  · rw [List.mem_singleton.mp hzero] at hname
    exact hname hc

/-- Both decoders give back the name that was escaped, and neither writes ahead of what it has
read, whatever the buffer holds. -/
theorem unescape_inPlace {name : Bytes} (hname : 0 ∉ name) (upper : Bool)
    (others behind text : Bytes) :
    cstr (unescapeMountinfoFieldInPlace (escapeField mangled name ++ 0 :: behind)).text = name ∧
      cstr (unescapeUdevNameInPlace (escapeUdevName upper others name ++ 0 :: behind)).text = name ∧
      (∀ p ∈ (unescapeMountinfoFieldInPlace text).positions, p.2 ≤ p.1) ∧
      ∀ p ∈ (unescapeUdevNameInPlace text).positions, p.2 ≤ p.1 := by
  refine ⟨?_, ?_, unescapeInPlace_behind mountinfo_items text,
    unescapeInPlace_behind udev_items text⟩
  · have htext : 0 ∉ escapeField mangled name := (@escapeField_isText [] _ hname).1
    obtain ⟨gap, hrun⟩ := unescapeInPlace_text mountinfo_items mountinfo_decodes htext behind
    rw [unescapeMountinfoFieldInPlace, hrun, cstr_append_zero,
      unescape_escapeField (by decide), cstr_eq_self hname]
  · obtain ⟨gap, hrun⟩ := unescapeInPlace_text udev_items udev_decodes
      (@escapeUdevName_text upper others _ hname) behind
    rw [unescapeUdevNameInPlace, hrun, cstr_append_zero, unescape_escapeUdevName,
      cstr_eq_self hname]

theorem unescape_inPlace_lookalike :
    cstr (unescapeMountinfoFieldInPlace
        (escapeField mangled (ascii "a\\040 \\x2") ++ 0 :: ascii "left")).text =
        ascii "a\\040 \\x2" ∧
      cstr (unescapeUdevNameInPlace
        (escapeUdevName false (ascii " ") (ascii "a\\040 \\x2") ++ 0 :: ascii "left")).text =
        ascii "a\\040 \\x2" ∧
      (∀ p ∈ (unescapeMountinfoFieldInPlace (ascii "\\04" ++ [0])).positions, p.2 ≤ p.1) ∧
      ∀ p ∈ (unescapeUdevNameInPlace (ascii "\\04" ++ [0])).positions, p.2 ≤ p.1 :=
  unescape_inPlace (by decide +kernel) false (ascii " ") (ascii "left") (ascii "\\04" ++ [0])

end UsbSentinel.DeviceLinux
