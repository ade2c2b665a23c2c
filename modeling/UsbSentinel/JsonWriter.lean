import UsbSentinel.Status

/-! The streaming JSON writer: a growing buffer, one bookkeeping frame for each open
container, and a sticky error. -/
namespace UsbSentinel.Json
open ByteString

def maxDepth : ℕ := 32

/-- The three flags of one container level. -/
structure Frame where
  isObject : Bool
  needComma : Bool := false
  wantKey : Bool := false
  deriving DecidableEq, Repr

/-- `frames` has the innermost level first; `cap = 0` is the buffer not yet allocated. -/
structure Writer where
  buf : Bytes := []
  cap : ℕ := 0
  frames : List Frame := []
  error : Status := .ok
  deriving DecidableEq, Repr

def sizeMax : ℕ := 2 ^ 64 - 1

/-- Doubles the capacity until it suffices; none past `SIZE_MAX / 2`. Every turn
doubles, so 64 of them are enough. -/
def growCap (needed : ℕ) : ℕ → ℕ → Option ℕ
  | 0, _ => none
  | turns + 1, cap =>
    if needed ≤ cap then some cap
    else if cap > sizeMax / 2 then none
    else growCap needed turns (cap * 2)

/-- `realloc n` says whether a buffer of `n` bytes can be had. -/
def ensure (realloc : ℕ → Bool) (w : Writer) (extra : ℕ) : Writer :=
  if w.error ≠ .ok then w
  else
    let needed := w.buf.length + extra + 1
    if needed ≤ w.cap then w
    else
      match growCap needed 64 (if w.cap = 0 then 256 else w.cap) with
      | none => { w with error := .noMemory }
      | some cap => if realloc cap then { w with cap } else { w with error := .noMemory }

def raw (realloc : ℕ → Bool) (w : Writer) (text : Bytes) : Writer :=
  let w := ensure realloc w text.length
  if w.error ≠ .ok then w else { w with buf := w.buf ++ text }

/-- The separator a value needs in front of it. -/
def beforeValue (realloc : ℕ → Bool) (w : Writer) : Writer :=
  if w.error ≠ .ok then w
  else
    match w.frames with
    | [] => w
    | f :: outer =>
      if f.isObject then
        if f.wantKey then { w with error := .internal }
        else { w with frames := { f with wantKey := true } :: outer }
      else
        let w := if f.needComma then raw realloc w (ascii ",") else w
        { w with frames := { f with needComma := true } :: outer }

def quote : UInt8 := 34
def backslash : UInt8 := 92

def hexLower (n : UInt8) : UInt8 := if n < 10 then 48 + n else 87 + n

def escapeByte (b : UInt8) : Bytes :=
  if b = quote then [backslash, quote]
  else if b = backslash then [backslash, backslash]
  else if b = 8 then ascii "\\b"
  else if b = 12 then ascii "\\f"
  else if b = 10 then ascii "\\n"
  else if b = 13 then ascii "\\r"
  else if b = 9 then ascii "\\t"
  else if b < 0x20 then ascii "\\u00" ++ [hexLower (b / 16), hexLower (b % 16)]
  else [b]

def escapeLoop (realloc : ℕ → Bool) : Bytes → Writer → Writer
  | [], w => raw realloc w [quote]
  | b :: rest, w =>
    let w := raw realloc w (escapeByte b)
    if w.error ≠ .ok then w else escapeLoop realloc rest w

def escapeString (realloc : ℕ → Bool) (w : Writer) (value : Bytes) : Writer :=
  escapeLoop realloc value (raw realloc w [quote])

/-- `beginObject` and `beginArray` differ in the bracket and in whether a key comes
next. -/
def beginContainer (realloc : ℕ → Bool) (bracket : Bytes) (frame : Frame) (w : Writer) :
    Writer :=
  if w.error ≠ .ok then w
  else
    let w := beforeValue realloc w
    if w.error ≠ .ok then w
    else if w.frames.length ≥ maxDepth then { w with error := .unsupported }
    else
      let w := raw realloc w bracket
      { w with frames := frame :: w.frames }

def beginObject (realloc : ℕ → Bool) (w : Writer) : Writer :=
  beginContainer realloc (ascii "\x7b") { isObject := true, wantKey := true } w

def beginArray (realloc : ℕ → Bool) (w : Writer) : Writer :=
  beginContainer realloc (ascii "[") { isObject := false } w

def endContainer (realloc : ℕ → Bool) (isObject : Bool) (bracket : Bytes) (w : Writer) :
    Writer :=
  if w.error ≠ .ok then w
  else
    match w.frames with
    | [] => { w with error := .internal }
    | f :: outer =>
      if f.isObject ≠ isObject then { w with error := .internal }
      else raw realloc { w with frames := outer } bracket

def endObject (realloc : ℕ → Bool) (w : Writer) : Writer :=
  endContainer realloc true (ascii "\x7d") w

def endArray (realloc : ℕ → Bool) (w : Writer) : Writer :=
  endContainer realloc false (ascii "]") w

def key (realloc : ℕ → Bool) (w : Writer) (name : Bytes) : Writer :=
  if w.error ≠ .ok then w
  else
    match w.frames with
    | [] => { w with error := .internal }
    | f :: outer =>
      if !f.isObject || !f.wantKey then { w with error := .internal }
      else
        let w := if f.needComma then raw realloc w (ascii ",") else w
        let w := escapeString realloc w name
        let w := raw realloc w (ascii ":")
        { w with frames := { f with wantKey := false, needComma := true } :: outer }

/-- A value other than a container, given how it is written. -/
def scalar (realloc : ℕ → Bool) (write : Writer → Writer) (w : Writer) : Writer :=
  if w.error ≠ .ok then w
  else
    let w := beforeValue realloc w
    if w.error ≠ .ok then w else write w

/-- A null pointer is written as the empty string. -/
def string (realloc : ℕ → Bool) (w : Writer) (value : Option Bytes) : Writer :=
  scalar realloc (fun w => escapeString realloc w (value.getD [])) w

def int (realloc : ℕ → Bool) (w : Writer) (value : ℤ) : Writer :=
  scalar realloc (fun w => raw realloc w (decimalInt value)) w

def uint (realloc : ℕ → Bool) (w : Writer) (value : ℕ) : Writer :=
  scalar realloc (fun w => raw realloc w (decimal value)) w

def boolValue (realloc : ℕ → Bool) (w : Writer) (value : Bool) : Writer :=
  scalar realloc (fun w => raw realloc w (if value then ascii "true" else ascii "false")) w

def null (realloc : ℕ → Bool) (w : Writer) : Writer :=
  scalar realloc (fun w => raw realloc w (ascii "null")) w

def memberString (realloc : ℕ → Bool) (w : Writer) (name : Bytes) (value : Option Bytes) :
    Writer :=
  string realloc (key realloc w name) value

def memberInt (realloc : ℕ → Bool) (w : Writer) (name : Bytes) (value : ℤ) : Writer :=
  int realloc (key realloc w name) value

def memberUint (realloc : ℕ → Bool) (w : Writer) (name : Bytes) (value : ℕ) : Writer :=
  uint realloc (key realloc w name) value

def memberBool (realloc : ℕ → Bool) (w : Writer) (name : Bytes) (value : Bool) : Writer :=
  boolValue realloc (key realloc w name) value

def finish (w : Writer) : Except Status Bytes :=
  if w.error ≠ .ok then .error w.error
  else if w.frames ≠ [] then .error .internal
  else if w.cap = 0 then .error .internal
  else .ok w.buf

variable {realloc : ℕ → Bool}

/-- `w'` is `w` with `text` appended and the levels `frames` open, no error having
occurred. -/
structure Wrote (w w' : Writer) (text : Bytes) (frames : List Frame) : Prop where
  sound : w.error = .ok
  buf : w'.buf = w.buf ++ text
  frames : w'.frames = frames

lemma Wrote.trans {a b c : Writer} {s t : Bytes} {f g : List Frame} (hab : Wrote a b s f)
    (hbc : Wrote b c t g) : Wrote a c (s ++ t) g :=
  ⟨hab.sound, by rw [hbc.buf, hab.buf, List.append_assoc], hbc.frames⟩

lemma ensure_spec (w : Writer) (extra : ℕ) :
    (ensure realloc w extra).buf = w.buf ∧ (ensure realloc w extra).frames = w.frames ∧
      ((ensure realloc w extra).error = .ok → w.error = .ok) := by
  unfold ensure
  split
  · exact ⟨rfl, rfl, id⟩
  · next hw =>
    have hsound : w.error = .ok := by simpa using hw
    dsimp only
    split
    · exact ⟨rfl, rfl, id⟩
    · split
      · exact ⟨rfl, rfl, fun _ => hsound⟩
      · split <;> exact ⟨rfl, rfl, fun _ => hsound⟩

lemma raw_wrote {w : Writer} {text : Bytes} (h : (raw realloc w text).error = .ok) :
    Wrote w (raw realloc w text) text w.frames := by
  obtain ⟨hbuf, hframes, herror⟩ := @ensure_spec realloc w text.length
  unfold raw at h ⊢
  dsimp only at h ⊢
  split at h
  · next he => exact absurd h he
  · next he =>
    rw [if_neg he]
    exact ⟨herror h, by rw [hbuf], hframes⟩

lemma escapeLoop_wrote {value : Bytes} {w : Writer}
    (h : (escapeLoop realloc value w).error = .ok) :
    Wrote w (escapeLoop realloc value w) (value.flatMap escapeByte ++ [quote]) w.frames := by
  induction value generalizing w with
  | nil => exact raw_wrote h
  | cons b rest ih =>
    simp only [escapeLoop] at h ⊢
    by_cases hb : (raw realloc w (escapeByte b)).error = .ok
    · rw [if_neg (by simpa using hb)] at h ⊢
      have hstep := raw_wrote hb
      have hrest := ih h
      rw [hstep.frames] at hrest
      simpa using hstep.trans hrest
    · rw [if_pos hb] at h
      exact absurd h hb

/-- The text of a string value. -/
def quoted (value : Bytes) : Bytes := quote :: value.flatMap escapeByte ++ [quote]

lemma escapeString_wrote {value : Bytes} {w : Writer}
    (h : (escapeString realloc w value).error = .ok) :
    Wrote w (escapeString realloc w value) (quoted value) w.frames := by
  have hloop := escapeLoop_wrote h
  have hopen := raw_wrote hloop.sound
  rw [hopen.frames] at hloop
  exact hopen.trans hloop

/-- What `beforeValue` writes, and the levels it leaves. -/
def valueSep : List Frame → Bytes
  | [] => []
  | f :: _ => if f.isObject then [] else if f.needComma then ascii "," else []

def afterValue : List Frame → List Frame
  | [] => []
  | f :: outer =>
    (if f.isObject then { f with wantKey := true } else { f with needComma := true }) :: outer

/-- An object level takes a value only after a key. -/
def takesValue : List Frame → Bool
  | [] => true
  | f :: _ => !(f.isObject && f.wantKey)

lemma comma_wrote {w : Writer} {needed : Bool}
    (h : (if needed then raw realloc w (ascii ",") else w).error = .ok) :
    Wrote w (if needed then raw realloc w (ascii ",") else w)
      (if needed then ascii "," else []) w.frames := by
  cases needed with
  | false => exact ⟨h, by simp, rfl⟩
  | true => exact raw_wrote h

lemma beforeValue_wrote {w : Writer} (h : (beforeValue realloc w).error = .ok) :
    takesValue w.frames = true ∧
      Wrote w (beforeValue realloc w) (valueSep w.frames) (afterValue w.frames) := by
  unfold beforeValue at h ⊢
  split at h
  · next he => exact absurd h he
  · next he =>
    have hsound : w.error = .ok := by simpa using he
    rw [if_neg he]
    split at h
    · next hf =>
      simp only [hf]
      exact ⟨rfl, hsound, by simp [valueSep], by simp [afterValue, hf]⟩
    · next f outer hf =>
      simp only [hf]
      by_cases hobj : f.isObject
      · rw [if_pos hobj] at h ⊢
        by_cases hkey : f.wantKey
        · rw [if_pos hkey] at h
          simp at h
        · rw [if_neg hkey]
          exact ⟨by simp [takesValue, hkey], hsound, by simp [valueSep, hobj],
            by simp [afterValue, hobj]⟩
      · rw [if_neg hobj] at h ⊢
        have hcomma := comma_wrote h
        refine ⟨by simp [takesValue, hobj], hsound, ?_, by simp [afterValue, hobj]⟩
        simpa [valueSep, hobj] using hcomma.buf

lemma scalar_wrote {write : Writer → Writer} {text : Bytes} {w : Writer}
    (hwrite : ∀ v, (write v).error = .ok → Wrote v (write v) text v.frames)
    (h : (scalar realloc write w).error = .ok) :
    takesValue w.frames = true ∧
      Wrote w (scalar realloc write w) (valueSep w.frames ++ text) (afterValue w.frames) := by
  unfold scalar at h ⊢
  split at h
  · next he => exact absurd h he
  · next he =>
    rw [if_neg he]
    dsimp only at h ⊢
    split at h
    · next hb => exact absurd h hb
    · next hb =>
      rw [if_neg hb]
      have hvalue := hwrite _ h
      obtain ⟨htakes, hbefore⟩ := beforeValue_wrote hvalue.sound
      rw [hbefore.frames] at hvalue
      exact ⟨htakes, hbefore.trans hvalue⟩

lemma string_wrote {w : Writer} {value : Option Bytes}
    (h : (string realloc w value).error = .ok) :
    takesValue w.frames = true ∧ Wrote w (string realloc w value)
      (valueSep w.frames ++ quoted (value.getD [])) (afterValue w.frames) :=
  scalar_wrote (fun _ hv => escapeString_wrote hv) h

lemma int_wrote {w : Writer} {value : ℤ} (h : (int realloc w value).error = .ok) :
    takesValue w.frames = true ∧ Wrote w (int realloc w value)
      (valueSep w.frames ++ decimalInt value) (afterValue w.frames) :=
  scalar_wrote (fun _ hv => raw_wrote hv) h

lemma uint_wrote {w : Writer} {value : ℕ} (h : (uint realloc w value).error = .ok) :
    takesValue w.frames = true ∧ Wrote w (uint realloc w value)
      (valueSep w.frames ++ decimal value) (afterValue w.frames) :=
  scalar_wrote (fun _ hv => raw_wrote hv) h

lemma boolValue_wrote {w : Writer} {value : Bool} (h : (boolValue realloc w value).error = .ok) :
    takesValue w.frames = true ∧ Wrote w (boolValue realloc w value)
      (valueSep w.frames ++ if value then ascii "true" else ascii "false")
      (afterValue w.frames) :=
  scalar_wrote (fun _ hv => raw_wrote hv) h

lemma null_wrote {w : Writer} (h : (null realloc w).error = .ok) :
    takesValue w.frames = true ∧ Wrote w (null realloc w)
      (valueSep w.frames ++ ascii "null") (afterValue w.frames) :=
  scalar_wrote (fun _ hv => raw_wrote hv) h

lemma beginContainer_wrote {w : Writer} {bracket : Bytes} {frame : Frame}
    (h : (beginContainer realloc bracket frame w).error = .ok) :
    takesValue w.frames = true ∧ Wrote w (beginContainer realloc bracket frame w)
      (valueSep w.frames ++ bracket) (frame :: afterValue w.frames) := by
  unfold beginContainer at h ⊢
  split at h
  · next he => exact absurd h he
  · next he =>
    rw [if_neg he]
    dsimp only at h ⊢
    split at h
    · next hb => exact absurd h hb
    · next hb =>
      rw [if_neg hb]
      split at h
      · simp at h
      · next hd =>
        rw [if_neg hd]
        have hraw := raw_wrote h
        obtain ⟨htakes, hbefore⟩ := beforeValue_wrote hraw.sound
        have hall := hbefore.trans hraw
        exact ⟨htakes, hall.sound, hall.buf, by simp only [hall.frames, hbefore.frames]⟩

lemma endContainer_wrote {w : Writer} {isObject : Bool} {bracket : Bytes}
    (h : (endContainer realloc isObject bracket w).error = .ok) :
    ∃ f outer, w.frames = f :: outer ∧ f.isObject = isObject ∧
      Wrote w (endContainer realloc isObject bracket w) bracket outer := by
  unfold endContainer at h ⊢
  split at h
  · next he => exact absurd h he
  · next he =>
    rw [if_neg he]
    split at h
    · simp at h
    · next f outer hf =>
      split at h
      · simp at h
      · next hkind =>
        simp only [hf, if_neg hkind]
        have hraw := raw_wrote h
        exact ⟨f, outer, rfl, by simpa using hkind, hraw.sound, hraw.buf, hraw.frames⟩

lemma key_wrote {w : Writer} {name : Bytes} (h : (key realloc w name).error = .ok) :
    ∃ f outer, w.frames = f :: outer ∧ f.isObject = true ∧ f.wantKey = true ∧
      Wrote w (key realloc w name)
        ((if f.needComma then ascii "," else []) ++ quoted name ++ ascii ":")
        ({ f with wantKey := false, needComma := true } :: outer) := by
  unfold key at h ⊢
  split at h
  · next he => exact absurd h he
  · next he =>
    rw [if_neg he]
    split at h
    · simp at h
    · next f outer hf =>
      split at h
      · simp at h
      · next hready =>
        simp only [hf, if_neg hready]
        have hcolon := raw_wrote h
        have hname := escapeString_wrote hcolon.sound
        have hcomma := comma_wrote hname.sound
        have hall := (hcomma.trans hname).trans hcolon
        refine ⟨f, outer, rfl, by simp_all, by simp_all, hall.sound, hall.buf, rfl⟩

/-- Inside an object that expects a key, a member adds its key and its value. -/
lemma member_wrote {w w' : Writer} {name text : Bytes} {comma : Bool} {outer : List Frame}
    (hf : w.frames = ⟨true, comma, true⟩ :: outer)
    (hvalue : Wrote (key realloc w name) w' (valueSep (key realloc w name).frames ++ text)
      (afterValue (key realloc w name).frames)) :
    Wrote w w' ((if comma then ascii "," else []) ++ quoted name ++ ascii ":" ++ text)
      (⟨true, true, true⟩ :: outer) := by
  obtain ⟨f, fs, hfs, _, _, hkey⟩ := key_wrote hvalue.sound
  obtain ⟨rfl, rfl⟩ : f = ⟨true, comma, true⟩ ∧ fs = outer := by simpa [hfs] using hf
  rw [hkey.frames] at hvalue
  simpa [valueSep, afterValue] using hkey.trans hvalue

lemma memberString_wrote {w : Writer} {name : Bytes} {value : Option Bytes} {comma : Bool}
    {outer : List Frame} (hf : w.frames = ⟨true, comma, true⟩ :: outer)
    (h : (memberString realloc w name value).error = .ok) :
    Wrote w (memberString realloc w name value)
      ((if comma then ascii "," else []) ++ quoted name ++ ascii ":" ++ quoted (value.getD []))
      (⟨true, true, true⟩ :: outer) :=
  member_wrote hf (string_wrote h).2

lemma memberInt_wrote {w : Writer} {name : Bytes} {value : ℤ} {comma : Bool}
    {outer : List Frame} (hf : w.frames = ⟨true, comma, true⟩ :: outer)
    (h : (memberInt realloc w name value).error = .ok) :
    Wrote w (memberInt realloc w name value)
      ((if comma then ascii "," else []) ++ quoted name ++ ascii ":" ++ decimalInt value)
      (⟨true, true, true⟩ :: outer) :=
  member_wrote hf (int_wrote h).2

lemma finish_eq_ok {w : Writer} {text : Bytes} (h : finish w = .ok text) :
    w.error = .ok ∧ w.frames = [] ∧ text = w.buf := by
  unfold finish at h
  split_ifs at h with he hf hc
  exact ⟨by simpa using he, by simpa using hf, (Except.ok.inj h).symm⟩

end UsbSentinel.Json
