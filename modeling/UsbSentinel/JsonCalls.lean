import UsbSentinel.JsonGrammar
import UsbSentinel.JsonRoundtrip

/-! Runs of the writer: any sequence of its public calls, what the buffer holds between
two of them, and when the finished text is one value. -/
namespace UsbSentinel.Json
open ByteString JsonGrammar

/-- The public calls that write. -/
inductive Call
  | beginObject
  | endObject
  | beginArray
  | endArray
  | key (name : Bytes)
  | string (value : Option Bytes)
  | int (value : ℤ)
  | uint (value : ℕ)
  | boolValue (value : Bool)
  | null
  | memberString (name : Bytes) (value : Option Bytes)
  | memberInt (name : Bytes) (value : ℤ)
  | memberUint (name : Bytes) (value : ℕ)
  | memberBool (name : Bytes) (value : Bool)
  deriving DecidableEq, Repr

def Call.apply (realloc : ℕ → Bool) (w : Writer) : Call → Writer
  | .beginObject => Json.beginObject realloc w
  | .endObject => Json.endObject realloc w
  | .beginArray => Json.beginArray realloc w
  | .endArray => Json.endArray realloc w
  | .key name => Json.key realloc w name
  | .string value => Json.string realloc w value
  | .int value => Json.int realloc w value
  | .uint value => Json.uint realloc w value
  | .boolValue value => Json.boolValue realloc w value
  | .null => Json.null realloc w
  | .memberString name value => Json.memberString realloc w name value
  | .memberInt name value => Json.memberInt realloc w name value
  | .memberUint name value => Json.memberUint realloc w name value
  | .memberBool name value => Json.memberBool realloc w name value

/-- The calls in order, from a fresh writer. -/
def run (realloc : ℕ → Bool) (calls : List Call) : Writer :=
  calls.foldl (Call.apply realloc) {}

/-- The call starts a value. -/
def Call.begins : Call → Bool
  | .endObject | .endArray | .key _ => false
  | _ => true

/-- The number of open containers behind the call. -/
def Call.depth (depth : ℕ) : Call → ℕ
  | .beginObject | .beginArray => depth + 1
  | .endObject | .endArray => depth - 1
  | _ => depth

/-- How many of the calls start a value outside every container. -/
def topValues : ℕ → List Call → ℕ
  | _, [] => 0
  | depth, c :: rest =>
    (if depth = 0 ∧ c.begins = true then 1 else 0) + topValues (c.depth depth) rest

/-- No object is closed right behind a key. -/
def KeysAnswered (calls : List Call) : Prop := ∀ name, ¬ [.key name, .endObject] <:+: calls

lemma head_decimal {n : ℕ} (h : 0 < n) : (decimal n).head? ≠ some 48 := by
  induction n using Nat.strong_induction_on with
  | _ n ih =>
    by_cases hsmall : n < 10
    · have hdigit : ∀ m : Fin 10, 0 < m.val → (decimal m.val).head? ≠ some 48 := by decide
      exact hdigit ⟨n, hsmall⟩ h
    · have hsplit : decimal n = decimal (n / 10) ++ [(n % 10).digitChar.toNat.toUInt8] := by
        rw [decimal, Nat.toDigits_of_base_le (by decide) (by omega), List.map_append]
        rfl
      rw [hsplit, List.head?_append_of_ne_nil _ (decimal_ne_nil _)]
      exact ih (n / 10) (by omega) (by omega)

lemma decimal_digits (n : ℕ) : Digits (decimal n) := by
  refine ⟨decimal_ne_nil n, fun c hc => ?_⟩
  simpa [isDigit, JsonGrammar.IsDigit] using decimal_isDigit hc

lemma decimal_whole (n : ℕ) : Whole (decimal n) := by
  refine ⟨decimal_digits n, fun hzero => ?_⟩
  rcases Nat.eq_zero_or_pos n with rfl | hpos
  · rfl
  · exact absurd hzero (head_decimal hpos)

lemma isValue_decimal (n : ℕ) : IsValue (decimal n) :=
  ⟨1, .number ⟨[], decimal n, [], [], .inl rfl, decimal_whole n, .inl rfl, .inl rfl, by simp⟩⟩

lemma isValue_decimalInt (n : ℤ) : IsValue (decimalInt n) := by
  unfold decimalInt
  split_ifs with hneg
  · exact ⟨1, .number ⟨[45], decimal n.natAbs, [], [], .inr rfl, decimal_whole _, .inl rfl,
      .inl rfl, by simp⟩⟩
  · exact isValue_decimal n.natAbs

lemma isValue_bool (b : Bool) : IsValue (if b then ascii "true" else ascii "false") := by
  cases b with
  | false => exact ⟨1, .false⟩
  | true => exact ⟨1, .true⟩

set_option maxRecDepth 8000 in
lemma escapeByte_chars : ∀ b : UInt8, Chars (fun c => 0x20 ≤ c) (escapeByte b) := by
  intro b
  have hshort : ∀ e, IsEscape e → Chars (fun c : UInt8 => 0x20 ≤ c) [backslash, e] :=
    fun e he => .escape he .nil
  unfold escapeByte
  split_ifs with hq hb h8 h12 h10 h13 h9 hlow
  · exact hshort quote (by simp [IsEscape, quote])
  · exact hshort backslash (by simp [IsEscape, backslash])
  · exact hshort 98 (by simp [IsEscape])
  · exact hshort 102 (by simp [IsEscape])
  · exact hshort 110 (by simp [IsEscape])
  · exact hshort 114 (by simp [IsEscape])
  · exact hshort 116 (by simp [IsEscape])
  · have hhex : ∀ n : UInt8, n < 16 → IsHexDigit (hexLower n) := by
      unfold IsHexDigit JsonGrammar.IsDigit
      decide
    have hzero : IsHexDigit 48 := by
      unfold IsHexDigit JsonGrammar.IsDigit
      decide
    have hlt : b / 16 < 16 ∧ b % 16 < 16 := by
      revert b
      decide
    exact .unit ⟨hzero, hzero, hhex _ hlt.1, hhex _ hlt.2⟩ .nil
  · exact .raw (by simpa using hlow) hq hb .nil

lemma quoted_string (value : Bytes) : standard.string (quoted value) := by
  refine ⟨value.flatMap escapeByte, ?_, rfl⟩
  induction value with
  | nil => exact .nil
  | cons b value ih =>
    rw [List.flatMap_cons]
    exact (escapeByte_chars b).append ih

/-- The innermost level is an object with a key written and its value still to come. -/
def awaits : List Frame → Bool
  | [] => false
  | f :: _ => f.isObject && !f.wantKey

/-- The parts of a container written so far, without a comma at the end. -/
def Body (part : Bytes → Prop) (comma : Bool) (body : Bytes) : Prop :=
  if comma then Separated part body else body = []

/-- What the buffer holds while the levels `frames` are open: whole values outside every
container, and for each level its opening bracket and whole parts. `n` counts the values
at the top, with the one that is open. -/
inductive Partial : List Frame → Bytes → ℕ → Prop
  | top {values : List Bytes} (h : ∀ v ∈ values, IsValue v) :
      Partial [] values.flatten values.length
  | array {outer before n comma body} (hsettled : awaits outer = false)
      (hclose : ∀ v, IsValue v → Partial outer (before ++ v) n)
      (hbody : Body (Padded IsValue) comma body) :
      Partial (⟨false, comma, false⟩ :: outer) (before ++ 91 :: body) n
  | object {outer before n comma body} (hsettled : awaits outer = false)
      (hclose : ∀ v, IsValue v → Partial outer (before ++ v) n)
      (hbody : Body (Member standard.string IsValue) comma body) :
      Partial (⟨true, comma, true⟩ :: outer) (before ++ 123 :: body) n
  | member {outer before n body} (hsettled : awaits outer = false)
      (hclose : ∀ v, IsValue v → Partial outer (before ++ v) n)
      (hvalue : ∀ v, IsValue v → Separated (Member standard.string IsValue) (body ++ v)) :
      Partial (⟨true, true, false⟩ :: outer) (before ++ 123 :: body) n

lemma Body.add {part : Bytes → Prop} {comma : Bool} {body p : Bytes} (h : Body part comma body)
    (hp : part p) : Separated part (body ++ (if comma then ascii "," else []) ++ p) := by
  cases comma with
  | false =>
    obtain rfl : body = [] := h
    exact .last hp
  | true =>
    have hall := Separated.snoc h hp
    simpa [show ascii "," = [44] from rfl] using hall

/-- A value goes where one is due, behind its separator. -/
lemma Partial.value {frames : List Frame} {buf : Bytes} {n : ℕ} (h : Partial frames buf n)
    (htakes : takesValue frames = true) {v : Bytes} (hv : IsValue v) :
    Partial (afterValue frames) (buf ++ valueSep frames ++ v)
      (n + if frames.length = 0 then 1 else 0) := by
  cases h with
  | @top values hvalues =>
    have hall : ∀ u ∈ values ++ [v], IsValue u := by
      intro u hu
      rcases List.mem_append.mp hu with hu | hu
      · exact hvalues u hu
      · obtain rfl := List.mem_singleton.mp hu
        exact hv
    simpa [afterValue, valueSep] using Partial.top hall
  | @array outer before n comma body hsettled hclose hbody =>
    have hadd : Body (Padded IsValue) true (body ++ (if comma then ascii "," else []) ++ v) :=
      hbody.add (Padded.bare hv)
    simpa [afterValue, valueSep] using Partial.array hsettled hclose hadd
  | object hsettled hclose hbody => simp [takesValue] at htakes
  | @member outer before n body hsettled hclose hvalue =>
    have hadd : Body (Member standard.string IsValue) true (body ++ v) := hvalue v hv
    simpa [afterValue, valueSep] using Partial.object hsettled hclose hadd

lemma Partial.values {buf : Bytes} {n : ℕ} (h : Partial [] buf n) :
    ∃ values : List Bytes, (∀ v ∈ values, IsValue v) ∧ buf = values.flatten ∧
      values.length = n := by
  cases h with
  | @top values h => exact ⟨values, h, rfl, rfl⟩

lemma awaits_afterValue (frames : List Frame) : awaits (afterValue frames) = false := by
  cases frames with
  | nil => rfl
  | cons f outer =>
    by_cases hobj : f.isObject = true
    · simp [awaits, afterValue, hobj]
    · simp [awaits, afterValue, hobj]

/-- A key goes where one is due. -/
lemma Partial.key {f : Frame} {outer : List Frame} {buf : Bytes} {n : ℕ}
    (h : Partial (f :: outer) buf n) (hobj : f.isObject = true) (hkey : f.wantKey = true)
    (name : Bytes) :
    Partial ({ f with wantKey := false, needComma := true } :: outer)
      (buf ++ ((if f.needComma then ascii "," else []) ++ quoted name ++ ascii ":")) n := by
  cases h with
  | array hsettled hclose hbody => simp at hobj
  | member hsettled hclose hvalue => simp at hkey
  | @object outer before n comma body hsettled hclose hbody =>
    have hmember : ∀ v, IsValue v → Separated (Member standard.string IsValue)
        (body ++ (if comma then ascii "," else []) ++ quoted name ++ ascii ":" ++ v) := by
      intro v hv
      have hone : Member standard.string IsValue (quoted name ++ 58 :: v) :=
        ⟨quoted name, v, .bare (quoted_string name), .bare hv, rfl⟩
      simpa [show ascii ":" = [58] from rfl] using hbody.add hone
    simpa using Partial.member hsettled hclose hmember

/-- A bracket that closes leaves a whole value behind. -/
lemma Partial.endArray {f : Frame} {outer : List Frame} {buf : Bytes} {n : ℕ}
    (h : Partial (f :: outer) buf n) (hkind : f.isObject = false) :
    Partial outer (buf ++ ascii "]") n ∧ awaits outer = false := by
  cases h with
  | object hsettled hclose hbody => simp at hkind
  | member hsettled hclose hvalue => simp at hkind
  | @array outer before n comma body hsettled hclose hbody =>
    have hwhole : IsValue (91 :: (body ++ [93])) := by
      apply Form.isValue
      cases comma with
      | false =>
        obtain rfl : body = [] := hbody
        exact .emptyArray Blank.nil
      | true => exact .array hbody
    refine ⟨?_, hsettled⟩
    simpa [show ascii "]" = [93] from rfl] using hclose _ hwhole

lemma Partial.endObject {f : Frame} {outer : List Frame} {buf : Bytes} {n : ℕ}
    (h : Partial (f :: outer) buf n) (hkind : f.isObject = true)
    (hnow : awaits (f :: outer) = false) :
    Partial outer (buf ++ ascii "\x7d") n ∧ awaits outer = false := by
  cases h with
  | array hsettled hclose hbody => simp at hkind
  | member hsettled hclose hvalue => simp [awaits] at hnow
  | @object outer before n comma body hsettled hclose hbody =>
    have hwhole : IsValue (123 :: (body ++ [125])) := by
      apply Form.isValue
      cases comma with
      | false =>
        obtain rfl : body = [] := hbody
        exact .emptyObject Blank.nil
      | true => exact .object hbody
    refine ⟨?_, hsettled⟩
    simpa [show ascii "\x7d" = [125] from rfl] using hclose _ hwhole

section Runs
variable {realloc : ℕ → Bool}

/-- What a call without an error does to the open levels and to the buffer; `n` counts the
values at the top before it. -/
structure Stepped (w : Writer) (c : Call) (w' : Writer) (n : ℕ) : Prop where
  sound : w.error = .ok
  holds : Partial w'.frames w'.buf
    (n + if w.frames.length = 0 ∧ c.begins = true then 1 else 0)
  depth : w'.frames.length = c.depth w.frames.length
  settled : (∀ name, c ≠ .key name) → awaits w'.frames = false

@[simp] lemma length_afterValue (frames : List Frame) :
    (afterValue frames).length = frames.length := by
  cases frames with
  | nil => rfl
  | cons f outer => simp [afterValue]

variable {w : Writer} {c : Call} {n : ℕ}

lemma stepped_scalar {w' : Writer} {text : Bytes} (hbegins : c.begins = true)
    (hdepth : ∀ d, Call.depth d c = d) (hp : Partial w.frames w.buf n)
    (h : takesValue w.frames = true ∧
      Wrote w w' (valueSep w.frames ++ text) (afterValue w.frames))
    (htext : IsValue text) : Stepped w c w' n := by
  obtain ⟨htakes, hwrote⟩ := h
  have hvalue := hp.value htakes htext
  refine ⟨hwrote.sound, ?_, ?_, ?_⟩
  · rw [hwrote.frames, hwrote.buf, ← List.append_assoc]
    simpa [hbegins] using hvalue
  · rw [hwrote.frames, hdepth, length_afterValue]
  · intro _
    rw [hwrote.frames]
    exact awaits_afterValue w.frames

lemma stepped_key {name : Bytes} (hp : Partial w.frames w.buf n)
    (h : (Json.key realloc w name).error = .ok) :
    Stepped w (.key name) (Json.key realloc w name) n := by
  obtain ⟨f, outer, hf, hobj, hkey, hwrote⟩ := key_wrote h
  rw [hf] at hp
  refine ⟨hwrote.sound, ?_, ?_, fun hnot => absurd rfl (hnot name)⟩
  · rw [hwrote.frames, hwrote.buf]
    simpa [Call.begins] using hp.key hobj hkey name
  · rw [hwrote.frames, hf]
    rfl

lemma key_sound {name : Bytes} (h : (Json.key realloc w name).error = .ok) : w.error = .ok := by
  obtain ⟨f, outer, _, _, _, hwrote⟩ := key_wrote h
  exact hwrote.sound

/-- A member is a key with a value behind it, both inside an object. -/
lemma stepped_member {name : Bytes} {w' : Writer} {text : Bytes} (hbegins : c.begins = true)
    (hdepth : ∀ d, Call.depth d c = d) (hp : Partial w.frames w.buf n)
    (h : takesValue (Json.key realloc w name).frames = true ∧
      Wrote (Json.key realloc w name) w'
        (valueSep (Json.key realloc w name).frames ++ text)
        (afterValue (Json.key realloc w name).frames))
    (htext : IsValue text) : Stepped w c w' n := by
  have hkey := stepped_key hp h.2.sound
  have hvalue := stepped_scalar hbegins hdepth hkey.holds h htext
  obtain ⟨f, outer, hf, _, _, hwrote⟩ := key_wrote h.2.sound
  have hinside : (Json.key realloc w name).frames.length ≠ 0 := by simp [hwrote.frames]
  have hopen : w.frames.length ≠ 0 := by simp [hf]
  refine ⟨hkey.sound, ?_, ?_, hvalue.settled⟩
  · simpa [hinside, hopen] using hvalue.holds
  · rw [hvalue.depth, hkey.depth, hdepth]
    exact (hdepth _).symm

lemma stepped_begin {w' : Writer} {bracket : Bytes} {frame : Frame} (hbegins : c.begins = true)
    (hdepth : ∀ d, Call.depth d c = d + 1) (hnow : awaits (frame :: afterValue w.frames) = false)
    (h : Wrote w w' (valueSep w.frames ++ bracket) (frame :: afterValue w.frames))
    (hp : Partial (frame :: afterValue w.frames) (w.buf ++ valueSep w.frames ++ bracket)
      (n + if w.frames.length = 0 then 1 else 0)) : Stepped w c w' n := by
  refine ⟨h.sound, ?_, ?_, fun _ => h.frames ▸ hnow⟩
  · rw [h.frames, h.buf, ← List.append_assoc]
    simpa [hbegins] using hp
  · rw [h.frames, hdepth, List.length_cons, length_afterValue]

lemma stepped_end {w' : Writer} {bracket : Bytes} {f : Frame} {outer : List Frame}
    (hbegins : c.begins = false) (hdepth : ∀ d, Call.depth d c = d - 1)
    (hf : w.frames = f :: outer) (h : Wrote w w' bracket outer)
    (hp : Partial outer (w.buf ++ bracket) n ∧ awaits outer = false) : Stepped w c w' n := by
  refine ⟨h.sound, ?_, ?_, fun _ => h.frames ▸ hp.2⟩
  · rw [h.frames, h.buf]
    simpa [hbegins] using hp.1
  · rw [h.frames, hdepth, hf, List.length_cons, Nat.add_sub_cancel]

/-- A call that leaves no error keeps what the buffer holds, if it does not close an
object whose last key has no value. -/
lemma Call.apply_stepped (hp : Partial w.frames w.buf n)
    (hclose : c = .endObject → awaits w.frames = false)
    (h : (c.apply realloc w).error = .ok) : Stepped w c (c.apply realloc w) n := by
  cases c with
  | beginObject =>
    obtain ⟨htakes, hwrote⟩ := beginContainer_wrote h
    have hopened := Partial.object (awaits_afterValue w.frames) (fun v hv => hp.value htakes hv)
      (show Body _ false [] from rfl)
    exact stepped_begin rfl (fun _ => rfl) rfl hwrote hopened
  | endObject =>
    obtain ⟨f, outer, hf, hkind, hwrote⟩ := endContainer_wrote h
    rw [hf] at hp hclose
    exact stepped_end rfl (fun _ => rfl) hf hwrote (hp.endObject hkind (hclose rfl))
  | beginArray =>
    obtain ⟨htakes, hwrote⟩ := beginContainer_wrote h
    have hopened := Partial.array (awaits_afterValue w.frames) (fun v hv => hp.value htakes hv)
      (show Body _ false [] from rfl)
    exact stepped_begin rfl (fun _ => rfl) rfl hwrote hopened
  | endArray =>
    obtain ⟨f, outer, hf, hkind, hwrote⟩ := endContainer_wrote h
    rw [hf] at hp
    exact stepped_end rfl (fun _ => rfl) hf hwrote (hp.endArray hkind)
  | key name => exact stepped_key hp h
  | string value =>
    exact stepped_scalar rfl (fun _ => rfl) hp (string_wrote h) ⟨1, .string (quoted_string _)⟩
  | int value => exact stepped_scalar rfl (fun _ => rfl) hp (int_wrote h) (isValue_decimalInt value)
  | uint value => exact stepped_scalar rfl (fun _ => rfl) hp (uint_wrote h) (isValue_decimal value)
  | boolValue value =>
    exact stepped_scalar rfl (fun _ => rfl) hp (boolValue_wrote h) (isValue_bool value)
  | null => exact stepped_scalar rfl (fun _ => rfl) hp (null_wrote h) ⟨1, .null⟩
  | memberString name value =>
    exact stepped_member rfl (fun _ => rfl) hp (string_wrote h) ⟨1, .string (quoted_string _)⟩
  | memberInt name value =>
    exact stepped_member rfl (fun _ => rfl) hp (int_wrote h) (isValue_decimalInt value)
  | memberUint name value =>
    exact stepped_member rfl (fun _ => rfl) hp (uint_wrote h) (isValue_decimal value)
  | memberBool name value =>
    exact stepped_member rfl (fun _ => rfl) hp (boolValue_wrote h) (isValue_bool value)

/-- Errors are sticky. -/
lemma Call.apply_sound (h : (c.apply realloc w).error = .ok) : w.error = .ok := by
  cases c with
  | beginObject => exact (beginContainer_wrote h).2.sound
  | endObject => obtain ⟨f, outer, hf, hkind, hwrote⟩ := endContainer_wrote h; exact hwrote.sound
  | beginArray => exact (beginContainer_wrote h).2.sound
  | endArray => obtain ⟨f, outer, hf, hkind, hwrote⟩ := endContainer_wrote h; exact hwrote.sound
  | key name => exact key_sound h
  | string value => exact (string_wrote h).2.sound
  | int value => exact (int_wrote h).2.sound
  | uint value => exact (uint_wrote h).2.sound
  | boolValue value => exact (boolValue_wrote h).2.sound
  | null => exact (null_wrote h).2.sound
  | memberString name value => exact key_sound (string_wrote h).2.sound
  | memberInt name value => exact key_sound (int_wrote h).2.sound
  | memberUint name value => exact key_sound (uint_wrote h).2.sound
  | memberBool name value => exact key_sound (boolValue_wrote h).2.sound

lemma foldl_sound {calls : List Call} {w : Writer}
    (h : (calls.foldl (Call.apply realloc) w).error = .ok) : w.error = .ok := by
  induction calls generalizing w with
  | nil => exact h
  | cons c rest ih => exact Call.apply_sound (ih h)

/-- The same for a whole run: whole values stand outside every container, as many as were
begun there. -/
lemma foldl_partial {calls : List Call} {w : Writer} {n : ℕ} (hp : Partial w.frames w.buf n)
    (hkeys : KeysAnswered calls) (hfirst : calls.head? = some .endObject → awaits w.frames = false)
    (h : (calls.foldl (Call.apply realloc) w).error = .ok) :
    w.error = .ok ∧ Partial (calls.foldl (Call.apply realloc) w).frames
      (calls.foldl (Call.apply realloc) w).buf (n + topValues w.frames.length calls) := by
  induction calls generalizing w n with
  | nil => exact ⟨h, by simpa [topValues] using hp⟩
  | cons c rest ih =>
    rw [List.foldl_cons] at h ⊢
    have hrest : KeysAnswered rest := fun name hwithin =>
      hkeys name (hwithin.trans (List.suffix_cons c rest).isInfix)
    -- an error at this call would still be there at the end
    have hsound : (c.apply realloc w).error = .ok := by
      by_contra hbad
      exact hbad (foldl_sound h)
    have hstep := Call.apply_stepped hp (fun hc => hfirst (by rw [hc]; rfl)) hsound
    have hnext : rest.head? = some .endObject → awaits (c.apply realloc w).frames = false := by
      intro hhead
      apply hstep.settled
      rintro name rfl
      obtain ⟨tail, rfl⟩ : ∃ tail, rest = .endObject :: tail := by
        cases rest with
        | nil => simp at hhead
        | cons d tail => exact ⟨tail, by simpa using hhead⟩
      exact hkeys name ⟨[], tail, rfl⟩
    obtain ⟨_, hall⟩ := ih hstep.holds hrest hnext h
    refine ⟨hstep.sound, ?_⟩
    rw [hstep.depth, Nat.add_assoc] at hall
    exact hall

end Runs

/-- If the run finishes, its text is one value. -/
def WellFormed (realloc : ℕ → Bool) (calls : List Call) : Prop :=
  ∀ text, finish (run realloc calls) = .ok text → IsValue text

/-- A fresh writer refuses what does not start a value. -/
lemma begins_of_fresh {realloc : ℕ → Bool} {c : Call} (h : (c.apply realloc {}).error = .ok) :
    c.begins = true := by
  cases c with
  | endObject => simp [Call.apply, endObject, endContainer] at h
  | endArray => simp [Call.apply, endArray, endContainer] at h
  | key name => simp [Call.apply, Json.key] at h
  | _ => rfl

/-- A run that finishes has begun a value outside every container. -/
lemma topValues_pos {realloc : ℕ → Bool} {calls : List Call} {text : Bytes}
    (h : finish (run realloc calls) = .ok text) : 0 < topValues 0 calls := by
  cases calls with
  | nil => simp [run, finish] at h
  | cons c rest =>
    have hsound := (finish_eq_ok h).1
    rw [run, List.foldl_cons] at hsound
    have hbegins := begins_of_fresh (foldl_sound hsound)
    simp [topValues, hbegins]

/-- A run that begins one value outside every container and leaves no key without its
value finishes with that value, or not at all. -/
theorem run_wellFormed (realloc : ℕ → Bool) {calls : List Call} (htop : topValues 0 calls ≤ 1)
    (hkeys : KeysAnswered calls) : WellFormed realloc calls := by
  intro text h
  obtain ⟨hsound, hclosed, rfl⟩ := finish_eq_ok h
  have hfresh : Partial ({} : Writer).frames ({} : Writer).buf 0 :=
    Partial.top (show ∀ v ∈ [], IsValue v by simp)
  obtain ⟨_, hall⟩ := foldl_partial hfresh hkeys (fun _ => rfl) hsound
  have hone : topValues 0 calls = 1 := le_antisymm htop (topValues_pos h)
  have hbuf : Partial [] (run realloc calls).buf 1 := by
    have hlen : ({} : Writer).frames.length = 0 := rfl
    rw [hlen, hone] at hall
    rw [← hclosed]
    exact hall
  obtain ⟨values, hvalues, htext, hcount⟩ := hbuf.values
  obtain ⟨v, rfl⟩ := List.length_eq_one_iff.mp hcount
  rw [htext]
  simpa using hvalues v (by simp)

theorem run_wellFormed_member :
    WellFormed (fun _ => true) [.beginObject, .memberInt (ascii "n") (-5), .endObject] :=
  run_wellFormed _ (by decide) (by
    intro name hwithin
    have hmem : Call.key name ∈ [Call.beginObject, .memberInt (ascii "n") (-5), .endObject] :=
      hwithin.subset (by simp)
    simp at hmem)

lemma not_isValue_nullnull : ¬ IsValue (ascii "nullnull") := by
  rintro ⟨levels, h⟩
  cases levels with
  | zero => exact h
  | succ levels =>
    generalize htext : ascii "nullnull" = t at h
    have hhead : t.head? = some 110 := by rw [← htext]; rfl
    cases h with
    | null => exact absurd htext (by decide)
    | number h =>
      obtain ⟨c, rest, rfl, hstart⟩ := h.start
      obtain rfl : c = 110 := by simpa using hhead
      unfold JsonGrammar.IsDigit at hstart
      exact absurd hstart (by decide)
    | string h =>
      obtain ⟨body, _, rfl⟩ := h
      simp at hhead
    | _ => simp at hhead

/-- A member needs a value behind its colon. -/
lemma not_separated_openKey {levels : ℕ} :
    ¬ Separated (Member standard.string (JsonGrammar.Value standard levels)) [34, 34, 58] := by
  intro h
  generalize hbody : ([34, 34, 58] : Bytes) = body at h
  cases h with
  | @cons t rest _ _ =>
    have hcomma : (44 : UInt8) ∈ [34, 34, 58] := by rw [hbody]; simp
    exact absurd hcomma (by decide)
  | last h =>
    obtain ⟨k, v, _, hv, rfl⟩ := h
    have hne : v ≠ [] := Padded.ne_nil (fun t ht => by
      obtain ⟨c, rest, rfl, _⟩ := ht.start standard_starts
      exact List.cons_ne_nil c rest) hv
    -- the colon is the last of the three bytes
    have hlen := congrArg List.length hbody
    have hpos := List.length_pos_iff.mpr hne
    simp only [List.length_append, List.length_cons, List.length_nil] at hlen
    have hearly : k.length < 2 := by omega
    have hcolon : ([34, 34, 58] : Bytes)[k.length]? = some 58 := by rw [hbody]; simp
    interval_cases hk : k.length <;> simp at hcolon

lemma not_isValue_openKey : ¬ IsValue (ascii "\x7b\"\":\x7d") := by
  rintro ⟨levels, h⟩
  cases levels with
  | zero => exact h
  | succ levels =>
    have hinner : ∀ body : Bytes, ascii "\x7b\"\":\x7d" = 123 :: (body ++ [125]) →
        body = [34, 34, 58] := by
      intro body hbody
      have htail : [34, 34, 58] ++ [125] = body ++ [125] := (List.cons.inj hbody).2
      exact (List.append_cancel_right htail).symm
    generalize htext : ascii "\x7b\"\":\x7d" = t at h hinner
    have hhead : t.head? = some 123 := by rw [← htext]; rfl
    cases h with
    | number h =>
      obtain ⟨c, rest, rfl, hstart⟩ := h.start
      obtain rfl : c = 123 := by simpa using hhead
      unfold JsonGrammar.IsDigit at hstart
      exact absurd hstart (by decide)
    | string h =>
      obtain ⟨body, _, rfl⟩ := h
      simp at hhead
    | emptyObject h =>
      obtain rfl := hinner _ rfl
      unfold Blank IsBlank at h
      exact absurd h (by decide)
    | object h =>
      obtain rfl := hinner _ rfl
      exact not_separated_openKey h
    | _ => simp at hhead

/-- Two values side by side, and an object closed behind a key, finish without an error. -/
theorem misuse_unreported :
    ¬ WellFormed (fun _ => true) [.null, .null] ∧
      ¬ WellFormed (fun _ => true) [.beginObject, .key [], .endObject] :=
  ⟨fun h => not_isValue_nullnull (h _ (by decide +kernel)),
    fun h => not_isValue_openKey (h _ (by decide +kernel))⟩

end UsbSentinel.Json
