import UsbSentinel.JsonCalls

/-! A tree emitted call by call and read back: the writer takes every tree that fits its
depth limit and the memory, the reader every tree that fits its own. -/
namespace UsbSentinel.Json
open ByteString

mutual

/-- The writer calls for a tree. -/
def emit : Value ℤ → List Call
  | .null => [.null]
  | .bool b => [.boolValue b]
  | .number n => [.int n]
  | .string s => [.string (some s)]
  | .array items => .beginArray :: (emitItems items ++ [.endArray])
  | .object members => .beginObject :: (emitMembers members ++ [.endObject])

def emitItems : List (Value ℤ) → List Call
  | [] => []
  | v :: rest => emit v ++ emitItems rest

def emitMembers : List (Bytes × Value ℤ) → List Call
  | [] => []
  | (k, v) :: rest => .key k :: (emit v ++ emitMembers rest)

end

mutual

/-- How many containers stand inside each other. -/
def nesting {ν : Type} : Value ν → ℕ
  | .array items => 1 + nestingItems items
  | .object members => 1 + nestingMembers members
  | _ => 0

def nestingItems {ν : Type} : List (Value ν) → ℕ
  | [] => 0
  | v :: rest => max (nesting v) (nestingItems rest)

def nestingMembers {ν : Type} : List (Bytes × Value ν) → ℕ
  | [] => 0
  | (_, v) :: rest => max (nesting v) (nestingMembers rest)

end

/-- Some value of the tree lies inside `k` containers. -/
def ValueInside {ν : Type} : ℕ → Value ν → Prop
  | 0, _ => True
  | k + 1, .array items => ∃ v ∈ items, ValueInside k v
  | k + 1, .object members => ∃ m ∈ members, ValueInside k m.2
  | _ + 1, _ => False

/-- The memory for a text of `n` bytes can be had: its buffer has a length, and so have
the ones it grows from, and each is granted. -/
structure Fits (realloc : ℕ → Bool) (n : ℕ) : Prop where
  length : n < 2 ^ 63
  granted : ∀ cap ≤ 2 * n + 256, realloc cap = true

lemma Fits.mono {realloc : ℕ → Bool} {m n : ℕ} (h : Fits realloc n) (hmn : m ≤ n) :
    Fits realloc m :=
  ⟨lt_of_le_of_lt hmn h.length, fun cap hcap => h.granted cap (by omega)⟩

section Writing
variable {realloc : ℕ → Bool}

lemma growCap_eq_some {needed : ℕ} (hneeded : needed ≤ 2 ^ 63) {turns cap : ℕ}
    (hcap : needed ≤ cap * 2 ^ turns) :
    ∃ c, growCap needed (turns + 1) cap = some c ∧ needed ≤ c ∧ (c = cap ∨ c ≤ 2 * needed) := by
  induction turns generalizing cap with
  | zero =>
    have hle : needed ≤ cap := by simpa using hcap
    exact ⟨cap, by simp [growCap, hle], hle, .inl rfl⟩
  | succ turns ih =>
    rw [growCap]
    by_cases hle : needed ≤ cap
    · exact ⟨cap, by simp [hle], hle, .inl rfl⟩
    · have hroom : ¬ cap > sizeMax / 2 := by
        have hhalf : sizeMax / 2 = 2 ^ 63 - 1 := rfl
        omega
      have hdouble : needed ≤ cap * 2 * 2 ^ turns := by
        rw [Nat.mul_assoc, ← pow_succ']
        exact hcap
      obtain ⟨c, hc, hfits, hsize⟩ := ih hdouble
      refine ⟨c, by rw [if_neg hle, if_neg hroom, hc], hfits, ?_⟩
      rcases hsize with rfl | hsize
      · right
        omega
      · exact .inr hsize

lemma ensure_ok {w : Writer} {extra : ℕ} (hw : w.error = .ok)
    (hfits : Fits realloc (w.buf.length + extra)) :
    (ensure realloc w extra).error = .ok ∧ 0 < (ensure realloc w extra).cap := by
  unfold ensure
  rw [if_neg (by simpa using hw)]
  dsimp only
  by_cases hroom : w.buf.length + extra + 1 ≤ w.cap
  · rw [if_pos hroom]
    exact ⟨hw, by omega⟩
  · rw [if_neg hroom]
    have hlength := hfits.length
    have hstart : w.buf.length + extra + 1 ≤ (if w.cap = 0 then 256 else w.cap) * 2 ^ 63 := by
      split_ifs with hzero
      · omega
      · calc w.buf.length + extra + 1 ≤ 1 * 2 ^ 63 := by omega
          _ ≤ w.cap * 2 ^ 63 := Nat.mul_le_mul_right _ (by omega)
    obtain ⟨cap, hgrow, hcap, hsize⟩ := growCap_eq_some (by omega) hstart
    have hgranted : realloc cap = true := by
      apply hfits.granted
      rcases hsize with rfl | hsize
      · split_ifs at hcap ⊢ with hzero <;> omega
      · omega
    simp only [hgrow, hgranted, if_true]
    exact ⟨hw, by omega⟩

lemma raw_ok {w : Writer} {text : Bytes} (hw : w.error = .ok)
    (hfits : Fits realloc (w.buf.length + text.length)) :
    (raw realloc w text).error = .ok ∧ 0 < (raw realloc w text).cap := by
  obtain ⟨herror, hcap⟩ := ensure_ok hw hfits
  unfold raw
  dsimp only
  rw [if_neg (by simpa using herror)]
  exact ⟨herror, hcap⟩

lemma escapeLoop_ok {value : Bytes} {w : Writer} (hw : w.error = .ok)
    (hfits : Fits realloc (w.buf.length + (value.flatMap escapeByte ++ [quote]).length)) :
    (escapeLoop realloc value w).error = .ok ∧ 0 < (escapeLoop realloc value w).cap := by
  induction value generalizing w with
  | nil => exact raw_ok hw hfits
  | cons b rest ih =>
    rw [List.flatMap_cons, List.append_assoc, List.length_append] at hfits
    have hstep := raw_ok hw (hfits.mono (Nat.add_le_add_left (Nat.le_add_right _ _) _))
    rw [escapeLoop, if_neg (by simpa using hstep.1)]
    apply ih hstep.1
    rw [(raw_wrote hstep.1).buf, List.length_append, Nat.add_assoc]
    exact hfits

lemma escapeString_ok {value : Bytes} {w : Writer} (hw : w.error = .ok)
    (hfits : Fits realloc (w.buf.length + (quoted value).length)) :
    (escapeString realloc w value).error = .ok ∧ 0 < (escapeString realloc w value).cap := by
  have hlen : (quoted value).length = [quote].length + (value.flatMap escapeByte ++ [quote]).length := by
    simp [quoted]
    omega
  rw [hlen] at hfits
  have hopen := raw_ok hw (hfits.mono (Nat.add_le_add_left (Nat.le_add_right _ _) _))
  apply escapeLoop_ok hopen.1
  rw [(raw_wrote hopen.1).buf, List.length_append, Nat.add_assoc]
  exact hfits

lemma comma_ok {w : Writer} {needed : Bool} (hw : w.error = .ok)
    (hfits : Fits realloc (w.buf.length + (if needed then ascii "," else []).length)) :
    (if needed then raw realloc w (ascii ",") else w).error = .ok := by
  cases needed with
  | false => exact hw
  | true => exact (raw_ok hw hfits).1

lemma beforeValue_ok {w : Writer} (hw : w.error = .ok) (htakes : takesValue w.frames = true)
    (hfits : Fits realloc (w.buf.length + (valueSep w.frames).length)) :
    (beforeValue realloc w).error = .ok := by
  unfold beforeValue
  rw [if_neg (by simpa using hw)]
  cases hf : w.frames with
  | nil => exact hw
  | cons f outer =>
    rw [hf] at htakes hfits
    by_cases hobj : f.isObject = true
    · have hkey : f.wantKey = false := by simpa [takesValue, hobj] using htakes
      simp [hobj, hkey, hw]
    · simp only [valueSep, hobj, Bool.false_eq_true, if_false] at hfits
      simp only [hobj, Bool.false_eq_true, if_false]
      exact comma_ok hw hfits

/-- A value is written when its turn has come and the memory is there. -/
lemma scalar_ok {write : Writer → Writer} {text : Bytes} {w : Writer}
    (hwrite : ∀ v, v.error = .ok → Fits realloc (v.buf.length + text.length) →
      (write v).error = .ok ∧ 0 < (write v).cap)
    (hw : w.error = .ok) (htakes : takesValue w.frames = true)
    (hfits : Fits realloc (w.buf.length + (valueSep w.frames ++ text).length)) :
    (scalar realloc write w).error = .ok ∧ 0 < (scalar realloc write w).cap := by
  rw [List.length_append, ← Nat.add_assoc] at hfits
  have hbefore := beforeValue_ok hw htakes (hfits.mono (Nat.le_add_right _ _))
  unfold scalar
  rw [if_neg (by simpa using hw)]
  dsimp only
  rw [if_neg (by simpa using hbefore)]
  apply hwrite _ hbefore
  rw [(beforeValue_wrote hbefore).2.buf, List.length_append]
  exact hfits

lemma beginContainer_ok {w : Writer} {bracket : Bytes} {frame : Frame} (hw : w.error = .ok)
    (htakes : takesValue w.frames = true) (hdepth : w.frames.length < maxDepth)
    (hfits : Fits realloc (w.buf.length + (valueSep w.frames ++ bracket).length)) :
    (beginContainer realloc bracket frame w).error = .ok := by
  rw [List.length_append, ← Nat.add_assoc] at hfits
  have hbefore := beforeValue_ok hw htakes (hfits.mono (Nat.le_add_right _ _))
  have hwrote := (beforeValue_wrote hbefore).2
  unfold beginContainer
  rw [if_neg (by simpa using hw)]
  dsimp only
  rw [if_neg (by simpa using hbefore), hwrote.frames, length_afterValue, if_neg (by omega)]
  apply (raw_ok hbefore _).1
  rw [hwrote.buf, List.length_append]
  exact hfits

/-- The depth limit of the writer. -/
lemma beginContainer_depth {w : Writer} {bracket : Bytes} {frame : Frame}
    (h : (beginContainer realloc bracket frame w).error = .ok) : w.frames.length < maxDepth := by
  have hsound := (beginContainer_wrote h).2.sound
  unfold beginContainer at h
  rw [if_neg (by simpa using hsound)] at h
  dsimp only at h
  split at h
  · next hb => exact absurd h hb
  · next hb =>
    have hwrote := (beforeValue_wrote (by simpa using hb)).2
    rw [hwrote.frames, length_afterValue] at h
    split at h
    · simp at h
    · next hd => exact not_le.mp hd

lemma endContainer_ok {w : Writer} {isObject : Bool} {bracket : Bytes} {f : Frame}
    {outer : List Frame} (hw : w.error = .ok) (hf : w.frames = f :: outer)
    (hkind : f.isObject = isObject) (hfits : Fits realloc (w.buf.length + bracket.length)) :
    (endContainer realloc isObject bracket w).error = .ok ∧
      0 < (endContainer realloc isObject bracket w).cap := by
  unfold endContainer
  rw [if_neg (by simpa using hw), hf]
  simp only [hkind, ne_eq, not_true_eq_false, if_false]
  exact raw_ok hw hfits

lemma key_ok {w : Writer} {name : Bytes} {comma : Bool} {outer : List Frame}
    (hw : w.error = .ok) (hf : w.frames = ⟨true, comma, true⟩ :: outer)
    (hfits : Fits realloc (w.buf.length +
      ((if comma then ascii "," else []) ++ quoted name ++ ascii ":").length)) :
    (key realloc w name).error = .ok := by
  rw [List.length_append, List.length_append] at hfits
  have hcomma := @comma_ok realloc w comma hw (hfits.mono (by omega))
  have hcommaBuf := (comma_wrote hcomma).buf
  have hname := (@escapeString_ok realloc name _ hcomma (hfits.mono (by
    rw [hcommaBuf, List.length_append]
    omega))).1
  have hnameBuf := (escapeString_wrote hname).buf
  have hcolon := (@raw_ok realloc _ (ascii ":") hname (hfits.mono (by
    rw [hnameBuf, hcommaBuf, List.length_append, List.length_append]
    omega))).1
  unfold key
  rw [if_neg (by simpa using hw), hf]
  simpa using hcolon

lemma Wrote.refl {w : Writer} (h : w.error = .ok) : Wrote w w [] w.frames :=
  ⟨h, (List.append_nil _).symm, rfl⟩

mutual

/-- What the calls of a tree write, and the levels they need, if no error stops them. -/
lemma emit_wrote : ∀ (v : Value ℤ) {w : Writer}, w.frames.length ≤ maxDepth →
    ((emit v).foldl (Call.apply realloc) w).error = .ok →
    takesValue w.frames = true ∧ w.frames.length + nesting v ≤ maxDepth ∧
      Wrote w ((emit v).foldl (Call.apply realloc) w) (valueSep w.frames ++ render v)
        (afterValue w.frames)
  | .null, w, hdepth, h => ⟨(null_wrote h).1, hdepth, (null_wrote h).2⟩
  | .bool b, w, hdepth, h => ⟨(boolValue_wrote h).1, hdepth, (boolValue_wrote h).2⟩
  | .number n, w, hdepth, h => ⟨(int_wrote h).1, hdepth, (int_wrote h).2⟩
  | .string s, w, hdepth, h => ⟨(string_wrote h).1, hdepth, (string_wrote h).2⟩
  | .array items, w, hdepth, h => by
    simp only [emit, List.foldl_cons, List.foldl_append, List.foldl_nil] at h ⊢
    obtain ⟨f, outer, hf, hkind, hclose⟩ := endContainer_wrote h
    have hopen := beginContainer_wrote (foldl_sound hclose.sound)
    have hlevel := beginContainer_depth (foldl_sound hclose.sound)
    obtain ⟨hnesting, hitems⟩ := emitItems_wrote items hopen.2.frames
      (by rw [length_afterValue]; exact hlevel) hclose.sound
    obtain ⟨rfl, rfl⟩ := List.cons.inj (hf.symm.trans hitems.frames)
    refine ⟨hopen.1, ?_, ?_⟩
    · rw [length_afterValue] at hnesting
      rw [nesting]
      omega
    · have hall := (hopen.2.trans hitems).trans hclose
      simp only [render, ← List.append_assoc] at hall ⊢
      exact hall
  | .object members, w, hdepth, h => by
    simp only [emit, List.foldl_cons, List.foldl_append, List.foldl_nil] at h ⊢
    obtain ⟨f, outer, hf, hkind, hclose⟩ := endContainer_wrote h
    have hopen := beginContainer_wrote (foldl_sound hclose.sound)
    have hlevel := beginContainer_depth (foldl_sound hclose.sound)
    obtain ⟨hnesting, hmembers⟩ := emitMembers_wrote members hopen.2.frames
      (by rw [length_afterValue]; exact hlevel) hclose.sound
    obtain ⟨rfl, rfl⟩ := List.cons.inj (hf.symm.trans hmembers.frames)
    refine ⟨hopen.1, ?_, ?_⟩
    · rw [length_afterValue] at hnesting
      rw [nesting]
      omega
    · have hall := (hopen.2.trans hmembers).trans hclose
      simp only [render, ← List.append_assoc] at hall ⊢
      exact hall

lemma emitItems_wrote : ∀ (items : List (Value ℤ)) {w : Writer} {comma : Bool}
    {outer : List Frame}, w.frames = ⟨false, comma, false⟩ :: outer → outer.length < maxDepth →
    ((emitItems items).foldl (Call.apply realloc) w).error = .ok →
    outer.length + 1 + nestingItems items ≤ maxDepth ∧
      Wrote w ((emitItems items).foldl (Call.apply realloc) w) (renderItems comma items)
        (⟨false, comma || !items.isEmpty, false⟩ :: outer)
  | [], w, comma, outer, hf, hdepth, h => by
    refine ⟨by simpa [nestingItems] using hdepth, ?_⟩
    have hsame : Wrote w w [] w.frames := Wrote.refl h
    rw [hf] at hsame
    simpa [renderItems, emitItems] using hsame
  | v :: rest, w, comma, outer, hf, hdepth, h => by
    simp only [emitItems, List.foldl_append] at h ⊢
    have hlength : w.frames.length ≤ maxDepth := by rw [hf]; exact hdepth
    obtain ⟨_, hnest, hfirst⟩ := emit_wrote v hlength (foldl_sound h)
    have hframes := hfirst.frames
    simp only [hf, afterValue, Bool.false_eq_true, if_false] at hframes
    obtain ⟨hnestRest, hrest⟩ := emitItems_wrote rest hframes hdepth h
    refine ⟨?_, ?_⟩
    · rw [hf, List.length_cons] at hnest
      rw [nestingItems]
      omega
    · have hall := hfirst.trans hrest
      simpa [hf, valueSep, renderItems] using hall

lemma emitMembers_wrote : ∀ (members : List (Bytes × Value ℤ)) {w : Writer} {comma : Bool}
    {outer : List Frame}, w.frames = ⟨true, comma, true⟩ :: outer → outer.length < maxDepth →
    ((emitMembers members).foldl (Call.apply realloc) w).error = .ok →
    outer.length + 1 + nestingMembers members ≤ maxDepth ∧
      Wrote w ((emitMembers members).foldl (Call.apply realloc) w) (renderMembers comma members)
        (⟨true, comma || !members.isEmpty, true⟩ :: outer)
  | [], w, comma, outer, hf, hdepth, h => by
    refine ⟨by simpa [nestingMembers] using hdepth, ?_⟩
    have hsame : Wrote w w [] w.frames := Wrote.refl h
    rw [hf] at hsame
    simpa [renderMembers, emitMembers] using hsame
  | (k, v) :: rest, w, comma, outer, hf, hdepth, h => by
    simp only [emitMembers, List.foldl_cons, List.foldl_append] at h ⊢
    obtain ⟨f, fs, hfs, _, _, hkey⟩ := key_wrote (foldl_sound (foldl_sound h))
    obtain ⟨rfl, rfl⟩ := List.cons.inj (hfs.symm.trans hf)
    have hlength : (Call.apply realloc w (.key k)).frames.length ≤ maxDepth := by
      rw [show (Call.apply realloc w (.key k)).frames = _ from hkey.frames]
      exact hdepth
    obtain ⟨_, hnest, hvalue⟩ := emit_wrote v hlength (foldl_sound h)
    have hinside := show (Call.apply realloc w (.key k)).frames = _ from hkey.frames
    have hframes := hvalue.frames
    simp only [hinside, afterValue, if_true] at hframes
    obtain ⟨hnestRest, hrest⟩ := emitMembers_wrote rest hframes hdepth h
    refine ⟨?_, ?_⟩
    · rw [hinside, List.length_cons] at hnest
      rw [nestingMembers]
      omega
    · have hall := (hkey.trans hvalue).trans hrest
      simpa [hinside, valueSep, renderMembers] using hall

end

mutual

/-- Within the depth limit and the memory no call of a tree fails. -/
lemma emit_ok : ∀ (v : Value ℤ) {w : Writer}, w.error = .ok → takesValue w.frames = true →
    w.frames.length + nesting v ≤ maxDepth →
    Fits realloc (w.buf.length + (valueSep w.frames ++ render v).length) →
    ((emit v).foldl (Call.apply realloc) w).error = .ok ∧
      0 < ((emit v).foldl (Call.apply realloc) w).cap
  | .null, w, hw, htakes, hdepth, hfits =>
    scalar_ok (fun _ hv hroom => raw_ok hv hroom) hw htakes hfits
  | .bool b, w, hw, htakes, hdepth, hfits =>
    scalar_ok (fun _ hv hroom => raw_ok hv hroom) hw htakes hfits
  | .number n, w, hw, htakes, hdepth, hfits =>
    scalar_ok (fun _ hv hroom => raw_ok hv hroom) hw htakes hfits
  | .string s, w, hw, htakes, hdepth, hfits =>
    scalar_ok (fun _ hv hroom => escapeString_ok hv hroom) hw htakes hfits
  | .array items, w, hw, htakes, hdepth, hfits => by
    rw [nesting] at hdepth
    simp only [render, List.length_append] at hfits
    have hopen : (Call.apply realloc w .beginArray).error = .ok :=
      beginContainer_ok hw htakes (by omega) (hfits.mono (by
        rw [List.length_append]
        omega))
    have hwrote : Wrote w (Call.apply realloc w .beginArray) (valueSep w.frames ++ ascii "[")
        (⟨false, false, false⟩ :: afterValue w.frames) := (beginContainer_wrote hopen).2
    have hbuf : (Call.apply realloc w .beginArray).buf.length =
        w.buf.length + ((valueSep w.frames).length + (ascii "[").length) := by
      rw [hwrote.buf, List.length_append, List.length_append]
    have hitems := emitItems_ok items hopen hwrote.frames
      (by rw [length_afterValue]; omega) (hfits.mono (by omega))
    have hread := (emitItems_wrote items hwrote.frames
      (by rw [length_afterValue]; omega) hitems).2
    simp only [emit, List.foldl_cons, List.foldl_append, List.foldl_nil]
    apply endContainer_ok hitems hread.frames rfl
    rw [hread.buf, List.length_append, hbuf]
    exact hfits.mono (by omega)
  | .object members, w, hw, htakes, hdepth, hfits => by
    rw [nesting] at hdepth
    simp only [render, List.length_append] at hfits
    have hopen : (Call.apply realloc w .beginObject).error = .ok :=
      beginContainer_ok hw htakes (by omega) (hfits.mono (by
        rw [List.length_append]
        omega))
    have hwrote : Wrote w (Call.apply realloc w .beginObject) (valueSep w.frames ++ ascii "\x7b")
        (⟨true, false, true⟩ :: afterValue w.frames) := (beginContainer_wrote hopen).2
    have hbuf : (Call.apply realloc w .beginObject).buf.length =
        w.buf.length + ((valueSep w.frames).length + (ascii "\x7b").length) := by
      rw [hwrote.buf, List.length_append, List.length_append]
    have hmembers := emitMembers_ok members hopen hwrote.frames
      (by rw [length_afterValue]; omega) (hfits.mono (by omega))
    have hread := (emitMembers_wrote members hwrote.frames
      (by rw [length_afterValue]; omega) hmembers).2
    simp only [emit, List.foldl_cons, List.foldl_append, List.foldl_nil]
    apply endContainer_ok hmembers hread.frames rfl
    rw [hread.buf, List.length_append, hbuf]
    exact hfits.mono (by omega)

lemma emitItems_ok : ∀ (items : List (Value ℤ)) {w : Writer} {comma : Bool}
    {outer : List Frame}, w.error = .ok → w.frames = ⟨false, comma, false⟩ :: outer →
    outer.length + 1 + nestingItems items ≤ maxDepth →
    Fits realloc (w.buf.length + (renderItems comma items).length) →
    ((emitItems items).foldl (Call.apply realloc) w).error = .ok
  | [], w, comma, outer, hw, hf, hdepth, hfits => hw
  | v :: rest, w, comma, outer, hw, hf, hdepth, hfits => by
    rw [nestingItems] at hdepth
    simp only [renderItems, List.length_append] at hfits
    have hlevel : w.frames.length + nesting v ≤ maxDepth := by
      rw [hf, List.length_cons]
      omega
    have hsep : valueSep w.frames = if comma then ascii "," else [] := by
      rw [hf]
      rfl
    have hfirst := (emit_ok v hw (by rw [hf]; rfl) hlevel (hfits.mono (by
      rw [hsep, List.length_append]
      omega))).1
    have hwrote := (emit_wrote v (by omega) hfirst).2.2
    have hframes := hwrote.frames
    simp only [hf, afterValue, Bool.false_eq_true, if_false] at hframes
    simp only [emitItems, List.foldl_append]
    apply emitItems_ok rest hfirst hframes (by omega)
    rw [hwrote.buf, hsep, List.length_append, List.length_append]
    exact hfits.mono (by omega)

lemma emitMembers_ok : ∀ (members : List (Bytes × Value ℤ)) {w : Writer} {comma : Bool}
    {outer : List Frame}, w.error = .ok → w.frames = ⟨true, comma, true⟩ :: outer →
    outer.length + 1 + nestingMembers members ≤ maxDepth →
    Fits realloc (w.buf.length + (renderMembers comma members).length) →
    ((emitMembers members).foldl (Call.apply realloc) w).error = .ok
  | [], w, comma, outer, hw, hf, hdepth, hfits => hw
  | (k, v) :: rest, w, comma, outer, hw, hf, hdepth, hfits => by
    rw [nestingMembers] at hdepth
    simp only [renderMembers, List.length_append] at hfits
    have hkey : (Call.apply realloc w (.key k)).error = .ok :=
      key_ok hw hf (hfits.mono (by
        rw [List.length_append, List.length_append]
        omega))
    obtain ⟨f, fs, hfs, _, _, hnamed⟩ := key_wrote hkey
    obtain ⟨rfl, rfl⟩ := List.cons.inj (hfs.symm.trans hf)
    have hinside : (Call.apply realloc w (.key k)).frames = ⟨true, true, false⟩ :: fs :=
      hnamed.frames
    have hbuf : (Call.apply realloc w (.key k)).buf.length = w.buf.length +
        ((if comma then ascii "," else []).length + (quoted k).length + (ascii ":").length) := by
      rw [show (Call.apply realloc w (.key k)).buf = _ from hnamed.buf, List.length_append,
        List.length_append, List.length_append]
    have hlevel : (Call.apply realloc w (.key k)).frames.length + nesting v ≤ maxDepth := by
      rw [hinside, List.length_cons]
      omega
    have hsep : valueSep (Call.apply realloc w (.key k)).frames = [] := by
      rw [hinside]
      rfl
    have hvalue := (emit_ok v hkey (by rw [hinside]; rfl) hlevel (hfits.mono (by
      rw [hsep, List.nil_append, hbuf]
      omega))).1
    have hwrote := (emit_wrote v (by omega) hvalue).2.2
    have hframes := hwrote.frames
    simp only [hinside, afterValue, if_true] at hframes
    simp only [emitMembers, List.foldl_cons, List.foldl_append]
    apply emitMembers_ok rest hvalue hframes (by omega)
    rw [hwrote.buf, hsep, List.nil_append, List.length_append, hbuf]
    exact hfits.mono (by omega)

end

/-- The writer takes a tree within its depth limit, given the memory, and writes its text. -/
theorem finish_emit {v : Value ℤ} (hdepth : nesting v ≤ maxDepth)
    (hfits : Fits realloc (render v).length) : finish (run realloc (emit v)) = .ok (render v) := by
  have hstart : Fits realloc (({} : Writer).buf.length +
      (valueSep ({} : Writer).frames ++ render v).length) := by simpa [valueSep] using hfits
  obtain ⟨hsound, hcap⟩ := emit_ok v rfl rfl (by simpa using hdepth) hstart
  obtain ⟨_, _, hwrote⟩ := emit_wrote v (Nat.zero_le _) hsound
  have herror : (run realloc (emit v)).error = .ok := hsound
  have hroom : (run realloc (emit v)).cap ≠ 0 := hcap.ne'
  have hbuf : (run realloc (emit v)).buf = render v := hwrote.buf
  have hframes : (run realloc (emit v)).frames = [] := hwrote.frames
  unfold finish
  rw [if_neg (by simpa using herror), if_neg (by simpa using hframes), if_neg hroom, hbuf]

/-- It takes no other tree. -/
theorem nesting_le_of_finish {v : Value ℤ} {text : Bytes}
    (h : finish (run realloc (emit v)) = .ok text) : nesting v ≤ maxDepth := by
  have hdepth := (emit_wrote v (Nat.zero_le _) (finish_eq_ok h).1).2.1
  simpa using hdepth

end Writing

lemma lt_heightItems {ν : Type} {k : ℕ} {items : List (Value ν)} :
    k < heightItems items ↔ ∃ v ∈ items, k < height v := by
  induction items with
  | nil => simp [heightItems]
  | cons v items ih => simp [heightItems, ih]

lemma lt_heightMembers {ν : Type} {k : ℕ} {members : List (Bytes × Value ν)} :
    k < heightMembers members ↔ ∃ m ∈ members, k < height m.2 := by
  induction members with
  | nil => simp [heightMembers]
  | cons m members ih => simp [heightMembers, ih]

lemma valueInside_iff {ν : Type} {k : ℕ} {v : Value ν} : ValueInside k v ↔ k < height v := by
  induction k generalizing v with
  | zero => cases v <;> simp [ValueInside, height]
  | succ k ih =>
    cases v with
    | array items => simp only [ValueInside, height, ih, add_comm 1, Nat.succ_lt_succ_iff, lt_heightItems]
    | object members =>
      simp only [ValueInside, height, ih, add_comm 1, Nat.succ_lt_succ_iff, lt_heightMembers]
    | _ => simp [ValueInside, height]

section Reading
variable {lib : CLib} {value : Bytes → Except Status (Value lib.Double × Bytes)}

/-- A value parser that meets the depth limit inside `v`. -/
def Refuses (value : Bytes → Except Status (Value lib.Double × Bytes)) (v : Value ℤ) : Prop :=
  ∀ rest, Stops rest → value (render v ++ rest) = .error .unsupported

lemma parseItems_refuses {items : List (Value ℤ)}
    (hvalue : ∀ v ∈ items, ReadsBack lib value v ∨ Refuses value v)
    (hdeep : ∃ v ∈ items, Refuses value v) {fuel : ℕ} (hfuel : items.length ≤ fuel)
    (acc : List (Value lib.Double)) (tail : Bytes) :
    parseItems lib value fuel acc (renderItems false items ++ 93 :: tail) =
      .error .unsupported := by
  induction items generalizing fuel acc with
  | nil => simp at hdeep
  | cons v items ih =>
    cases fuel with
    | zero => simp at hfuel
    | succ fuel =>
      have htext : renderItems false (v :: items) ++ 93 :: tail =
          render v ++ (renderItems true items ++ 93 :: tail) := by
        simp [renderItems]
      have hstop : Stops (renderItems true items ++ 93 :: tail) := by
        cases items with
        | nil => exact stops_cons (by simp)
        | cons w items =>
          rw [renderItems_true, List.cons_append]
          exact stops_cons (by simp)
      rw [htext, parseItems, skipWs_render]
      by_cases hv : Refuses value v
      · rw [hv _ hstop]
      · have hread := (hvalue v (by simp)).resolve_right hv
        obtain ⟨u, hu, hrefuses⟩ := hdeep
        have hlater : u ∈ items := by
          rcases List.mem_cons.mp hu with rfl | hlater
          · exact absurd hrefuses hv
          · exact hlater
        obtain ⟨w, more, rfl⟩ := List.exists_cons_of_ne_nil (List.ne_nil_of_mem hlater)
        rw [hread _ hstop, renderItems_true, List.cons_append]
        simp only [skipWs_cons (show isSpace 44 = false by decide), if_true]
        exact ih (fun x hx => hvalue x (by simp [hx])) ⟨u, hlater, hrefuses⟩
          (by simpa using hfuel) _

lemma parseMembers_refuses {members : List (Bytes × Value ℤ)}
    (hvalue : ∀ m ∈ members, ReadsBack lib value m.2 ∨ Refuses value m.2)
    (hdeep : ∃ m ∈ members, Refuses value m.2) {fuel : ℕ} (hfuel : members.length ≤ fuel)
    (acc : List (Bytes × Value lib.Double)) (tail : Bytes) :
    parseMembers lib value fuel acc (renderMembers false members ++ 125 :: tail) =
      .error .unsupported := by
  induction members generalizing fuel acc with
  | nil => simp at hdeep
  | cons m members ih =>
    obtain ⟨k, v⟩ := m
    cases fuel with
    | zero => simp at hfuel
    | succ fuel =>
      have htext : renderMembers false ((k, v) :: members) ++ 125 :: tail =
          quoted k ++ 58 :: (render v ++ (renderMembers true members ++ 125 :: tail)) := by
        simp [renderMembers, show ascii ":" = [58] from rfl]
      have hquote : ∀ rest, skipWs (quoted k ++ rest) = quoted k ++ rest := fun rest =>
        skipWs_cons (show isSpace quote = false by decide)
      have hstop : Stops (renderMembers true members ++ 125 :: tail) := by
        cases members with
        | nil => exact stops_cons (by simp)
        | cons m members =>
          rw [renderMembers_true, List.cons_append]
          exact stops_cons (by simp)
      rw [htext, parseMembers, hquote, parseStringLiteral_quoted]
      simp only [skipWs_cons (show isSpace 58 = false by decide), skipWs_render]
      rw [if_neg (by simp)]
      by_cases hv : Refuses value v
      · rw [hv _ hstop]
      · have hread := (hvalue (k, v) (by simp)).resolve_right hv
        obtain ⟨u, hu, hrefuses⟩ := hdeep
        have hlater : u ∈ members := by
          rcases List.mem_cons.mp hu with rfl | hlater
          · exact absurd hrefuses hv
          · exact hlater
        obtain ⟨w, more, rfl⟩ := List.exists_cons_of_ne_nil (List.ne_nil_of_mem hlater)
        rw [hread _ hstop, renderMembers_true, List.cons_append]
        simp only [skipWs_cons (show isSpace 44 = false by decide), if_true]
        exact ih (fun x hx => hvalue x (by simp [hx])) ⟨u, hlater, hrefuses⟩
          (by simpa using hfuel) _

/-- A rendered tree that does not fit the levels left is refused, wherever in it the
limit is met. -/
theorem parseValue_refuses (hlib : lib.Exact) {levels : ℕ} {v : Value ℤ}
    (hheight : levels < height v) (hall : AllNumbers (fun n => n.natAbs ≤ 2 ^ 53) v) :
    Refuses (parseValue lib levels) v := by
  induction levels generalizing v with
  | zero => exact fun rest _ => rfl
  | succ levels ih =>
    intro rest _
    rw [parseValue, skipWs_render]
    cases v with
    | array items =>
      have htext : render (.array items) ++ rest = 91 :: (renderItems false items ++ 93 :: rest) := by
        simp [render, show ascii "[" = [91] from rfl, show ascii "]" = [93] from rfl]
      obtain ⟨u, hu, hdeep⟩ := lt_heightItems.mp (show levels < heightItems items by
        rw [height] at hheight
        omega)
      obtain ⟨w, more, rfl⟩ := List.exists_cons_of_ne_nil (List.ne_nil_of_mem hu)
      obtain ⟨c, cs, hc, hspace, hclose⟩ := render_head w
      have hskip : skipWs (renderItems false (w :: more) ++ 93 :: rest) =
          renderItems false (w :: more) ++ 93 :: rest := by
        simp [renderItems, hc, skipWs_cons hspace]
      have hopen : (renderItems false (w :: more) ++ 93 :: rest).head? ≠ some 93 := by
        simp [renderItems, hc, hclose]
      have hvalue : ∀ x ∈ w :: more, ReadsBack lib (parseValue lib levels) x ∨
          Refuses (parseValue lib levels) x := by
        intro x hx
        rcases Nat.lt_or_ge levels (height x) with hlt | hge
        · exact .inr (ih hlt (AllNumbersItems.of_mem hall hx))
        · exact .inl (parseValue_render hlib hge (AllNumbersItems.of_mem hall hx))
      have hfuel := length_le_renderItems false (w :: more)
      rw [htext]
      simp only
      rw [if_neg (by decide), if_pos trivial, parseArray, hskip, if_neg hopen,
        parseItems_refuses hvalue ⟨u, hu, ih hdeep (AllNumbersItems.of_mem hall hu)⟩ (by
          rw [List.length_append]
          omega)]
    | object members =>
      have htext : render (.object members) ++ rest =
          123 :: (renderMembers false members ++ 125 :: rest) := by
        simp [render, show ascii "\x7b" = [123] from rfl, show ascii "\x7d" = [125] from rfl]
      obtain ⟨u, hu, hdeep⟩ := lt_heightMembers.mp (show levels < heightMembers members by
        rw [height] at hheight
        omega)
      obtain ⟨w, more, rfl⟩ := List.exists_cons_of_ne_nil (List.ne_nil_of_mem hu)
      obtain ⟨cs, hcs⟩ : ∃ cs, renderMembers false (w :: more) = quote :: cs := ⟨_, rfl⟩
      have hskip : skipWs (renderMembers false (w :: more) ++ 125 :: rest) =
          renderMembers false (w :: more) ++ 125 :: rest := by
        rw [hcs]
        exact skipWs_cons (by decide)
      have hopen : (renderMembers false (w :: more) ++ 125 :: rest).head? ≠ some 125 := by
        rw [hcs]
        simp [quote]
      have hvalue : ∀ x ∈ w :: more, ReadsBack lib (parseValue lib levels) x.2 ∨
          Refuses (parseValue lib levels) x.2 := by
        intro x hx
        rcases Nat.lt_or_ge levels (height x.2) with hlt | hge
        · exact .inr (ih hlt (AllNumbersMembers.of_mem hall hx))
        · exact .inl (parseValue_render hlib hge (AllNumbersMembers.of_mem hall hx))
      have hfuel := length_le_renderMembers false (w :: more)
      rw [htext]
      simp only
      rw [if_pos trivial, parseObject, hskip, if_neg hopen,
        parseMembers_refuses hvalue ⟨u, hu, ih hdeep (AllNumbersMembers.of_mem hall hu)⟩ (by
          rw [List.length_append]
          omega)]
    | _ => simp [height] at hheight

/-- What a C string can hold. -/
def PlainBytes (s : Bytes) : Prop := (0 : UInt8) ∉ s

mutual

/-- The strings of the tree are C strings, and a double holds its integers exactly. -/
def Plain : Value ℤ → Prop
  | .number n => n.natAbs ≤ 2 ^ 53
  | .string s => PlainBytes s
  | .array items => PlainItems items
  | .object members => PlainMembers members
  | _ => True

def PlainItems : List (Value ℤ) → Prop
  | [] => True
  | v :: rest => Plain v ∧ PlainItems rest

def PlainMembers : List (Bytes × Value ℤ) → Prop
  | [] => True
  | (k, v) :: rest => PlainBytes k ∧ Plain v ∧ PlainMembers rest

end

mutual

/-- The accessors of the reader give back the tree: the shape, the order of the members,
keys, strings and integers. -/
def Same (lib : CLib) : Value ℤ → Value lib.Double → Prop
  | .null, .null => True
  | .bool a, .bool b => a = b
  | .number n, .number d => asInt lib (.number d) = some n
  | .string s, .string t => asString (.string t : Value lib.Double) = some s
  | .array items, .array read => SameItems lib items read
  | .object members, .object read => SameMembers lib members read
  | _, _ => False

def SameItems (lib : CLib) : List (Value ℤ) → List (Value lib.Double) → Prop
  | [], [] => True
  | v :: rest, d :: read => Same lib v d ∧ SameItems lib rest read
  | _, _ => False

def SameMembers (lib : CLib) : List (Bytes × Value ℤ) → List (Bytes × Value lib.Double) → Prop
  | [], [] => True
  | (k, v) :: rest, (name, d) :: read => cstr name = k ∧ Same lib v d ∧ SameMembers lib rest read
  | _, _ => False

end

mutual

lemma Plain.allNumbers : ∀ {v : Value ℤ}, Plain v → AllNumbers (fun n => n.natAbs ≤ 2 ^ 53) v
  | .null, _ => trivial
  | .bool _, _ => trivial
  | .number _, h => h
  | .string _, _ => trivial
  | .array _, h => PlainItems.allNumbers h
  | .object _, h => PlainMembers.allNumbers h

lemma PlainItems.allNumbers : ∀ {items : List (Value ℤ)}, PlainItems items →
    AllNumbersItems (fun n => n.natAbs ≤ 2 ^ 53) items
  | [], _ => trivial
  | _ :: _, h => ⟨Plain.allNumbers h.1, PlainItems.allNumbers h.2⟩

lemma PlainMembers.allNumbers : ∀ {members : List (Bytes × Value ℤ)}, PlainMembers members →
    AllNumbersMembers (fun n => n.natAbs ≤ 2 ^ 53) members
  | [], _ => trivial
  | (_, _) :: _, h => ⟨Plain.allNumbers h.2.1, PlainMembers.allNumbers h.2.2⟩

end

mutual

lemma same_readBack (hlib : lib.Exact) : ∀ {v : Value ℤ}, Plain v → Same lib v (readBack lib v)
  | .null, _ => trivial
  | .bool _, _ => rfl
  | .number n, h => by
    obtain ⟨_, hintegral, hint⟩ := hlib n h
    simp [readBack, mapNumber, Same, asInt, hintegral, hint]
  | .string s, h => by simp [readBack, mapNumber, Same, asString, cstr_eq_self h]
  | .array _, h => sameItems_readBack hlib h
  | .object _, h => sameMembers_readBack hlib h

lemma sameItems_readBack (hlib : lib.Exact) : ∀ {items : List (Value ℤ)}, PlainItems items →
    SameItems lib items (mapItems (fun n => (lib.strtod (decimalInt n)).1) items)
  | [], _ => trivial
  | _ :: _, h => ⟨same_readBack hlib h.1, sameItems_readBack hlib h.2⟩

lemma sameMembers_readBack (hlib : lib.Exact) : ∀ {members : List (Bytes × Value ℤ)},
    PlainMembers members →
    SameMembers lib members (mapMembers (fun n => (lib.strtod (decimalInt n)).1) members)
  | [], _ => trivial
  | (_, _) :: _, h =>
    ⟨cstr_eq_self h.1, same_readBack hlib h.2.1, sameMembers_readBack hlib h.2.2⟩

end

end Reading

/-- Emitting a tree and parsing the text: the writer takes up to 32 nested containers, the
reader no value inside 32 of them. -/
def RoundTrips (realloc : ℕ → Bool) (lib : CLib) (v : Value ℤ) : Prop :=
  (nesting v ≤ 32 → Fits realloc (render v).length →
    ∃ text, finish (run realloc (emit v)) = .ok text ∧
      (¬ ValueInside 32 v → ∃ d, parse lib text = .ok d ∧ Same lib v d) ∧
      (ValueInside 32 v → parse lib text = .error .unsupported)) ∧
    (32 < nesting v → ∀ text, finish (run realloc (emit v)) ≠ .ok text)

theorem emit_roundTrips (realloc : ℕ → Bool) {lib : CLib} (hlib : lib.Exact) {v : Value ℤ}
    (hplain : Plain v) : RoundTrips realloc lib v := by
  refine ⟨fun hdepth hfits => ⟨render v, finish_emit hdepth hfits, ?_, ?_⟩, ?_⟩
  · intro hshallow
    have hheight : height v ≤ parseMaxDepth := by
      rw [valueInside_iff] at hshallow
      exact not_lt.mp hshallow
    exact ⟨readBack lib v, parse_render hlib hheight hplain.allNumbers, same_readBack hlib hplain⟩
  · intro hdeep
    have hrefuses := parseValue_refuses hlib (valueInside_iff.mp hdeep) hplain.allNumbers []
      fun c hc => by simp at hc
    rw [List.append_nil] at hrefuses
    rw [parse, show parseMaxDepth = 32 from rfl, hrefuses]
  · intro hdeep text h
    exact absurd (nesting_le_of_finish h) (not_le.mpr hdeep)

theorem emit_roundTrips_pair : RoundTrips (fun _ => true) wholeLib
    (.object [(ascii "a", .array [.number (-7), .bool true]), (ascii "a", .string (ascii "x"))]) :=
  emit_roundTrips _ wholeLib_exact (by
    simp only [Plain, PlainMembers, PlainItems, PlainBytes]
    decide)

end UsbSentinel.Json
