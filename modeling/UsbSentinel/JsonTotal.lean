import UsbSentinel.JsonTrace

/-! The JSON parser always ends, within its text and its depth: every step of the indexed
parser reads inside the text, puts the depth counter back, and ends as the parser over lists. -/
namespace UsbSentinel.Json.Traced
open ByteString Machine

/-- Between the steps: the depth counter, the active calls, and events that are all allowed. -/
structure Stands (len depth frames : ℕ) (w : Work) : Prop where
  depth : w.depth = depth
  frames : w.frames = frames
  events : ∀ e ∈ w.events, e.Allowed len

def outcome {α : Type} : Except Status α → Except (Option Status) α
  | .ok a => .ok a
  | .error e => .error (some e)

/-- The step has the result `r`. -/
def Yields {α : Type} (len depth frames : ℕ) (m : Parsing α) (r : Except Status α) : Prop :=
  ∀ w, Stands len depth frames w →
    wp m (fun res w' => Stands len depth frames w' ∧ res = outcome r) w

/-- The step asks for memory: it goes on with some result, or stops for want of memory. -/
def Asks {α : Type} (env : Env) (depth frames : ℕ) (m : Parsing α) : Prop :=
  ∀ w, Stands env.text.length depth frames w →
    wp m (fun res w' => Stands env.text.length depth frames w' ∧ ((∃ a, res = .ok a) ∨
      res = .error (some .noMemory) ∧ ∃ n, env.alloc n = false)) w

/-- A result of the parser over lists as the indexed parser has it: the rest of the text stands
at a position from `low` on. -/
def Ends {α : Type} (text : Bytes) (low : ℕ) (res : Except (Option Status) (α × ℕ)) :
    Except Status (α × Bytes) → Prop
  | .error e => res = .error (some e)
  | .ok (a, rest) => ∃ pos, res = .ok (a, pos) ∧ rest = text.drop pos ∧ low ≤ pos ∧
      pos ≤ text.length

/-- The step ends as the parser over lists does, or for want of memory. -/
def Parses {α : Type} (env : Env) (depth frames low : ℕ) (m : Parsing (α × ℕ))
    (plain : Except Status (α × Bytes)) : Prop :=
  ∀ w, Stands env.text.length depth frames w →
    wp m (fun res w' => Stands env.text.length depth frames w' ∧
      (Ends env.text low res plain ∨
        res = .error (some .noMemory) ∧ ∃ n, env.alloc n = false)) w

/-! ### Rules -/

section Yielding
variable {α β : Type} {len depth frames : ℕ}

theorem Yields.pure (a : α) : Yields len depth frames (pure a) (.ok a) := fun _ hw =>
  (wp_pure _ _ _).mpr ⟨hw, rfl⟩

theorem Yields.fail (e : Status) : Yields len depth frames (fail e : Parsing α) (.error e) :=
  fun _ hw => (wp_stop _ _ _).mpr ⟨hw, rfl⟩

theorem Yields.note {e : Event} (he : e.Allowed len) :
    Yields len depth frames (note e) (.ok ()) := by
  intro w hw
  refine (wp_change _ _ _).mpr ⟨⟨hw.depth, hw.frames, ?_⟩, rfl⟩
  intro e' he'
  rcases List.mem_append.mp he' with he' | he'
  · exact hw.events e' he'
  · rw [List.mem_singleton.mp he']
    exact he

theorem Yields.bind {m : Parsing α} {f : α → Parsing β} {a : α} {r : Except Status β}
    (hm : Yields len depth frames m (.ok a)) (hf : Yields len depth frames (f a) r) :
    Yields len depth frames (m >>= f) r := by
  intro w hw
  refine wp_bind (hm w hw) ?_ ?_
  · rintro b t ⟨ht, hb⟩
    obtain rfl := Except.ok.inj hb
    exact hf t ht
  · rintro e t ⟨_, he⟩
    exact nomatch he

end Yielding

section Parsing
variable {α β : Type} {env : Env} {depth frames low : ℕ}

theorem Parses.pure (a : α) {pos : ℕ} (hlow : low ≤ pos) (hpos : pos ≤ env.text.length) :
    Parses env depth frames low (pure (a, pos)) (.ok (a, env.text.drop pos)) := fun _ hw =>
  (wp_pure _ _ _).mpr ⟨hw, .inl ⟨pos, rfl, rfl, hlow, hpos⟩⟩

theorem Parses.fail (e : Status) :
    Parses env depth frames low (fail e : Parsing (α × ℕ)) (.error e) := fun _ hw =>
  (wp_stop _ _ _).mpr ⟨hw, .inl rfl⟩

theorem Parses.mono {low' : ℕ} {m : Parsing (α × ℕ)} {plain : Except Status (α × Bytes)}
    (h : Parses env depth frames low' m plain) (hlow : low ≤ low') :
    Parses env depth frames low m plain := by
  intro w hw
  refine wp_mono (h w hw) ?_
  rintro res t ⟨ht, hend | hmem⟩
  · refine ⟨ht, .inl ?_⟩
    cases plain with
    | error e => exact hend
    | ok p =>
      obtain ⟨pos, hres, hrest, hpos, hlen⟩ := hend
      exact ⟨pos, hres, hrest, hlow.trans hpos, hlen⟩
  · exact ⟨ht, .inr hmem⟩

/-- Behind a step that always has the same result. -/
theorem Parses.after {m : Parsing α} {f : α → Parsing (β × ℕ)} {a : α}
    {plain : Except Status (β × Bytes)}
    (hm : Yields env.text.length depth frames m (.ok a))
    (hf : Parses env depth frames low (f a) plain) :
    Parses env depth frames low (m >>= f) plain := by
  intro w hw
  refine wp_bind (hm w hw) ?_ ?_
  · rintro b t ⟨ht, hb⟩
    obtain rfl := Except.ok.inj hb
    exact hf t ht
  · rintro e t ⟨_, he⟩
    exact nomatch he

/-- Behind a step that always fails. -/
theorem Parses.after_error {m : Parsing α} {f : α → Parsing (β × ℕ)} {e : Status}
    (hm : Yields env.text.length depth frames m (.error e)) :
    Parses env depth frames low (m >>= f) (.error e) := by
  intro w hw
  refine wp_bind (hm w hw) ?_ ?_
  · rintro b t ⟨_, hb⟩
    exact nomatch hb
  · rintro e' t ⟨ht, he⟩
    obtain rfl := Except.error.inj he
    exact ⟨ht, .inl rfl⟩

theorem Parses.asks {m : Parsing α} {f : α → Parsing (β × ℕ)}
    {plain : Except Status (β × Bytes)} (hm : Asks env depth frames m)
    (hf : ∀ a, Parses env depth frames low (f a) plain) :
    Parses env depth frames low (m >>= f) plain := by
  intro w hw
  refine wp_bind (hm w hw) ?_ ?_
  · rintro a t ⟨ht, -⟩
    exact hf a t ht
  · rintro e t ⟨ht, ⟨_, he⟩ | ⟨he, hmem⟩⟩
    · exact nomatch he
    · obtain rfl := Except.error.inj he
      exact ⟨ht, .inr ⟨rfl, hmem⟩⟩

/-- Behind a parser: it failed and so does the whole, or the rest goes on from its position. -/
theorem Parses.bind {low' : ℕ} {m : Parsing (α × ℕ)} {f : α × ℕ → Parsing (β × ℕ)}
    {first : Except Status (α × Bytes)} {plain : Except Status (β × Bytes)}
    (hm : Parses env depth frames low' m first)
    (herror : ∀ e, first = .error e → plain = .error e)
    (hok : ∀ a pos, first = .ok (a, env.text.drop pos) → low' ≤ pos → pos ≤ env.text.length →
      Parses env depth frames low (f (a, pos)) plain) :
    Parses env depth frames low (m >>= f) plain := by
  intro w hw
  refine wp_bind (hm w hw) ?_ ?_
  · rintro p t ⟨ht, hend | ⟨hmem, -⟩⟩
    · cases hfirst : first with
      | error e =>
        rw [hfirst] at hend
        exact nomatch hend
      | ok q =>
        obtain ⟨a, rest⟩ := q
        rw [hfirst] at hend
        obtain ⟨pos, hres, rfl, hlow, hlen⟩ := hend
        obtain rfl := Except.ok.inj hres
        exact hok a pos hfirst hlow hlen t ht
    · exact nomatch hmem
  · rintro e t ⟨ht, hend | ⟨hmem, hn⟩⟩
    · cases hfirst : first with
      | error e' =>
        rw [hfirst] at hend
        obtain rfl := Except.error.inj hend
        exact ⟨ht, .inl (by rw [herror e' hfirst]; rfl)⟩
      | ok q =>
        rw [hfirst] at hend
        obtain ⟨pos, hres, -⟩ := hend
        exact nomatch hres
    · obtain rfl := Except.error.inj hmem
      exact ⟨ht, .inr ⟨rfl, hn⟩⟩

end Parsing

/-! ### Reading -/

section Reading
variable {env : Env} {depth frames : ℕ}

lemma drop_eq_cons {text : Bytes} {pos : ℕ} (h : pos < text.length) :
    text.drop pos = text.getD pos 0 :: text.drop (pos + 1) := by
  rw [List.drop_eq_getElem_cons h, List.getD_eq_getElem _ _ h]

/-- Taking off the front what a test holds of is moving on by as much. -/
lemma dropWhile_drop (p : UInt8 → Bool) (text : Bytes) (pos : ℕ) :
    (text.drop pos).dropWhile p = text.drop (pos + ((text.drop pos).takeWhile p).length) := by
  rw [← List.drop_drop]
  conv_rhs =>
    arg 2
    rw [← List.takeWhile_append_dropWhile (p := p) (l := text.drop pos)]
  rw [List.drop_left]

lemma takeWhile_drop_le (p : UInt8 → Bool) {text : Bytes} {pos : ℕ} (h : pos ≤ text.length) :
    pos + ((text.drop pos).takeWhile p).length ≤ text.length := by
  have hle := (List.takeWhile_sublist p (l := text.drop pos)).length_le
  rw [List.length_drop] at hle
  omega

theorem byteAt_yields {pos : ℕ} (h : pos < env.text.length) :
    Yields env.text.length depth frames (byteAt env pos) (.ok (env.text.getD pos 0)) :=
  .bind (.note h) (.pure _)

theorem summed_yields {value : ℕ} (h : value ≤ env.text.length + 5) :
    Yields env.text.length depth frames (summed value) (.ok value) :=
  .bind (.note h) (.pure _)

theorem peek_yields (pos : ℕ) :
    Yields env.text.length depth frames (peek env pos) (.ok (env.text.getD pos 0)) := by
  unfold peek
  by_cases h : pos ≥ env.text.length
  · rw [if_pos h, List.getD_eq_default _ _ h]
    exact .pure _
  · rw [if_neg h]
    exact byteAt_yields (not_le.mp h)

theorem bytesAt_yields {count : ℕ} : ∀ {pos : ℕ}, pos + count ≤ env.text.length →
    Yields env.text.length depth frames (bytesAt env pos count)
      (.ok ((env.text.drop pos).take count)) := by
  induction count with
  | zero => exact fun _ => .pure _
  | succ count ih =>
    intro pos h
    rw [drop_eq_cons (show pos < env.text.length by omega), List.take_succ_cons]
    exact .bind (byteAt_yields (by omega)) (.bind (ih (by omega)) (.pure _))

/-- Where the white space ends. -/
def behindSpace (text : Bytes) (pos : ℕ) : ℕ := pos + ((text.drop pos).takeWhile isSpace).length

theorem skipWs_yields (pos : ℕ) :
    Yields env.text.length depth frames (skipWs env pos) (.ok (behindSpace env.text pos)) := by
  unfold behindSpace
  induction hn : env.text.length - pos generalizing pos with
  | zero =>
    unfold skipWs
    rw [if_neg (by omega), List.drop_eq_nil_of_le (by omega)]
    exact .pure _
  | succ n ih =>
    have hpos : pos < env.text.length := by omega
    unfold skipWs
    rw [if_pos hpos, drop_eq_cons hpos, List.takeWhile_cons]
    refine .bind (byteAt_yields hpos) ?_
    by_cases hspace : isSpace (env.text.getD pos 0) = true
    · rw [if_pos hspace, if_pos hspace, List.length_cons, ← Nat.add_assoc, Nat.add_right_comm]
      exact ih (pos + 1) (by omega)
    · rw [if_neg hspace, if_neg hspace]
      exact .pure _

lemma skipWs_drop (text : Bytes) (pos : ℕ) :
    Json.skipWs (text.drop pos) = text.drop (behindSpace text pos) :=
  dropWhile_drop isSpace text pos

lemma behindSpace_le {text : Bytes} {pos : ℕ} (h : pos ≤ text.length) :
    behindSpace text pos ≤ text.length := takeWhile_drop_le isSpace h

lemma le_behindSpace (text : Bytes) (pos : ℕ) : pos ≤ behindSpace text pos := Nat.le_add_right _ _

theorem digits_yields (pos : ℕ) :
    Yields env.text.length depth frames (digits env pos)
      (.ok (pos + (Json.digits (env.text.drop pos)).1.length)) := by
  unfold Json.digits
  induction hn : env.text.length - pos generalizing pos with
  | zero =>
    unfold digits
    rw [if_neg (by omega), List.drop_eq_nil_of_le (by omega)]
    exact .pure _
  | succ n ih =>
    have hpos : pos < env.text.length := by omega
    unfold digits
    rw [if_pos hpos, drop_eq_cons hpos]
    simp only [List.takeWhile_cons]
    refine .bind (peek_yields pos) ?_
    by_cases hdigit : isDigit (env.text.getD pos 0) = true
    · rw [if_pos hdigit, if_pos hdigit, List.length_cons, ← Nat.add_assoc, Nat.add_right_comm]
      exact ih (pos + 1) (by omega)
    · rw [if_neg hdigit, if_neg hdigit]
      exact .pure _

end Reading

/-! ### Numbers -/

section Numbers
variable {env : Env} {depth frames : ℕ}

/-- Behind the first part of the text at `pos` stands the second. -/
lemma drop_behind {text : Bytes} {pos : ℕ} {parts : Bytes × Bytes}
    (h : text.drop pos = parts.1 ++ parts.2) : text.drop (pos + parts.1.length) = parts.2 := by
  rw [← List.drop_drop, h, List.drop_left]

theorem minus_yields (pos : ℕ) :
    Yields env.text.length depth frames (minus env pos)
      (.ok (pos + (Json.minus (env.text.drop pos)).1.length)) := by
  unfold minus
  refine .bind (peek_yields pos) ?_
  by_cases hpos : pos < env.text.length
  · rw [drop_eq_cons hpos]
    simp only [Json.minus]
    by_cases hc : env.text.getD pos 0 = 45
    · rw [if_pos hc, if_pos hc]
      exact .pure _
    · rw [if_neg hc, if_neg hc]
      exact .pure _
  · rw [List.drop_eq_nil_of_le (by omega), List.getD_eq_default _ _ (by omega), if_neg (by decide)]
    exact .pure _

theorem fraction_yields (pos : ℕ) :
    Yields env.text.length depth frames (fraction env pos)
      (.ok (pos + (Json.fraction (env.text.drop pos)).1.length)) := by
  unfold fraction
  by_cases hpos : pos < env.text.length
  · rw [if_pos hpos, drop_eq_cons hpos]
    refine .bind (peek_yields pos) ?_
    simp only [Json.fraction]
    by_cases hc : env.text.getD pos 0 = 46
    · rw [if_pos hc, if_pos hc, List.length_cons, ← Nat.add_assoc, Nat.add_right_comm]
      exact digits_yields (pos + 1)
    · rw [if_neg hc, if_neg hc]
      exact .pure _
  · rw [if_neg hpos, List.drop_eq_nil_of_le (by omega)]
    exact .pure _

theorem exponentSign_yields (pos : ℕ) :
    Yields env.text.length depth frames (exponentSign env pos)
      (.ok (pos + (Json.exponentSign (env.text.drop pos)).1.length)) := by
  unfold exponentSign
  by_cases hpos : pos < env.text.length
  · rw [if_pos hpos, drop_eq_cons hpos]
    refine .bind (peek_yields pos) ?_
    simp only [Json.exponentSign]
    by_cases hc : env.text.getD pos 0 = 43 ∨ env.text.getD pos 0 = 45
    · rw [if_pos hc, if_pos hc]
      exact .pure _
    · rw [if_neg hc, if_neg hc]
      exact .pure _
  · rw [if_neg hpos, List.drop_eq_nil_of_le (by omega)]
    exact .pure _

theorem exponent_yields (pos : ℕ) :
    Yields env.text.length depth frames (exponent env pos)
      (.ok (pos + (Json.exponent (env.text.drop pos)).1.length)) := by
  unfold exponent
  by_cases hpos : pos < env.text.length
  · rw [if_pos hpos, drop_eq_cons hpos]
    refine .bind (peek_yields pos) ?_
    simp only [Json.exponent]
    by_cases hc : env.text.getD pos 0 = 101 ∨ env.text.getD pos 0 = 69
    · have hsign := drop_behind (exponentSign_spec (env.text.drop (pos + 1))).1
      have hbehind : pos + 1 + (Json.exponentSign (env.text.drop (pos + 1))).1.length +
          (Json.digits (Json.exponentSign (env.text.drop (pos + 1))).2).1.length =
          pos + (env.text.getD pos 0 :: (Json.exponentSign (env.text.drop (pos + 1))).1 ++
            (Json.digits (Json.exponentSign (env.text.drop (pos + 1))).2).1).length := by
        simp only [List.length_append, List.length_cons]
        omega
      rw [if_pos hc, if_pos hc, ← hbehind, ← hsign]
      exact .bind (exponentSign_yields (pos + 1)) (digits_yields _)
    · rw [if_neg hc, if_neg hc]
      exact .pure _
  · rw [if_neg hpos, List.drop_eq_nil_of_le (by omega)]
    exact .pure _

theorem parseNumber_parses {pos : ℕ} (hpos : pos ≤ env.text.length) :
    Parses env depth frames (pos + 1) (parseNumber env pos)
      (Json.parseNumber env.lib (env.text.drop pos)) := by
  obtain ⟨htoken, -⟩ := numberToken_spec (env.text.drop pos)
  have hsign := drop_behind (minus_spec (env.text.drop pos)).1
  have hwhole := drop_behind (hsign.trans (digits_spec (Json.minus (env.text.drop pos)).2).1)
  have hfrac := drop_behind (hwhole.trans (fraction_spec _).1)
  have hlength : pos + (numberToken (env.text.drop pos)).1.length =
      pos + (Json.minus (env.text.drop pos)).1.length +
        (Json.digits (Json.minus (env.text.drop pos)).2).1.length +
        (Json.fraction (Json.digits (Json.minus (env.text.drop pos)).2).2).1.length +
        (Json.exponent (Json.fraction (Json.digits (Json.minus (env.text.drop pos)).2).2).2).1.length
      := by
    simp only [numberToken, List.length_append]
    omega
  have hbehind := drop_behind htoken
  have hcount : pos + (numberToken (env.text.drop pos)).1.length - pos =
      (numberToken (env.text.drop pos)).1.length := Nat.add_sub_cancel_left ..
  have htake : (env.text.drop pos).take (numberToken (env.text.drop pos)).1.length =
      (numberToken (env.text.drop pos)).1 := by
    conv_lhs =>
      arg 2
      rw [htoken]
    rw [List.take_left]
  have hend : pos + (numberToken (env.text.drop pos)).1.length ≤ env.text.length := by
    have hle := congrArg List.length htoken
    rw [List.length_append, List.length_drop] at hle
    omega
  unfold parseNumber Json.parseNumber
  refine .after (minus_yields pos) (.after (digits_yields _) ?_)
  rw [hsign]
  refine .after (fraction_yields _) ?_
  rw [hwhole]
  refine .after (exponent_yields _) ?_
  rw [hfrac, ← hlength, hcount]
  simp only
  by_cases hn : (numberToken (env.text.drop pos)).1.length = 0 ∨
      (numberToken (env.text.drop pos)).1.length ≥ numberMax
  · rw [if_pos hn, if_pos hn]
    exact .fail _
  · rw [if_neg hn, if_neg hn]
    refine .after (bytesAt_yields hend) ?_
    rw [htake]
    by_cases hused : (env.lib.strtod (numberToken (env.text.drop pos)).1).2 ≠
        (numberToken (env.text.drop pos)).1.length
    · rw [if_pos hused, if_pos hused]
      exact .fail _
    · rw [if_neg hused, if_neg hused, ← hbehind]
      exact .pure _ (by omega) hend

end Numbers

/-! ### Memory and strings -/

section Strings
variable {env : Env} {depth frames : ℕ}

theorem Asks.pure {α : Type} (a : α) : Asks env depth frames (pure a) := fun _ hw =>
  (wp_pure _ _ _).mpr ⟨hw, .inl ⟨a, rfl⟩⟩

theorem Asks.bind {α β : Type} {m : Parsing α} {f : α → Parsing β} (hm : Asks env depth frames m)
    (hf : ∀ a, Asks env depth frames (f a)) : Asks env depth frames (m >>= f) := by
  intro w hw
  refine wp_bind (hm w hw) ?_ ?_
  · rintro a t ⟨ht, -⟩
    exact hf a t ht
  · rintro e t ⟨ht, ⟨_, he⟩ | ⟨he, hmem⟩⟩
    · exact nomatch he
    · obtain rfl := Except.error.inj he
      exact ⟨ht, .inr ⟨rfl, hmem⟩⟩

theorem Asks.ite {α : Type} {c : Prop} [Decidable c] {m n : Parsing α}
    (hm : Asks env depth frames m) (hn : Asks env depth frames n) :
    Asks env depth frames (if c then m else n) := fun w hw =>
  wp_ite (fun _ => hm w hw) fun _ => hn w hw

theorem allocate_asks : Asks env depth frames (allocate env) := by
  intro w hw
  refine wp_state_bind (wp_change_bind ?_)
  have hasked : Stands env.text.length depth frames { w with asked := w.asked + 1 } :=
    ⟨hw.depth, hw.frames, hw.events⟩
  refine wp_ite (fun _ => ⟨hasked, .inl ⟨(), rfl⟩⟩) fun hmem => ⟨hasked, .inr ⟨rfl, w.asked, ?_⟩⟩
  exact Bool.not_eq_true _ ▸ hmem

theorem roomForOne_asks (used cap : ℕ) : Asks env depth frames (roomForOne env used cap) :=
  .ite (.bind allocate_asks fun _ => .pure _) (.pure _)

theorem roomFor_asks (used count cap : ℕ) : Asks env depth frames (roomFor env used count cap) :=
  .ite (.bind allocate_asks fun _ => .pure _) (.pure _)

theorem push_asks (count cap : ℕ) : Asks env depth frames (push env count cap) :=
  .ite (.bind allocate_asks fun _ => .pure _) (.pure _)

/-- The value of the hexadecimal digits in front, as the loop reads them. -/
def hexValue : Bytes → ℕ → Except Status ℕ
  | [], code => .ok code
  | h :: rest, code =>
    match hexDigit h with
    | none => .error .invalidArg
    | some d => hexValue rest (code * 16 + d)

theorem hexLoop_yields {count : ℕ} : ∀ {pos code : ℕ}, pos + count ≤ env.text.length →
    Yields env.text.length depth frames (hexLoop env count pos code)
      (hexValue ((env.text.drop pos).take count) code) := by
  induction count with
  | zero => exact fun _ => .pure _
  | succ count ih =>
    intro pos code h
    rw [drop_eq_cons (show pos < env.text.length by omega), List.take_succ_cons]
    unfold hexLoop hexValue
    refine .bind (byteAt_yields (by omega)) ?_
    cases hexDigit (env.text.getD pos 0) with
    | none => exact .fail _
    | some d => exact ih (by omega)

/-- The escape of a code unit, as the parser over lists has it. -/
lemma stringLoop_unit {h₁ h₂ h₃ h₄ : UInt8} {rest out : Bytes} :
    Json.stringLoop (92 :: 117 :: h₁ :: h₂ :: h₃ :: h₄ :: rest) out =
      match hexValue [h₁, h₂, h₃, h₄] 0 with
      | .error e => .error e
      | .ok code => Json.stringLoop rest (out ++ encodeUnit code) := by
  rw [Json.stringLoop]
  simp only [hexValue, show (92 : UInt8) ≠ 34 by decide, if_true, if_false]
  cases hexDigit h₁ with
  | none => rfl
  | some d₁ =>
    cases hexDigit h₂ with
    | none => rfl
    | some d₂ =>
      cases hexDigit h₃ with
      | none => rfl
      | some d₃ =>
        cases hexDigit h₄ with
        | none => rfl
        | some d₄ => simp only [Nat.zero_mul, Nat.zero_add]

lemma stringLoop_unit_short {rest out : Bytes} (h : rest.length < 4) :
    Json.stringLoop (92 :: 117 :: rest) out = .error .invalidArg := by
  rw [Json.stringLoop.eq_def]
  simp only [show (92 : UInt8) ≠ 34 by decide, if_true, if_false]
  split
  · simp only [List.length_cons] at h
    omega
  · rfl

theorem stringLoop_parses (pos cap : ℕ) (out : Bytes) :
    Parses env depth frames (pos + 1) (stringLoop env pos cap out)
      (Json.stringLoop (env.text.drop pos) out) := by
  induction hn : env.text.length - pos using Nat.strong_induction_on generalizing pos cap out with
  | _ n ih =>
    subst hn
    unfold stringLoop
    by_cases hpos : pos < env.text.length
    · rw [if_pos hpos]
      have hcons := drop_eq_cons hpos
      refine .after (byteAt_yields hpos) ?_
      rw [hcons]
      generalize env.text.getD pos 0 = c
      by_cases hquote : c = 34
      · rw [if_pos hquote, Json.stringLoop.eq_def]
        simp only [if_pos hquote]
        exact .pure _ le_rfl hpos
      rw [if_neg hquote]
      by_cases hescape : c = 92
      · rw [if_pos hescape]
        subst hescape
        by_cases hesc : pos + 1 < env.text.length
        · rw [if_pos hesc, drop_eq_cons hesc]
          refine .after (byteAt_yields hesc) ?_
          generalize env.text.getD (pos + 1) 0 = esc
          by_cases hunit : esc = 117
          · subst hunit
            rw [if_pos rfl]
            refine .after (summed_yields (by omega)) ?_
            by_cases hshort : pos + 2 + 4 > env.text.length
            · rw [if_pos hshort, stringLoop_unit_short (by rw [List.length_drop]; omega)]
              exact .fail _
            · rw [if_neg hshort, drop_eq_cons (show pos + 1 + 1 < env.text.length by omega),
                drop_eq_cons (show pos + 1 + 1 + 1 < env.text.length by omega),
                drop_eq_cons (show pos + 1 + 1 + 1 + 1 < env.text.length by omega),
                drop_eq_cons (show pos + 1 + 1 + 1 + 1 + 1 < env.text.length by omega),
                stringLoop_unit]
              have hfour : (env.text.drop (pos + 2)).take 4 =
                  [env.text.getD (pos + 1 + 1) 0, env.text.getD (pos + 1 + 1 + 1) 0,
                    env.text.getD (pos + 1 + 1 + 1 + 1) 0,
                    env.text.getD (pos + 1 + 1 + 1 + 1 + 1) 0] := by
                rw [drop_eq_cons (show pos + 2 < env.text.length by omega),
                  drop_eq_cons (show pos + 2 + 1 < env.text.length by omega),
                  drop_eq_cons (show pos + 2 + 1 + 1 < env.text.length by omega),
                  drop_eq_cons (show pos + 2 + 1 + 1 + 1 < env.text.length by omega)]
                rfl
              have hhex := @hexLoop_yields env depth frames 4 (pos + 2) 0 (by omega)
              rw [hfour] at hhex
              cases hvalue : hexValue [env.text.getD (pos + 1 + 1) 0,
                  env.text.getD (pos + 1 + 1 + 1) 0, env.text.getD (pos + 1 + 1 + 1 + 1) 0,
                  env.text.getD (pos + 1 + 1 + 1 + 1 + 1) 0] 0 with
              | error e =>
                rw [hvalue] at hhex
                exact .after_error hhex
              | ok code =>
                rw [hvalue] at hhex
                have hrest : ∀ cap, Parses env depth frames (pos + 1)
                    (stringLoop env (pos + 6) cap (out ++ encodeUnit code))
                    (Json.stringLoop (env.text.drop (pos + 6)) (out ++ encodeUnit code)) :=
                  fun cap => .mono (ih _ (by omega) (pos + 6) cap _ rfl) (by omega)
                refine .after hhex ?_
                by_cases hcode : code < 0x80
                · simp only [hcode, if_true]
                  exact .asks (roomForOne_asks _ _) hrest
                · simp only [hcode, if_false]
                  exact .asks (roomFor_asks _ _ _) hrest
          · rw [if_neg hunit, Json.stringLoop.eq_def]
            simp only [hquote, if_false, if_true, hunit]
            cases simpleEscape esc with
            | none => exact .fail _
            | some b =>
              refine .asks (roomForOne_asks _ _) fun cap => ?_
              exact .mono (ih _ (by omega) (pos + 2) cap _ rfl) (by omega)
        · rw [if_neg hesc, List.drop_eq_nil_of_le (show env.text.length ≤ pos + 1 by omega),
            Json.stringLoop.eq_def]
          simp only [hquote, if_false, if_true]
          exact .fail _
      · rw [if_neg hescape, Json.stringLoop.eq_def]
        simp only [hquote, hescape, if_false]
        refine .asks (roomForOne_asks _ _) fun cap => ?_
        exact .mono (ih _ (by omega) (pos + 1) cap _ rfl) (by omega)
    · rw [if_neg hpos, List.drop_eq_nil_of_le (by omega)]
      exact .fail _

theorem parseStringLiteral_parses (pos : ℕ) :
    Parses env depth frames (pos + 1) (parseStringLiteral env pos)
      (Json.parseStringLiteral (env.text.drop pos)) := by
  unfold parseStringLiteral
  refine .asks allocate_asks fun _ => .after (peek_yields pos) ?_
  by_cases hpos : pos < env.text.length
  · rw [drop_eq_cons hpos, Json.parseStringLiteral]
    by_cases hquote : env.text.getD pos 0 = 34
    · rw [if_neg (not_not.mpr hquote), if_pos hquote]
      exact .mono (stringLoop_parses (pos + 1) 32 []) (by omega)
    · rw [if_pos hquote, if_neg hquote]
      exact .fail _
  · rw [List.drop_eq_nil_of_le (by omega), List.getD_eq_default _ _ (by omega),
      if_pos (by decide)]
    exact .fail _

theorem literal_parses {word : Bytes} {v : Value env.lib.Double} {pos : ℕ} (hne : word ≠ [])
    (hshort : word.length ≤ 5) (hpos : pos ≤ env.text.length) :
    Parses env depth frames (pos + 1) (literal env word v pos)
      (matchLiteral env.lib word v (env.text.drop pos)) := by
  have hlength := List.length_pos_iff.mpr hne
  unfold literal matchLiteral
  refine .after (summed_yields (by omega)) ?_
  by_cases hbehind : pos + word.length > env.text.length
  · rw [if_pos hbehind, if_neg fun hprefix => ?_]
    · exact .fail _
    · have hle := hprefix.length_le
      rw [List.length_drop] at hle
      omega
  · rw [if_neg hbehind]
    refine .after (bytesAt_yields (not_lt.mp hbehind)) ?_
    by_cases hword : (env.text.drop pos).take word.length = word
    · rw [if_neg (not_not.mpr hword), if_pos (List.prefix_iff_eq_take.mpr hword.symm),
        List.drop_drop]
      exact .asks allocate_asks fun _ => .pure _ (by omega) (by omega)
    · rw [if_pos hword, if_neg fun hprefix => hword (List.prefix_iff_eq_take.mp hprefix).symm]
      exact .fail _

end Strings

/-! ### Containers -/

section Containers
variable {env : Env} {depth frames : ℕ} {value : ℕ → Parsing (Value env.lib.Double × ℕ)}
  {plain : Bytes → Except Status (Value env.lib.Double × Bytes)}

/-- Behind a separator: white space, and then a byte that decides. -/
theorem Parses.mark {α : Type} {low pos : ℕ} {f : ℕ → UInt8 → Parsing (α × ℕ)}
    {q : Except Status (α × Bytes)}
    (hend : Json.skipWs (env.text.drop pos) = [] →
      Parses env depth frames low (f (behindSpace env.text pos) 0) q)
    (hcons : ∀ pos' c, pos ≤ pos' → pos' < env.text.length →
      Json.skipWs (env.text.drop pos) = c :: env.text.drop (pos' + 1) →
      Parses env depth frames low (f pos' c) q) :
    Parses env depth frames low (do
      let pos ← skipWs env pos
      let c ← peek env pos
      f pos c) q := by
  refine .after (skipWs_yields pos) (.after (peek_yields _) ?_)
  have hskip := skipWs_drop env.text pos
  by_cases hlast : behindSpace env.text pos < env.text.length
  · rw [drop_eq_cons hlast] at hskip
    exact hcons _ _ (le_behindSpace _ _) hlast hskip
  · have hover := not_lt.mp hlast
    rw [List.drop_eq_nil_of_le hover] at hskip
    rw [List.getD_eq_default _ _ hover]
    exact hend hskip

theorem membersLoop_parses {fuel : ℕ} :
    ∀ {plainFuel cap pos : ℕ} {members : List (Bytes × Value env.lib.Double)},
      (∀ p, pos < p → p ≤ env.text.length →
        Parses env depth frames (p + 1) (value p) (plain (env.text.drop p))) →
      pos ≤ env.text.length → env.text.length < fuel + pos →
      env.text.length < plainFuel + pos →
      Parses env depth frames (pos + 1) (membersLoop env value fuel members cap pos)
        (parseMembers env.lib plain plainFuel members (env.text.drop pos)) := by
  induction fuel with
  | zero =>
    intro _ _ pos _ _ _ hfuel
    omega
  | succ fuel ih =>
    intro plainFuel cap pos members hvalue hpos hfuel hplain
    cases plainFuel with
    | zero => omega
    | succ plainFuel =>
      have hspace := le_behindSpace env.text pos
      unfold membersLoop parseMembers
      rw [skipWs_drop]
      refine .after (skipWs_yields pos) (.bind (parseStringLiteral_parses _) ?_ ?_)
      · intro e he
        rw [he]
      intro key pos₁ hkey hlow₁ hlen₁
      rw [hkey]
      simp only
      refine .mark (fun hnil => ?_) fun pos₂ c hle₂ hlt₂ hcons => ?_
      · rw [hnil, if_pos (by decide)]
        exact .fail _
      rw [hcons]
      simp only
      by_cases hcolon : c ≠ 58
      · rw [if_pos hcolon, if_pos hcolon]
        exact .fail _
      rw [if_neg hcolon, if_neg hcolon, skipWs_drop]
      have hspace₂ := le_behindSpace env.text (pos₂ + 1)
      have hlen₃ := behindSpace_le (show pos₂ + 1 ≤ env.text.length by omega)
      refine .after (skipWs_yields _) (.bind (hvalue _ (by omega) hlen₃) ?_ ?_)
      · intro e he
        rw [he]
      intro val pos₃ hval hlow₃ hlen₃
      rw [hval]
      simp only
      refine .asks (push_asks _ _) fun cap => ?_
      refine .mark (fun hnil => ?_) fun pos₄ d hle₄ hlt₄ hcons => ?_
      · rw [hnil, if_neg (by decide), if_neg (by decide)]
        exact .fail _
      rw [hcons]
      simp only
      by_cases hcomma : d = 44
      · rw [if_pos hcomma, if_pos hcomma]
        refine .mono (ih (fun p hp hlen => hvalue p (by omega) hlen) ?_ ?_ ?_) ?_ <;> omega
      · rw [if_neg hcomma, if_neg hcomma]
        by_cases hclose : d = 125
        · rw [if_pos hclose, if_pos hclose]
          exact .pure _ (by omega) hlt₄
        · rw [if_neg hclose, if_neg hclose]
          exact .fail _

theorem itemsLoop_parses {fuel : ℕ} :
    ∀ {plainFuel cap pos : ℕ} {items : List (Value env.lib.Double)},
      (∀ p, pos ≤ p → p ≤ env.text.length →
        Parses env depth frames (p + 1) (value p) (plain (env.text.drop p))) →
      pos ≤ env.text.length → env.text.length < fuel + pos →
      env.text.length < plainFuel + pos →
      Parses env depth frames (pos + 1) (itemsLoop env value fuel items cap pos)
        (parseItems env.lib plain plainFuel items (env.text.drop pos)) := by
  induction fuel with
  | zero =>
    intro _ _ pos _ _ _ hfuel
    omega
  | succ fuel ih =>
    intro plainFuel cap pos items hvalue hpos hfuel hplain
    cases plainFuel with
    | zero => omega
    | succ plainFuel =>
      have hspace := le_behindSpace env.text pos
      unfold itemsLoop parseItems
      rw [skipWs_drop]
      refine .after (skipWs_yields pos) (.bind (hvalue _ hspace (behindSpace_le hpos)) ?_ ?_)
      · intro e he
        rw [he]
      intro val pos₁ hval hlow₁ hlen₁
      rw [hval]
      simp only
      refine .asks (push_asks _ _) fun cap => ?_
      refine .mark (fun hnil => ?_) fun pos₂ d hle₂ hlt₂ hcons => ?_
      · rw [hnil, if_neg (by decide), if_neg (by decide)]
        exact .fail _
      rw [hcons]
      simp only
      by_cases hcomma : d = 44
      · rw [if_pos hcomma, if_pos hcomma]
        refine .mono (ih (fun p hp hlen => hvalue p (by omega) hlen) ?_ ?_ ?_) ?_ <;> omega
      · rw [if_neg hcomma, if_neg hcomma]
        by_cases hclose : d = 93
        · rw [if_pos hclose, if_pos hclose]
          exact .pure _ (by omega) hlt₂
        · rw [if_neg hclose, if_neg hclose]
          exact .fail _

/-- A container that starts at `pos`: closed at once, or what the loop `m` finds in it. -/
theorem container_parses {α : Type} (close : UInt8) {empty : Value env.lib.Double}
    {wrap : α → Value env.lib.Double} {m : ℕ → Parsing (α × ℕ)}
    {p : Bytes → Except Status (α × Bytes)} {q : Except Status (Value env.lib.Double × Bytes)}
    {pos : ℕ} (hclose : close ≠ 0) (hpos : pos < env.text.length)
    (hm : ∀ q, pos < q → q ≤ env.text.length →
      Parses env depth frames (q + 1) (m q) (p (env.text.drop q)))
    (hempty : (Json.skipWs (env.text.drop (pos + 1))).head? = some close →
      q = .ok (empty, (Json.skipWs (env.text.drop (pos + 1))).tail))
    (hfull : (Json.skipWs (env.text.drop (pos + 1))).head? ≠ some close →
      q = (p (Json.skipWs (env.text.drop (pos + 1)))).map fun r => (wrap r.1, r.2)) :
    Parses env depth frames (pos + 1) (do
      allocate env
      let pos ← skipWs env (pos + 1)
      let c ← peek env pos
      if c = close then pure (empty, pos + 1)
      else do
        let (a, pos) ← m pos
        pure (wrap a, pos)) q := by
  have hspace := le_behindSpace env.text (pos + 1)
  have hlen := behindSpace_le (show pos + 1 ≤ env.text.length from hpos)
  rw [skipWs_drop] at hempty hfull
  refine .asks allocate_asks fun _ => .after (skipWs_yields _) (.after (peek_yields _) ?_)
  by_cases hc : env.text.getD (behindSpace env.text (pos + 1)) 0 = close
  · have hlast : behindSpace env.text (pos + 1) < env.text.length := by
      by_contra hover
      rw [List.getD_eq_default _ _ (not_lt.mp hover)] at hc
      exact hclose hc.symm
    rw [drop_eq_cons hlast, List.head?_cons, List.tail_cons] at hempty
    rw [if_pos hc, hempty (by rw [hc])]
    exact .pure _ (by omega) hlast
  · have hopen : (env.text.drop (behindSpace env.text (pos + 1))).head? ≠ some close := by
      by_cases hlast : behindSpace env.text (pos + 1) < env.text.length
      · rw [drop_eq_cons hlast, List.head?_cons]
        exact fun h => hc (Option.some.inj h)
      · rw [List.drop_eq_nil_of_le (not_lt.mp hlast)]
        exact fun h => nomatch h
    rw [if_neg hc, hfull hopen]
    refine .bind (hm _ (by omega) hlen) (fun e he => by rw [he]; rfl) fun a pos' hok hlow hle => ?_
    rw [hok]
    exact .pure _ (by omega) hle

theorem parseObject_parses {fuel pos : ℕ} (hpos : pos < env.text.length)
    (hvalue : ∀ p, pos < p → p ≤ env.text.length →
      Parses env depth frames (p + 1) (value p) (plain (env.text.drop p)))
    (hfuel : env.text.length < fuel + (pos + 1)) :
    Parses env depth frames (pos + 1) (parseObject env value fuel pos)
      (Json.parseObject env.lib plain (env.text.drop (pos + 1))) := by
  have hloop : ∀ q, pos < q → q ≤ env.text.length →
      Parses env depth frames (q + 1) (membersLoop env value fuel [] 0 q)
        (parseMembers env.lib plain ((env.text.drop q).length + 1) [] (env.text.drop q)) := by
    intro q hq hlen
    refine membersLoop_parses (fun p hp hle => hvalue p (by omega) hle) hlen (by omega) ?_
    rw [List.length_drop]
    omega
  unfold Json.parseObject
  refine container_parses (p := fun inp => parseMembers env.lib plain (inp.length + 1) [] inp)
    125 (by decide) hpos hloop (fun hopen => ?_) fun hopen => ?_
  · simp only [hopen, if_true]
  · simp only [hopen, if_false]
    cases parseMembers env.lib plain _ [] (Json.skipWs (env.text.drop (pos + 1))) <;> rfl

theorem parseArray_parses {fuel pos : ℕ} (hpos : pos < env.text.length)
    (hvalue : ∀ p, pos < p → p ≤ env.text.length →
      Parses env depth frames (p + 1) (value p) (plain (env.text.drop p)))
    (hfuel : env.text.length < fuel + (pos + 1)) :
    Parses env depth frames (pos + 1) (parseArray env value fuel pos)
      (Json.parseArray env.lib plain (env.text.drop (pos + 1))) := by
  have hloop : ∀ q, pos < q → q ≤ env.text.length →
      Parses env depth frames (q + 1) (itemsLoop env value fuel [] 0 q)
        (parseItems env.lib plain ((env.text.drop q).length + 1) [] (env.text.drop q)) := by
    intro q hq hlen
    refine itemsLoop_parses (fun p hp hle => hvalue p (by omega) hle) hlen (by omega) ?_
    rw [List.length_drop]
    omega
  unfold Json.parseArray
  refine container_parses (p := fun inp => parseItems env.lib plain (inp.length + 1) [] inp)
    93 (by decide) hpos hloop (fun hopen => ?_) fun hopen => ?_
  · simp only [hopen, if_true]
  · simp only [hopen, if_false]
    cases parseItems env.lib plain _ [] (Json.skipWs (env.text.drop (pos + 1))) <;> rfl

end Containers

/-! ### Values -/

section Values
variable {env : Env} {depth frames : ℕ}

/-- Inside, the depth counter is one higher; outside it is what it was. -/
theorem nested_parses {α : Type} {low : ℕ} {m : Parsing (α × ℕ)}
    {plain : Except Status (α × Bytes)} (hm : Parses env (depth + 1) frames low m plain) :
    Parses env depth frames low (nested m) plain := by
  intro w hw
  refine wp_change_bind (wp_always (hm _ ⟨?_, hw.frames, hw.events⟩) ?_)
  · exact congrArg (· + 1) hw.depth
  · rintro r t ⟨ht, hend⟩
    have hdepth : t.depth - 1 = depth := by
      rw [ht.depth]
      exact Nat.add_sub_cancel ..
    exact ⟨⟨hdepth, ht.frames, ht.events⟩, hend⟩

/-- A call of the value parser that nests no deeper than the limit, whose body puts the depth
counter back and gets on. -/
theorem called_parses {α : Type} {low pos : ℕ} {m : Parsing (α × ℕ)}
    {plain : Except Status (α × Bytes)} (hframes : frames < 33) (hlow : pos < low)
    (hm : Parses env depth (frames + 1) low m plain) :
    Parses env depth frames low (called pos m) plain := by
  intro w hw
  refine wp_state_bind (wp_change_bind (wp_always (hm _ ⟨hw.depth, ?_, ?_⟩) ?_))
  · exact congrArg (· + 1) hw.frames
  · intro e he
    rcases List.mem_append.mp he with he | he
    · exact hw.events e he
    · rw [List.mem_singleton.mp he]
      exact hw.frames ▸ hframes
  · rintro r t ⟨ht, hend⟩
    have hback : t.frames - 1 = frames := by
      rw [ht.frames]
      exact Nat.add_sub_cancel ..
    have hdone : ∀ q ∈ r.toOption.map Prod.snd, pos < q ∧ q ≤ env.text.length := by
      intro q hq
      rcases hend with hend | ⟨rfl, -⟩
      · cases plain with
        | error e =>
          obtain rfl : r = .error (some e) := hend
          exact nomatch hq
        | ok p =>
          obtain ⟨pos', rfl, -, hle, hlen⟩ := hend
          obtain rfl : pos' = q := Option.some.inj hq
          exact ⟨by omega, hlen⟩
      · exact nomatch hq
    refine ⟨⟨ht.depth, hback, ?_⟩, hend⟩
    intro e he
    rcases List.mem_append.mp he with he | he
    · exact ht.events e he
    · rw [List.mem_singleton.mp he]
      exact ⟨ht.depth.trans hw.depth.symm, hdone⟩

theorem valueAt_parses {value : ℕ → Parsing (Value env.lib.Double × ℕ)} {levels fuel pos : ℕ}
    (hpos : pos < env.text.length)
    (hvalue : ∀ p, pos < p → p ≤ env.text.length →
      Parses env (depth + 1) frames (p + 1) (value p)
        (Json.parseValue env.lib levels (env.text.drop p)))
    (hfuel : env.text.length < fuel + (pos + 1))
    (hskip : Json.skipWs (env.text.drop pos) = env.text.drop pos) :
    Parses env depth frames (pos + 1) (valueAt env value fuel pos)
      (Json.parseValue env.lib (levels + 1) (env.text.drop pos)) := by
  have htrue : ascii "true" ≠ [] ∧ (ascii "true").length ≤ 5 := by decide
  have hfalse : ascii "false" ≠ [] ∧ (ascii "false").length ≤ 5 := by decide
  have hnull : ascii "null" ≠ [] ∧ (ascii "null").length ≤ 5 := by decide
  have hcons := drop_eq_cons hpos
  have hstring := @parseStringLiteral_parses env depth frames pos
  have hnumber := @parseNumber_parses env depth frames pos hpos.le
  unfold valueAt Json.parseValue
  refine .after (peek_yields pos) ?_
  rw [hskip, hcons]
  simp only
  rw [hcons] at hstring hnumber
  generalize env.text.getD pos 0 = c at *
  by_cases h₁ : c = 123
  · rw [if_pos h₁, if_pos h₁]
    exact nested_parses (parseObject_parses hpos hvalue hfuel)
  rw [if_neg h₁, if_neg h₁]
  by_cases h₂ : c = 91
  · rw [if_pos h₂, if_pos h₂]
    exact nested_parses (parseArray_parses hpos hvalue hfuel)
  rw [if_neg h₂, if_neg h₂]
  by_cases h₃ : c = 34
  · rw [if_pos h₃, if_pos h₃]
    refine .bind hstring (fun e he => by rw [he]) fun s pos' hok hlow hlen => ?_
    rw [hok]
    exact .asks allocate_asks fun _ => .pure _ hlow hlen
  rw [if_neg h₃, if_neg h₃]
  by_cases h₄ : c = 116
  · rw [if_pos h₄, if_pos h₄, ← hcons]
    exact literal_parses htrue.1 htrue.2 hpos.le
  rw [if_neg h₄, if_neg h₄]
  by_cases h₅ : c = 102
  · rw [if_pos h₅, if_pos h₅, ← hcons]
    exact literal_parses hfalse.1 hfalse.2 hpos.le
  rw [if_neg h₅, if_neg h₅]
  by_cases h₆ : c = 110
  · rw [if_pos h₆, if_pos h₆, ← hcons]
    exact literal_parses hnull.1 hnull.2 hpos.le
  rw [if_neg h₆, if_neg h₆]
  by_cases h₇ : c = 45 ∨ isDigit c = true
  · rw [if_pos h₇, if_pos h₇]
    refine .bind hnumber (fun e he => by rw [he]) fun n pos' hok hlow hlen => ?_
    rw [hok]
    exact .asks allocate_asks fun _ => .pure _ hlow hlen
  · rw [if_neg h₇, if_neg h₇]
    exact .fail _

lemma parseValue_skipWs (lib : CLib) (levels : ℕ) (inp : Bytes) :
    Json.parseValue lib (levels + 1) inp = Json.parseValue lib (levels + 1) (Json.skipWs inp) := by
  unfold Json.parseValue
  rw [skipWs_skipWs]

/-- Fuel for every byte from `pos` on, and one more, is enough. -/
theorem parseValue_parses {fuel : ℕ} : ∀ {levels depth pos : ℕ}, depth + levels = parseMaxDepth →
    pos ≤ env.text.length → env.text.length < fuel + pos →
    Parses env depth depth (pos + 1) (parseValue env fuel pos)
      (Json.parseValue env.lib levels (env.text.drop pos)) := by
  induction fuel with
  | zero =>
    intro _ _ pos _ hpos hfuel
    omega
  | succ fuel ih =>
    intro levels depth pos hdepth hpos hfuel
    have hlimit : parseMaxDepth = 32 := rfl
    unfold parseValue
    refine called_parses (by omega) (Nat.lt_succ_self pos) fun w hw => wp_state_bind ?_
    cases levels with
    | zero =>
      rw [if_pos (by rw [hw.depth]; omega)]
      exact Parses.fail _ w hw
    | succ levels =>
      rw [if_neg (by rw [hw.depth]; omega)]
      have hspace := le_behindSpace env.text pos
      refine Parses.after (skipWs_yields pos) ?_ w hw
      by_cases hend : behindSpace env.text pos ≥ env.text.length
      · rw [if_pos hend, Json.parseValue, skipWs_drop, List.drop_eq_nil_of_le hend]
        exact .fail _
      · have hskip : Json.skipWs (env.text.drop (behindSpace env.text pos)) =
            env.text.drop (behindSpace env.text pos) := by
          rw [← skipWs_drop, skipWs_skipWs]
        rw [if_neg hend, parseValue_skipWs, skipWs_drop]
        refine .mono (valueAt_parses (not_le.mp hend) (fun p hp hle => ?_) (by omega) hskip)
          (by omega)
        exact ih (by omega) hle (by omega)

/-- The parse of the whole text ends as the parser over lists, or for want of memory. -/
theorem parse_run {fuel : ℕ} (hfuel : env.text.length < fuel) :
    wp (parse env fuel) (fun res w => Stands env.text.length 0 0 w ∧
      (res = outcome (Json.parse env.lib env.text) ∨
        res = .error (some .noMemory) ∧ ∃ n, env.alloc n = false)) {} := by
  have hstart : Stands env.text.length 0 0 {} := ⟨rfl, rfl, fun _ he => nomatch he⟩
  have hvalue := @parseValue_parses env fuel parseMaxDepth 0 0 (Nat.zero_add _) (Nat.zero_le _)
    hfuel
  rw [List.drop_zero] at hvalue
  unfold parse Json.parse
  refine wp_bind (hvalue {} hstart) ?_ ?_
  · rintro p t ⟨ht, hend | ⟨hmem, -⟩⟩
    · cases hplain : Json.parseValue env.lib parseMaxDepth env.text with
      | error e =>
        rw [hplain] at hend
        exact nomatch hend
      | ok q =>
        obtain ⟨v, rest⟩ := q
        rw [hplain] at hend
        obtain ⟨pos, hres, rfl, -, hle⟩ := hend
        obtain rfl := Except.ok.inj hres
        simp only
        rw [skipWs_drop]
        refine wp_bind (skipWs_yields pos t ht) ?_ ?_
        · rintro pos' t' ⟨ht', hpos'⟩
          obtain rfl := Except.ok.inj hpos'
          by_cases hlast : behindSpace env.text pos < env.text.length
          · rw [if_pos hlast, if_pos (by rw [drop_eq_cons hlast]; simp)]
            exact ⟨ht', .inl rfl⟩
          · rw [if_neg hlast, if_neg (by rw [List.drop_eq_nil_of_le (not_lt.mp hlast)]; simp)]
            exact ⟨ht', .inl rfl⟩
        · rintro e t' ⟨_, he⟩
          exact nomatch he
    · exact nomatch hmem
  · rintro e t ⟨ht, hend | ⟨hmem, hn⟩⟩
    · cases hplain : Json.parseValue env.lib parseMaxDepth env.text with
      | error e' =>
        rw [hplain] at hend
        obtain rfl := Except.error.inj hend
        exact ⟨ht, .inl rfl⟩
      | ok q =>
        rw [hplain] at hend
        obtain ⟨pos, hres, -⟩ := hend
        exact nomatch hres
    · obtain rfl := Except.error.inj hmem
      exact ⟨ht, .inr ⟨rfl, hn⟩⟩

end Values

/-! ### More fuel -/

section Fuel
variable {env : Env}

theorem nested_approx {α : Type} {m n : Parsing α} (h : Approx none m n) :
    Approx none (nested m) (nested n) :=
  .bind (.refl _) fun _ => .always h

theorem called_approx {α : Type} {m n : Parsing (α × ℕ)} (h : Approx none m n) (pos : ℕ) :
    Approx none (called pos m) (called pos n) :=
  .bind (.refl _) fun _ => .bind (.refl _) fun _ => .always h

variable {value value' : ℕ → Parsing (Value env.lib.Double × ℕ)}

theorem membersLoop_approx (hvalue : ∀ pos, Approx none (value pos) (value' pos)) (fuel : ℕ)
    (members : List (Bytes × Value env.lib.Double)) (cap pos : ℕ) :
    Approx none (membersLoop env value fuel members cap pos)
      (membersLoop env value' (fuel + 1) members cap pos) := by
  induction fuel generalizing members cap pos with
  | zero => exact .stop _
  | succ fuel ih =>
    rw [membersLoop, membersLoop]
    refine .bind (.refl _) fun pos => .bind (.refl _) ?_
    rintro ⟨key, pos⟩
    refine .bind (.refl _) fun pos => .bind (.refl _) fun c => .ite (.refl _) ?_
    refine .bind (.refl _) fun pos => .bind (hvalue pos) ?_
    rintro ⟨val, pos⟩
    refine .bind (.refl _) fun cap => .bind (.refl _) fun pos => .bind (.refl _) fun d => ?_
    exact .ite (ih _ cap _) (.refl _)

theorem itemsLoop_approx (hvalue : ∀ pos, Approx none (value pos) (value' pos)) (fuel : ℕ)
    (items : List (Value env.lib.Double)) (cap pos : ℕ) :
    Approx none (itemsLoop env value fuel items cap pos)
      (itemsLoop env value' (fuel + 1) items cap pos) := by
  induction fuel generalizing items cap pos with
  | zero => exact .stop _
  | succ fuel ih =>
    rw [itemsLoop, itemsLoop]
    refine .bind (.refl _) fun pos => .bind (hvalue pos) ?_
    rintro ⟨val, pos⟩
    refine .bind (.refl _) fun cap => .bind (.refl _) fun pos => .bind (.refl _) fun d => ?_
    exact .ite (ih _ cap _) (.refl _)

theorem valueAt_approx (hvalue : ∀ pos, Approx none (value pos) (value' pos)) (fuel pos : ℕ) :
    Approx none (valueAt env value fuel pos) (valueAt env value' (fuel + 1) pos) := by
  have hobject : Approx none (parseObject env value fuel pos)
      (parseObject env value' (fuel + 1) pos) := by
    refine .bind (.refl _) fun _ => .bind (.refl _) fun pos => .bind (.refl _) fun c => ?_
    exact .ite (.refl _) (.bind (membersLoop_approx hvalue fuel [] 0 pos) fun _ => .refl _)
  have harray : Approx none (parseArray env value fuel pos)
      (parseArray env value' (fuel + 1) pos) := by
    refine .bind (.refl _) fun _ => .bind (.refl _) fun pos => .bind (.refl _) fun c => ?_
    exact .ite (.refl _) (.bind (itemsLoop_approx hvalue fuel [] 0 pos) fun _ => .refl _)
  refine .bind (.refl _) fun c => ?_
  exact .ite (nested_approx hobject) (.ite (nested_approx harray) (.refl _))

theorem parseValue_approx (fuel : ℕ) :
    ∀ pos, Approx none (parseValue env fuel pos) (parseValue env (fuel + 1) pos) := by
  induction fuel with
  | zero => exact fun _ => .stop _
  | succ fuel ih =>
    intro pos
    rw [parseValue, parseValue]
    refine called_approx (.bind (.refl _) fun w => .ite (.refl _) ?_) pos
    exact .bind (.refl _) fun pos => .ite (.refl _) (valueAt_approx ih fuel pos)

theorem parse_approx (fuel extra : ℕ) :
    Approx none (parse env fuel) (parse env (fuel + extra)) := by
  induction extra with
  | zero => exact .refl _
  | succ extra ih =>
    refine ih.trans (.bind (parseValue_approx (fuel + extra) 0) fun _ => ?_)
    exact .refl _

end Fuel

end UsbSentinel.Json.Traced

namespace UsbSentinel.Json

/-- What a parse may do, whatever the text and the memory: it ends with a status, it reads inside
the text, its calls nest at most 33 deep and get on when they succeed, the depth counter is put
back on every return, and a failure leaves the caller's value alone. -/
structure Settled (env : Traced.Env) (outValue : Option (Value env.lib.Double))
    (r : Parsed env.lib.Double) : Prop where
  ended : ∃ status, r.status = some status
  events : ∀ e ∈ r.work.events, e.Allowed env.text.length
  depth : r.work.depth = 0
  kept : r.status ≠ some .ok → r.outValue = outValue

lemma usbsJsonParse_settled {env : Traced.Env} {fuel : ℕ} (hfuel : env.text.length < fuel)
    (outValue : Option (Value env.lib.Double)) :
    Settled env outValue (usbsJsonParse env fuel outValue) := by
  have hrun := Traced.parse_run hfuel
  unfold Machine.wp at hrun
  unfold usbsJsonParse
  rcases hparse : Traced.parse env fuel {} with ⟨_ | v, w⟩
  · rw [hparse] at hrun
    obtain ⟨hw, hend⟩ := hrun
    refine ⟨?_, hw.events, hw.depth, fun _ => rfl⟩
    rcases hend with hend | ⟨hend, -⟩
    · cases hplain : parse env.lib env.text with
      | ok v =>
        rw [hplain] at hend
        exact nomatch hend
      | error e =>
        rw [hplain] at hend
        exact ⟨e, Except.error.inj hend⟩
    · exact ⟨_, Except.error.inj hend⟩
  · rw [hparse] at hrun
    exact ⟨⟨_, rfl⟩, hrun.1.events, hrun.1.depth, fun h => absurd rfl h⟩

/-- Fuel for each byte of the text and one more is enough, and more of it changes nothing. -/
theorem usbsJsonParse_total (env : Traced.Env) (extra : ℕ)
    (outValue : Option (Value env.lib.Double)) :
    Settled env outValue (usbsJsonParse env (env.text.length + 1) outValue) ∧
      usbsJsonParse env (env.text.length + 1 + extra) outValue =
        usbsJsonParse env (env.text.length + 1) outValue := by
  have hsettled := usbsJsonParse_settled (Nat.lt_succ_self env.text.length) outValue
  refine ⟨hsettled, ?_⟩
  obtain ⟨status, hstatus⟩ := hsettled.ended
  rcases Traced.parse_approx (env.text.length + 1) extra {} with hnone | hsame
  · unfold usbsJsonParse at hstatus
    rcases hparse : Traced.parse env (env.text.length + 1) {} with ⟨_ | v, w⟩
    · rw [hparse] at hnone hstatus
      obtain rfl := Except.error.inj hnone
      exact nomatch hstatus
    · rw [hparse] at hnone
      exact nomatch hnone
  · unfold usbsJsonParse
    rw [hsame]

/-- While memory lasts the indexed parser is the parser over lists. -/
theorem usbsJsonParse_eq {env : Traced.Env} (hmem : ∀ n, env.alloc n = true)
    (outValue : Option (Value env.lib.Double)) :
    (usbsJsonParse env (env.text.length + 1) outValue).outValue =
        ((parse env.lib env.text).toOption.or outValue) ∧
      (usbsJsonParse env (env.text.length + 1) outValue).status =
        some (match parse env.lib env.text with
          | .ok _ => .ok
          | .error e => e) := by
  have hrun := Traced.parse_run (Nat.lt_succ_self env.text.length)
  unfold Machine.wp at hrun
  unfold usbsJsonParse
  rcases hparse : Traced.parse env (env.text.length + 1) {} with ⟨r, w⟩
  rw [hparse] at hrun
  obtain ⟨-, hend | ⟨-, n, hn⟩⟩ := hrun
  · cases hplain : parse env.lib env.text with
    | ok v =>
      rw [hplain] at hend
      obtain rfl : r = .ok v := hend
      exact ⟨rfl, rfl⟩
    | error e =>
      rw [hplain] at hend
      obtain rfl : r = .error (some e) := hend
      exact ⟨rfl, rfl⟩
  · rw [hmem n] at hn
    cases hn

end UsbSentinel.Json
