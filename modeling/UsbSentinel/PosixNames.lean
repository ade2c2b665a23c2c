import UsbSentinel.Utf8
import UsbSentinel.Status

/-! File names at the POSIX boundary: arbitrary bytes become valid UTF-8, each invalid
byte being replaced by U+FFFD. -/
namespace UsbSentinel.Posix
open ByteString

def isContinuation (b : UInt8) : Bool := b &&& 0xC0 = 0x80

/-- Length of the valid sequence the input starts with, or 0. -/
def utf8SequenceLength : Bytes → ℕ
  | [] => 0
  | c :: rest =>
    if c < 0x80 then 1
    else if c &&& 0xE0 = 0xC0 then
      match rest with
      | s₁ :: _ =>
        if !isContinuation s₁ then 0
        else if c < 0xC2 then 0
        else 2
      | _ => 0
    else if c &&& 0xF0 = 0xE0 then
      match rest with
      | s₁ :: s₂ :: _ =>
        if !isContinuation s₁ || !isContinuation s₂ then 0
        else if c = 0xE0 && s₁ < 0xA0 then 0
        else if c = 0xED && s₁ ≥ 0xA0 then 0
        else 3
      | _ => 0
    else if c &&& 0xF8 = 0xF0 then
      match rest with
      | s₁ :: s₂ :: s₃ :: _ =>
        if !isContinuation s₁ || !isContinuation s₂ || !isContinuation s₃ then 0
        else if c = 0xF0 && s₁ < 0x90 then 0
        else if c > 0xF4 || (c = 0xF4 && s₁ ≥ 0x90) then 0
        else 4
      | _ => 0
    else 0

/-- U+FFFD. -/
def replacement : Bytes := [0xEF, 0xBF, 0xBD]

/-- The copying loop; each turn consumes at least one byte, so the input's length is
enough fuel. -/
def sanitizeLoop (cap : ℕ) : ℕ → Bytes → Bytes → Bytes
  | 0, _, out => out
  | _ + 1, [], out => out
  | fuel + 1, c :: rest, out =>
    match utf8SequenceLength (c :: rest) with
    | 0 =>
      if out.length + 3 ≥ cap then out
      else sanitizeLoop cap fuel rest (out ++ replacement)
    | seq + 1 =>
      if out.length + (seq + 1) ≥ cap then out
      else sanitizeLoop cap fuel (rest.drop seq) (out ++ (c :: rest).take (seq + 1))

def sanitizeUtf8 (src : Bytes) (cap : ℕ) : Bytes := sanitizeLoop cap src.length src []

set_option maxRecDepth 8000 in
theorem isContinuation_iff {b : UInt8} : isContinuation b = true ↔ Utf8.Tail b := by
  revert b
  unfold isContinuation Utf8.Tail
  decide

set_option maxRecDepth 8000 in
theorem lead_two {c : UInt8} : c &&& 0xE0 = 0xC0 ↔ 0xC0 ≤ c ∧ c ≤ 0xDF := by
  revert c
  decide

set_option maxRecDepth 8000 in
theorem lead_three {c : UInt8} : c &&& 0xF0 = 0xE0 ↔ 0xE0 ≤ c ∧ c ≤ 0xEF := by
  revert c
  decide

set_option maxRecDepth 8000 in
theorem lead_four {c : UInt8} : c &&& 0xF8 = 0xF0 ↔ 0xF0 ≤ c ∧ c ≤ 0xF7 := by
  revert c
  decide

theorem sequence_three {a b c : UInt8} (ha : 0xE0 ≤ a ∧ a ≤ 0xEF) (hb : Utf8.Tail b)
    (hc : Utf8.Tail c) (hE0 : a = 0xE0 → 0xA0 ≤ b) (hED : a = 0xED → b < 0xA0) :
    Utf8.Sequence [a, b, c] := by
  by_cases h0 : a = 0xE0
  · subst h0
    exact .threeE0 (hE0 rfl) hb.2 hc
  by_cases hD : a = 0xED
  · subst hD
    exact .threeED hb.1 (by have := hED rfl; grind) hc
  by_cases hlow : a ≤ 0xEC
  · exact .threeLow (by grind) hlow hb hc
  · exact .threeHigh (by grind) ha.2 hb hc

theorem sequence_four {a b c d : UInt8} (ha : 0xF0 ≤ a ∧ a ≤ 0xF4) (hb : Utf8.Tail b)
    (hc : Utf8.Tail c) (hd : Utf8.Tail d) (hF0 : a = 0xF0 → 0x90 ≤ b)
    (hF4 : a = 0xF4 → b < 0x90) : Utf8.Sequence [a, b, c, d] := by
  by_cases h0 : a = 0xF0
  · subst h0
    exact .fourF0 (hF0 rfl) hb.2 hc hd
  by_cases h4 : a = 0xF4
  · subst h4
    exact .fourF4 hb.1 (by have := hF4 rfl; grind) hc hd
  · exact .fourMid (by grind) (by grind) hb hc hd

/-- A positive length delimits a sequence of the table. -/
theorem sequence_of_length {s : Bytes} {n : ℕ} (h : utf8SequenceLength s = n + 1) :
    Utf8.Sequence (s.take (n + 1)) ∧ n + 1 ≤ s.length := by
  cases s with
  | nil => simp [utf8SequenceLength] at h
  | cons c rest =>
    simp only [utf8SequenceLength] at h
    by_cases h1 : c < 0x80
    · rw [if_pos h1] at h
      obtain rfl : n = 0 := by omega
      exact ⟨.one (by grind), by simp⟩
    rw [if_neg h1] at h
    by_cases h2 : c &&& 0xE0 = 0xC0
    · rw [if_pos h2] at h
      split at h
      · next s₁ tail =>
        split_ifs at h with ht hc
        obtain rfl : n = 1 := by omega
        have hb := isContinuation_iff.mp (by simpa using ht)
        exact ⟨.two (by grind) (lead_two.mp h2).2 hb, by simp⟩
      · omega
    rw [if_neg h2] at h
    by_cases h3 : c &&& 0xF0 = 0xE0
    · rw [if_pos h3] at h
      split at h
      · next s₁ s₂ tail =>
        split_ifs at h with ht h0 hD
        obtain rfl : n = 2 := by omega
        simp only [Bool.or_eq_true, Bool.not_eq_true', not_or, Bool.not_eq_false,
          isContinuation_iff] at ht
        simp only [Bool.and_eq_true, decide_eq_true_eq, not_and] at h0 hD
        refine ⟨sequence_three (lead_three.mp h3) ht.1 ht.2 ?_ ?_, by simp⟩
        · exact fun he => by have := h0 he; grind
        · exact fun he => by have := hD he; grind
      · omega
    rw [if_neg h3] at h
    by_cases h4 : c &&& 0xF8 = 0xF0
    · rw [if_pos h4] at h
      split at h
      · next s₁ s₂ s₃ tail =>
        split_ifs at h with ht h0 hF
        obtain rfl : n = 3 := by omega
        simp only [Bool.or_eq_true, Bool.not_eq_true', not_or, Bool.not_eq_false,
          isContinuation_iff] at ht
        simp only [Bool.and_eq_true, Bool.or_eq_true, decide_eq_true_eq, not_and, not_or]
          at h0 hF
        have hlead := lead_four.mp h4
        refine ⟨sequence_four ⟨hlead.1, by grind⟩ ht.1.1 ht.1.2 ht.2 ?_ ?_, by simp⟩
        · exact fun he => by have := h0 he; grind
        · exact fun he => by have := hF.2 he; grind
      · omega
    · rw [if_neg h4] at h
      omega

theorem length_of_sequence {c : Bytes} (h : Utf8.Sequence c) (rest : Bytes) :
    utf8SequenceLength (c ++ rest) = c.length := by
  have tail := fun {b : UInt8} (hb : Utf8.Tail b) => isContinuation_iff.mpr hb
  cases h with
  | one ha =>
    simp [utf8SequenceLength]
    exact fun h => absurd (UInt8.le_trans h ha) (by decide)
  | two ha ha' hb =>
    simp [utf8SequenceLength, lead_two, tail hb]
    grind
  | threeE0 hb hb' hc =>
    have hbt := tail ⟨UInt8.le_trans (by decide) hb, hb'⟩
    simp [utf8SequenceLength, lead_three, hbt, tail hc]
    grind
  | threeLow ha ha' hb hc =>
    simp [utf8SequenceLength, lead_two, lead_three, tail hb, tail hc]
    grind
  | threeED hb hb' hc =>
    have hbt := tail ⟨hb, UInt8.le_trans hb' (by decide)⟩
    simp [utf8SequenceLength, lead_two, lead_three, hbt, tail hc]
    grind
  | threeHigh ha ha' hb hc =>
    simp [utf8SequenceLength, lead_two, lead_three, tail hb, tail hc]
    grind
  | fourF0 hb hb' hc hd =>
    have hbt := tail ⟨UInt8.le_trans (by decide) hb, hb'⟩
    simp [utf8SequenceLength, lead_two, lead_four, hbt, tail hc, tail hd]
    grind
  | fourMid ha ha' hb hc hd =>
    simp [utf8SequenceLength, lead_two, lead_three, lead_four, tail hb, tail hc, tail hd]
    grind
  | fourF4 hb hb' hc hd =>
    have hbt := tail ⟨hb, UInt8.le_trans hb' (by decide)⟩
    simp [utf8SequenceLength, lead_two, lead_three, lead_four, hbt, tail hc, tail hd]
    grind

theorem replacement_sequence : Utf8.Sequence replacement :=
  .threeHigh (by decide) (by decide) ⟨by decide, by decide⟩ ⟨by decide, by decide⟩

theorem sanitizeLoop_valid {cap fuel : ℕ} {inp out : Bytes} (hout : Utf8.Valid out) :
    Utf8.Valid (sanitizeLoop cap fuel inp out) := by
  induction fuel generalizing inp out with
  | zero => exact hout
  | succ fuel ih =>
    cases inp with
    | nil => exact hout
    | cons c rest =>
      simp only [sanitizeLoop]
      split
      · split_ifs
        · exact hout
        · exact ih (hout.append replacement_sequence.valid)
      · next seq hseq =>
        split_ifs
        · exact hout
        · exact ih (hout.append (sequence_of_length hseq).1.valid)

theorem sanitizeLoop_length {cap fuel : ℕ} {inp out : Bytes} (hout : out.length < cap) :
    (sanitizeLoop cap fuel inp out).length < cap := by
  induction fuel generalizing inp out with
  | zero => exact hout
  | succ fuel ih =>
    cases inp with
    | nil => exact hout
    | cons c rest =>
      simp only [sanitizeLoop]
      split
      · split_ifs with hfull
        · exact hout
        · exact ih (by simp only [List.length_append, replacement, List.length_cons,
            List.length_nil]; omega)
      · next seq hseq =>
        split_ifs with hfull
        · exact hout
        · refine ih ?_
          have htake : ((c :: rest).take (seq + 1)).length ≤ seq + 1 := List.length_take_le _ _
          rw [List.length_append]
          omega

theorem sanitizeLoop_prefix (cap fuel : ℕ) (inp out : Bytes) :
    out <+: sanitizeLoop cap fuel inp out := by
  induction fuel generalizing inp out with
  | zero => exact List.prefix_rfl
  | succ fuel ih =>
    cases inp with
    | nil => exact List.prefix_rfl
    | cons c rest =>
      simp only [sanitizeLoop]
      split <;> split_ifs
      · exact List.prefix_rfl
      · exact (List.prefix_append _ _).trans (ih _ _)
      · exact List.prefix_rfl
      · exact (List.prefix_append _ _).trans (ih _ _)

theorem sanitizeLoop_of_valid {cap fuel : ℕ} {inp out : Bytes} (hin : Utf8.Valid inp)
    (hfuel : inp.length ≤ fuel) (hroom : (out ++ inp).length < cap) :
    sanitizeLoop cap fuel inp out = out ++ inp := by
  induction hin generalizing fuel out with
  | nil => cases fuel <;> simp [sanitizeLoop]
  | @cons c rest first _ ih =>
    obtain ⟨b, tail, rfl⟩ := List.exists_cons_of_ne_nil first.ne_nil
    cases fuel with
    | zero => simp at hfuel
    | succ fuel =>
      have hlen := length_of_sequence first rest
      simp only [List.length_append, List.length_cons, List.cons_append] at hlen hfuel hroom ⊢
      simp only [sanitizeLoop, hlen]
      rw [if_neg (by omega)]
      have htake : (b :: (tail ++ rest)).take (tail.length + 1) = b :: tail := by simp
      have hdrop : (tail ++ rest).drop tail.length = rest := by simp
      rw [htake, hdrop, ih (by omega) (by simp only [List.length_append, List.length_cons]; omega)]
      simp

/-- Output equal to the input means that nothing was replaced and nothing was cut. -/
theorem valid_of_sanitizeLoop_eq {cap fuel : ℕ} {inp out : Bytes} (hfuel : inp.length ≤ fuel)
    (h : sanitizeLoop cap fuel inp out = out ++ inp) : Utf8.Valid inp := by
  induction fuel generalizing inp out with
  | zero =>
    obtain rfl : inp = [] := by simpa using hfuel
    exact .nil
  | succ fuel ih =>
    cases inp with
    | nil => exact .nil
    | cons c rest =>
      simp only [sanitizeLoop] at h
      split at h
      · next hzero =>
        split_ifs at h
        · simp at h
        · -- the replacement would have to stand in the input, where it is a valid sequence
          have hpre := sanitizeLoop_prefix cap fuel rest (out ++ replacement)
          rw [h] at hpre
          obtain ⟨t, ht⟩ := hpre
          have hin : c :: rest = replacement ++ t := by simpa using ht.symm
          rw [hin, length_of_sequence replacement_sequence] at hzero
          exact absurd hzero (by decide)
      · next seq hseq =>
        split_ifs at h
        · simp at h
        · obtain ⟨hs, hle⟩ := sequence_of_length hseq
          have hsplit : c :: rest = (c :: rest).take (seq + 1) ++ rest.drop seq := by
            simp
          have hloop : sanitizeLoop cap fuel (rest.drop seq) (out ++ (c :: rest).take (seq + 1)) =
              (out ++ (c :: rest).take (seq + 1)) ++ rest.drop seq := by
            rw [h, List.append_assoc, ← hsplit]
          have hrest : Utf8.Valid (rest.drop seq) := by
            refine ih ?_ hloop
            simp only [List.length_cons, List.length_drop] at hfuel ⊢
            omega
          rw [hsplit]
          exact .cons hs hrest

/-- The sanitised name is the name itself exactly when the name is valid UTF-8 and fits. -/
theorem sanitizeUtf8_eq_self_iff {src : Bytes} {cap : ℕ} (hcap : 0 < cap) :
    sanitizeUtf8 src cap = src ↔ Utf8.Valid src ∧ src.length < cap := by
  unfold sanitizeUtf8
  constructor
  · intro h
    have hloop : sanitizeLoop cap src.length src [] = [] ++ src := h
    have hvalid := valid_of_sanitizeLoop_eq le_rfl hloop
    have hlen : (sanitizeLoop cap src.length src []).length < cap := sanitizeLoop_length hcap
    rw [h] at hlen
    exact ⟨hvalid, hlen⟩
  · rintro ⟨hvalid, hlen⟩
    have hroom : ([] ++ src).length < cap := by simpa using hlen
    simpa using sanitizeLoop_of_valid hvalid le_rfl hroom

theorem sanitizeUtf8_valid (src : Bytes) (cap : ℕ) : Utf8.Valid (sanitizeUtf8 src cap) :=
  sanitizeLoop_valid .nil

/-! ### A check of UTF-8 -/

/-- Whether the input is one valid sequence after another. -/
def validLoop : ℕ → Bytes → Bool
  | 0, s => s = []
  | fuel + 1, s =>
    match utf8SequenceLength s with
    | 0 => s = []
    | seq + 1 => validLoop fuel (s.drop (seq + 1))

lemma validLoop_iff {fuel : ℕ} {s : Bytes} (hfuel : s.length ≤ fuel) :
    validLoop fuel s = true ↔ Utf8.Valid s := by
  induction fuel generalizing s with
  | zero =>
    obtain rfl : s = [] := by simpa using hfuel
    exact iff_of_true rfl .nil
  | succ fuel ih =>
    unfold validLoop
    cases hseq : utf8SequenceLength s with
    | zero =>
      simp only [decide_eq_true_eq]
      constructor
      · rintro rfl
        exact .nil
      · intro h
        cases h with
        | nil => rfl
        | @cons c rest first _ =>
          rw [length_of_sequence first rest] at hseq
          exact absurd hseq first.length_pos.ne'
    | succ seq =>
      obtain ⟨hs, hle⟩ := sequence_of_length hseq
      simp only
      rw [ih (by rw [List.length_drop]; omega)]
      constructor
      · intro h
        rw [← List.take_append_drop (seq + 1) s]
        exact .cons hs h
      · intro h
        cases h with
        | nil => exact absurd hle (by simp)
        | @cons c rest first others =>
          rw [length_of_sequence first rest] at hseq
          rw [← hseq, List.drop_left]
          exact others

instance (s : Bytes) : Decidable (Utf8.Valid s) :=
  decidable_of_iff (validLoop s.length s = true) (validLoop_iff le_rfl)

theorem mem_sanitizeLoop {cap fuel : ℕ} {inp out : Bytes} {b : UInt8}
    (h : b ∈ sanitizeLoop cap fuel inp out) : b ∈ out ∨ b ∈ inp ∨ b ∈ replacement := by
  induction fuel generalizing inp out with
  | zero => exact .inl h
  | succ fuel ih =>
    cases inp with
    | nil => exact .inl h
    | cons c rest =>
      simp only [sanitizeLoop] at h
      split at h
      · split_ifs at h
        · exact .inl h
        · rcases ih h with hout | hrest | hrep
          · rcases List.mem_append.mp hout with hout | hrep
            · exact .inl hout
            · exact .inr (.inr hrep)
          · exact .inr (.inl (List.mem_cons_of_mem c hrest))
          · exact .inr (.inr hrep)
      · split_ifs at h
        · exact .inl h
        · rcases ih h with hout | hrest | hrep
          · rcases List.mem_append.mp hout with hout | htake
            · exact .inl hout
            · exact .inr (.inl (List.mem_of_mem_take htake))
          · exact .inr (.inl (List.mem_cons_of_mem c (List.mem_of_mem_drop hrest)))
          · exact .inr (.inr hrep)

/-- Every byte of the sanitised name comes from the name or from a replacement. -/
theorem mem_sanitizeUtf8 {src : Bytes} {cap : ℕ} {b : UInt8} (h : b ∈ sanitizeUtf8 src cap) :
    b ∈ src ∨ b ∈ replacement := by
  rcases mem_sanitizeLoop h with hnil | h
  · cases hnil
  · exact h

/-- An ASCII suffix survives: no multi-byte sequence can run into it. -/
theorem sanitizeLoop_suffix {cap fuel : ℕ} {inp out t : Bytes} (hascii : ∀ b ∈ t, b ≤ 0x7F)
    (hfuel : (inp ++ t).length ≤ fuel)
    (hroom : out.length + 3 * inp.length + t.length < cap) :
    t <:+ sanitizeLoop cap fuel (inp ++ t) out := by
  induction fuel generalizing inp out with
  | zero =>
    have ht : t = [] := by simp_all
    simp [ht]
  | succ fuel ih =>
    cases inp with
    | nil =>
      rw [List.nil_append] at hfuel ⊢
      rw [sanitizeLoop_of_valid (Utf8.valid_of_ascii hascii) hfuel
        (by simp only [List.length_append]; simp at hroom; omega)]
      exact List.suffix_append _ _
    | cons c rest =>
      simp only [List.cons_append, List.length_cons, List.length_append] at hfuel hroom ⊢
      simp only [sanitizeLoop]
      split
      · rw [if_neg (by omega)]
        refine ih (by simpa using by omega) ?_
        simp only [List.length_append, replacement, List.length_cons, List.length_nil]
        omega
      · next seq hseq =>
        obtain ⟨hs, hle⟩ := sequence_of_length hseq
        have hin : seq ≤ rest.length := by
          by_contra hgt
          have hb : rest.length < (rest ++ t).length := by
            simp only [List.length_cons, List.length_append] at hle ⊢
            omega
          have hmem : (rest ++ t)[rest.length] ∈ ((c :: (rest ++ t)).take (seq + 1)).tail := by
            rw [List.take_succ_cons, List.tail_cons]
            exact List.mem_take_iff_getElem.mpr ⟨rest.length, by omega, rfl⟩
          have hge := hs.tail_ge hmem
          rw [List.getElem_append_right le_rfl] at hge
          exact absurd (UInt8.le_trans hge (hascii _ (List.getElem_mem _))) (by decide)
        rw [if_neg (by omega), List.drop_append_of_le_length hin]
        refine ih (by simp only [List.length_append, List.length_drop]; omega) ?_
        have htake : ((c :: (rest ++ t)).take (seq + 1)).length ≤ seq + 1 :=
          List.length_take_le _ _
        simp only [List.length_append, List.length_drop]
        omega

end UsbSentinel.Posix
