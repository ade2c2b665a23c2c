import UsbSentinel.ByteString

/-! The byte syntax of UTF-8: one constructor for each row of the standard's table of
well-formed sequences, which excludes overlong forms, surrogates and values past
U+10FFFF. -/
namespace Utf8
open ByteString

/-- A trailing byte, 80 to BF. -/
def Tail (b : UInt8) : Prop := 0x80 ≤ b ∧ b ≤ 0xBF

inductive Sequence : Bytes → Prop
  | one {a : UInt8} (ha : a ≤ 0x7F) : Sequence [a]
  | two {a b : UInt8} (ha : 0xC2 ≤ a) (ha' : a ≤ 0xDF) (hb : Tail b) : Sequence [a, b]
  | threeE0 {b c : UInt8} (hb : 0xA0 ≤ b) (hb' : b ≤ 0xBF) (hc : Tail c) :
      Sequence [0xE0, b, c]
  | threeLow {a b c : UInt8} (ha : 0xE1 ≤ a) (ha' : a ≤ 0xEC) (hb : Tail b) (hc : Tail c) :
      Sequence [a, b, c]
  | threeED {b c : UInt8} (hb : 0x80 ≤ b) (hb' : b ≤ 0x9F) (hc : Tail c) :
      Sequence [0xED, b, c]
  | threeHigh {a b c : UInt8} (ha : 0xEE ≤ a) (ha' : a ≤ 0xEF) (hb : Tail b) (hc : Tail c) :
      Sequence [a, b, c]
  | fourF0 {b c d : UInt8} (hb : 0x90 ≤ b) (hb' : b ≤ 0xBF) (hc : Tail c) (hd : Tail d) :
      Sequence [0xF0, b, c, d]
  | fourMid {a b c d : UInt8} (ha : 0xF1 ≤ a) (ha' : a ≤ 0xF3) (hb : Tail b) (hc : Tail c)
      (hd : Tail d) : Sequence [a, b, c, d]
  | fourF4 {b c d : UInt8} (hb : 0x80 ≤ b) (hb' : b ≤ 0x8F) (hc : Tail c) (hd : Tail d) :
      Sequence [0xF4, b, c, d]

inductive Valid : Bytes → Prop
  | nil : Valid []
  | cons {c rest : Bytes} (first : Sequence c) (others : Valid rest) : Valid (c ++ rest)

/-- Bytes that are sequences of their own. -/
def Ascii (s : Bytes) : Prop := ∀ b ∈ s, b ≤ 0x7F

instance (s : Bytes) : Decidable (Ascii s) := List.decidableBAll _ s

/-- A literal, by its characters. -/
lemma Ascii.ofList {l : List Char} (h : Ascii (l.map fun c => c.toNat.toUInt8)) :
    Ascii (ascii (String.ofList l)) := by
  rwa [ascii_ofList]

theorem Sequence.ne_nil {c : Bytes} (h : Sequence c) : c ≠ [] := by
  cases h <;> simp

theorem Sequence.length_pos {c : Bytes} (h : Sequence c) : 0 < c.length :=
  List.length_pos_iff.mpr h.ne_nil

theorem Sequence.valid {c : Bytes} (h : Sequence c) : Valid c := by
  simpa using Valid.cons h Valid.nil

theorem Valid.append {a b : Bytes} (ha : Valid a) (hb : Valid b) : Valid (a ++ b) := by
  induction ha with
  | nil => exact hb
  | cons first _ ih =>
    rw [List.append_assoc]
    exact Valid.cons first ih

theorem valid_of_ascii {s : Bytes} (h : Ascii s) : Valid s := by
  induction s with
  | nil => exact .nil
  | cons b s ih =>
    have hs : Valid s := ih fun x hx => h x (by simp [hx])
    exact Valid.cons (.one (h b (by simp))) hs

/-- Only the first byte of a sequence can be ASCII. -/
theorem Sequence.tail_ge {c : Bytes} (h : Sequence c) {b : UInt8} (hb : b ∈ c.tail) :
    0x80 ≤ b := by
  cases h <;> simp only [List.tail_cons, List.mem_cons, List.not_mem_nil, or_false] at hb
  case two hc => rw [hb]; exact hc.1
  case threeE0 h₁ _ hc =>
    rcases hb with rfl | rfl
    · exact UInt8.le_trans (by decide) h₁
    · exact hc.1
  case threeLow h₁ hc => rcases hb with rfl | rfl; exacts [h₁.1, hc.1]
  case threeED h₁ _ hc => rcases hb with rfl | rfl; exacts [h₁, hc.1]
  case threeHigh h₁ hc => rcases hb with rfl | rfl; exacts [h₁.1, hc.1]
  case fourF0 h₁ _ hc hd =>
    rcases hb with rfl | rfl | rfl
    · exact UInt8.le_trans (by decide) h₁
    · exact hc.1
    · exact hd.1
  case fourMid h₁ hc hd => rcases hb with rfl | rfl | rfl; exacts [h₁.1, hc.1, hd.1]
  case fourF4 h₁ _ hc hd => rcases hb with rfl | rfl | rfl; exacts [h₁, hc.1, hd.1]

lemma Ascii.append {a b : Bytes} (ha : Ascii a) (hb : Ascii b) : Ascii (a ++ b) := by
  intro x hx
  exact (List.mem_append.mp hx).elim (ha x) (hb x)

lemma Ascii.take {s : Bytes} (h : Ascii s) (n : ℕ) : Ascii (s.take n) := by
  intro x hx
  exact h x (List.mem_of_mem_take hx)

/-- A sequence is one ASCII byte, or none of its bytes is. -/
lemma Sequence.ascii_or_high {c : Bytes} (h : Sequence c) :
    (∃ a, c = [a] ∧ a ≤ 0x7F) ∨ ∀ b ∈ c, 0x80 ≤ b := by
  have hhigh : ∀ {a : UInt8} {tail : Bytes}, Sequence (a :: tail) → 0x80 ≤ a →
      ∀ b ∈ a :: tail, 0x80 ≤ b := by
    intro a tail hseq ha b hb
    rcases List.mem_cons.mp hb with rfl | hb
    · exact ha
    · exact hseq.tail_ge hb
  cases h with
  | one ha => exact .inl ⟨_, rfl, ha⟩
  | two ha ha' hb => exact .inr (hhigh (.two ha ha' hb) (UInt8.le_trans (by decide) ha))
  | threeE0 hb hb' hc => exact .inr (hhigh (.threeE0 hb hb' hc) (by decide))
  | threeLow ha ha' hb hc =>
    exact .inr (hhigh (.threeLow ha ha' hb hc) (UInt8.le_trans (by decide) ha))
  | threeED hb hb' hc => exact .inr (hhigh (.threeED hb hb' hc) (by decide))
  | threeHigh ha ha' hb hc =>
    exact .inr (hhigh (.threeHigh ha ha' hb hc) (UInt8.le_trans (by decide) ha))
  | fourF0 hb hb' hc hd => exact .inr (hhigh (.fourF0 hb hb' hc hd) (by decide))
  | fourMid ha ha' hb hc hd =>
    exact .inr (hhigh (.fourMid ha ha' hb hc hd) (UInt8.le_trans (by decide) ha))
  | fourF4 hb hb' hc hd => exact .inr (hhigh (.fourF4 hb hb' hc hd) (by decide))

/-- A sequence that starts with an ASCII byte ends with it. -/
lemma Sequence.of_ascii {b : UInt8} {rest : Bytes} (h : Sequence (b :: rest)) (hb : b ≤ 0x7F) :
    rest = [] := by
  obtain ⟨a, ha, _⟩ | hhigh := h.ascii_or_high
  · exact (List.cons.inj ha).2
  · have hge := hhigh b (List.mem_cons_self ..)
    exact absurd (UInt8.le_trans hge hb) (by decide)

lemma valid_cons_ascii {b : UInt8} (hb : b ≤ 0x7F) {s : Bytes} : Valid (b :: s) ↔ Valid s := by
  constructor
  · intro h
    generalize htext : b :: s = text at h
    cases h with
    | nil => cases htext
    | @cons c rest first others =>
      obtain ⟨a, tail, rfl⟩ := List.exists_cons_of_ne_nil first.ne_nil
      have hsame := List.cons.inj htext
      obtain rfl := first.of_ascii (hsame.1 ▸ hb)
      rw [hsame.2]
      exact others
  · intro h
    exact Valid.cons (.one hb) h

lemma valid_ascii_append {p s : Bytes} (hp : Ascii p) : Valid (p ++ s) ↔ Valid s := by
  induction p with
  | nil => rfl
  | cons b p ih =>
    have hrest : Ascii p := fun x hx => hp x (List.mem_cons_of_mem _ hx)
    rw [List.cons_append, valid_cons_ascii (hp b (List.mem_cons_self ..)), ih hrest]

/-- No sequence runs on into the ASCII text behind it. -/
lemma valid_append_ascii {s t : Bytes} (ht : Ascii t) : Valid (s ++ t) ↔ Valid s := by
  constructor
  · intro h
    generalize htext : s ++ t = text at h
    induction h generalizing s with
    | nil =>
      rw [(List.append_eq_nil_iff.mp htext).1]
      exact .nil
    | @cons c rest first _ ih =>
      obtain ⟨more, rfl, hrest⟩ | ⟨extra, hc, htail⟩ := List.append_eq_append_iff.mp htext.symm
      · exact Valid.cons first (ih hrest.symm)
      · cases s with
        | nil => exact .nil
        | cons a s =>
          cases extra with
          | nil =>
            rw [List.append_nil] at hc
            exact hc ▸ first.valid
          | cons b extra =>
            have hlow : b ≤ 0x7F := ht b (by rw [htail]; exact List.mem_cons_self ..)
            have hhigh : 0x80 ≤ b := by
              apply first.tail_ge
              rw [hc]
              simp
            exact absurd (UInt8.le_trans hhigh hlow) (by decide)
  · intro h
    exact h.append (valid_of_ascii ht)

/-- The text in front of a NUL is UTF-8 as the whole was. -/
lemma Valid.cstr {s : Bytes} (h : Valid s) : Valid (cstr s) := by
  induction h with
  | nil => exact .nil
  | @cons c rest first _ ih =>
    obtain ⟨a, rfl, ha⟩ | hhigh := first.ascii_or_high
    · by_cases hzero : a = 0
      · subst hzero
        exact .nil
      · rw [cstr_append (by simpa using Ne.symm hzero)]
        exact Valid.cons first ih
    · rw [cstr_append fun hmem => absurd (hhigh 0 hmem) (by decide)]
      exact Valid.cons first ih

/-- A cut leaves ASCII in front whole or in part, and takes the rest of its room behind it. -/
lemma valid_take_ascii_append {p : Bytes} (hp : Ascii p) (s : Bytes) (n : ℕ) :
    Valid ((p ++ s).take n) ↔ Valid (s.take (n - p.length)) := by
  rw [List.take_append]
  exact valid_ascii_append (hp.take n)

lemma valid_take_append_ascii (s : Bytes) {t : Bytes} (ht : Ascii t) (n : ℕ) :
    Valid ((s ++ t).take n) ↔ Valid (s.take n) := by
  rw [List.take_append]
  exact valid_append_ascii (ht.take _)

end Utf8
