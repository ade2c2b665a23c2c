import Mathlib

/-! Byte strings as C handles them: NUL-free byte lists, bounded copies, suffix
tests, hexadecimal and decimal digits, and the `strcmp` order. -/
namespace ByteString

abbrev Bytes := List UInt8

def ascii (s : String) : Bytes := s.toList.map fun c => c.toNat.toUInt8

/-- A literal is taken apart at once, where evaluating it would decode it byte for byte. -/
lemma ascii_ofList (l : List Char) : ascii (String.ofList l) = l.map fun c => c.toNat.toUInt8 := by
  rw [ascii, String.toList_ofList]

lemma ascii_length (l : List Char) : (ascii (String.ofList l)).length = l.length := by
  rw [ascii_ofList, List.length_map]

/-- What a `cap`-byte buffer holds after `snprintf(out, cap, "%s", b)`. -/
def cut (cap : ℕ) (b : Bytes) : Bytes := b.take (cap - 1)

theorem cut_eq_self {cap : ℕ} {b : Bytes} (h : b.length < cap) : cut cap b = b :=
  List.take_of_length_le (by omega)

theorem cut_length (cap : ℕ) (b : Bytes) : (cut cap b).length = min (cap - 1) b.length :=
  List.length_take

/-- The C string a NUL-terminated buffer is read back as. -/
def cstr (b : Bytes) : Bytes := b.takeWhile (· ≠ 0)

theorem cstr_eq_self {b : Bytes} (h : 0 ∉ b) : cstr b = b := by
  refine List.takeWhile_eq_self_iff.mpr fun x hx => ?_
  simpa using fun he : x = 0 => h (he ▸ hx)

theorem cstr_eq_self_iff {b : Bytes} : cstr b = b ↔ 0 ∉ b := by
  refine ⟨fun h hmem => ?_, cstr_eq_self⟩
  rw [← h] at hmem
  simpa using List.mem_takeWhile_imp hmem

theorem cstr_cstr (b : Bytes) : cstr (cstr b) = cstr b := by
  refine cstr_eq_self fun hmem => ?_
  simpa using List.mem_takeWhile_imp hmem

theorem cstr_append {front : Bytes} (hfront : 0 ∉ front) (back : Bytes) :
    cstr (front ++ back) = front ++ cstr back := by
  unfold cstr
  refine List.takeWhile_append_of_pos fun c hc => decide_eq_true ?_
  rintro rfl
  exact hfront hc

lemma cstr_prefix (b : Bytes) : cstr b <+: b := List.takeWhile_prefix _

lemma cstr_append_prefix (a b : Bytes) : cstr a <+: cstr (a ++ b) := by
  unfold cstr
  rw [List.takeWhile_append]
  split_ifs
  · exact (List.takeWhile_prefix _).trans (List.prefix_append _ _)
  · exact List.prefix_rfl

theorem cstr_append_zero (stored rest : Bytes) : cstr (stored ++ 0 :: rest) = cstr stored := by
  induction stored with
  | nil => rfl
  | cons c stored ih =>
    by_cases hc : c = 0
    · subst hc
      rfl
    · have hkeep : decide (c ≠ 0) = true := decide_eq_true hc
      simp only [cstr, List.cons_append, List.takeWhile_cons, hkeep, if_true] at ih ⊢
      rw [ih]

/-- A byte does not occur, or it occurs for the last time somewhere. -/
theorem exists_last (mark : UInt8) (b : Bytes) :
    mark ∉ b ∨ ∃ front back, b = front ++ mark :: back ∧ mark ∉ back := by
  induction b with
  | nil => exact .inl List.not_mem_nil
  | cons c b ih =>
    rcases ih with hnone | ⟨front, back, rfl, hback⟩
    · by_cases hc : c = mark
      · exact .inr ⟨[], b, by rw [hc]; rfl, hnone⟩
      · exact .inl (by simp [Ne.symm hc, hnone])
    · exact .inr ⟨c :: front, back, rfl, hback⟩

def endsWith (s suffix : Bytes) : Bool :=
  if s.length < suffix.length then false
  else s.drop (s.length - suffix.length) = suffix

theorem endsWith_iff {s suffix : Bytes} : endsWith s suffix = true ↔ suffix <:+ s := by
  unfold endsWith
  split_ifs with h
  · simpa using fun hs => absurd (List.IsSuffix.length_le hs) (by omega)
  · rw [decide_eq_true_iff]
    constructor
    · exact fun he => he ▸ List.drop_suffix _ _
    · rintro ⟨p, rfl⟩
      simp

def hexUpper (n : UInt8) : UInt8 := if n < 10 then 48 + n else 55 + n

def hexValue (c : UInt8) : UInt8 :=
  if 48 ≤ c ∧ c ≤ 57 then c - 48 else if 65 ≤ c ∧ c ≤ 70 then c - 55 else 0

def hexPair (u : UInt8) : Bytes := [hexUpper (u / 16), hexUpper (u % 16)]

@[simp] theorem hexPair_length (u : UInt8) : (hexPair u).length = 2 := rfl

theorem hexPair_value (u : UInt8) :
    16 * hexValue (hexUpper (u / 16)) + hexValue (hexUpper (u % 16)) = u := by
  revert u
  decide +kernel

theorem hexPair_injective : Function.Injective hexPair := by
  intro u v h
  simp only [hexPair, List.cons.injEq, and_true] at h
  rw [← hexPair_value u, ← hexPair_value v, h.1, h.2]

/-- Decimal digits of a natural number, as `%llu` prints them. -/
def decimal (n : ℕ) : Bytes := (Nat.toDigits 10 n).map fun c => c.toNat.toUInt8

lemma decimal_ne_nil (n : ℕ) : decimal n ≠ [] := by
  simp [decimal, Nat.toDigits_ne_nil]

lemma decimal_length {n : ℕ} (h : n < 10 ^ 20) : (decimal n).length ≤ 20 := by
  rw [decimal, List.length_map]
  exact Nat.toDigits_length 10 n 20 (by omega) h

lemma toNat_digit {n : ℕ} {d : Char} (hd : d ∈ Nat.toDigits 10 n) :
    d.toNat.toUInt8.toNat = d.toNat := by
  have hdigit := Nat.isDigit_of_mem_toDigits (by decide) (by decide) hd
  have hrange : 48 ≤ d.toNat ∧ d.toNat ≤ 57 := by
    simpa [Char.isDigit, UInt32.le_iff_toNat_le] using hdigit
  simp only [Nat.toUInt8, UInt8.toNat_ofNat']
  omega

lemma decimal_digit {n : ℕ} {c : UInt8} (h : c ∈ decimal n) : 48 ≤ c ∧ c ≤ 57 := by
  obtain ⟨d, hd, rfl⟩ := List.mem_map.mp h
  have hdigit := Nat.isDigit_of_mem_toDigits (by decide) (by decide) hd
  have hrange : 48 ≤ d.toNat ∧ d.toNat ≤ 57 := by
    simpa [Char.isDigit, UInt32.le_iff_toNat_le] using hdigit
  simp only [UInt8.le_iff_toNat_le, toNat_digit hd]
  exact hrange

lemma foldl_decimal (n : ℕ) :
    (decimal n).foldl (fun acc c => 10 * acc + (c.toNat - 48)) 0 = n := by
  rw [decimal, List.foldl_map]
  have hbyte : ∀ acc : ℕ, ∀ c ∈ Nat.toDigits 10 n,
      10 * acc + (c.toNat.toUInt8.toNat - 48) = 10 * acc + (c.toNat - '0'.toNat) := by
    intro acc c hc
    rw [toNat_digit hc]
    rfl
  rw [List.foldl_ext _ _ 0 hbyte]
  exact Nat.ofDigitChars_ten_toDigits

def decimalInt (n : ℤ) : Bytes :=
  if n < 0 then 45 :: decimal n.natAbs else decimal n.natAbs

/-- `strcmp(a, b) < 0`: unsigned bytewise comparison, a proper prefix being smaller. -/
def strLt : Bytes → Bytes → Bool
  | _, [] => false
  | [], _ :: _ => true
  | a :: as, b :: bs => a < b || (a = b && strLt as bs)

@[simp] theorem strLt_irrefl (a : Bytes) : strLt a a = false := by
  induction a with
  | nil => rfl
  | cons x a ih => simp [strLt, ih]

theorem strLt_trans {a b c : Bytes} (hab : strLt a b = true) (hbc : strLt b c = true) :
    strLt a c = true := by
  induction a generalizing b c with
  | nil =>
    cases b with
    | nil => simp [strLt] at hab
    | cons y b => cases c <;> simp_all [strLt]
  | cons x a ih =>
    cases b with
    | nil => simp [strLt] at hab
    | cons y b =>
      cases c with
      | nil => simp [strLt] at hbc
      | cons z c =>
        simp only [strLt, Bool.or_eq_true, decide_eq_true_eq, Bool.and_eq_true] at hab hbc ⊢
        rcases hab with h1 | ⟨rfl, h1⟩ <;> rcases hbc with h2 | ⟨rfl, h2⟩
        · exact Or.inl (by grind)
        · exact Or.inl h1
        · exact Or.inl h2
        · exact Or.inr ⟨rfl, ih h1 h2⟩

theorem strLt_total {a b : Bytes} (hne : a ≠ b) : strLt a b = true ∨ strLt b a = true := by
  induction a generalizing b with
  | nil => cases b <;> simp_all [strLt]
  | cons x a ih =>
    cases b with
    | nil => simp [strLt]
    | cons y b =>
      by_cases hxy : x = y
      · subst hxy
        have hab : a ≠ b := fun h => hne (by rw [h])
        simpa [strLt] using ih hab
      · have : x < y ∨ y < x := by grind
        simpa [strLt, hxy, Ne.symm hxy] using this

/-- Strings of one length are ordered by their first differing byte, so a common
width prefix decides whenever the prefixes differ. -/
theorem strLt_append_of_lt {p q : Bytes} (hlen : p.length = q.length) (h : strLt p q = true)
    (s t : Bytes) : strLt (p ++ s) (q ++ t) = true := by
  induction p generalizing q with
  | nil =>
    obtain rfl : q = [] := by simpa using hlen.symm
    simp [strLt] at h
  | cons x p ih =>
    cases q with
    | nil => simp at hlen
    | cons y q =>
      simp only [strLt, Bool.or_eq_true, decide_eq_true_eq, Bool.and_eq_true,
        List.cons_append] at h ⊢
      rcases h with h | ⟨rfl, h⟩
      · exact Or.inl h
      · exact Or.inr ⟨rfl, ih (by simpa using hlen) h⟩

theorem strLt_prefix_of_append {p q s t : Bytes} (hlen : p.length = q.length)
    (h : strLt (p ++ s) (q ++ t) = false) : strLt p q = false := by
  cases hpq : strLt p q with
  | false => rfl
  | true => rw [strLt_append_of_lt hlen hpq] at h; exact absurd h (by simp)

end ByteString
