import UsbSentinel.JsonReader
import UsbSentinel.Store

/-! Well-formed UTC stamps: their compact form, its expansion, and why the byte order of
compact stamps is the order of time. -/
namespace UsbSentinel.Store
open ByteString
open UsbSentinel.Json (isDigit)

/-- "YYYY-MM-DDTHH:MM:SSZ" over fourteen digits. -/
def stampOf (f : Fin 14 → UInt8) : Bytes :=
  [f 0, f 1, f 2, f 3, 45, f 4, f 5, 45, f 6, f 7, 84, f 8, f 9, 58, f 10, f 11, 58, f 12, f 13, 90]

/-- "YYYYMMDDTHHMMSSZ". -/
def compactOf (f : Fin 14 → UInt8) : Bytes :=
  [f 0, f 1, f 2, f 3, f 4, f 5, f 6, f 7, 84, f 8, f 9, f 10, f 11, f 12, f 13, 90]

structure IsStamp (text : Bytes) : Prop where
  exists_digits : ∃ f : Fin 14 → UInt8, (∀ i, isDigit (f i) = true) ∧ text = stampOf f

/-- The fourteen digits read as one number, which orders stamps in time. -/
def stampValue (text : Bytes) : ℕ :=
  (text.filter isDigit).foldl (fun acc c => 10 * acc + (c.toNat - 48)) 0

lemma isDigit_bounds {c : UInt8} (h : isDigit c = true) : 48 ≤ c.toNat ∧ c.toNat ≤ 57 := by
  simpa [isDigit, UInt8.le_iff_toNat_le] using h

set_option maxRecDepth 8000 in
lemma isMark_of_isDigit : ∀ c : UInt8, isDigit c = true → isMark c = false := by decide

lemma filter_stampOf {f : Fin 14 → UInt8} (hf : ∀ i, isDigit (f i) = true) :
    (stampOf f).filter (fun c => !isMark c) = compactOf f := by
  have hmark : ∀ i, isMark (f i) = false := fun i => isMark_of_isDigit _ (hf i)
  have h45 : isMark 45 = true := rfl
  have h58 : isMark 58 = true := rfl
  have h84 : isMark 84 = false := rfl
  have h90 : isMark 90 = false := rfl
  simp [stampOf, compactOf, hmark, h45, h58, h84, h90]

theorem compactTimestamp_stampOf {f : Fin 14 → UInt8} (hf : ∀ i, isDigit (f i) = true) :
    compactTimestamp (stampOf f) 17 = .ok (compactOf f) :=
  compactTimestamp_eq_ok.mpr ⟨(filter_stampOf hf).symm, rfl⟩

/-- The compact form expands to the stamp it came from. -/
theorem expandTimestamp_compactOf (f : Fin 14 → UInt8) :
    expandTimestamp (compactOf f) scannedAtMax = .ok (stampOf f) := rfl

lemma filter_isDigit_stampOf {f : Fin 14 → UInt8} (hf : ∀ i, isDigit (f i) = true) :
    (stampOf f).filter isDigit = List.ofFn f := by
  have h45 : isDigit 45 = false := rfl
  have h58 : isDigit 58 = false := rfl
  have h84 : isDigit 84 = false := rfl
  have h90 : isDigit 90 = false := rfl
  simp [stampOf, hf, h45, h58, h84, h90, List.ofFn_succ]

/-- A byte that two strings share at one place does not decide their order. -/
lemma strLt_insert {p q : Bytes} (hlen : p.length = q.length) (c : UInt8) (s t : Bytes) :
    strLt (p ++ c :: s) (q ++ c :: t) = strLt (p ++ s) (q ++ t) := by
  induction p generalizing q with
  | nil =>
    obtain rfl : q = [] := by simpa using hlen.symm
    simp [strLt]
  | cons x p ih =>
    cases q with
    | nil => simp at hlen
    | cons y q => simp [strLt, ih (by simpa using hlen)]

lemma foldl_digits_bounds {l : Bytes} (hl : ∀ c ∈ l, isDigit c = true) (acc : ℕ) :
    acc * 10 ^ l.length ≤ l.foldl (fun acc c => 10 * acc + (c.toNat - 48)) acc ∧
      l.foldl (fun acc c => 10 * acc + (c.toNat - 48)) acc < (acc + 1) * 10 ^ l.length := by
  induction l generalizing acc with
  | nil => simp
  | cons c l ih =>
    obtain ⟨hlow, hhigh⟩ := isDigit_bounds (hl c (by simp))
    obtain ⟨h₁, h₂⟩ := ih (fun x hx => hl x (by simp [hx])) (10 * acc + (c.toNat - 48))
    rw [List.foldl_cons, List.length_cons, pow_succ]
    constructor
    · refine le_trans ?_ h₁
      have : acc * 10 ≤ 10 * acc + (c.toNat - 48) := by omega
      calc acc * (10 ^ l.length * 10) = acc * 10 * 10 ^ l.length := by ring
        _ ≤ _ := Nat.mul_le_mul_right _ this
    · refine lt_of_lt_of_le h₂ ?_
      have : 10 * acc + (c.toNat - 48) + 1 ≤ (acc + 1) * 10 := by omega
      calc (10 * acc + (c.toNat - 48) + 1) * 10 ^ l.length ≤ (acc + 1) * 10 * 10 ^ l.length :=
            Nat.mul_le_mul_right _ this
        _ = (acc + 1) * (10 ^ l.length * 10) := by ring

/-- Digit strings of one length are ordered like the numbers they spell. -/
theorem foldl_digits_lt {a b : Bytes} (hlen : a.length = b.length)
    (ha : ∀ c ∈ a, isDigit c = true) (hb : ∀ c ∈ b, isDigit c = true) (h : strLt a b = true)
    (acc : ℕ) :
    a.foldl (fun acc c => 10 * acc + (c.toNat - 48)) acc <
      b.foldl (fun acc c => 10 * acc + (c.toNat - 48)) acc := by
  induction a generalizing b acc with
  | nil =>
    obtain rfl : b = [] := by simpa using hlen.symm
    simp [strLt] at h
  | cons x a ih =>
    cases b with
    | nil => simp at hlen
    | cons y b =>
      have ha' : ∀ c ∈ a, isDigit c = true := fun c hc => ha c (by simp [hc])
      have hb' : ∀ c ∈ b, isDigit c = true := fun c hc => hb c (by simp [hc])
      have hlen' : a.length = b.length := by simpa using hlen
      simp only [strLt, Bool.or_eq_true, decide_eq_true_eq, Bool.and_eq_true] at h
      rw [List.foldl_cons, List.foldl_cons]
      rcases h with h | ⟨rfl, h⟩
      · obtain ⟨hx, _⟩ := isDigit_bounds (ha x (by simp))
        have hxy : x.toNat < y.toNat := UInt8.lt_iff_toNat_lt.mp h
        have hle : 10 * acc + (x.toNat - 48) + 1 ≤ 10 * acc + (y.toNat - 48) := by omega
        have hright := (foldl_digits_bounds ha' (10 * acc + (x.toNat - 48))).2
        have hleft := (foldl_digits_bounds hb' (10 * acc + (y.toNat - 48))).1
        rw [hlen'] at hright
        exact lt_of_lt_of_le hright (le_trans (Nat.mul_le_mul_right _ hle) hleft)
      · exact ih hlen' ha' hb' h _

/-- Between compact stamps the byte order is the order of time. -/
theorem stampValue_lt {f g : Fin 14 → UInt8} (hf : ∀ i, isDigit (f i) = true)
    (hg : ∀ i, isDigit (g i) = true) (h : strLt (compactOf f) (compactOf g) = true) :
    stampValue (stampOf f) < stampValue (stampOf g) := by
  have hsplit : ∀ e : Fin 14 → UInt8, compactOf e =
      [e 0, e 1, e 2, e 3, e 4, e 5, e 6, e 7] ++
        84 :: ([e 8, e 9, e 10, e 11, e 12, e 13] ++ 90 :: []) := fun _ => rfl
  have hjoin : ∀ e : Fin 14 → UInt8,
      ([e 0, e 1, e 2, e 3, e 4, e 5, e 6, e 7] ++ [e 8, e 9, e 10, e 11, e 12, e 13]) ++ [] =
        List.ofFn e := by
    intro e
    simp [List.ofFn_succ]
  rw [hsplit f, hsplit g, strLt_insert (by simp), ← List.append_assoc, ← List.append_assoc,
    strLt_insert (by simp), hjoin, hjoin] at h
  have hdigits : ∀ {e : Fin 14 → UInt8}, (∀ i, isDigit (e i) = true) →
      ∀ c ∈ List.ofFn e, isDigit c = true := by
    intro e he c hc
    obtain ⟨i, rfl⟩ := List.mem_ofFn.mp hc
    exact he i
  rw [stampValue, stampValue, filter_isDigit_stampOf hf, filter_isDigit_stampOf hg]
  exact foldl_digits_lt (by simp) (hdigits hf) (hdigits hg) h 0

lemma compactOf_injective {f g : Fin 14 → UInt8} (h : compactOf f = compactOf g) :
    stampOf f = stampOf g := by
  have hexpand := expandTimestamp_compactOf f
  rw [h, expandTimestamp_compactOf g] at hexpand
  exact (Except.ok.inj hexpand).symm

end UsbSentinel.Store
