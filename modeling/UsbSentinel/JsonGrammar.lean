import Mathlib

/-! The JSON grammar of RFC 8259 over bytes. What a string and a number look like is a
parameter, so that a laxer reader has a grammar too; `levels` bounds the nesting. -/
namespace JsonGrammar

def IsBlank (c : UInt8) : Prop := c = 32 ∨ c = 9 ∨ c = 10 ∨ c = 13

/-- `ws`. -/
def Blank (t : List UInt8) : Prop := ∀ c ∈ t, IsBlank c

lemma Blank.nil : Blank [] := fun c hc => by simp at hc

lemma Blank.append {s t : List UInt8} (hs : Blank s) (ht : Blank t) : Blank (s ++ t) := by
  intro c hc
  rcases List.mem_append.mp hc with hc | hc
  · exact hs c hc
  · exact ht c hc

/-- A token with blanks on both sides. -/
def Padded (token : List UInt8 → Prop) (t : List UInt8) : Prop :=
  ∃ before core after, Blank before ∧ token core ∧ Blank after ∧ t = before ++ core ++ after

lemma Padded.bare {token : List UInt8 → Prop} {t : List UInt8} (h : token t) : Padded token t :=
  ⟨[], t, [], Blank.nil, h, Blank.nil, by simp⟩

lemma Padded.mono {p q : List UInt8 → Prop} (hpq : ∀ t, p t → q t) {t : List UInt8}
    (h : Padded p t) : Padded q t := by
  obtain ⟨before, core, after, hb, hcore, ha, ht⟩ := h
  exact ⟨before, core, after, hb, hpq core hcore, ha, ht⟩

/-- One or more items with commas between them. -/
inductive Separated (item : List UInt8 → Prop) : List UInt8 → Prop
  | last {t} (h : item t) : Separated item t
  | cons {t rest} (h : item t) (hrest : Separated item rest) : Separated item (t ++ 44 :: rest)

lemma Separated.mono {p q : List UInt8 → Prop} (hpq : ∀ t, p t → q t) {t : List UInt8}
    (h : Separated p t) : Separated q t := by
  induction h with
  | last h => exact .last (hpq _ h)
  | cons h _ ih => exact .cons (hpq _ h) ih

lemma Separated.snoc {item : List UInt8 → Prop} {t last : List UInt8} (h : Separated item t)
    (hlast : item last) : Separated item (t ++ 44 :: last) := by
  induction h with
  | last h => exact .cons h (.last hlast)
  | cons h _ ih =>
    rw [List.append_assoc, List.cons_append]
    exact .cons h ih

/-- The lexical rules. -/
structure Lexis where
  string : List UInt8 → Prop
  number : List UInt8 → Prop

structure Lexis.Sub (a b : Lexis) : Prop where
  string : ∀ t, a.string t → b.string t
  number : ∀ t, a.number t → b.number t

/-- `name : value`. -/
def Member (name value : List UInt8 → Prop) (t : List UInt8) : Prop :=
  ∃ k v, Padded name k ∧ Padded value v ∧ t = k ++ 58 :: v

lemma Member.mono {a b p q : List UInt8 → Prop} (hab : ∀ t, a t → b t) (hpq : ∀ t, p t → q t)
    {t : List UInt8} (h : Member a p t) : Member b q t := by
  obtain ⟨k, v, hk, hv, ht⟩ := h
  exact ⟨k, v, hk.mono hab, hv.mono hpq, ht⟩

lemma Padded.blank {p : List UInt8 → Prop} {w t : List UInt8} (hw : Blank w) (h : Padded p t) :
    Padded p (w ++ t) := by
  obtain ⟨before, core, after, hb, hcore, ha, rfl⟩ := h
  exact ⟨w ++ before, core, after, hw.append hb, hcore, ha, by simp⟩

lemma Member.blank {a p : List UInt8 → Prop} {w t : List UInt8} (hw : Blank w)
    (h : Member a p t) : Member a p (w ++ t) := by
  obtain ⟨k, v, hk, hv, rfl⟩ := h
  exact ⟨w ++ k, v, hk.blank hw, hv, by simp⟩

/-- Blanks in front of a list belong to its first item. -/
lemma Separated.blank {item : List UInt8 → Prop}
    (hitem : ∀ w t, Blank w → item t → item (w ++ t)) {w t : List UInt8} (hw : Blank w)
    (h : Separated item t) : Separated item (w ++ t) := by
  cases h with
  | last h => exact .last (hitem w _ hw h)
  | cons h hrest =>
    rw [← List.append_assoc]
    exact .cons (hitem w _ hw h) hrest

/-- A value whose parts, if it is a container, are `inner`. -/
inductive Form (lexis : Lexis) (inner : List UInt8 → Prop) : List UInt8 → Prop
  | null : Form lexis inner [110, 117, 108, 108]
  | true : Form lexis inner [116, 114, 117, 101]
  | false : Form lexis inner [102, 97, 108, 115, 101]
  | number {t} (h : lexis.number t) : Form lexis inner t
  | string {t} (h : lexis.string t) : Form lexis inner t
  | emptyArray {w} (h : Blank w) : Form lexis inner (91 :: (w ++ [93]))
  | array {body} (h : Separated (Padded inner) body) : Form lexis inner (91 :: (body ++ [93]))
  | emptyObject {w} (h : Blank w) : Form lexis inner (123 :: (w ++ [125]))
  | object {body} (h : Separated (Member lexis.string inner) body) :
      Form lexis inner (123 :: (body ++ [125]))

lemma Form.mono {a b : Lexis} {p q : List UInt8 → Prop} (hab : a.Sub b) (hpq : ∀ t, p t → q t)
    {t : List UInt8} (h : Form a p t) : Form b q t := by
  cases h with
  | null => exact .null
  | true => exact .true
  | false => exact .false
  | number h => exact .number (hab.number _ h)
  | string h => exact .string (hab.string _ h)
  | emptyArray h => exact .emptyArray h
  | array h => exact .array (h.mono fun t ht => ht.mono hpq)
  | emptyObject h => exact .emptyObject h
  | object h => exact .object (h.mono fun t ht => ht.mono hab.string hpq)

/-- `value`, with no value inside `levels` containers. -/
def Value (lexis : Lexis) : ℕ → List UInt8 → Prop
  | 0 => fun _ => False
  | levels + 1 => Form lexis (Value lexis levels)

lemma Value.mono {a b : Lexis} (hab : a.Sub b) {m n : ℕ} (hmn : m ≤ n) {t : List UInt8}
    (h : Value a m t) : Value b n t := by
  induction m generalizing n t with
  | zero => exact absurd h id
  | succ m ih =>
    cases n with
    | zero => omega
    | succ n => exact Form.mono hab (fun t ht => ih (by omega) ht) h

/-- `JSON-text`, its values inside fewer than `levels` containers. -/
def Text (lexis : Lexis) (levels : ℕ) : List UInt8 → Prop := Padded (Value lexis levels)

lemma Text.mono {a b : Lexis} (hab : a.Sub b) {m n : ℕ} (hmn : m ≤ n) {t : List UInt8}
    (h : Text a m t) : Text b n t :=
  Padded.mono (fun _ ht => ht.mono hab hmn) h

def IsDigit (c : UInt8) : Prop := 48 ≤ c ∧ c ≤ 57

def IsHexDigit (c : UInt8) : Prop := IsDigit c ∨ 97 ≤ c ∧ c ≤ 102 ∨ 65 ≤ c ∧ c ≤ 70

def Digits (t : List UInt8) : Prop := t ≠ [] ∧ ∀ c ∈ t, IsDigit c

/-- `exp`: `e`, a sign or none, and digits. -/
def Exponent (t : List UInt8) : Prop :=
  ∃ e sign ds, (e = 101 ∨ e = 69) ∧ (sign = [] ∨ sign = [43] ∨ sign = [45]) ∧ Digits ds ∧
    t = e :: (sign ++ ds)

/-- `frac`: a point and digits. -/
def Fraction (t : List UInt8) : Prop := ∃ ds, Digits ds ∧ t = 46 :: ds

/-- `int` without its sign: a single zero, or digits that do not start with one. -/
def Whole (t : List UInt8) : Prop := Digits t ∧ (t.head? = some 48 → t = [48])

/-- `number`. -/
def Number (t : List UInt8) : Prop :=
  ∃ sign whole frac exp, (sign = [] ∨ sign = [45]) ∧ Whole whole ∧ (frac = [] ∨ Fraction frac) ∧
    (exp = [] ∨ Exponent exp) ∧ t = sign ++ whole ++ frac ++ exp

lemma Number.start {t : List UInt8} (h : Number t) :
    ∃ c rest, t = c :: rest ∧ (c = 45 ∨ IsDigit c) := by
  obtain ⟨sign, whole, frac, exp, hsign, ⟨⟨hne, hdigits⟩, _⟩, _, _, rfl⟩ := h
  obtain ⟨d, ds, rfl⟩ := List.exists_cons_of_ne_nil hne
  rcases hsign with rfl | rfl
  · exact ⟨d, ds ++ frac ++ exp, by simp, .inr (hdigits d (by simp))⟩
  · exact ⟨45, d :: ds ++ frac ++ exp, by simp, .inl rfl⟩

/-- Behind a backslash, other than `u`. -/
def IsEscape (c : UInt8) : Prop :=
  c = 34 ∨ c = 92 ∨ c = 47 ∨ c = 98 ∨ c = 102 ∨ c = 110 ∨ c = 114 ∨ c = 116

/-- What stands between the quotes; `raw` are the bytes that stand for themselves. -/
inductive Chars (raw : UInt8 → Prop) : List UInt8 → Prop
  | nil : Chars raw []
  | raw {c rest} (h : raw c) (hquote : c ≠ 34) (hslash : c ≠ 92) (hrest : Chars raw rest) :
      Chars raw (c :: rest)
  | escape {c rest} (h : IsEscape c) (hrest : Chars raw rest) : Chars raw (92 :: c :: rest)
  | unit {h₁ h₂ h₃ h₄ rest} (h : IsHexDigit h₁ ∧ IsHexDigit h₂ ∧ IsHexDigit h₃ ∧ IsHexDigit h₄)
      (hrest : Chars raw rest) : Chars raw (92 :: 117 :: h₁ :: h₂ :: h₃ :: h₄ :: rest)

lemma Chars.append {raw : UInt8 → Prop} {s t : List UInt8} (hs : Chars raw s)
    (ht : Chars raw t) : Chars raw (s ++ t) := by
  induction hs with
  | nil => exact ht
  | raw h hquote hslash _ ih => exact .raw h hquote hslash ih
  | escape h _ ih => exact .escape h ih
  | unit h _ ih => exact .unit h ih

/-- `string`. -/
def Quoted (raw : UInt8 → Prop) (t : List UInt8) : Prop :=
  ∃ body, Chars raw body ∧ t = 34 :: (body ++ [34])

/-- The lexical rules of the standard; a byte from 128 up is part of a character. -/
def standard : Lexis where
  string := Quoted fun c => 0x20 ≤ c
  number := Number

/-- The first byte of a number and of a string. -/
structure Lexis.Starts (lexis : Lexis) : Prop where
  string : ∀ t, lexis.string t → ∃ rest, t = 34 :: rest
  number : ∀ t, lexis.number t → ∃ c rest, t = c :: rest ∧ (c = 45 ∨ IsDigit c)

lemma standard_starts : standard.Starts where
  string _ h := by
    obtain ⟨body, _, rfl⟩ := h
    exact ⟨_, rfl⟩
  number _ h := h.start

/-- A byte that a value can start with. -/
def IsStart (c : UInt8) : Prop :=
  c = 110 ∨ c = 116 ∨ c = 102 ∨ c = 45 ∨ IsDigit c ∨ c = 34 ∨ c = 91 ∨ c = 123

lemma Form.start {lexis : Lexis} (hlexis : lexis.Starts) {inner : List UInt8 → Prop}
    {t : List UInt8} (h : Form lexis inner t) : ∃ c rest, t = c :: rest ∧ IsStart c := by
  cases h with
  | null => exact ⟨_, _, rfl, by simp [IsStart]⟩
  | true => exact ⟨_, _, rfl, by simp [IsStart]⟩
  | false => exact ⟨_, _, rfl, by simp [IsStart]⟩
  | number h =>
    obtain ⟨c, rest, rfl, hc⟩ := hlexis.number _ h
    exact ⟨c, rest, rfl, by rcases hc with hc | hc <;> simp [IsStart, hc]⟩
  | string h =>
    obtain ⟨rest, rfl⟩ := hlexis.string _ h
    exact ⟨_, _, rfl, by simp [IsStart]⟩
  | _ => exact ⟨_, _, rfl, by simp [IsStart]⟩

lemma Value.start {lexis : Lexis} (hlexis : lexis.Starts) {levels : ℕ} {t : List UInt8}
    (h : Value lexis levels t) : ∃ c rest, t = c :: rest ∧ IsStart c := by
  cases levels with
  | zero => exact absurd h id
  | succ levels => exact Form.start hlexis h

lemma Padded.ne_nil {token : List UInt8 → Prop} (htoken : ∀ t, token t → t ≠ [])
    {t : List UInt8} (h : Padded token t) : t ≠ [] := by
  obtain ⟨before, core, after, _, hcore, _, rfl⟩ := h
  have hne := htoken core hcore
  simp [hne]

/-- The text is one JSON value with nothing around it. -/
def IsValue (t : List UInt8) : Prop := ∃ levels, Value standard levels t

lemma Lexis.Sub.refl (a : Lexis) : a.Sub a := ⟨fun _ h => h, fun _ h => h⟩

/-- Finitely many values share a bound on their nesting. -/
lemma Separated.levels {item : (List UInt8 → Prop) → List UInt8 → Prop}
    (hmono : ∀ p q : List UInt8 → Prop, (∀ t, p t → q t) → ∀ t, item p t → item q t)
    (hitem : ∀ t, item IsValue t → ∃ levels, item (Value standard levels) t) {t : List UInt8}
    (h : Separated (item IsValue) t) : ∃ levels, Separated (item (Value standard levels)) t := by
  induction h with
  | last h =>
    obtain ⟨n, hn⟩ := hitem _ h
    exact ⟨n, .last hn⟩
  | cons h _ ih =>
    obtain ⟨n, hn⟩ := hitem _ h
    obtain ⟨m, hm⟩ := ih
    have hleft : ∀ t, Value standard n t → Value standard (max n m) t := fun t ht =>
      ht.mono (.refl _) (le_max_left _ _)
    have hright : ∀ t, Value standard m t → Value standard (max n m) t := fun t ht =>
      ht.mono (.refl _) (le_max_right _ _)
    exact ⟨max n m, .cons (hmono _ _ hleft _ hn) (hm.mono fun t ht => hmono _ _ hright _ ht)⟩

lemma Padded.levels {t : List UInt8} (h : Padded IsValue t) :
    ∃ levels, Padded (Value standard levels) t := by
  obtain ⟨before, core, after, hb, ⟨n, hn⟩, ha, ht⟩ := h
  exact ⟨n, before, core, after, hb, hn, ha, ht⟩

lemma Member.levels {t : List UInt8} (h : Member standard.string IsValue t) :
    ∃ levels, Member standard.string (Value standard levels) t := by
  obtain ⟨k, v, hk, hv, ht⟩ := h
  obtain ⟨n, hn⟩ := hv.levels
  exact ⟨n, k, v, hk, hn, ht⟩

lemma IsValue.start {t : List UInt8} (h : IsValue t) : ∃ c rest, t = c :: rest ∧ IsStart c := by
  obtain ⟨levels, h⟩ := h
  exact h.start standard_starts

/-- A container of values is a value. -/
lemma Form.isValue {t : List UInt8} (h : Form standard IsValue t) : IsValue t := by
  cases h with
  | null => exact ⟨1, .null⟩
  | true => exact ⟨1, .true⟩
  | false => exact ⟨1, .false⟩
  | number h => exact ⟨1, .number h⟩
  | string h => exact ⟨1, .string h⟩
  | emptyArray h => exact ⟨1, .emptyArray h⟩
  | emptyObject h => exact ⟨1, .emptyObject h⟩
  | array h =>
    obtain ⟨n, hn⟩ := @Separated.levels Padded (fun p q hpq t ht => Padded.mono hpq ht)
      (fun t ht => Padded.levels ht) _ h
    exact ⟨n + 1, .array hn⟩
  | object h =>
    obtain ⟨n, hn⟩ := @Separated.levels (Member standard.string)
      (fun p q hpq t ht => Member.mono (fun _ hs => hs) hpq ht) (fun t ht => Member.levels ht) _ h
    exact ⟨n + 1, .object hn⟩

end JsonGrammar
