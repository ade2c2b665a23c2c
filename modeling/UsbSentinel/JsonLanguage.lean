import UsbSentinel.JsonGrammar
import UsbSentinel.JsonRoundtrip

/-! The language of the reader: the texts it takes are those of the grammar with lax
strings and numbers, no deeper than its limit. -/
namespace UsbSentinel.Json
open ByteString JsonGrammar

/-- The sequence that `strtod` is documented to convert, as far as bytes of numbers go. -/
def Subject (t : Bytes) : Prop :=
  ∃ sign whole frac exp, (sign = [] ∨ sign = [43] ∨ sign = [45]) ∧
    (∀ c ∈ whole, JsonGrammar.IsDigit c) ∧
    (frac = [] ∨ ∃ ds, (∀ c ∈ ds, JsonGrammar.IsDigit c) ∧ frac = 46 :: ds) ∧
    (∃ c ∈ whole ++ frac, JsonGrammar.IsDigit c) ∧ (exp = [] ∨ Exponent exp) ∧
    t = sign ++ whole ++ frac ++ exp

def isNumberByte (c : UInt8) : Bool :=
  isDigit c || c = 43 || c = 45 || c = 46 || c = 69 || c = 101

/-- `strtod` uses up a text of number bytes exactly if it is such a sequence. -/
def CLib.Scans (lib : CLib) : Prop :=
  ∀ t : Bytes, t ≠ [] → (∀ c ∈ t, isNumberByte c = true) →
    ((lib.strtod t).2 = t.length ↔ Subject t)

/-- A number as the reader takes it. -/
def LaxNumber (t : Bytes) : Prop :=
  Subject t ∧ (∃ c rest, t = c :: rest ∧ (c = 45 ∨ JsonGrammar.IsDigit c)) ∧
    t.length < numberMax

/-- The lexical rules of the reader: any byte may stand in a string. -/
def lax : Lexis where
  string := Quoted fun _ => True
  number := LaxNumber

/-- No number goes on here. -/
def Ends (rest : Bytes) : Prop := ∀ c, rest.head? = some c → isNumberByte c = false

lemma isDigit_iff {c : UInt8} : isDigit c = true ↔ JsonGrammar.IsDigit c := by
  simp [isDigit, JsonGrammar.IsDigit]

lemma isSpace_iff {c : UInt8} : isSpace c = true ↔ IsBlank c := by
  simp [isSpace, IsBlank, or_assoc]

lemma Ends.stops {rest : Bytes} (h : Ends rest) : Stops rest := by
  intro c hc
  have hbyte := h c hc
  simp only [isNumberByte, Bool.or_eq_false_iff, decide_eq_false_iff_not] at hbyte
  exact ⟨hbyte.1.1.1.1.1, hbyte.1.1.2, hbyte.2, hbyte.1.2⟩

lemma ends_nil : Ends [] := fun c hc => by simp at hc

lemma ends_cons {c : UInt8} {rest : Bytes} (h : isNumberByte c = false) : Ends (c :: rest) := by
  intro d hd
  obtain rfl : c = d := by simpa using hd
  exact h

set_option maxRecDepth 8000 in
lemma ends_blank {w rest : Bytes} (hw : Blank w) (hrest : Ends rest) : Ends (w ++ rest) := by
  cases w with
  | nil => exact hrest
  | cons c w =>
    have hspace : ∀ c : UInt8, isSpace c = true → isNumberByte c = false := by decide
    exact ends_cons (hspace c (isSpace_iff.mpr (hw c (by simp))))

lemma skipWs_spec (inp : Bytes) : ∃ w, Blank w ∧ inp = w ++ skipWs inp := by
  refine ⟨inp.takeWhile isSpace, fun c hc => ?_, (List.takeWhile_append_dropWhile).symm⟩
  exact isSpace_iff.mp (by simpa using List.mem_takeWhile_imp hc)

lemma skipWs_blank {w : Bytes} (hw : Blank w) (rest : Bytes) :
    skipWs (w ++ rest) = skipWs rest := by
  apply List.dropWhile_append_of_pos
  exact fun c hc => isSpace_iff.mpr (hw c hc)

lemma skipWs_skipWs (inp : Bytes) : skipWs (skipWs inp) = skipWs inp :=
  List.dropWhile_idempotent isSpace inp

section Strings

/-- The bytes of four hexadecimal digits. -/
lemma hexDigit_eq_some {h : UInt8} {d : ℕ} (hd : hexDigit h = some d) : IsHexDigit h := by
  unfold hexDigit at hd
  split_ifs at hd with h₁ h₂ h₃
  · exact .inl h₁
  · exact .inr (.inl h₂)
  · exact .inr (.inr h₃)

lemma hexDigit_of_isHexDigit {h : UInt8} (hh : IsHexDigit h) : ∃ d, hexDigit h = some d := by
  unfold hexDigit
  split_ifs with h₁ h₂ h₃
  · exact ⟨_, rfl⟩
  · exact ⟨_, rfl⟩
  · exact ⟨_, rfl⟩
  · rcases hh with hh | hh | hh
    · exact absurd hh h₁
    · exact absurd hh h₂
    · exact absurd hh h₃

lemma simpleEscape_eq_some {esc b : UInt8} (h : simpleEscape esc = some b) : IsEscape esc := by
  unfold simpleEscape at h
  unfold IsEscape
  split_ifs at h with h₁ h₂ h₃ h₄ h₅ h₆ h₇ h₈ <;> simp [*]

lemma simpleEscape_of_isEscape {esc : UInt8} (h : IsEscape esc) :
    esc ≠ 117 ∧ ∃ b, simpleEscape esc = some b := by
  rcases h with rfl | rfl | rfl | rfl | rfl | rfl | rfl | rfl <;> exact ⟨by decide, _, rfl⟩

/-- What the string loop reads are the characters of a string and its closing quote. -/
lemma stringLoop_sound {inp out s rest : Bytes} (h : stringLoop inp out = .ok (s, rest)) :
    ∃ body, Chars (fun _ => True) body ∧ inp = body ++ 34 :: rest := by
  fun_induction stringLoop inp out with
  | case2 =>
    obtain ⟨rfl, rfl⟩ := Prod.mk.inj (Except.ok.inj h)
    exact ⟨[], .nil, rfl⟩
  | case4 =>
    rename_i hd₄ hd₃ hd₂ hd₁ _ ih
    obtain ⟨body, hbody, rfl⟩ := ih h
    have hhex := And.intro (hexDigit_eq_some hd₁) (And.intro (hexDigit_eq_some hd₂)
      (And.intro (hexDigit_eq_some hd₃) (hexDigit_eq_some hd₄)))
    exact ⟨_, .unit hhex hbody, rfl⟩
  | case7 =>
    rename_i hesc _ ih
    obtain ⟨body, hbody, rfl⟩ := ih h
    exact ⟨_, .escape (simpleEscape_eq_some hesc) hbody, rfl⟩
  | case9 =>
    rename_i hquote hslash ih
    obtain ⟨body, hbody, rfl⟩ := ih h
    exact ⟨_, .raw trivial hquote hslash hbody, rfl⟩
  | _ => simp at h

lemma stringLoop_complete {body : Bytes} (h : Chars (fun _ => True) body) (rest out : Bytes) :
    ∃ s, stringLoop (body ++ 34 :: rest) out = .ok (s, rest) := by
  induction h generalizing out with
  | nil => exact ⟨out, by rw [List.nil_append, stringLoop.eq_def]; rfl⟩
  | @raw c body _ hquote hslash _ ih =>
    obtain ⟨s, hs⟩ := ih (out ++ [c])
    refine ⟨s, ?_⟩
    rw [List.cons_append, stringLoop.eq_def]
    simpa [hquote, hslash] using hs
  | @escape c body hesc _ ih =>
    obtain ⟨hunit, b, hb⟩ := simpleEscape_of_isEscape hesc
    obtain ⟨s, hs⟩ := ih (out ++ [b])
    refine ⟨s, ?_⟩
    rw [List.cons_append, List.cons_append, stringLoop.eq_def]
    simpa [hunit, hb] using hs
  | @unit h₁ h₂ h₃ h₄ body hhex _ ih =>
    obtain ⟨d₁, hd₁⟩ := hexDigit_of_isHexDigit hhex.1
    obtain ⟨d₂, hd₂⟩ := hexDigit_of_isHexDigit hhex.2.1
    obtain ⟨d₃, hd₃⟩ := hexDigit_of_isHexDigit hhex.2.2.1
    obtain ⟨d₄, hd₄⟩ := hexDigit_of_isHexDigit hhex.2.2.2
    obtain ⟨s, hs⟩ := ih (out ++ encodeUnit (((d₁ * 16 + d₂) * 16 + d₃) * 16 + d₄))
    refine ⟨s, ?_⟩
    simp only [List.cons_append]
    rw [stringLoop.eq_def]
    simpa [hd₁, hd₂, hd₃, hd₄] using hs

lemma parseStringLiteral_sound {inp s rest : Bytes}
    (h : parseStringLiteral inp = .ok (s, rest)) : ∃ t, lax.string t ∧ inp = t ++ rest := by
  cases inp with
  | nil => simp [parseStringLiteral] at h
  | cons c inp =>
    rw [parseStringLiteral] at h
    by_cases hc : c = 34
    · subst hc
      rw [if_pos rfl] at h
      obtain ⟨body, hbody, rfl⟩ := stringLoop_sound h
      exact ⟨34 :: (body ++ [34]), ⟨body, hbody, rfl⟩, by simp⟩
    · rw [if_neg hc] at h
      simp at h

lemma parseStringLiteral_complete {t : Bytes} (h : lax.string t) (rest : Bytes) :
    ∃ s, parseStringLiteral (t ++ rest) = .ok (s, rest) := by
  obtain ⟨body, hbody, rfl⟩ := h
  obtain ⟨s, hs⟩ := stringLoop_complete hbody rest []
  refine ⟨s, ?_⟩
  have htext : 34 :: (body ++ [34]) ++ rest = 34 :: (body ++ 34 :: rest) := by simp
  rw [htext, parseStringLiteral, if_pos rfl, hs]

end Strings

section Numbers

lemma digits_spec (inp : Bytes) :
    inp = (digits inp).1 ++ (digits inp).2 ∧ ∀ c ∈ (digits inp).1, isNumberByte c = true := by
  refine ⟨(List.takeWhile_append_dropWhile).symm, fun c hc => ?_⟩
  have hdigit : isDigit c = true := List.mem_takeWhile_imp hc
  simp [isNumberByte, hdigit]

lemma minus_spec (inp : Bytes) :
    inp = (minus inp).1 ++ (minus inp).2 ∧ ∀ c ∈ (minus inp).1, isNumberByte c = true := by
  unfold minus
  split
  · split_ifs with h
    · refine ⟨rfl, fun c hc => ?_⟩
      obtain rfl := List.mem_singleton.mp hc
      simp [isNumberByte, h]
    · exact ⟨rfl, by simp⟩
  · exact ⟨rfl, by simp⟩

lemma fraction_spec (inp : Bytes) :
    inp = (fraction inp).1 ++ (fraction inp).2 ∧
      ∀ c ∈ (fraction inp).1, isNumberByte c = true := by
  unfold fraction
  split
  · next c rest =>
    obtain ⟨happend, hbytes⟩ := digits_spec rest
    split_ifs with h
    · refine ⟨by rw [List.cons_append, ← happend], fun d hd => ?_⟩
      rcases List.mem_cons.mp hd with rfl | hd
      · simp [isNumberByte, h]
      · exact hbytes d hd
    · exact ⟨rfl, by simp⟩
  · exact ⟨rfl, by simp⟩

lemma exponentSign_spec (inp : Bytes) :
    inp = (exponentSign inp).1 ++ (exponentSign inp).2 ∧
      ∀ c ∈ (exponentSign inp).1, isNumberByte c = true := by
  unfold exponentSign
  split
  · split_ifs with h
    · refine ⟨rfl, fun c hc => ?_⟩
      obtain rfl := List.mem_singleton.mp hc
      rcases h with h | h <;> simp [isNumberByte, h]
    · exact ⟨rfl, by simp⟩
  · exact ⟨rfl, by simp⟩

lemma exponent_spec (inp : Bytes) :
    inp = (exponent inp).1 ++ (exponent inp).2 ∧
      ∀ c ∈ (exponent inp).1, isNumberByte c = true := by
  unfold exponent
  split
  · next c rest =>
    obtain ⟨hsign, hsignBytes⟩ := exponentSign_spec rest
    obtain ⟨happend, hbytes⟩ := digits_spec (exponentSign rest).2
    split_ifs with h
    · refine ⟨?_, fun d hd => ?_⟩
      · calc c :: rest = c :: ((exponentSign rest).1 ++ (exponentSign rest).2) := by rw [← hsign]
          _ = c :: ((exponentSign rest).1 ++ ((digits (exponentSign rest).2).1 ++
              (digits (exponentSign rest).2).2)) := by rw [← happend]
          _ = _ := by simp
      · rcases List.mem_cons.mp hd with rfl | hd
        · rcases h with h | h <;> simp [isNumberByte, h]
        · rcases List.mem_append.mp hd with hd | hd
          · exact hsignBytes d hd
          · exact hbytes d hd
    · exact ⟨rfl, by simp⟩
  · exact ⟨rfl, by simp⟩

/-- The token is the front of the input and made of number bytes. -/
lemma numberToken_spec (inp : Bytes) :
    inp = (numberToken inp).1 ++ (numberToken inp).2 ∧
      ∀ c ∈ (numberToken inp).1, isNumberByte c = true := by
  obtain ⟨h₁, b₁⟩ := minus_spec inp
  obtain ⟨h₂, b₂⟩ := digits_spec (minus inp).2
  obtain ⟨h₃, b₃⟩ := fraction_spec (digits (minus inp).2).2
  obtain ⟨h₄, b₄⟩ := exponent_spec (fraction (digits (minus inp).2).2).2
  unfold numberToken
  dsimp only
  refine ⟨?_, fun c hc => ?_⟩
  · rw [List.append_assoc, ← h₄, List.append_assoc, ← h₃, List.append_assoc, ← h₂, ← h₁]
  · simp only [List.mem_append] at hc
    rcases hc with ((hc | hc) | hc) | hc
    · exact b₁ c hc
    · exact b₂ c hc
    · exact b₃ c hc
    · exact b₄ c hc

/-- A first byte that a number can have is part of the token. -/
lemma numberToken_start {c : UInt8} {inp : Bytes} (hc : c = 45 ∨ JsonGrammar.IsDigit c) :
    ∃ rest, (numberToken (c :: inp)).1 = c :: rest := by
  unfold numberToken
  rcases hc with rfl | hc
  · exact ⟨_, rfl⟩
  · have hne : c ≠ 45 := by
      rintro rfl
      exact absurd hc (by unfold JsonGrammar.IsDigit; decide)
    have hdigit := isDigit_iff.mpr hc
    simp only [minus, hne, if_false, digits, List.takeWhile_cons, hdigit, if_true]
    exact ⟨_, rfl⟩

variable {lib : CLib}

lemma parseNumber_sound (hlib : lib.Scans) {c : UInt8} {inp rest : Bytes} {d : lib.Double}
    (hc : c = 45 ∨ JsonGrammar.IsDigit c) (h : parseNumber lib (c :: inp) = .ok (d, rest)) :
    ∃ t, LaxNumber t ∧ c :: inp = t ++ rest := by
  obtain ⟨happend, hbytes⟩ := numberToken_spec (c :: inp)
  obtain ⟨more, hstart⟩ := @numberToken_start c inp hc
  unfold parseNumber at h
  dsimp only at h
  split_ifs at h with hlen hused
  obtain ⟨_, rfl⟩ := Prod.mk.inj (Except.ok.inj h)
  have hne : (numberToken (c :: inp)).1 ≠ [] := by simp [hstart]
  have hsubject := (hlib _ hne hbytes).mp (by simpa using hused)
  exact ⟨(numberToken (c :: inp)).1, ⟨hsubject, ⟨c, more, hstart, hc⟩, by omega⟩, happend⟩

/-- A byte that is no digit, or the end. -/
def NoDigit (tail : Bytes) : Prop := ∀ c, tail.head? = some c → isDigit c = false

lemma digits_append_of {ds tail : Bytes} (hds : ∀ c ∈ ds, JsonGrammar.IsDigit c)
    (htail : NoDigit tail) : digits (ds ++ tail) = (ds, tail) := by
  have hall : ∀ c ∈ ds, isDigit c = true := fun c hc => isDigit_iff.mpr (hds c hc)
  have hstop : tail.takeWhile isDigit = [] ∧ tail.dropWhile isDigit = tail := by
    cases tail with
    | nil => exact ⟨rfl, rfl⟩
    | cons c tail => simp [htail c rfl]
  rw [digits, List.takeWhile_append_of_pos hall, List.dropWhile_append_of_pos hall, hstop.1,
    hstop.2, List.append_nil]

lemma Ends.noDigit {rest : Bytes} (h : Ends rest) : NoDigit rest := fun c hc => (h.stops c hc).1

lemma exponent_append {exp rest : Bytes} (hexp : exp = [] ∨ Exponent exp) (hrest : Ends rest) :
    exponent (exp ++ rest) = (exp, rest) ∧ NoDigit (exp ++ rest) ∧
      (exp ++ rest).head? ≠ some 46 := by
  rcases hexp with rfl | ⟨e, sign, ds, he, hsign, hds, rfl⟩
  · refine ⟨?_, hrest.noDigit, fun hpoint => (hrest.stops _ hpoint).2.1 rfl⟩
    cases rest with
    | nil => rfl
    | cons c rest =>
      obtain ⟨_, _, h101, h69⟩ := hrest.stops c rfl
      simp [exponent, h101, h69]
  · have hdigits := digits_append_of hds.2 hrest.noDigit
    obtain ⟨d, ds, rfl⟩ := List.exists_cons_of_ne_nil hds.1
    have hd : d ≠ 43 ∧ d ≠ 45 := by
      have hdigit := isDigit_iff.mpr (hds.2 d (by simp))
      constructor <;> rintro rfl <;> exact absurd hdigit (by decide)
    have hsplit : exponentSign (sign ++ d :: ds ++ rest) = (sign, d :: ds ++ rest) := by
      rcases hsign with rfl | rfl | rfl
      · simp [exponentSign, hd]
      · simp [exponentSign]
      · simp [exponentSign]
    refine ⟨?_, ?_, ?_⟩
    · have htext : e :: (sign ++ d :: ds) ++ rest = e :: (sign ++ d :: ds ++ rest) := by simp
      rw [htext, exponent, if_pos he, hsplit, hdigits]
      rfl
    · intro c hc
      obtain rfl : e = c := by simpa using hc
      rcases he with rfl | rfl <;> decide
    · rcases he with rfl | rfl <;> simp

lemma fraction_append {frac tail : Bytes}
    (hfrac : frac = [] ∨ ∃ ds, (∀ c ∈ ds, JsonGrammar.IsDigit c) ∧ frac = 46 :: ds)
    (htail : NoDigit tail) (hpoint : tail.head? ≠ some 46) :
    fraction (frac ++ tail) = (frac, tail) ∧ NoDigit (frac ++ tail) := by
  rcases hfrac with rfl | ⟨ds, hds, rfl⟩
  · refine ⟨?_, htail⟩
    cases tail with
    | nil => rfl
    | cons c tail =>
      have hne : c ≠ 46 := by simpa using hpoint
      simp [fraction, hne]
  · refine ⟨?_, ?_⟩
    · have hdigits := digits_append_of hds htail
      rw [List.cons_append, fraction, if_pos rfl, hdigits]
    · intro c hc
      obtain rfl : 46 = c := by simpa using hc
      decide

set_option maxRecDepth 8000 in
/-- The parts of a number are what the reader finds when it looks for them. -/
lemma split_number {sign whole frac exp : Bytes} (hsign : sign = [] ∨ sign = [43] ∨ sign = [45])
    (hwhole : ∀ c ∈ whole, JsonGrammar.IsDigit c)
    (hfrac : frac = [] ∨ ∃ ds, (∀ c ∈ ds, JsonGrammar.IsDigit c) ∧ frac = 46 :: ds)
    (hexp : exp = [] ∨ Exponent exp)
    (hstart : ∃ c more, sign ++ whole ++ frac ++ exp = c :: more ∧
      (c = 45 ∨ JsonGrammar.IsDigit c)) {rest : Bytes} (hrest : Ends rest) :
    minus (sign ++ whole ++ frac ++ exp ++ rest) = (sign, whole ++ (frac ++ (exp ++ rest))) ∧
      digits (whole ++ (frac ++ (exp ++ rest))) = (whole, frac ++ (exp ++ rest)) ∧
      fraction (frac ++ (exp ++ rest)) = (frac, exp ++ rest) ∧
      exponent (exp ++ rest) = (exp, rest) := by
  obtain ⟨c, more, hc, hfirst⟩ := hstart
  obtain ⟨hexpSplit, hexpDigit, hexpPoint⟩ := exponent_append hexp hrest
  obtain ⟨hfracSplit, hfracDigit⟩ := fraction_append hfrac hexpDigit hexpPoint
  refine ⟨?_, digits_append_of hwhole hfracDigit, hfracSplit, hexpSplit⟩
  have htext : sign ++ whole ++ frac ++ exp ++ rest =
      sign ++ (whole ++ (frac ++ (exp ++ rest))) := by simp
  rw [htext]
  rcases hsign with rfl | rfl | rfl
  · -- without a sign the first byte is a digit of the whole part
    obtain ⟨d, ds, rfl⟩ : ∃ d ds, whole = d :: ds := by
      cases whole with
      | cons d ds => exact ⟨d, ds, rfl⟩
      | nil =>
        have hother : ∀ e : UInt8, e = 46 ∨ e = 101 ∨ e = 69 →
            ¬ (e = 45 ∨ JsonGrammar.IsDigit e) := by
          unfold JsonGrammar.IsDigit
          decide
        rcases hfrac with rfl | ⟨ds, _, rfl⟩
        · rcases hexp with rfl | ⟨e, s, ds, he, _, _, rfl⟩
          · simp at hc
          · obtain rfl : e = c := by simpa using (List.cons.inj hc).1
            exact absurd hfirst (hother e (.inr he))
        · obtain rfl : 46 = c := by simpa using (List.cons.inj hc).1
          exact absurd hfirst (hother 46 (.inl rfl))
    have hne : d ≠ 45 := by
      have hdigit := isDigit_iff.mpr (hwhole d (by simp))
      rintro rfl
      exact absurd hdigit (by decide)
    simp [minus, hne]
  · obtain rfl : 43 = c := by simpa using (List.cons.inj hc).1
    unfold JsonGrammar.IsDigit at hfirst
    exact absurd hfirst (by decide)
  · rfl

/-- Behind such a number its token ends. -/
lemma numberToken_append {t rest : Bytes} (hsubject : Subject t)
    (hstart : ∃ c more, t = c :: more ∧ (c = 45 ∨ JsonGrammar.IsDigit c)) (hrest : Ends rest) :
    numberToken (t ++ rest) = (t, rest) := by
  obtain ⟨sign, whole, frac, exp, hsign, hwhole, hfrac, _, hexp, rfl⟩ := hsubject
  obtain ⟨hminus, hdigits, hfraction, hexponent⟩ :=
    split_number hsign hwhole hfrac hexp hstart hrest
  unfold numberToken
  simp only [hminus, hdigits, hfraction, hexponent]

lemma parseNumber_complete (hlib : lib.Scans) {t rest : Bytes} (h : LaxNumber t)
    (hrest : Ends rest) : ∃ d, parseNumber lib (t ++ rest) = .ok (d, rest) := by
  have htoken := numberToken_append h.1 h.2.1 hrest
  have hbytes := (numberToken_spec (t ++ rest)).2
  obtain ⟨hsubject, ⟨c, more, rfl, _⟩, hlen⟩ := h
  rw [htoken] at hbytes
  have hused := (hlib _ (List.cons_ne_nil c more) hbytes).mpr hsubject
  refine ⟨(lib.strtod (c :: more)).1, ?_⟩
  unfold parseNumber
  dsimp only
  rw [htoken, if_neg (by simpa using hlen), if_neg (by simpa using hused)]

end Numbers

section Values
variable {lib : CLib} {value : Bytes → Except Status (Value lib.Double × Bytes)}
  {p : Bytes → Prop}

/-- What the parser `value` takes is a `p` behind blanks. -/
def TakesOnly (value : Bytes → Except Status (Value lib.Double × Bytes)) (p : Bytes → Prop) :
    Prop :=
  ∀ inp v rest, value inp = .ok (v, rest) → ∃ w t, Blank w ∧ p t ∧ inp = w ++ t ++ rest

/-- The parser `value` takes every `p`. -/
def TakesAll (value : Bytes → Except Status (Value lib.Double × Bytes)) (p : Bytes → Prop) :
    Prop :=
  ∀ t, p t → ∀ rest, Ends rest → ∃ v, value (t ++ rest) = .ok (v, rest)

/-- Blanks, a value, and blanks up to the byte that decides how to go on. -/
lemma TakesOnly.padded (hvalue : TakesOnly value p) {inp afterValue rest : Bytes} {d : UInt8}
    {v : Value lib.Double} (h : value (skipWs inp) = .ok (v, afterValue))
    (hrest : skipWs afterValue = d :: rest) :
    ∃ t, Padded p t ∧ inp = t ++ d :: rest := by
  obtain ⟨w₀, hw₀, hinp⟩ := skipWs_spec inp
  obtain ⟨w, t, hw, ht, hcore⟩ := hvalue _ _ _ h
  obtain ⟨w₁, hw₁, hafter⟩ := skipWs_spec afterValue
  refine ⟨w₀ ++ w ++ t ++ w₁, ⟨w₀ ++ w, t, w₁, hw₀.append hw, ht, hw₁, rfl⟩, ?_⟩
  calc inp = w₀ ++ skipWs inp := hinp
    _ = w₀ ++ (w ++ t ++ (w₁ ++ skipWs afterValue)) := by rw [hcore, ← hafter]
    _ = _ := by rw [hrest]; simp

lemma parseItems_sound (hvalue : TakesOnly value p) {fuel : ℕ} {acc items : List (Value lib.Double)}
    {inp rest : Bytes} (h : parseItems lib value fuel acc inp = .ok (items, rest)) :
    ∃ body, Separated (Padded p) body ∧ inp = body ++ 93 :: rest := by
  induction fuel generalizing acc inp with
  | zero => simp [parseItems] at h
  | succ fuel ih =>
    rw [parseItems] at h
    split at h
    · simp at h
    · next v afterValue hv =>
      split at h
      · simp at h
      · next d more hmore =>
        obtain ⟨t, ht, rfl⟩ := hvalue.padded hv hmore
        split_ifs at h with hcomma hclose
        · obtain ⟨body, hbody, rfl⟩ := ih h
          exact ⟨t ++ 44 :: body, .cons ht hbody, by rw [hcomma]; simp⟩
        · obtain ⟨_, rfl⟩ := Prod.mk.inj (Except.ok.inj h)
          exact ⟨t, .last ht, by rw [hclose]⟩

lemma parseMembers_sound (hvalue : TakesOnly value p) {fuel : ℕ}
    {acc members : List (Bytes × Value lib.Double)} {inp rest : Bytes}
    (h : parseMembers lib value fuel acc inp = .ok (members, rest)) :
    ∃ body, Separated (Member lax.string p) body ∧ inp = body ++ 125 :: rest := by
  induction fuel generalizing acc inp with
  | zero => simp [parseMembers] at h
  | succ fuel ih =>
    rw [parseMembers] at h
    split at h
    · simp at h
    · next key afterKey hkey =>
      split at h
      · simp at h
      · next c afterColon hcolon =>
        split_ifs at h with hc
        split at h
        · simp at h
        · next v afterValue hv =>
          split at h
          · simp at h
          · next d more hmore =>
            obtain ⟨w₀, hw₀, hinp⟩ := skipWs_spec inp
            obtain ⟨k, hk, hname⟩ := parseStringLiteral_sound hkey
            obtain ⟨w₁, hw₁, hafter⟩ := skipWs_spec afterKey
            obtain ⟨t, ht, rfl⟩ := hvalue.padded hv hmore
            have hcolon' : c = 58 := by simpa using hc
            have hpadded : Padded lax.string (w₀ ++ k ++ w₁) := ⟨w₀, k, w₁, hw₀, hk, hw₁, rfl⟩
            have hmember : Member lax.string p (w₀ ++ k ++ w₁ ++ 58 :: t) :=
              ⟨w₀ ++ k ++ w₁, t, hpadded, ht, rfl⟩
            have htext : inp = w₀ ++ k ++ w₁ ++ 58 :: t ++ d :: more := by
              calc inp = w₀ ++ (k ++ (w₁ ++ skipWs afterKey)) := by rw [← hafter, ← hname, ← hinp]
                _ = _ := by rw [hcolon, hcolon']; simp
            split_ifs at h with hcomma hclose
            · obtain ⟨body, hbody, rfl⟩ := ih h
              exact ⟨_, .cons hmember hbody, by rw [htext, hcomma]; simp⟩
            · obtain ⟨_, rfl⟩ := Prod.mk.inj (Except.ok.inj h)
              exact ⟨_, .last hmember, by rw [htext, hclose]⟩

lemma head?_eq_some_iff {c : UInt8} {inp : Bytes} :
    inp.head? = some c ↔ inp = c :: inp.tail := by
  cases inp with
  | nil => simp
  | cons d inp => simp

lemma parseArray_sound (hvalue : TakesOnly value p) {inp rest : Bytes} {v : Value lib.Double}
    (h : parseArray lib value inp = .ok (v, rest)) :
    ∃ t, Form lax p t ∧ 91 :: inp = t ++ rest := by
  obtain ⟨w, hw, hinp⟩ := skipWs_spec inp
  unfold parseArray at h
  dsimp only at h
  split_ifs at h with hempty
  · obtain ⟨_, rfl⟩ := Prod.mk.inj (Except.ok.inj h)
    have htail := head?_eq_some_iff.mp hempty
    refine ⟨91 :: (w ++ [93]), .emptyArray hw, ?_⟩
    calc 91 :: inp = 91 :: (w ++ 93 :: (skipWs inp).tail) := by rw [← htail, ← hinp]
      _ = _ := by simp
  · split at h
    · simp at h
    · next items more hitems =>
      obtain ⟨_, rfl⟩ := Prod.mk.inj (Except.ok.inj h)
      obtain ⟨body, hbody, hskip⟩ := parseItems_sound hvalue hitems
      exact ⟨91 :: (w ++ body ++ [93]), .array (hbody.blank (fun _ _ hb ht => ht.blank hb) hw), by rw [hinp, hskip]; simp⟩

lemma parseObject_sound (hvalue : TakesOnly value p) {inp rest : Bytes} {v : Value lib.Double}
    (h : parseObject lib value inp = .ok (v, rest)) :
    ∃ t, Form lax p t ∧ 123 :: inp = t ++ rest := by
  obtain ⟨w, hw, hinp⟩ := skipWs_spec inp
  unfold parseObject at h
  dsimp only at h
  split_ifs at h with hempty
  · obtain ⟨_, rfl⟩ := Prod.mk.inj (Except.ok.inj h)
    have htail := head?_eq_some_iff.mp hempty
    refine ⟨123 :: (w ++ [125]), .emptyObject hw, ?_⟩
    calc 123 :: inp = 123 :: (w ++ 125 :: (skipWs inp).tail) := by rw [← htail, ← hinp]
      _ = _ := by simp
  · split at h
    · simp at h
    · next members more hmembers =>
      obtain ⟨_, rfl⟩ := Prod.mk.inj (Except.ok.inj h)
      obtain ⟨body, hbody, hskip⟩ := parseMembers_sound hvalue hmembers
      exact ⟨123 :: (w ++ body ++ [125]), .object (hbody.blank (fun _ _ hb ht => ht.blank hb) hw), by
        rw [hinp, hskip]; simp⟩

lemma matchLiteral_sound {literal inp rest : Bytes} {v u : Value lib.Double}
    (h : matchLiteral lib literal v inp = .ok (u, rest)) : inp = literal ++ rest := by
  unfold matchLiteral at h
  split_ifs at h with hstart
  obtain ⟨tail, rfl⟩ := hstart
  obtain ⟨_, rfl⟩ := Prod.mk.inj (Except.ok.inj h)
  simp

/-- What the reader takes as a value is one of the lax grammar. -/
theorem parseValue_sound (hlib : lib.Scans) (levels : ℕ) :
    TakesOnly (parseValue lib levels) (JsonGrammar.Value lax levels) := by
  induction levels with
  | zero =>
    intro inp v rest h
    simp [parseValue] at h
  | succ levels ih =>
    intro inp v rest h
    obtain ⟨w, hw, hinp⟩ := skipWs_spec inp
    -- every branch reads its value from the first byte behind the blanks
    have hdone : ∀ t, Form lax (JsonGrammar.Value lax levels) t → skipWs inp = t ++ rest →
        ∃ w t, Blank w ∧ JsonGrammar.Value lax (levels + 1) t ∧ inp = w ++ t ++ rest := by
      intro t ht htext
      exact ⟨w, t, hw, ht, by rw [hinp, htext, List.append_assoc]⟩
    rw [parseValue] at h
    split at h
    · simp at h
    · next c more hskip =>
      rw [hskip] at hdone
      split_ifs at h with hobject harray hstring htrue hfalse hnull hnumber
      · obtain ⟨t, ht, htext⟩ := parseObject_sound ih h
        exact hdone t ht (hobject ▸ htext)
      · obtain ⟨t, ht, htext⟩ := parseArray_sound ih h
        exact hdone t ht (harray ▸ htext)
      · split at h
        · simp at h
        · next s after hs =>
          obtain ⟨_, rfl⟩ := Prod.mk.inj (Except.ok.inj h)
          obtain ⟨t, ht, htext⟩ := parseStringLiteral_sound hs
          exact hdone t (.string ht) htext
      · exact hdone _ .true (matchLiteral_sound h)
      · exact hdone _ .false (matchLiteral_sound h)
      · exact hdone _ .null (matchLiteral_sound h)
      · split at h
        · simp at h
        · next d after hd =>
          obtain ⟨_, rfl⟩ := Prod.mk.inj (Except.ok.inj h)
          obtain ⟨t, ht, htext⟩ := parseNumber_sound hlib (hnumber.imp_right isDigit_iff.mp) hd
          exact hdone t (.number ht) htext

lemma lax_starts : lax.Starts where
  string _ h := by
    obtain ⟨body, _, rfl⟩ := h
    exact ⟨_, rfl⟩
  number _ h := h.2.1

/-- Everything `p` starts with a byte that a value can start with. -/
def Starts (p : Bytes → Prop) : Prop := ∀ t, p t → ∃ c rest, t = c :: rest ∧ IsStart c

set_option maxRecDepth 8000 in
lemma isStart_spec : ∀ c : UInt8, IsStart c → isSpace c = false ∧ c ≠ 93 ∧ c ≠ 125 := by
  unfold IsStart JsonGrammar.IsDigit
  decide

lemma skipWs_mark {after rest : Bytes} {d : UInt8} (hafter : Blank after)
    (hd : isSpace d = false) : skipWs (after ++ d :: rest) = d :: rest := by
  rw [skipWs_blank hafter, skipWs_cons hd]

lemma skipWs_length (inp : Bytes) : (skipWs inp).length ≤ inp.length :=
  (List.dropWhile_sublist isSpace).length_le

lemma length_le_skipWs (t rest : Bytes) {d : UInt8} (hd : isSpace d = false) :
    (d :: rest).length ≤ (skipWs (t ++ d :: rest)).length := by
  induction t with
  | nil => rw [List.nil_append, skipWs_cons hd]
  | cons c t ih =>
    by_cases hc : isSpace c = true
    · rw [List.cons_append, skipWs, List.dropWhile_cons_of_pos hc]
      exact ih
    · rw [List.cons_append, skipWs_cons (by simpa using hc)]
      simp only [List.length_cons, List.length_append]
      omega

/-- The blanks in front of a padded value are skipped, and the value comes into view. -/
lemma skipWs_padded (hstart : Starts p) {t : Bytes} (h : Padded p t) :
    ∃ core after, p core ∧ Blank after ∧
      ∀ tail, skipWs (t ++ tail) = core ++ (after ++ tail) := by
  obtain ⟨before, core, after, hbefore, hcore, hafter, rfl⟩ := h
  obtain ⟨c, more, rfl, hc⟩ := hstart core hcore
  refine ⟨c :: more, after, hcore, hafter, fun tail => ?_⟩
  have htext : before ++ c :: more ++ after ++ tail = before ++ c :: (more ++ (after ++ tail)) := by
    simp
  rw [htext, skipWs_mark hbefore (isStart_spec c hc).1, List.cons_append]

lemma parseItems_complete (hvalue : TakesAll value p) (hstart : Starts p) {body rest : Bytes}
    (h : Separated (Padded p) body) {fuel : ℕ} (acc : List (Value lib.Double))
    (hfuel : (skipWs (body ++ 93 :: rest)).length < fuel) :
    ∃ items, parseItems lib value fuel acc (body ++ 93 :: rest) = .ok (items, rest) := by
  induction h generalizing fuel acc with
  | last h =>
    obtain ⟨core, after, hcore, hafter, hskip⟩ := skipWs_padded hstart h
    obtain ⟨fuel, rfl⟩ := Nat.exists_eq_add_of_lt hfuel
    obtain ⟨v, hv⟩ := hvalue core hcore (after ++ 93 :: rest) (ends_blank hafter (ends_cons (by decide)))
    rw [parseItems, hskip, hv]
    simp only [skipWs_mark hafter (show isSpace 93 = false by decide)]
    exact ⟨acc ++ [v], by simp⟩
  | @cons t more h _ ih =>
    obtain ⟨core, after, hcore, hafter, hskip⟩ := skipWs_padded hstart h
    have htext : t ++ 44 :: more ++ 93 :: rest = t ++ 44 :: (more ++ 93 :: rest) := by simp
    rw [htext] at hfuel ⊢
    have hlength := skipWs_length (more ++ 93 :: rest)
    have hfuel' := hfuel
    rw [hskip] at hfuel'
    simp only [List.length_append, List.length_cons] at hfuel' hlength
    obtain ⟨fuel, rfl⟩ : ∃ turns, fuel = turns + 1 := ⟨fuel - 1, by omega⟩
    obtain ⟨v, hv⟩ := hvalue core hcore (after ++ 44 :: (more ++ 93 :: rest))
      (ends_blank hafter (ends_cons (by decide)))
    obtain ⟨items, hitems⟩ := @ih fuel (acc ++ [v]) (by omega)
    rw [parseItems, hskip, hv]
    simp only [skipWs_mark hafter (show isSpace 44 = false by decide), if_true]
    exact ⟨items, hitems⟩

lemma lax_string_starts : Starts lax.string := by
  intro t ht
  obtain ⟨rest, rfl⟩ := lax_starts.string t ht
  exact ⟨34, rest, rfl, by simp [IsStart]⟩

/-- One turn of the member loop, up to the byte that decides how to go on. -/
lemma parseMembers_turn (hvalue : TakesAll value p) (hstart : Starts p) {t more : Bytes}
    {d : UInt8} (h : Member lax.string p t) (hd : isSpace d = false)
    (hends : isNumberByte d = false) (fuel : ℕ) (acc : List (Bytes × Value lib.Double)) :
    ∃ m : Bytes × Value lib.Double,
      parseMembers lib value (fuel + 1) acc (t ++ d :: more) =
        if d = 44 then parseMembers lib value fuel (acc ++ [m]) more
        else if d = 125 then .ok (acc ++ [m], more) else .error .invalidArg := by
  obtain ⟨k, v, hk, hv, rfl⟩ := h
  obtain ⟨name, afterName, hname, hblankName, hskipName⟩ := skipWs_padded lax_string_starts hk
  obtain ⟨core, after, hcore, hafter, hskip⟩ := skipWs_padded hstart hv
  obtain ⟨key, hkey⟩ := parseStringLiteral_complete hname (afterName ++ 58 :: (v ++ d :: more))
  obtain ⟨u, hu⟩ := hvalue core hcore (after ++ d :: more) (ends_blank hafter (ends_cons hends))
  refine ⟨(key, u), ?_⟩
  have htext : k ++ 58 :: v ++ d :: more = k ++ 58 :: (v ++ d :: more) := by simp
  rw [htext, parseMembers, hskipName, hkey]
  simp only [skipWs_mark hblankName (show isSpace 58 = false by decide), hskip, hu,
    skipWs_mark hafter hd]
  rw [if_neg (by simp)]

lemma parseMembers_complete (hvalue : TakesAll value p) (hstart : Starts p) {body rest : Bytes}
    (h : Separated (Member lax.string p) body) {fuel : ℕ}
    (acc : List (Bytes × Value lib.Double))
    (hfuel : (skipWs (body ++ 125 :: rest)).length < fuel) :
    ∃ members, parseMembers lib value fuel acc (body ++ 125 :: rest) = .ok (members, rest) := by
  induction h generalizing fuel acc with
  | last h =>
    obtain ⟨fuel, rfl⟩ : ∃ turns, fuel = turns + 1 := ⟨fuel - 1, by omega⟩
    obtain ⟨m, hm⟩ := @parseMembers_turn lib value p hvalue hstart _ rest 125 h (by decide)
      (by decide) fuel acc
    exact ⟨acc ++ [m], by simpa using hm⟩
  | @cons t more h _ ih =>
    have htext : t ++ 44 :: more ++ 125 :: rest = t ++ 44 :: (more ++ 125 :: rest) := by simp
    rw [htext] at hfuel ⊢
    have hkept := length_le_skipWs t (more ++ 125 :: rest) (show isSpace 44 = false by decide)
    have hlength := skipWs_length (more ++ 125 :: rest)
    rw [List.length_cons] at hkept
    obtain ⟨fuel, rfl⟩ : ∃ turns, fuel = turns + 1 := ⟨fuel - 1, by omega⟩
    obtain ⟨m, hm⟩ := @parseMembers_turn lib value p hvalue hstart _ (more ++ 125 :: rest) 44 h
      (by decide) (by decide) fuel acc
    obtain ⟨members, hmembers⟩ := @ih fuel (acc ++ [m]) (by omega)
    rw [if_pos rfl, hmembers] at hm
    exact ⟨members, hm⟩

lemma parseItems_skipWs (fuel : ℕ) (acc : List (Value lib.Double)) (inp : Bytes) :
    parseItems lib value fuel acc (skipWs inp) = parseItems lib value fuel acc inp := by
  cases fuel with
  | zero => rfl
  | succ fuel => rw [parseItems, parseItems, skipWs_skipWs]

lemma parseMembers_skipWs (fuel : ℕ) (acc : List (Bytes × Value lib.Double)) (inp : Bytes) :
    parseMembers lib value fuel acc (skipWs inp) = parseMembers lib value fuel acc inp := by
  cases fuel with
  | zero => rfl
  | succ fuel => rw [parseMembers, parseMembers, skipWs_skipWs]

lemma skipWs_head {item : Bytes → Prop} {body tail : Bytes} (h : Separated item body)
    (hitem : ∀ t, item t → ∀ tail, ∃ c more, skipWs (t ++ tail) = c :: more ∧ IsStart c) :
    ∃ c more, skipWs (body ++ tail) = c :: more ∧ IsStart c := by
  cases h with
  | last h => exact hitem _ h tail
  | @cons t more h _ =>
    rw [List.append_assoc]
    exact hitem t h _

lemma Padded.skipWs_head (hstart : Starts p) {t : Bytes} (h : Padded p t) (tail : Bytes) :
    ∃ c more, skipWs (t ++ tail) = c :: more ∧ IsStart c := by
  obtain ⟨core, after, hcore, _, hskip⟩ := skipWs_padded hstart h
  obtain ⟨c, more, rfl, hc⟩ := hstart core hcore
  exact ⟨c, _, hskip tail, hc⟩

lemma Member.skipWs_head {t : Bytes} (h : Member lax.string p t) (tail : Bytes) :
    ∃ c more, skipWs (t ++ tail) = c :: more ∧ IsStart c := by
  obtain ⟨k, v, hk, _, rfl⟩ := h
  rw [List.append_assoc]
  exact Padded.skipWs_head lax_string_starts hk _

lemma head?_ne_of_isStart {inp : Bytes} {c : UInt8} {more : Bytes} (h : inp = c :: more)
    (hc : IsStart c) : inp.head? ≠ some 93 ∧ inp.head? ≠ some 125 := by
  obtain ⟨_, h93, h125⟩ := isStart_spec c hc
  rw [h]
  simp [h93, h125]

lemma parseArray_complete (hvalue : TakesAll value p) (hstart : Starts p) {body : Bytes}
    (h : Separated (Padded p) body) (rest : Bytes) :
    ∃ v, parseArray lib value (body ++ 93 :: rest) = .ok (v, rest) := by
  obtain ⟨c, more, hhead, hc⟩ := @skipWs_head _ body (93 :: rest) h
    fun t ht tail => Padded.skipWs_head hstart ht tail
  obtain ⟨items, hitems⟩ := parseItems_complete hvalue hstart h [] (Nat.lt_succ_self _)
  refine ⟨.array items, ?_⟩
  unfold parseArray
  dsimp only
  rw [if_neg (head?_ne_of_isStart hhead hc).1, parseItems_skipWs, hitems]

lemma parseObject_complete (hvalue : TakesAll value p) (hstart : Starts p) {body : Bytes}
    (h : Separated (Member lax.string p) body) (rest : Bytes) :
    ∃ v, parseObject lib value (body ++ 125 :: rest) = .ok (v, rest) := by
  obtain ⟨c, more, hhead, hc⟩ := @skipWs_head _ body (125 :: rest) h
    fun t ht tail => Member.skipWs_head ht tail
  obtain ⟨members, hmembers⟩ := parseMembers_complete hvalue hstart h [] (Nat.lt_succ_self _)
  refine ⟨.object members, ?_⟩
  unfold parseObject
  dsimp only
  rw [if_neg (head?_ne_of_isStart hhead hc).2, parseMembers_skipWs, hmembers]

lemma matchLiteral_complete (literal : Bytes) (v : Value lib.Double) (rest : Bytes) :
    matchLiteral lib literal v (literal ++ rest) = .ok (v, rest) := by
  rw [matchLiteral, if_pos (List.prefix_append _ _), List.drop_left]

lemma parseValue_blank {w : Bytes} (hw : Blank w) (levels : ℕ) (inp : Bytes) :
    parseValue lib levels (w ++ inp) = parseValue lib levels inp := by
  cases levels with
  | zero => rfl
  | succ levels => rw [parseValue, parseValue, skipWs_blank hw]

set_option maxRecDepth 8000 in
/-- Every value of the lax grammar is taken. -/
theorem parseValue_complete (hlib : lib.Scans) (levels : ℕ) :
    TakesAll (parseValue lib levels) (JsonGrammar.Value lax levels) := by
  induction levels with
  | zero => exact fun t ht => absurd ht id
  | succ levels ih =>
    intro t ht rest hrest
    have hstart : Starts (JsonGrammar.Value lax levels) := fun t ht => ht.start lax_starts
    obtain ⟨c, more, rfl, hc⟩ := Form.start lax_starts ht
    rw [parseValue, List.cons_append, skipWs_cons (isStart_spec c hc).1]
    dsimp only
    rw [← List.cons_append]
    generalize htext : c :: more = t at ht
    cases ht with
    | null =>
      obtain ⟨rfl, rfl⟩ := List.cons.inj htext
      exact ⟨.null, matchLiteral_complete (ascii "null") .null rest⟩
    | true =>
      obtain ⟨rfl, rfl⟩ := List.cons.inj htext
      exact ⟨.bool true, matchLiteral_complete (ascii "true") (.bool true) rest⟩
    | false =>
      obtain ⟨rfl, rfl⟩ := List.cons.inj htext
      exact ⟨.bool false, matchLiteral_complete (ascii "false") (.bool false) rest⟩
    | string h =>
      obtain ⟨tail, rfl⟩ := lax_starts.string _ h
      obtain ⟨rfl, rfl⟩ := List.cons.inj htext
      obtain ⟨s, hs⟩ := parseStringLiteral_complete h rest
      refine ⟨.string s, ?_⟩
      rw [if_neg (by decide), if_neg (by decide), if_pos rfl, hs]
    | number h =>
      obtain ⟨d, tail, hd, hnumber⟩ := lax_starts.number _ h
      obtain ⟨rfl, rfl⟩ := List.cons.inj (htext.trans hd)
      have hother : ∀ c : UInt8, c = 45 ∨ JsonGrammar.IsDigit c →
          c ≠ 123 ∧ c ≠ 91 ∧ c ≠ 34 ∧ c ≠ 116 ∧ c ≠ 102 ∧ c ≠ 110 := by
        unfold JsonGrammar.IsDigit
        decide
      obtain ⟨h₁, h₂, h₃, h₄, h₅, h₆⟩ := hother c hnumber
      obtain ⟨n, hn⟩ := parseNumber_complete hlib h hrest
      rw [if_neg h₁, if_neg h₂, if_neg h₃, if_neg h₄, if_neg h₅, if_neg h₆,
        if_pos (hnumber.imp_right isDigit_iff.mpr), hn]
      exact ⟨.number n, rfl⟩
    | @emptyArray w h =>
      obtain ⟨rfl, rfl⟩ := List.cons.inj htext
      refine ⟨.array [], ?_⟩
      have hskip := @skipWs_mark w rest 93 h (by decide)
      simp [parseArray, hskip]
    | @array body h =>
      obtain ⟨rfl, rfl⟩ := List.cons.inj htext
      obtain ⟨v, hv⟩ := parseArray_complete ih hstart h rest
      exact ⟨v, by simpa using hv⟩
    | @emptyObject w h =>
      obtain ⟨rfl, rfl⟩ := List.cons.inj htext
      refine ⟨.object [], ?_⟩
      have hskip := @skipWs_mark w rest 125 h (by decide)
      simp [parseObject, hskip]
    | @object body h =>
      obtain ⟨rfl, rfl⟩ := List.cons.inj htext
      obtain ⟨v, hv⟩ := parseObject_complete ih hstart h rest
      exact ⟨v, by simpa using hv⟩

/-- The reader takes exactly the texts of the lax grammar within its depth limit. -/
theorem parse_iff (hlib : lib.Scans) (text : Bytes) :
    (∃ v, parse lib text = .ok v) ↔ Text lax parseMaxDepth text := by
  constructor
  · rintro ⟨v, h⟩
    unfold parse at h
    split at h
    · simp at h
    · next u rest hu =>
      split_ifs at h with hend
      obtain ⟨w, t, hw, ht, htext⟩ := parseValue_sound hlib _ _ _ _ hu
      obtain ⟨w', hw', hrest⟩ := skipWs_spec rest
      have hempty : skipWs rest = [] := by simpa using hend
      rw [hempty, List.append_nil] at hrest
      exact ⟨w, t, w', hw, ht, hw', hrest ▸ htext⟩
  · rintro ⟨w, t, w', hw, ht, hw', rfl⟩
    have hends : Ends w' := by simpa using ends_blank hw' ends_nil
    obtain ⟨v, hv⟩ := parseValue_complete hlib _ t ht w' hends
    have hfront : parseValue lib parseMaxDepth (w ++ t ++ w') = .ok (v, w') := by
      rw [List.append_assoc, parseValue_blank hw, hv]
    have hempty : skipWs w' = [] := by
      have hskip := skipWs_blank hw' []
      rwa [List.append_nil] at hskip
    refine ⟨v, ?_⟩
    rw [parse, hfront]
    exact if_neg (by simpa using hempty)

end Values

end UsbSentinel.Json
