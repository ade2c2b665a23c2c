import UsbSentinel.JsonLanguage

/-! The reader against the standard: where its strings and numbers are laxer, and that it
is exact everywhere else. -/
namespace UsbSentinel.Json
open ByteString JsonGrammar

/-- Where in a text a byte stands: outside the strings, in a string, behind a backslash,
or in a number. -/
inductive Place
  | outside
  | string
  | escape
  | number
  deriving DecidableEq, Repr

/-- The number at the front has digits on both sides of its point and no needless zero. -/
def plainNumber (inp : Bytes) : Bool :=
  let whole := digits (minus inp).2
  let frac := fraction whole.2
  whole.1 ≠ [] && (whole.1.head? ≠ some 48 || whole.1 = [48]) && frac.1 ≠ [46]

/-- No raw control byte in a string and no number that the standard forbids. -/
def plainFrom : Place → Bytes → Bool
  | _, [] => true
  | .outside, c :: rest =>
    if c = 34 then plainFrom .string rest
    else if c = 45 ∨ isDigit c then plainNumber (c :: rest) && plainFrom .number rest
    else plainFrom .outside rest
  | .string, c :: rest =>
    if c = 34 then plainFrom .outside rest
    else if c = 92 then plainFrom .escape rest
    else 0x20 ≤ c && plainFrom .string rest
  | .escape, _ :: rest => plainFrom .string rest
  | .number, c :: rest =>
    if isNumberByte c then plainFrom .number rest
    else if c = 34 then plainFrom .string rest
    else plainFrom .outside rest

def plain (text : Bytes) : Bool := plainFrom .outside text

/-- A byte outside the strings that starts neither a string nor a number. -/
def IsPassive (c : UInt8) : Prop := c ≠ 34 ∧ c ≠ 45 ∧ isDigit c = false

lemma plainFrom_passive {c : UInt8} (h : IsPassive c) (rest : Bytes) :
    plainFrom .outside (c :: rest) = plainFrom .outside rest := by
  obtain ⟨hquote, hminus, hdigit⟩ := h
  simp [plainFrom, hquote, hminus, hdigit]

set_option maxRecDepth 8000 in
lemma plainFrom_blank {w : Bytes} (h : Blank w) (rest : Bytes) :
    plainFrom .outside (w ++ rest) = plainFrom .outside rest := by
  induction w with
  | nil => rfl
  | cons c w ih =>
    have hspace : ∀ c : UInt8, IsBlank c → IsPassive c := by
      unfold IsBlank IsPassive
      decide
    rw [List.cons_append, plainFrom_passive (hspace c (h c (by simp)))]
    exact ih fun d hd => h d (by simp [hd])

/-- Behind a number nothing is left of it. -/
lemma plainFrom_number {rest : Bytes} (h : Ends rest) :
    plainFrom .number rest = plainFrom .outside rest := by
  cases rest with
  | nil => rfl
  | cons c rest =>
    have hbyte := h c rfl
    have hother : c ≠ 45 ∧ isDigit c = false := by
      simp only [isNumberByte, Bool.or_eq_false_iff, decide_eq_false_iff_not] at hbyte
      exact ⟨hbyte.1.1.1.2, hbyte.1.1.1.1.1⟩
    simp [plainFrom, hbyte, hother]

lemma plainFrom_numberBytes {t : Bytes} (h : ∀ c ∈ t, isNumberByte c = true) (rest : Bytes) :
    plainFrom .number (t ++ rest) = plainFrom .number rest := by
  induction t with
  | nil => rfl
  | cons c t ih =>
    rw [List.cons_append, plainFrom, if_pos (h c (by simp))]
    exact ih fun d hd => h d (by simp [hd])

lemma plainFrom_token {t rest : Bytes} (hsubject : Subject t)
    (hstart : ∃ c more, t = c :: more ∧ (c = 45 ∨ JsonGrammar.IsDigit c)) (hrest : Ends rest) :
    plainFrom .outside (t ++ rest) = (plainNumber (t ++ rest) && plainFrom .outside rest) := by
  have htoken := numberToken_append hsubject hstart hrest
  have hbytes := (numberToken_spec (t ++ rest)).2
  rw [htoken] at hbytes
  obtain ⟨c, more, rfl, hc⟩ := hstart
  have hquote : c ≠ 34 := by
    rintro rfl
    unfold JsonGrammar.IsDigit at hc
    exact absurd hc (by decide)
  have hmore := plainFrom_numberBytes (fun d hd => hbytes d (by simp [hd]) : ∀ d ∈ more, _) rest
  rw [List.cons_append, plainFrom, if_neg hquote, if_pos (hc.imp_right isDigit_iff.mpr), hmore,
    plainFrom_number hrest]

lemma number_subject {t : Bytes} (h : Number t) : Subject t := by
  obtain ⟨sign, whole, frac, exp, hsign, ⟨⟨hne, hdigits⟩, _⟩, hfrac, hexp, rfl⟩ := h
  refine ⟨sign, whole, frac, exp, hsign.imp_right .inr, hdigits, ?_, ?_, hexp, rfl⟩
  · rcases hfrac with rfl | ⟨ds, hds, rfl⟩
    · exact .inl rfl
    · exact .inr ⟨ds, hds.2, rfl⟩
  · obtain ⟨d, ds, rfl⟩ := List.exists_cons_of_ne_nil hne
    exact ⟨d, by simp, hdigits d (by simp)⟩

/-- A number of the standard passes. -/
lemma plainNumber_of_number {t rest : Bytes} (h : Number t) (hrest : Ends rest) :
    plainNumber (t ++ rest) = true := by
  have hstart := h.start
  obtain ⟨sign, whole, frac, exp, hsign, ⟨⟨hne, hdigits⟩, hzero⟩, hfrac, hexp, rfl⟩ := h
  have hfrac' : frac = [] ∨ ∃ ds, (∀ c ∈ ds, JsonGrammar.IsDigit c) ∧ frac = 46 :: ds :=
    hfrac.imp_right fun ⟨ds, hds, he⟩ => ⟨ds, hds.2, he⟩
  obtain ⟨hminus, hwhole, hfraction, _⟩ :=
    split_number (hsign.imp_right .inr) hdigits hfrac' hexp hstart hrest
  have hpoint : frac ≠ [46] := by
    rcases hfrac with rfl | ⟨ds, hds, rfl⟩
    · simp
    · simpa using hds.1
  have hlead : whole.head? ≠ some 48 ∨ whole = [48] := by
    by_cases h48 : whole.head? = some 48
    · exact .inr (hzero h48)
    · exact .inl h48
  unfold plainNumber
  simp only [hminus, hwhole, hfraction]
  simpa [hne, hpoint] using hlead

/-- A number of the reader that passes is one of the standard. -/
lemma number_of_plainNumber {t rest : Bytes} (h : LaxNumber t) (hrest : Ends rest)
    (hplain : plainNumber (t ++ rest) = true) : Number t := by
  obtain ⟨⟨sign, whole, frac, exp, hsign, hdigits, hfrac, _, hexp, rfl⟩, hstart, _⟩ := h
  obtain ⟨hminus, hwhole, hfraction, _⟩ := split_number hsign hdigits hfrac hexp hstart hrest
  unfold plainNumber at hplain
  simp only [hminus, hwhole, hfraction, Bool.and_eq_true, Bool.or_eq_true, decide_eq_true_eq] at hplain
  obtain ⟨⟨hne, hlead⟩, hpoint⟩ := hplain
  have hsign' : sign = [] ∨ sign = [45] := by
    rcases hsign with rfl | rfl | rfl
    · exact .inl rfl
    · obtain ⟨c, more, hc, hfirst⟩ := hstart
      obtain rfl : 43 = c := by simpa using (List.cons.inj hc).1
      unfold JsonGrammar.IsDigit at hfirst
      exact absurd hfirst (by decide)
    · exact .inr rfl
  refine ⟨sign, whole, frac, exp, hsign', ⟨⟨hne, hdigits⟩, ?_⟩, ?_, hexp, rfl⟩
  · intro h48
    exact hlead.resolve_left fun hnot => hnot h48
  · rcases hfrac with rfl | ⟨ds, hds, rfl⟩
    · exact .inl rfl
    · exact .inr ⟨ds, ⟨by simpa using hpoint, hds⟩, rfl⟩

set_option maxRecDepth 8000 in
lemma plainFrom_hex {h : UInt8} (hh : IsHexDigit h) (rest : Bytes) :
    plainFrom .string (h :: rest) = plainFrom .string rest := by
  have hplain : ∀ h : UInt8, IsHexDigit h → h ≠ 34 ∧ h ≠ 92 ∧ 0x20 ≤ h := by
    unfold IsHexDigit JsonGrammar.IsDigit
    decide
  obtain ⟨hquote, hslash, hlow⟩ := hplain h hh
  simp [plainFrom, hquote, hslash, hlow]

lemma plainFrom_unit {h₁ h₂ h₃ h₄ : UInt8}
    (hhex : IsHexDigit h₁ ∧ IsHexDigit h₂ ∧ IsHexDigit h₃ ∧ IsHexDigit h₄) (rest : Bytes) :
    plainFrom .string (92 :: 117 :: h₁ :: h₂ :: h₃ :: h₄ :: rest) = plainFrom .string rest := by
  have hopen : plainFrom .string (92 :: 117 :: h₁ :: h₂ :: h₃ :: h₄ :: rest) =
      plainFrom .string (h₁ :: h₂ :: h₃ :: h₄ :: rest) := rfl
  rw [hopen, plainFrom_hex hhex.1, plainFrom_hex hhex.2.1, plainFrom_hex hhex.2.2.1,
    plainFrom_hex hhex.2.2.2]

lemma plainFrom_string {body : Bytes} (h : Chars (fun c => 0x20 ≤ c) body) (rest : Bytes) :
    plainFrom .string (body ++ 34 :: rest) = plainFrom .outside rest := by
  induction h with
  | nil => rfl
  | @raw c body hraw hquote hslash _ ih =>
    rw [List.cons_append, plainFrom, if_neg hquote, if_neg hslash, ih]
    simp [hraw]
  | escape _ _ ih => exact ih
  | unit hhex _ ih =>
    simp only [List.cons_append]
    rw [plainFrom_unit hhex, ih]

lemma chars_of_plainFrom {body rest : Bytes} (h : Chars (fun _ => True) body)
    (hplain : plainFrom .string (body ++ 34 :: rest) = true) :
    Chars (fun c => 0x20 ≤ c) body ∧ plainFrom .outside rest = true := by
  induction h with
  | nil => exact ⟨.nil, hplain⟩
  | @raw c body _ hquote hslash _ ih =>
    rw [List.cons_append, plainFrom, if_neg hquote, if_neg hslash, Bool.and_eq_true] at hplain
    obtain ⟨hbody, hrest⟩ := ih hplain.2
    exact ⟨.raw (by simpa using hplain.1) hquote hslash hbody, hrest⟩
  | escape hesc _ ih =>
    obtain ⟨hbody, hrest⟩ := ih hplain
    exact ⟨.escape hesc hbody, hrest⟩
  | unit hhex _ ih =>
    simp only [List.cons_append] at hplain
    rw [plainFrom_unit hhex] at hplain
    obtain ⟨hbody, hrest⟩ := ih hplain
    exact ⟨.unit hhex hbody, hrest⟩

/-- A `p` that passes is a `q`, and the scan goes on behind it. -/
def Sifts (p q : Bytes → Prop) : Prop :=
  ∀ t rest, p t → Ends rest → plainFrom .outside (t ++ rest) = true →
    q t ∧ plainFrom .outside rest = true

/-- The scan finds nothing to object to in a `q`. -/
def Passes (q : Bytes → Prop) : Prop :=
  ∀ t rest, q t → Ends rest → plainFrom .outside (t ++ rest) = plainFrom .outside rest

lemma sifts_string : Sifts lax.string standard.string := by
  rintro t rest ⟨body, hbody, rfl⟩ _ hplain
  have htext : 34 :: (body ++ [34]) ++ rest = 34 :: (body ++ 34 :: rest) := by simp
  rw [htext] at hplain
  obtain ⟨hstrict, hrest⟩ := chars_of_plainFrom hbody hplain
  exact ⟨⟨body, hstrict, rfl⟩, hrest⟩

lemma passes_string : Passes standard.string := by
  rintro t rest ⟨body, hbody, rfl⟩ _
  have htext : 34 :: (body ++ [34]) ++ rest = 34 :: (body ++ 34 :: rest) := by simp
  rw [htext]
  exact plainFrom_string hbody rest

lemma Sifts.padded {p q : Bytes → Prop} (h : Sifts p q) : Sifts (Padded p) (Padded q) := by
  rintro t rest ⟨before, core, after, hbefore, hcore, hafter, rfl⟩ hrest hplain
  have htext : before ++ core ++ after ++ rest = before ++ (core ++ (after ++ rest)) := by simp
  rw [htext, plainFrom_blank hbefore] at hplain
  obtain ⟨hq, hmore⟩ := h core _ hcore (ends_blank hafter hrest) hplain
  rw [plainFrom_blank hafter] at hmore
  exact ⟨⟨before, core, after, hbefore, hq, hafter, rfl⟩, hmore⟩

lemma Passes.padded {q : Bytes → Prop} (h : Passes q) : Passes (Padded q) := by
  rintro t rest ⟨before, core, after, hbefore, hcore, hafter, rfl⟩ hrest
  have htext : before ++ core ++ after ++ rest = before ++ (core ++ (after ++ rest)) := by simp
  rw [htext, plainFrom_blank hbefore, h core _ hcore (ends_blank hafter hrest),
    plainFrom_blank hafter]

lemma comma_passive : IsPassive 44 := by unfold IsPassive; decide

lemma colon_passive : IsPassive 58 := by unfold IsPassive; decide

lemma Sifts.separated {p q : Bytes → Prop} (h : Sifts p q) :
    Sifts (Separated p) (Separated q) := by
  intro t rest ht hrest hplain
  induction ht with
  | last ht =>
    obtain ⟨hq, hmore⟩ := h _ _ ht hrest hplain
    exact ⟨.last hq, hmore⟩
  | cons ht _ ih =>
    rw [List.append_assoc, List.cons_append] at hplain
    obtain ⟨hq, hmore⟩ := h _ _ ht (ends_cons (by decide)) hplain
    rw [plainFrom_passive comma_passive] at hmore
    obtain ⟨hqs, hend⟩ := ih hmore
    exact ⟨.cons hq hqs, hend⟩

lemma Passes.separated {q : Bytes → Prop} (h : Passes q) : Passes (Separated q) := by
  intro t rest ht hrest
  induction ht with
  | last ht => exact h _ _ ht hrest
  | cons ht _ ih =>
    rw [List.append_assoc, List.cons_append, h _ _ ht (ends_cons (by decide)),
      plainFrom_passive comma_passive, ih]

lemma Sifts.member {p q : Bytes → Prop} (h : Sifts p q) :
    Sifts (Member lax.string p) (Member standard.string q) := by
  rintro t rest ⟨k, v, hk, hv, rfl⟩ hrest hplain
  rw [List.append_assoc, List.cons_append] at hplain
  obtain ⟨hname, hmore⟩ := sifts_string.padded k _ hk (ends_cons (by decide)) hplain
  rw [plainFrom_passive colon_passive] at hmore
  obtain ⟨hvalue, hend⟩ := h.padded v rest hv hrest hmore
  exact ⟨⟨k, v, hname, hvalue, rfl⟩, hend⟩

lemma Passes.member {q : Bytes → Prop} (h : Passes q) : Passes (Member standard.string q) := by
  rintro t rest ⟨k, v, hk, hv, rfl⟩ hrest
  rw [List.append_assoc, List.cons_append, passes_string.padded k _ hk (ends_cons (by decide)),
    plainFrom_passive colon_passive, h.padded v rest hv hrest]

/-- Brackets are passed over. -/
lemma plainFrom_brackets {o c : UInt8} (ho : IsPassive o) (hc : IsPassive c) {body : Bytes}
    {rest : Bytes} : plainFrom .outside (o :: (body ++ [c]) ++ rest) =
      plainFrom .outside (body ++ c :: rest) ∧
      plainFrom .outside (c :: rest) = plainFrom .outside rest := by
  refine ⟨?_, plainFrom_passive hc rest⟩
  have htext : o :: (body ++ [c]) ++ rest = o :: (body ++ c :: rest) := by simp
  rw [htext, plainFrom_passive ho]

lemma bracket_passive : IsPassive 91 ∧ IsPassive 93 ∧ IsPassive 123 ∧ IsPassive 125 := by
  unfold IsPassive
  decide

lemma Sifts.form {p q : Bytes → Prop} (h : Sifts p q) : Sifts (Form lax p) (Form standard q) := by
  obtain ⟨h91, h93, h123, h125⟩ := bracket_passive
  intro t rest ht hrest hplain
  cases ht with
  | null => exact ⟨.null, hplain⟩
  | true => exact ⟨.true, hplain⟩
  | false => exact ⟨.false, hplain⟩
  | number ht =>
    rw [plainFrom_token ht.1 ht.2.1 hrest, Bool.and_eq_true] at hplain
    exact ⟨.number (number_of_plainNumber ht hrest hplain.1), hplain.2⟩
  | string ht =>
    obtain ⟨hq, hmore⟩ := sifts_string _ rest ht hrest hplain
    exact ⟨.string hq, hmore⟩
  | @emptyArray w hw =>
    obtain ⟨hopen, hclose⟩ := @plainFrom_brackets 91 93 h91 h93 w rest
    rw [hopen, plainFrom_blank hw, hclose] at hplain
    exact ⟨.emptyArray hw, hplain⟩
  | @array body ht =>
    obtain ⟨hopen, hclose⟩ := @plainFrom_brackets 91 93 h91 h93 body rest
    rw [hopen] at hplain
    obtain ⟨hq, hmore⟩ := h.padded.separated body _ ht (ends_cons (by decide)) hplain
    exact ⟨.array hq, hclose ▸ hmore⟩
  | @emptyObject w hw =>
    obtain ⟨hopen, hclose⟩ := @plainFrom_brackets 123 125 h123 h125 w rest
    rw [hopen, plainFrom_blank hw, hclose] at hplain
    exact ⟨.emptyObject hw, hplain⟩
  | @object body ht =>
    obtain ⟨hopen, hclose⟩ := @plainFrom_brackets 123 125 h123 h125 body rest
    rw [hopen] at hplain
    obtain ⟨hq, hmore⟩ := h.member.separated body _ ht (ends_cons (by decide)) hplain
    exact ⟨.object hq, hclose ▸ hmore⟩

lemma Passes.form {q : Bytes → Prop} (h : Passes q) : Passes (Form standard q) := by
  obtain ⟨h91, h93, h123, h125⟩ := bracket_passive
  intro t rest ht hrest
  cases ht with
  | null => rfl
  | true => rfl
  | false => rfl
  | number ht =>
    rw [plainFrom_token (number_subject ht) ht.start hrest, plainNumber_of_number ht hrest,
      Bool.true_and]
  | string ht => exact passes_string _ rest ht hrest
  | @emptyArray w hw =>
    obtain ⟨hopen, hclose⟩ := @plainFrom_brackets 91 93 h91 h93 w rest
    rw [hopen, plainFrom_blank hw, hclose]
  | @array body ht =>
    obtain ⟨hopen, hclose⟩ := @plainFrom_brackets 91 93 h91 h93 body rest
    rw [hopen, h.padded.separated body _ ht (ends_cons (by decide)), hclose]
  | @emptyObject w hw =>
    obtain ⟨hopen, hclose⟩ := @plainFrom_brackets 123 125 h123 h125 w rest
    rw [hopen, plainFrom_blank hw, hclose]
  | @object body ht =>
    obtain ⟨hopen, hclose⟩ := @plainFrom_brackets 123 125 h123 h125 body rest
    rw [hopen, h.member.separated body _ ht (ends_cons (by decide)), hclose]

lemma sifts_value (levels : ℕ) :
    Sifts (JsonGrammar.Value lax levels) (JsonGrammar.Value standard levels) := by
  induction levels with
  | zero => exact fun t rest ht => absurd ht id
  | succ levels ih => exact ih.form

lemma passes_value (levels : ℕ) : Passes (JsonGrammar.Value standard levels) := by
  induction levels with
  | zero => exact fun t rest ht => absurd ht id
  | succ levels ih => exact ih.form

/-- The scan passes every text of the standard. -/
lemma plain_of_standard {levels : ℕ} {text : Bytes} (h : Text standard levels text) :
    plain text = true := by
  have hpass := (passes_value levels).padded text [] h ends_nil
  rw [List.append_nil] at hpass
  exact hpass

/-- A text of the lax grammar is one of the standard exactly if the scan passes it. -/
theorem text_lax_plain {levels : ℕ} {text : Bytes} (h : Text lax levels text) :
    plain text = true ↔ ∃ levels, Text standard levels text := by
  constructor
  · intro hplain
    have hsift := (sifts_value levels).padded text [] h ends_nil
    rw [List.append_nil] at hsift
    exact ⟨levels, (hsift hplain).1⟩
  · rintro ⟨n, hn⟩
    exact plain_of_standard hn

/-- The lexical rules of the standard, with number tokens of fewer than 64 bytes. -/
def short : Lexis where
  string := standard.string
  number t := Number t ∧ t.length < 64

lemma short_lax : short.Sub lax where
  string t h := by
    obtain ⟨body, hbody, rfl⟩ := h
    refine ⟨body, ?_, rfl⟩
    induction hbody with
    | nil => exact .nil
    | raw _ hquote hslash _ ih => exact .raw trivial hquote hslash ih
    | escape hesc _ ih => exact .escape hesc ih
    | unit hhex _ ih => exact .unit hhex ih
  number t h := ⟨number_subject h.1, h.1.start, h.2⟩

/-- The reader takes only texts of the standard, and all of those whose values lie inside
at most 31 containers and whose numbers are shorter than 64 bytes. -/
def ReadsStandard (lib : CLib) (text : Bytes) : Prop :=
  ((∃ v, parse lib text = .ok v) → ∃ levels, Text standard levels text) ∧
    (Text short 32 text → ∃ v, parse lib text = .ok v)

/-- It does so on a text unless the text is well formed up to a raw control byte in a
string, a needless zero, or a point without digits on both sides. -/
theorem readsStandard_iff {lib : CLib} (hlib : lib.Scans) (text : Bytes) :
    ReadsStandard lib text ↔ (Text lax 32 text → plain text = true) := by
  have hlanguage := parse_iff hlib text
  constructor
  · intro h hlax
    exact (text_lax_plain hlax).mpr (h.1 (hlanguage.mpr hlax))
  · intro h
    refine ⟨fun hok => ?_, fun hshort => ?_⟩
    · have hlax := hlanguage.mp hok
      exact (text_lax_plain hlax).mp (h hlax)
    · exact hlanguage.mpr (hshort.mono short_lax le_rfl)

/-- How much of a text of number bytes `strtod` uses: a sign, digits around a point, and
an exponent if it has digits. -/
def scanLength (t : Bytes) : ℕ :=
  let sign := exponentSign t
  let whole := digits sign.2
  let frac := fraction whole.2
  let exp := exponent frac.2
  if (whole.1 ++ frac.1).any isDigit then
    sign.1.length + whole.1.length + frac.1.length +
      if exp.1.getLast?.any isDigit then exp.1.length else 0
  else 0

/-- A number library that reads whole numbers and finds the end of every number. -/
def scanLib : CLib where
  Double := ℤ
  strtod t := ((wholeLib.strtod t).1, scanLength t)
  integral _ := true
  toInt n := n

lemma digits_shape (inp : Bytes) : ∀ c ∈ (digits inp).1, JsonGrammar.IsDigit c :=
  fun _ hc => isDigit_iff.mp (List.mem_takeWhile_imp hc)

lemma exponentSign_shape (inp : Bytes) :
    (exponentSign inp).1 = [] ∨ (exponentSign inp).1 = [43] ∨ (exponentSign inp).1 = [45] := by
  unfold exponentSign
  split
  · split_ifs with h
    · rcases h with rfl | rfl
      · exact .inr (.inl rfl)
      · exact .inr (.inr rfl)
    · exact .inl rfl
  · exact .inl rfl

lemma fraction_shape (inp : Bytes) : (fraction inp).1 = [] ∨
    ∃ ds, (∀ c ∈ ds, JsonGrammar.IsDigit c) ∧ (fraction inp).1 = 46 :: ds := by
  unfold fraction
  split
  · next c rest =>
    split_ifs with h
    · exact .inr ⟨(digits rest).1, digits_shape rest, by rw [h]⟩
    · exact .inl rfl
  · exact .inl rfl

lemma exponent_shape (inp : Bytes) (h : (exponent inp).1.getLast?.any isDigit = true) :
    Exponent (exponent inp).1 := by
  unfold exponent at h ⊢
  split at h
  · next c rest =>
    split_ifs at h ⊢ with hc
    · refine ⟨c, (exponentSign rest).1, (digits (exponentSign rest).2).1, hc,
        exponentSign_shape rest, ⟨?_, digits_shape _⟩, rfl⟩
      -- without digits the last byte is the letter or the sign
      intro hnone
      dsimp only at h
      rw [hnone, List.append_nil] at h
      rcases exponentSign_shape rest with hsign | hsign | hsign <;> rw [hsign] at h
      · rcases hc with rfl | rfl <;> simp [isDigit] at h
      · simp [isDigit] at h
      · simp [isDigit] at h
    · simp at h
  · simp at h

lemma exponent_last {exp : Bytes} (h : Exponent exp) : exp.getLast?.any isDigit = true := by
  obtain ⟨e, sign, ds, _, _, ⟨hne, hds⟩, rfl⟩ := h
  have hlast : (e :: (sign ++ ds)).getLast? = some (ds.getLast hne) := by
    rw [← List.cons_append, List.getLast?_append_of_ne_nil _ hne, List.getLast?_eq_some_getLast hne]
  rw [hlast]
  exact isDigit_iff.mpr (hds _ (List.getLast_mem hne))

theorem scanLib_scans : scanLib.Scans := by
  intro t hne _
  show scanLength t = t.length ↔ Subject t
  constructor
  · intro hlength
    obtain ⟨h₁, _⟩ := exponentSign_spec t
    obtain ⟨h₂, _⟩ := digits_spec (exponentSign t).2
    obtain ⟨h₃, _⟩ := fraction_spec (digits (exponentSign t).2).2
    obtain ⟨h₄, _⟩ := exponent_spec (fraction (digits (exponentSign t).2).2).2
    have hpos := List.length_pos_iff.mpr hne
    have htotal : t.length = (exponentSign t).1.length + ((digits (exponentSign t).2).1.length +
        ((fraction (digits (exponentSign t).2).2).1.length +
          ((exponent (fraction (digits (exponentSign t).2).2).2).1.length +
            (exponent (fraction (digits (exponentSign t).2).2).2).2.length))) := by
      rw [← List.length_append, ← h₄, ← List.length_append, ← h₃, ← List.length_append, ← h₂,
        ← List.length_append, ← h₁]
    unfold scanLength at hlength
    dsimp only at hlength
    split_ifs at hlength with hmantissa hexp
    · have hrest : (exponent (fraction (digits (exponentSign t).2).2).2).2 = [] :=
        List.length_eq_zero_iff.mp (by omega)
      obtain ⟨d, hd, hdigit⟩ := List.any_eq_true.mp hmantissa
      refine ⟨_, _, _, _, exponentSign_shape t, digits_shape _, fraction_shape _,
        ⟨d, hd, isDigit_iff.mp hdigit⟩, .inr (exponent_shape _ hexp), ?_⟩
      rw [hrest, List.append_nil] at h₄
      rw [List.append_assoc, List.append_assoc, ← h₄, ← h₃, ← h₂, ← h₁]
    · have hnone : (exponent (fraction (digits (exponentSign t).2).2).2).1 = [] :=
        List.length_eq_zero_iff.mp (by omega)
      have hrest : (exponent (fraction (digits (exponentSign t).2).2).2).2 = [] :=
        List.length_eq_zero_iff.mp (by omega)
      obtain ⟨d, hd, hdigit⟩ := List.any_eq_true.mp hmantissa
      refine ⟨_, _, _, [], exponentSign_shape t, digits_shape _, fraction_shape _,
        ⟨d, hd, isDigit_iff.mp hdigit⟩, .inl rfl, ?_⟩
      rw [hnone, hrest, List.append_nil] at h₄
      rw [List.append_assoc, List.append_assoc, ← h₄, ← h₃, ← h₂, ← h₁]
    · omega
  · rintro ⟨sign, whole, frac, exp, hsign, hwhole, hfrac, ⟨d, hd, hdigit⟩, hexp, rfl⟩
    obtain ⟨hexpSplit, hexpDigit, hexpPoint⟩ := exponent_append hexp ends_nil
    obtain ⟨hfracSplit, hfracDigit⟩ := fraction_append hfrac hexpDigit hexpPoint
    have hwholeSplit := digits_append_of hwhole hfracDigit
    rw [List.append_nil] at hexpSplit hfracSplit hwholeSplit
    have hsignSplit : exponentSign (sign ++ (whole ++ (frac ++ exp))) =
        (sign, whole ++ (frac ++ exp)) := by
      rcases hsign with rfl | rfl | rfl
      · -- the mantissa starts with a digit or the point
        obtain ⟨c, more, hc, hplain⟩ : ∃ c more, whole ++ (frac ++ exp) = c :: more ∧
            ¬ (c = 43 ∨ c = 45) := by
          cases whole with
          | cons c whole =>
            refine ⟨c, whole ++ (frac ++ exp), rfl, ?_⟩
            have hc := isDigit_iff.mpr (hwhole c (by simp))
            rintro (rfl | rfl) <;> exact absurd hc (by decide)
          | nil =>
            rcases hfrac with rfl | ⟨ds, _, rfl⟩
            · simp at hd
            · exact ⟨46, ds ++ exp, rfl, by decide⟩
        rw [List.nil_append, hc, exponentSign, if_neg hplain]
      · rfl
      · rfl
    have hmantissa : (whole ++ frac).any isDigit = true :=
      List.any_eq_true.mpr ⟨d, hd, isDigit_iff.mpr hdigit⟩
    have htext : sign ++ whole ++ frac ++ exp = sign ++ (whole ++ (frac ++ exp)) := by simp
    have hexpLength : (if exp.getLast?.any isDigit then exp.length else 0) = exp.length := by
      rcases hexp with rfl | hexp
      · rfl
      · rw [if_pos (exponent_last hexp)]
    rw [htext]
    unfold scanLength
    simp only [hsignSplit, hwholeSplit, hfracSplit, hexpSplit, hmantissa, if_true, hexpLength,
      List.length_append]
    omega

theorem readsStandard_iff_pair :
    ReadsStandard scanLib (ascii "[1, -2]") ↔
      (Text lax 32 (ascii "[1, -2]") → plain (ascii "[1, -2]") = true) :=
  readsStandard_iff scanLib_scans _

/-- A needless zero, a point with nothing behind it and a raw control byte are read. -/
theorem readsStandard_fails :
    ¬ ReadsStandard scanLib (ascii "01") ∧ ¬ ReadsStandard scanLib (ascii "1.") ∧
      ¬ ReadsStandard scanLib [34, 1, 34] := by
  have hfails : ∀ text, (∃ v, parse scanLib text = .ok v) → plain text = false →
      ¬ ReadsStandard scanLib text := by
    intro text hok hplain h
    obtain ⟨levels, hstandard⟩ := h.1 hok
    rw [plain_of_standard hstandard] at hplain
    exact absurd hplain (by decide)
  refine ⟨hfails _ ⟨.number (1 : ℤ), rfl⟩ (by decide), hfails _ ⟨.number (1 : ℤ), rfl⟩ (by decide),
    hfails _ ⟨.string [1], rfl⟩ (by decide)⟩

end UsbSentinel.Json
