import UsbSentinel.AsciiCase
import UsbSentinel.SignatureList

/-! The line format of the signature file, "sha256:size:name", as it is meant, and the lines on
which the parser keeps to it. -/
namespace UsbSentinel.SignatureList
open ByteString

def isHexDigit (c : UInt8) : Bool :=
  (48 ≤ c && c ≤ 57) || (97 ≤ c && c ≤ 102) || (65 ≤ c && c ≤ 70)

def decimalValue (digits : Bytes) : ℕ :=
  digits.foldl (fun acc c => 10 * acc + (c.toNat - 48)) 0

/-- The parts of a line: blanks, the hash, a field without a colon, and a name that ends before
the white space at the end of the line. -/
structure LineParts (line hash size name : Bytes) : Prop where
  stands : ∃ blanks trail, line = blanks ++ (hash ++ 58 :: (size ++ 58 :: (name ++ trail))) ∧
    (∀ c ∈ blanks, isBlank c = true) ∧ ∀ c ∈ trail, isTrailing c = true
  hash_length : hash.length = hashLen
  hash_hex : ∀ c ∈ hash, isHexDigit c = true
  size_nonempty : size ≠ []
  size_short : size.length ≤ 31
  size_colon : 58 ∉ size
  name_trimmed : ∃ front last, name = front ++ [last] ∧ isTrailing last = false

/-- The entry a line of the format stands for. -/
structure Means (line : Bytes) (entry : Signature) (hash size name : Bytes) : Prop where
  parts : LineParts line hash size name
  size_decimal : ∀ c ∈ size, isDecimal c = true
  size_fits : decimalValue size < 2 ^ 64
  hash_stored : entry.sha256Hex = hash.map lowerAscii
  size_stored : entry.size.toNat = decimalValue size
  name_stored : entry.name = name.take 159

/-- White space, a sign and digits are the texts `strtoull` reads to their end. -/
structure Numeral (size spaces sign digits : Bytes) : Prop where
  stands : size = spaces ++ (sign ++ digits)
  spaces_blank : ∀ c ∈ spaces, isCSpace c = true
  sign_one : sign = [] ∨ sign = [43] ∨ sign = [45]
  digits_nonempty : digits ≠ []
  digits_decimal : ∀ c ∈ digits, isDecimal c = true

/-- Not a plain number of 64 bits, although `strtoull` reads it to its end. -/
def LooseNumber (size : Bytes) : Prop :=
  ∃ spaces sign digits, Numeral size spaces sign digits ∧
    (spaces ≠ [] ∨ sign ≠ [] ∨ 2 ^ 64 ≤ decimalValue digits)

def Entry (line : Bytes) (entry : Signature) : Prop :=
  ∃ hash size name, Means line entry hash size name

def LooseSize (line : Bytes) : Prop :=
  ∃ hash size name, LineParts line hash size name ∧ LooseNumber size

lemma splitAtByte_eq_some {c : UInt8} {text before after : Bytes} :
    splitAtByte c text = some (before, after) ↔ c ∉ before ∧ text = before ++ c :: after := by
  unfold splitAtByte
  constructor
  · intro h
    split_ifs at h with hmem
    obtain ⟨rfl, rfl⟩ := Prod.mk.inj (Option.some.inj h)
    refine ⟨fun hc => by simpa using List.mem_takeWhile_imp hc, ?_⟩
    have hne : text.dropWhile (· ≠ c) ≠ [] := by
      intro hnil
      have := List.dropWhile_eq_nil_iff.mp hnil c hmem
      simp at this
    obtain ⟨d, after, hafter⟩ := List.exists_cons_of_ne_nil hne
    have hhead := List.head_dropWhile_not (· ≠ c) hne
    simp only [hafter, List.head_cons, decide_eq_false_iff_not, not_not] at hhead
    conv_lhs => rw [← List.takeWhile_append_dropWhile (p := (· ≠ c)) (l := text)]
    rw [hafter, hhead, List.tail_cons]
  · rintro ⟨hc, rfl⟩
    have hall : ∀ x ∈ before, decide (x ≠ c) = true := fun x hx =>
      decide_eq_true (fun he => hc (he ▸ hx))
    rw [if_pos (by simp), List.takeWhile_append_of_pos hall, List.dropWhile_append_of_pos hall]
    simp

lemma rdropWhile_trailing {text name : Bytes} :
    (text.rdropWhile isTrailing = name ∧ name ≠ []) ↔
      ∃ trail, text = name ++ trail ∧ (∀ c ∈ trail, isTrailing c = true) ∧
        ∃ front last, name = front ++ [last] ∧ isTrailing last = false := by
  constructor
  · rintro ⟨rfl, hne⟩
    refine ⟨text.rtakeWhile isTrailing, (List.rdropWhile_append_rtakeWhile ..).symm,
      fun c hc => List.mem_rtakeWhile_imp hc, _, _, (List.dropLast_append_getLast hne).symm, ?_⟩
    simpa using List.rdropWhile_last_not isTrailing text hne
  · rintro ⟨trail, rfl, htrail, front, last, rfl, hlast⟩
    refine ⟨?_, by simp⟩
    have hrev : ∀ c ∈ trail.reverse, isTrailing c = true := fun c hc =>
      htrail c (List.mem_reverse.mp hc)
    have hstop : (front ++ [last]).reverse = last :: front.reverse := by simp
    rw [List.rdropWhile, List.reverse_append, List.dropWhile_append_of_pos hrev, hstop,
      List.dropWhile_cons_of_neg (by rw [hlast]; exact Bool.false_ne_true), ← hstop,
      List.reverse_reverse]

set_option maxRecDepth 8000 in
lemma hashChar_eq (c : UInt8) : hashChar c = if isHexDigit c then some (lowerAscii c) else none := by
  revert c
  decide

lemma hash_normalized {hash lower : Bytes} :
    hash.mapM hashChar = some lower ↔
      (∀ c ∈ hash, isHexDigit c = true) ∧ lower = hash.map lowerAscii := by
  induction hash generalizing lower with
  | nil =>
    rw [List.mapM_nil, Option.pure_def, Option.some.injEq, List.map_nil]
    exact ⟨fun h => ⟨by simp, h.symm⟩, fun h => h.2.symm⟩
  | cons c hash ih =>
    simp only [List.mapM_cons, Option.bind_eq_bind, Option.bind_eq_some_iff, Option.pure_def,
      Option.some.injEq, hashChar_eq, Option.ite_none_right_eq_some, ih, List.mem_cons,
      List.map_cons]
    constructor
    · rintro ⟨_, ⟨hc, rfl⟩, _, ⟨hrest, rfl⟩, rfl⟩
      refine ⟨?_, rfl⟩
      rintro x (rfl | hx)
      · exact hc
      · exact hrest x hx
    · rintro ⟨hall, rfl⟩
      exact ⟨_, ⟨hall c (.inl rfl), rfl⟩, _, ⟨fun x hx => hall x (.inr hx), rfl⟩, rfl⟩

set_option maxRecDepth 8000 in
lemma decimal_not_space {c : UInt8} (h : isDecimal c = true) : isCSpace c = false := by
  revert c
  decide

set_option maxRecDepth 8000 in
lemma decimal_not_sign {c : UInt8} (h : isDecimal c = true) : c ≠ 43 ∧ c ≠ 45 := by
  revert c
  decide

lemma strtoull_unsigned {digits : Bytes} (spaces : Bytes) (hspaces : ∀ c ∈ spaces, isCSpace c = true)
    (hne : digits ≠ []) (hdec : ∀ c ∈ digits, isDecimal c = true) :
    strtoull (spaces ++ digits) = ((min (decimalValue digits) (2 ^ 64 - 1)).toUInt64, true) := by
  obtain ⟨d, rest, rfl⟩ := List.exists_cons_of_ne_nil hne
  have hd := hdec d List.mem_cons_self
  obtain ⟨hplus, hminus⟩ := decimal_not_sign hd
  have hbody : (spaces ++ d :: rest).dropWhile isCSpace = d :: rest := by
    rw [List.dropWhile_append_of_pos hspaces,
      List.dropWhile_cons_of_neg (by rw [decimal_not_space hd]; exact Bool.false_ne_true)]
  have hnumber : (d :: rest).takeWhile isDecimal = d :: rest := List.takeWhile_eq_self_iff.mpr hdec
  have hsign : ((some d).any fun c => c = 43 || c = 45) = false := by simp [hplus, hminus]
  simp only [strtoull, hbody, List.head?_cons, hsign, Bool.false_eq_true, if_false, hnumber,
    if_neg hne, Option.some.injEq, hminus, false_and, decide_true, decimalValue]

lemma strtoull_plain {digits : Bytes} (hne : digits ≠ [])
    (hdec : ∀ c ∈ digits, isDecimal c = true) (hfits : decimalValue digits < 2 ^ 64) :
    (strtoull digits).2 = true ∧ (strtoull digits).1.toNat = decimalValue digits := by
  have h := strtoull_unsigned [] (by simp) hne hdec
  rw [List.nil_append] at h
  have hmin : min (decimalValue digits) (2 ^ 64 - 1) = decimalValue digits := by omega
  rw [h, hmin]
  exact ⟨rfl, UInt64.toNat_ofNat_of_lt' hfits⟩

lemma Numeral.accepted {size spaces sign digits : Bytes} (h : Numeral size spaces sign digits) :
    (strtoull size).2 = true := by
  obtain ⟨rfl, hspaces, hsign, hne, hdec⟩ := h
  rcases hsign with rfl | hsign
  · rw [List.nil_append, strtoull_unsigned spaces hspaces hne hdec]
  · have hnumber : digits.takeWhile isDecimal = digits := List.takeWhile_eq_self_iff.mpr hdec
    have hbody : (spaces ++ (sign ++ digits)).dropWhile isCSpace = sign ++ digits := by
      rw [List.dropWhile_append_of_pos hspaces]
      rcases hsign with rfl | rfl <;> rfl
    simp only [strtoull, hbody]
    rcases hsign with rfl | rfl <;> simp [hnumber, hne]

lemma numeral_of_accepted {size : Bytes} (hsize : size ≠ []) (h : (strtoull size).2 = true) :
    ∃ spaces sign digits, Numeral size spaces sign digits := by
  have hstands : size = size.takeWhile isCSpace ++ size.dropWhile isCSpace :=
    List.takeWhile_append_dropWhile.symm
  have hspaces : ∀ c ∈ size.takeWhile isCSpace, isCSpace c = true := fun c hc =>
    List.mem_takeWhile_imp hc
  have haccept : ∀ digits, (if digits.takeWhile isDecimal = [] then (decide (size = []))
      else decide (digits.takeWhile isDecimal = digits)) = true →
      digits ≠ [] ∧ ∀ c ∈ digits, isDecimal c = true := by
    intro digits hdigits
    split_ifs at hdigits with hnil
    · exact absurd (of_decide_eq_true hdigits) hsize
    · have hall := of_decide_eq_true hdigits
      exact ⟨fun he => hnil (by rw [he]; rfl), List.takeWhile_eq_self_iff.mp hall⟩
  simp only [strtoull, apply_ite Prod.snd] at h
  by_cases hsign : ((size.dropWhile isCSpace).head?.any fun c => c = 43 || c = 45) = true
  · rw [if_pos hsign] at h
    obtain ⟨hne, hdec⟩ := haccept _ h
    cases hbody : size.dropWhile isCSpace with
    | nil => simp [hbody] at hsign
    | cons c digits =>
      rw [hbody] at hstands hsign hne hdec
      simp only [List.head?_cons, Option.any_some, Bool.or_eq_true, decide_eq_true_eq] at hsign
      refine ⟨_, [c], digits, hstands, hspaces, .inr ?_, hne, hdec⟩
      exact hsign.imp (fun he => by rw [he]) fun he => by rw [he]
  · rw [if_neg hsign] at h
    obtain ⟨hne, hdec⟩ := haccept _ h
    exact ⟨_, [], _, hstands, hspaces, .inl rfl, hne, hdec⟩

set_option maxRecDepth 8000 in
lemma hexDigit_not_quiet {c : UInt8} (h : isHexDigit c = true) :
    isBlank c = false ∧ (decide (c = 35) || decide (c = 13)) = false ∧ c ≠ 58 := by
  revert c
  decide

/-- A line the parser accepts has the parts of the format, and a size field `strtoull` reads to
its end. -/
lemma parts_of_parseLine {line : Bytes} {entry : Signature} (h : parseLine line = .ok entry) :
    ∃ hash size name, LineParts line hash size name ∧ (strtoull size).2 = true ∧
      entry = ⟨hash.map lowerAscii, (strtoull size).1, cut nameFieldMax name⟩ := by
  unfold parseLine at h
  simp only at h
  split_ifs at h with hquiet
  split at h
  · exact absurd h (by simp)
  rename_i hash afterHash hfirst
  obtain ⟨hhashColon, hp⟩ := splitAtByte_eq_some.mp hfirst
  split_ifs at h with hlength
  split at h
  · exact absurd h (by simp)
  rename_i size afterSize hsecond
  obtain ⟨hsizeColon, rfl⟩ := splitAtByte_eq_some.mp hsecond
  split_ifs at h with hsizeLength hname haccept
  · split at h <;> exact absurd h (by simp)
  split at h
  · exact absurd h (by simp)
  rename_i lower hlower
  obtain ⟨hhex, rfl⟩ := hash_normalized.mp hlower
  obtain ⟨trail, hafter, htrail, htrimmed⟩ := rdropWhile_trailing.mp ⟨rfl, hname⟩
  obtain ⟨hsizeNonempty, hsizeShort⟩ := not_or.mp hsizeLength
  have hline : line = line.takeWhile isBlank ++
      (hash ++ 58 :: (size ++ 58 :: (afterSize.rdropWhile isTrailing ++ trail))) := by
    rw [← hafter, ← hp, List.takeWhile_append_dropWhile]
  refine ⟨hash, size, _, ⟨⟨_, trail, hline, fun c hc => List.mem_takeWhile_imp hc, htrail⟩,
    not_not.mp hlength, hhex, fun he => hsizeNonempty (by rw [he]; rfl), by omega, hsizeColon,
    htrimmed⟩, by simpa using haccept, ?_⟩
  exact (LineResult.ok.inj h).symm

lemma LineParts.parseLine {line hash size name : Bytes} (h : LineParts line hash size name)
    (haccept : (strtoull size).2 = true) :
    parseLine line =
      .ok ⟨hash.map lowerAscii, (strtoull size).1, cut nameFieldMax name⟩ := by
  obtain ⟨⟨blanks, trail, rfl, hblanks, htrail⟩, hlength, hhex, hsizeNonempty, hsizeShort,
    hsizeColon, htrimmed⟩ := h
  have hhashNonempty : hash ≠ [] := by
    rintro rfl
    exact absurd hlength (by decide)
  obtain ⟨d, digits, hhash⟩ := List.exists_cons_of_ne_nil hhashNonempty
  have hd := hhex d (by rw [hhash]; exact List.mem_cons_self)
  obtain ⟨hdBlank, hdQuiet, -⟩ := hexDigit_not_quiet hd
  have hskip : (blanks ++ (hash ++ 58 :: (size ++ 58 :: (name ++ trail)))).dropWhile isBlank =
      hash ++ 58 :: (size ++ 58 :: (name ++ trail)) := by
    rw [List.dropWhile_append_of_pos hblanks, hhash, List.cons_append,
      List.dropWhile_cons_of_neg (by rw [hdBlank]; exact Bool.false_ne_true)]
  have hquiet : ((hash ++ 58 :: (size ++ 58 :: (name ++ trail))).head?.all
      fun c => c = 35 || c = 13) = false := by
    rw [hhash, List.cons_append, List.head?_cons, Option.all_some]
    exact hdQuiet
  have hfirst : splitAtByte 58 (hash ++ 58 :: (size ++ 58 :: (name ++ trail))) =
      some (hash, size ++ 58 :: (name ++ trail)) :=
    splitAtByte_eq_some.mpr ⟨fun hc => (hexDigit_not_quiet (hhex 58 hc)).2.2 rfl, rfl⟩
  have hsecond : splitAtByte 58 (size ++ 58 :: (name ++ trail)) = some (size, name ++ trail) :=
    splitAtByte_eq_some.mpr ⟨hsizeColon, rfl⟩
  have hsizeLength : ¬(size.length = 0 ∨ size.length ≥ 32) := by
    have := List.length_pos_iff.mpr hsizeNonempty
    omega
  obtain ⟨hname, hnameNonempty⟩ := rdropWhile_trailing.mpr ⟨trail, rfl, htrail, htrimmed⟩
  have hlower := hash_normalized.mpr ⟨hhex, rfl⟩
  simp only [SignatureList.parseLine, hskip, hquiet, Bool.false_eq_true, if_false, hfirst, hlength,
    ne_eq, not_true_eq_false, hsecond, if_neg hsizeLength, hname, if_neg hnameNonempty, hlower,
    haccept, Bool.not_true]

/-- A line has its parts in one way only. -/
lemma LineParts.unique {line hash size name hash' size' name' : Bytes}
    (h : LineParts line hash size name)
    (h' : LineParts line hash' size' name') : hash = hash' ∧ size = size' ∧ name = name' := by
  obtain ⟨⟨blanks, trail, hline, hblanks, htrail⟩, hlength, hhex, -, -, hcolon, htrimmed⟩ := h
  obtain ⟨⟨blanks', trail', hline', hblanks', htrail'⟩, hlength', hhex', -, -, hcolon',
    htrimmed'⟩ := h'
  have hskip : ∀ bs hs rest : Bytes, (∀ c ∈ bs, isBlank c = true) → hs.length = hashLen →
      (∀ c ∈ hs, isHexDigit c = true) →
      splitAtByte 58 ((bs ++ (hs ++ 58 :: rest)).dropWhile isBlank) = some (hs, rest) := by
    intro bs hs rest hbs hhs hhexs
    cases hs with
    | nil => exact absurd hhs (by decide)
    | cons d digits =>
      obtain ⟨hdBlank, -, -⟩ := hexDigit_not_quiet (hhexs d List.mem_cons_self)
      rw [List.dropWhile_append_of_pos hbs, List.cons_append,
        List.dropWhile_cons_of_neg (by rw [hdBlank]; exact Bool.false_ne_true)]
      exact splitAtByte_eq_some.mpr ⟨fun hc => (hexDigit_not_quiet (hhexs 58 hc)).2.2 rfl, rfl⟩
  have hfirst := hskip blanks hash (size ++ 58 :: (name ++ trail)) hblanks hlength hhex
  have hfirst' := hskip blanks' hash' (size' ++ 58 :: (name' ++ trail')) hblanks' hlength' hhex'
  rw [← hline] at hfirst
  rw [← hline', hfirst] at hfirst'
  obtain ⟨rfl, hrest⟩ := Prod.mk.inj (Option.some.inj hfirst')
  have hsecond : splitAtByte 58 (size' ++ 58 :: (name' ++ trail')) = some (size, name ++ trail) :=
    splitAtByte_eq_some.mpr ⟨hcolon, hrest.symm⟩
  rw [splitAtByte_eq_some.mpr ⟨hcolon', rfl⟩] at hsecond
  obtain ⟨rfl, hafter⟩ := Prod.mk.inj (Option.some.inj hsecond)
  have hname := rdropWhile_trailing.mpr ⟨trail, rfl, htrail, htrimmed⟩
  have hname' := rdropWhile_trailing.mpr ⟨trail', rfl, htrail', htrimmed'⟩
  refine ⟨rfl, rfl, ?_⟩
  rw [← hname.1, ← hname'.1, hafter]

lemma Means.parseLine {line hash size name : Bytes} {entry : Signature}
    (h : Means line entry hash size name) : parseLine line = .ok entry := by
  obtain ⟨hparts, hdec, hfits, hhash, hsize, hname⟩ := h
  obtain ⟨haccept, hvalue⟩ := strtoull_plain hparts.size_nonempty hdec hfits
  have hsame : (strtoull size).1 = entry.size := by
    rw [← UInt64.toNat_inj, hvalue, hsize]
  rw [hparts.parseLine haccept, hsame, ← hhash, cut]
  exact congrArg LineResult.ok (by rw [show nameFieldMax - 1 = 159 from rfl, ← hname])

lemma Numeral.plain {size spaces sign digits : Bytes} (h : Numeral size spaces sign digits)
    (hdec : ∀ c ∈ size, isDecimal c = true) : spaces = [] ∧ sign = [] := by
  obtain ⟨rfl, hspaces, hsign, -, -⟩ := h
  constructor
  · cases spaces with
    | nil => rfl
    | cons c spaces =>
      have hdecimal := decimal_not_space (hdec c (by simp))
      rw [hspaces c List.mem_cons_self] at hdecimal
      exact absurd hdecimal (by simp)
  · rcases hsign with rfl | rfl | rfl
    · rfl
    · exact absurd (hdec 43 (by simp)) (by decide)
    · exact absurd (hdec 45 (by simp)) (by decide)

/-- The parser takes exactly the lines of the format, and reads them as meant, unless the size
field is a number with white space or a sign before it, or one that does not fit. -/
theorem parseLine_entry_iff (line : Bytes) :
    (∀ entry, parseLine line = .ok entry ↔ Entry line entry) ↔ ¬LooseSize line := by
  constructor
  · rintro h ⟨hash, size, name, hparts, spaces, sign, digits, hnumeral, hloose⟩
    obtain ⟨hash', size', name', hmeans⟩ := (h _).mp (hparts.parseLine hnumeral.accepted)
    obtain ⟨-, rfl, -⟩ := hparts.unique hmeans.parts
    obtain ⟨rfl, rfl⟩ := hnumeral.plain hmeans.size_decimal
    have hsize : size = digits := hnumeral.stands
    have hfits := hmeans.size_fits
    rw [hsize] at hfits
    rcases hloose with h | h | h
    · exact h rfl
    · exact h rfl
    · omega
  · intro htight entry
    refine ⟨fun h => ?_, fun ⟨_, _, _, hmeans⟩ => hmeans.parseLine⟩
    obtain ⟨hash, size, name, hparts, haccept, rfl⟩ := parts_of_parseLine h
    obtain ⟨spaces, sign, digits, hnumeral⟩ := numeral_of_accepted hparts.size_nonempty haccept
    have hplain : spaces = [] ∧ sign = [] ∧ decimalValue digits < 2 ^ 64 := by
      by_contra hcon
      refine htight ⟨hash, size, name, hparts, spaces, sign, digits, hnumeral, ?_⟩
      by_cases hspaces : spaces = []
      · by_cases hsign : sign = []
        · exact .inr (.inr (not_lt.mp fun hlt => hcon ⟨hspaces, hsign, hlt⟩))
        · exact .inr (.inl hsign)
      · exact .inl hspaces
    obtain ⟨rfl, rfl, hfits⟩ := hplain
    have hsize : size = digits := hnumeral.stands
    subst hsize
    obtain ⟨-, hvalue⟩ := strtoull_plain hparts.size_nonempty hnumeral.digits_decimal hfits
    exact ⟨hash, size, name, hparts, hnumeral.digits_decimal, hfits, rfl, hvalue, rfl⟩

/-- "+68" for a size is taken, as 68. -/
theorem parseLine_signed_size :
    ¬∀ line entry, parseLine line = .ok entry ↔ Entry line entry := by
  intro h
  have hparts : LineParts (List.replicate 64 97 ++ ascii ":+68:EICAR") (List.replicate 64 97)
      (ascii "+68") (ascii "EICAR") :=
    ⟨⟨[], [], by decide +kernel, by simp, by simp⟩, by decide, by decide +kernel, by decide +kernel,
      by decide +kernel, by decide +kernel, ⟨ascii "EICA", 82, by decide +kernel, rfl⟩⟩
  have hnumeral : Numeral (ascii "+68") [] [43] (ascii "68") :=
    ⟨by decide +kernel, by simp, .inr (.inl rfl), by decide +kernel, by decide +kernel⟩
  obtain ⟨_, size, _, hmeans⟩ := (h _ _).mp (hparts.parseLine hnumeral.accepted)
  obtain ⟨-, rfl, -⟩ := hparts.unique hmeans.parts
  obtain ⟨-, hsign⟩ := hnumeral.plain hmeans.size_decimal
  exact absurd hsign (by simp)

end UsbSentinel.SignatureList
