import UsbSentinel.PosixNames

/-! The sanitiser against its purpose: the input in pieces, a replacement for each invalid byte,
and as many whole pieces as there is room for. -/
namespace UsbSentinel.Posix
open ByteString

/-- The pieces of a text: its valid sequences, and a replacement for every byte that no valid
sequence begins with. -/
inductive Pieces : Bytes → List Bytes → Prop
  | nil : Pieces [] []
  | sequence {c rest : Bytes} {pieces : List Bytes} (hc : Utf8.Sequence c)
      (later : Pieces rest pieces) : Pieces (c ++ rest) (c :: pieces)
  | invalid {b : UInt8} {rest : Bytes} {pieces : List Bytes}
      (hb : ∀ c, Utf8.Sequence c → ¬c <+: b :: rest) (later : Pieces rest pieces) :
      Pieces (b :: rest) (replacement :: pieces)

lemma sequenceLength_invalid {b : UInt8} {rest : Bytes} :
    utf8SequenceLength (b :: rest) = 0 ↔ ∀ c, Utf8.Sequence c → ¬c <+: b :: rest := by
  constructor
  · rintro hzero c hc ⟨more, hmore⟩
    rw [← hmore, length_of_sequence hc] at hzero
    exact absurd hc.length_pos (by omega)
  · intro h
    cases hlength : utf8SequenceLength (b :: rest) with
    | zero => rfl
    | succ n => exact absurd (List.take_prefix _ _) (h _ (sequence_of_length hlength).1)

theorem exists_pieces (text : Bytes) : ∃ pieces, Pieces text pieces := by
  induction hn : text.length using Nat.strong_induction_on generalizing text with
  | _ n ih =>
    cases text with
    | nil => exact ⟨[], .nil⟩
    | cons b rest =>
      rw [List.length_cons] at hn
      cases hlength : utf8SequenceLength (b :: rest) with
      | zero =>
        obtain ⟨pieces, hpieces⟩ := ih rest.length (by omega) rest rfl
        exact ⟨_, .invalid (sequenceLength_invalid.mp hlength) hpieces⟩
      | succ k =>
        obtain ⟨hsequence, hle⟩ := sequence_of_length hlength
        obtain ⟨pieces, hpieces⟩ := ih ((b :: rest).drop (k + 1)).length (by
          rw [List.length_drop, List.length_cons]
          omega) _ rfl
        have hwhole := Pieces.sequence hsequence hpieces
        rw [List.take_append_drop] at hwhole
        exact ⟨_, hwhole⟩

/-- No valid sequence begins another, so a text has its pieces in one way only. -/
theorem Pieces.unique {text : Bytes} {pieces pieces' : List Bytes} (h : Pieces text pieces)
    (h' : Pieces text pieces') : pieces = pieces' := by
  induction h generalizing pieces' with
  | nil =>
    generalize htext : ([] : Bytes) = text at h'
    cases h' with
    | nil => rfl
    | sequence hc _ => exact absurd (List.append_eq_nil_iff.mp htext.symm).1 hc.ne_nil
    | invalid => cases htext
  | @sequence c rest pieces hc _ ih =>
    generalize htext : c ++ rest = text at h'
    cases h' with
    | nil => exact absurd (List.append_eq_nil_iff.mp htext).1 hc.ne_nil
    | @sequence c' rest' pieces' hc' later' =>
      have hlength : c.length = c'.length := by
        rw [← length_of_sequence hc rest, htext, length_of_sequence hc' rest']
      obtain ⟨rfl, rfl⟩ := List.append_inj htext hlength
      rw [ih later']
    | invalid hb later' => exact absurd ⟨rest, htext⟩ (hb c hc)
  | @invalid b rest pieces hb _ ih =>
    generalize htext : b :: rest = text at h'
    cases h' with
    | nil => cases htext
    | @sequence c' rest' pieces' hc' later' => exact absurd ⟨rest', htext.symm⟩ (hb c' hc')
    | invalid hb' later' =>
      obtain ⟨rfl, rfl⟩ := List.cons.inj htext
      rw [ih later']

/-- The loop appends pieces while the next one fits. -/
lemma sanitizeLoop_pieces {cap fuel : ℕ} {inp out : Bytes} {pieces : List Bytes}
    (h : Pieces inp pieces) (hfuel : inp.length ≤ fuel) :
    ∃ kept lost, pieces = kept ++ lost ∧
      sanitizeLoop cap fuel inp out = out ++ kept.flatten ∧
      ∀ next ∈ lost.head?, cap ≤ (out ++ kept.flatten).length + next.length := by
  induction h generalizing fuel out with
  | nil => exact ⟨[], [], rfl, by cases fuel <;> simp [sanitizeLoop], nofun⟩
  | @sequence c rest pieces hc _ ih =>
    obtain ⟨b, tail, rfl⟩ := List.exists_cons_of_ne_nil hc.ne_nil
    have hlength := length_of_sequence hc rest
    cases fuel with
    | zero => simp at hfuel
    | succ fuel =>
      simp only [List.cons_append, List.length_cons, List.length_append] at hlength hfuel ⊢
      simp only [sanitizeLoop, hlength]
      by_cases hfull : out.length + (tail.length + 1) ≥ cap
      · rw [if_pos hfull]
        refine ⟨[], _, rfl, by simp, fun next hnext => ?_⟩
        obtain rfl := Option.some.inj hnext
        simpa using hfull
      · have htake : (b :: (tail ++ rest)).take (tail.length + 1) = b :: tail := by simp
        rw [if_neg hfull, List.drop_left, htake]
        obtain ⟨kept, lost, hpieces, hloop, hnext⟩ := @ih fuel (out ++ b :: tail) (by omega)
        refine ⟨(b :: tail) :: kept, lost, by rw [hpieces]; rfl, ?_, ?_⟩
        · rw [hloop, List.flatten_cons, List.append_assoc]
        · rw [List.flatten_cons, ← List.length_append, ← List.append_assoc]
          exact hnext
  | @invalid b rest pieces hb _ ih =>
    cases fuel with
    | zero => simp at hfuel
    | succ fuel =>
      rw [List.length_cons] at hfuel
      simp only [sanitizeLoop, sequenceLength_invalid.mpr hb]
      by_cases hfull : out.length + 3 ≥ cap
      · rw [if_pos hfull]
        refine ⟨[], _, rfl, by simp, fun next hnext => ?_⟩
        obtain rfl := Option.some.inj hnext
        simpa [replacement] using hfull
      · rw [if_neg hfull]
        obtain ⟨kept, lost, hpieces, hloop, hnext⟩ := @ih fuel (out ++ replacement) (by omega)
        refine ⟨replacement :: kept, lost, by rw [hpieces]; rfl, ?_, ?_⟩
        · rw [hloop, List.flatten_cons, List.append_assoc]
        · rw [List.flatten_cons, ← List.append_assoc]
          exact hnext

/-- What the sanitiser is for. -/
structure Sanitized (src : Bytes) (cap : ℕ) (out : Bytes) : Prop where
  string : 0 ∉ out
  room : out.length < cap
  valid : Utf8.Valid out
  /-- No more pieces of the input would fit. -/
  longest : ∃ kept lost, Pieces src (kept ++ lost) ∧ out = kept.flatten ∧
    ∀ kept' lost', kept ++ lost = kept' ++ lost' → kept'.flatten.length < cap → kept' <+: kept
  same : Utf8.Valid src → src.length < cap → out = src
  again : sanitizeUtf8 out cap = out

/-- The source is read up to its NUL. -/
theorem sanitizeUtf8_sanitized (src : Bytes) {cap : ℕ} (hcap : 0 < cap) :
    Sanitized (cstr src) cap (sanitizeUtf8 (cstr src) cap) := by
  have hvalid := sanitizeUtf8_valid (cstr src) cap
  have hroom : (sanitizeUtf8 (cstr src) cap).length < cap := sanitizeLoop_length hcap
  obtain ⟨pieces, hpieces⟩ := exists_pieces (cstr src)
  obtain ⟨kept, lost, rfl, hloop, hnext⟩ :=
    @sanitizeLoop_pieces cap _ _ [] _ hpieces le_rfl
  rw [List.nil_append] at hloop hnext
  refine ⟨fun hzero => ?_, hroom, hvalid, ⟨kept, lost, hpieces, hloop, ?_⟩,
    fun hsrc hfits => (sanitizeUtf8_eq_self_iff hcap).mpr ⟨hsrc, hfits⟩,
    (sanitizeUtf8_eq_self_iff hcap).mpr ⟨hvalid, hroom⟩⟩
  · rcases mem_sanitizeUtf8 hzero with hsrc | hreplacement
    · simpa using List.mem_takeWhile_imp hsrc
    · exact absurd hreplacement (by decide)
  · intro kept' lost' hsplit hfits
    rcases List.prefix_or_prefix_of_prefix ⟨lost, rfl⟩ ⟨lost', hsplit.symm⟩ with hle | hle
    · obtain ⟨more, rfl⟩ := hle
      cases more with
      | nil => rw [List.append_nil]
      | cons next more =>
        -- the piece behind the kept ones would have fitted
        have hlost : lost = next :: (more ++ lost') := by
          rw [List.append_assoc] at hsplit
          exact List.append_cancel_left hsplit
        have hfull := hnext next (by rw [hlost]; rfl)
        simp only [List.flatten_append, List.flatten_cons, List.length_append] at hfits
        omega
    · exact hle

theorem sanitizeUtf8_cut : Sanitized (cstr [0x61, 0xFF, 0xC3, 0xA9, 0]) 6
    (sanitizeUtf8 (cstr [0x61, 0xFF, 0xC3, 0xA9, 0]) 6) :=
  sanitizeUtf8_sanitized [0x61, 0xFF, 0xC3, 0xA9, 0] (by decide)

end UsbSentinel.Posix
