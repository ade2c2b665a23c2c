import UsbSentinel.LocationPolicy

/-! The file name rules as they are meant: which names are disguised, and that the one finding
for such a name spells out every rule that holds. -/
namespace UsbSentinel.SuspiciousFilename
open ByteString UsbSentinel.Location

/-! ### The rules -/

def dot : UInt8 := 46

/-- The extension is one of the set, in either case. -/
def Known (set : List Bytes) (ext : Bytes) : Prop := ∃ s ∈ set, equalsCi ext s = true

/-- The name is a base, the last dot and an executable extension. The base may be empty: a dot
that starts the name counts, as it does in the search of the source. -/
def ExecutableName (name base ext : Bytes) : Prop :=
  name = base ++ dot :: ext ∧ dot ∉ ext ∧ Known executableExtensions ext

/-- A document extension stands before the executable one. -/
def DoubleExtension (name doc ext : Bytes) : Prop :=
  ∃ front, ExecutableName name (front ++ dot :: doc) ext ∧ dot ∉ doc ∧ Known documentExtensions doc

/-- One of U+202A to U+202E stands in the name, in UTF-8. -/
def BidiOverride (name : Bytes) : Prop :=
  ∃ before c after, name = before ++ 0xE2 :: 0x80 :: c :: after ∧ 0xAA ≤ c ∧ c ≤ 0xAE

def SpacePadded (name : Bytes) : Prop :=
  ∃ front back ext, ExecutableName name (front ++ List.replicate 4 32 ++ back) ext

def HiddenExecutable (entry : DirEntry) : Prop :=
  entry.isHidden = true ∧ ∃ base ext, ExecutableName entry.name base ext

def Disguised (entry : DirEntry) : Prop :=
  (∃ doc ext, DoubleExtension entry.name doc ext) ∨ BidiOverride entry.name ∨
    SpacePadded entry.name ∨ HiddenExecutable entry

/-- The message holds the text of every rule that holds, whole. -/
structure Tells (entry : DirEntry) (message : Bytes) : Prop where
  double : ∀ doc ext, DoubleExtension entry.name doc ext →
    ascii "double extension disguise (." ++ doc ++ ascii "." ++ ext ++ ascii ")" <:+: message
  bidi : BidiOverride entry.name →
    ascii "filename contains a Unicode bidi-override character" <:+: message
  padded : SpacePadded entry.name → ascii "long space padding hides the real extension" <:+: message
  hidden : HiddenExecutable entry → ascii "hidden/system-attributed executable" <:+: message

/-! ### The search for the dots -/

/-- The last dot of a name is the only place where it can be split so. -/
lemma last_dot_unique {base base' ext ext' : Bytes} (h : base ++ dot :: ext = base' ++ dot :: ext')
    (hext : dot ∉ ext) (hext' : dot ∉ ext') : base = base' ∧ ext = ext' := by
  have hreverse := congrArg List.reverse h
  simp only [List.reverse_append, List.reverse_cons, List.append_assoc, List.singleton_append]
    at hreverse
  have htail : ext.reverse = ext'.reverse := by
    have hfront : ∀ {e b : Bytes}, dot ∉ e →
        (e.reverse ++ dot :: b.reverse).takeWhile (· ≠ dot) = e.reverse := by
      intro e b he
      rw [List.takeWhile_append_of_pos]
      · simp
      · intro c hc
        refine decide_eq_true ?_
        rintro rfl
        exact he (List.mem_reverse.mp hc)
    rw [← @hfront ext base hext, ← @hfront ext' base' hext', hreverse]
  obtain rfl := List.reverse_injective htail
  exact ⟨List.append_cancel_right h, rfl⟩

lemma extensionLoop_none {name : Bytes} (n : ℕ) {p : ℕ} (seen : ℕ) (h : dot ∉ name.take p) :
    extensionLoop name n p seen = none := by
  induction p with
  | zero => rfl
  | succ p ih =>
    have hfront : dot ∉ name.take p := fun hmem =>
      h ((List.take_prefix_take_left (Nat.le_succ p)).subset hmem)
    have hlast : name[p]? ≠ some 46 := by
      intro hget
      obtain ⟨hlt, hget⟩ := List.getElem?_eq_some_iff.mp hget
      exact h (List.mem_take_iff_getElem.mpr ⟨p, by omega, hget⟩)
    rw [extensionLoop, if_neg hlast, ih hfront]

/-- Behind the last dot nothing is found; at it the search ends or goes on in front of it. -/
lemma extensionLoop_dot (base : Bytes) {ext : Bytes} (rest : Bytes) (n seen : ℕ)
    (hext : dot ∉ ext) :
    extensionLoop (base ++ dot :: (ext ++ rest)) n (base.length + 1 + ext.length) seen =
      if seen + 1 = n then some (base.length + 1)
      else extensionLoop (base ++ dot :: (ext ++ rest)) n base.length (seen + 1) := by
  induction ext using List.reverseRecOn generalizing rest with
  | nil =>
    have hget : (base ++ dot :: ([] ++ rest))[base.length]? = some 46 := by simp [dot]
    rw [List.length_nil, Nat.add_zero, extensionLoop, if_pos hget]
  | append_singleton ext c ih =>
    have hc : c ≠ dot := fun h => hext (by simp [h])
    have hget : (base ++ dot :: (ext ++ [c] ++ rest))[base.length + 1 + ext.length]? ≠ some 46 := by
      have hat : (base ++ dot :: (ext ++ [c] ++ rest))[base.length + 1 + ext.length]? = some c := by
        rw [List.getElem?_append_right (by omega),
          show base.length + 1 + ext.length - base.length = ext.length + 1 by omega]
        simp
      rw [hat]
      exact fun h => hc (Option.some.inj h)
    have hstep := ih ([c] ++ rest) (fun h => hext (by simp [h]))
    rw [List.append_assoc] at hget ⊢
    rw [List.length_append, List.length_singleton, ← Nat.add_assoc, extensionLoop, if_neg hget]
    exact hstep

section Dots
variable {base ext : Bytes}

lemma nthExtension_first (hext : dot ∉ ext) :
    nthExtensionFromEnd (base ++ dot :: ext) 1 = some (base.length + 1) := by
  have hlength : (base ++ dot :: ext).length = base.length + 1 + ext.length := by
    rw [List.length_append, List.length_cons]
    omega
  have hloop := extensionLoop_dot base [] 1 0 hext
  rw [List.append_nil, if_pos rfl] at hloop
  rw [nthExtensionFromEnd, hlength, hloop]

lemma nthExtension_second {front doc : Bytes} (hext : dot ∉ ext) (hdoc : dot ∉ doc) :
    nthExtensionFromEnd (front ++ dot :: doc ++ dot :: ext) 2 = some (front.length + 1) := by
  have hlength : (front ++ dot :: doc ++ dot :: ext).length =
      (front ++ dot :: doc).length + 1 + ext.length := by
    rw [List.length_append, List.length_cons]
    omega
  have hbase : (front ++ dot :: doc).length = front.length + 1 + doc.length := by
    rw [List.length_append, List.length_cons]
    omega
  have hlast := extensionLoop_dot (front ++ dot :: doc) [] 2 0 hext
  have hsecond := extensionLoop_dot front (dot :: ext) 2 1 hdoc
  rw [List.append_nil, if_neg (by decide)] at hlast
  rw [if_pos rfl] at hsecond
  rw [nthExtensionFromEnd, hlength, hlast, hbase]
  rw [List.append_assoc, List.cons_append]
  exact hsecond

lemma nthExtension_second_none (hext : dot ∉ ext) (hbase : dot ∉ base) :
    nthExtensionFromEnd (base ++ dot :: ext) 2 = none := by
  have hlength : (base ++ dot :: ext).length = base.length + 1 + ext.length := by
    rw [List.length_append, List.length_cons]
    omega
  have hlast := extensionLoop_dot base [] 2 0 hext
  rw [List.append_nil, if_neg (by decide)] at hlast
  rw [nthExtensionFromEnd, hlength, hlast, extensionLoop_none]
  rwa [List.take_left]

lemma nthExtension_none {name : Bytes} (n : ℕ) (h : dot ∉ name) : nthExtensionFromEnd name n = none := by
  rw [nthExtensionFromEnd, extensionLoop_none]
  rwa [List.take_length]

lemma drop_base (base ext : Bytes) : (base ++ dot :: ext).drop (base.length + 1) = ext := by
  rw [List.drop_append, List.drop_of_length_le (by omega), Nat.add_sub_cancel_left]
  rfl

lemma inSet_iff (ext : Bytes) (set : List Bytes) : inSet ext set = true ↔ Known set ext :=
  List.any_eq_true

lemma hasExecutableExtension_iff (name : Bytes) :
    hasExecutableExtension name = true ↔ ∃ base ext, ExecutableName name base ext := by
  unfold hasExecutableExtension lastExtension
  rcases exists_last dot name with hnone | ⟨base, ext, rfl, hext⟩
  · rw [nthExtension_none 1 hnone]
    refine iff_of_false (by simp) ?_
    rintro ⟨base, ext, rfl, _⟩
    exact hnone (by simp)
  · rw [nthExtension_first hext, Option.map_some, Option.any_some, drop_base, inSet_iff]
    constructor
    · exact fun hknown => ⟨base, ext, rfl, hext, hknown⟩
    · rintro ⟨base', ext', heq, hext', hknown⟩
      rwa [(last_dot_unique heq hext hext').2]

end Dots

/-! ### The predicates of the rules -/

lemma hasBidiOverride_iff (name : Bytes) : hasBidiOverride name = true ↔ BidiOverride name := by
  fun_induction hasBidiOverride name with
  | case1 a b c rest ih =>
    rw [Bool.or_eq_true, ih]
    simp only [Bool.and_eq_true, decide_eq_true_eq]
    constructor
    · rintro (⟨⟨⟨rfl, rfl⟩, hlow⟩, hhigh⟩ | ⟨before, d, after, heq, hd⟩)
      · exact ⟨[], c, rest, rfl, hlow, hhigh⟩
      · exact ⟨a :: before, d, after, by rw [heq]; rfl, hd⟩
    · rintro ⟨before, d, after, heq, hlow, hhigh⟩
      cases before with
      | nil =>
        simp only [List.nil_append, List.cons.injEq] at heq
        obtain ⟨rfl, rfl, rfl, -⟩ := heq
        exact .inl ⟨⟨⟨rfl, rfl⟩, hlow⟩, hhigh⟩
      | cons x before =>
        exact .inr ⟨before, d, after, (List.cons.inj heq).2, hlow, hhigh⟩
  | case2 name hshort =>
    refine iff_of_false Bool.false_ne_true ?_
    rintro ⟨before, c, after, rfl, _⟩
    match before with
    | [] => exact hshort _ _ _ _ rfl
    | [x] => exact hshort _ _ _ _ rfl
    | [x, y] => exact hshort _ _ _ _ rfl
    | x :: y :: z :: before => exact hshort _ _ _ _ rfl

/-- A run that was under way counts as spaces in front. -/
lemma hasSpaceRun_iff (run : ℕ) (name : Bytes) (hrun : run < 4) :
    hasSpaceRun run name = true ↔
      ∃ front back, List.replicate run 32 ++ name = front ++ List.replicate 4 32 ++ back := by
  induction name generalizing run with
  | nil =>
    refine iff_of_false Bool.false_ne_true ?_
    rintro ⟨front, back, heq⟩
    have hlength := congrArg List.length heq
    simp only [List.length_append, List.length_replicate, List.length_nil] at hlength
    omega
  | cons c rest ih =>
    rw [hasSpaceRun]
    by_cases hc : c = 32
    · subst hc
      have hmove : List.replicate run (32 : UInt8) ++ 32 :: rest =
          List.replicate (run + 1) 32 ++ rest := by
        rw [List.replicate_succ', List.append_assoc, List.singleton_append]
      rw [if_pos rfl, hmove]
      by_cases hfull : run + 1 ≥ 4
      · have hfour : run + 1 = 4 := by omega
        rw [if_pos hfull, hfour]
        exact iff_of_true rfl ⟨[], rest, rfl⟩
      · rw [if_neg hfull]
        exact ih (run + 1) (by omega)
    · rw [if_neg hc, ih 0 (by decide)]
      constructor
      · rintro ⟨front, back, heq⟩
        refine ⟨List.replicate run 32 ++ c :: front, back, ?_⟩
        have hrest : rest = front ++ List.replicate 4 32 ++ back := heq
        rw [hrest]
        simp
      · rintro ⟨front, back, heq⟩
        rw [List.append_assoc] at heq
        rcases List.append_eq_append_iff.mp heq with ⟨a, ha, hrest⟩ | ⟨a, ha, hspaces⟩
        · cases a with
          | nil => exact absurd (List.cons.inj hrest).1 hc
          | cons x a =>
            refine ⟨a, back, ?_⟩
            rw [List.append_assoc]
            exact (List.cons.inj hrest).2
        · exfalso
          have hshort : a.length < 4 := by
            have hlength := congrArg List.length ha
            rw [List.length_replicate, List.length_append] at hlength
            omega
          have hget := congrArg (fun l => l[a.length]?) hspaces
          rw [List.getElem?_append_left (by rw [List.length_replicate]; exact hshort),
            List.getElem?_append_right (Nat.le_refl _), Nat.sub_self,
            List.getElem?_replicate_of_lt hshort] at hget
          exact hc (Option.some.inj hget).symm

lemma take_base (base ext : Bytes) : (base ++ dot :: ext).take (base.length + 1) = base ++ [dot] := by
  rw [List.take_append, List.take_of_length_le (by omega), Nat.add_sub_cancel_left]
  rfl

/-- The dot ends no run of spaces. -/
lemma spaces_before_dot (base : Bytes) :
    (∃ front back, base ++ [dot] = front ++ List.replicate 4 32 ++ back) ↔
      ∃ front back, base = front ++ List.replicate 4 32 ++ back := by
  constructor
  · rintro ⟨front, back, heq⟩
    cases back using List.reverseRecOn with
    | nil =>
      have hlast := congrArg List.getLast? heq
      simp [dot] at hlast
    | append_singleton back x =>
      rw [← List.append_assoc] at heq
      exact ⟨front, back, (List.append_inj' heq rfl).1⟩
  · rintro ⟨front, back, rfl⟩
    exact ⟨front, back ++ [dot], by rw [List.append_assoc]⟩

lemma hasSpacePadding_iff (name : Bytes) : hasSpacePadding name = true ↔ SpacePadded name := by
  unfold hasSpacePadding
  rcases exists_last dot name with hnone | ⟨base, ext, rfl, hext⟩
  · rw [nthExtension_none 1 hnone]
    refine iff_of_false Bool.false_ne_true ?_
    rintro ⟨front, back, ext, rfl, _⟩
    exact hnone (by simp)
  · have hrun := (hasSpaceRun_iff 0 (base ++ [dot]) (by decide)).trans (spaces_before_dot base)
    rw [nthExtension_first hext]
    simp only
    rw [drop_base, take_base, Bool.and_eq_true, inSet_iff, hrun]
    constructor
    · rintro ⟨hknown, front, back, rfl⟩
      exact ⟨front, back, ext, rfl, hext, hknown⟩
    · rintro ⟨front, back, ext', heq, hext', hknown⟩
      obtain ⟨rfl, rfl⟩ := last_dot_unique heq hext hext'
      exact ⟨hknown, front, back, rfl⟩

lemma known_length {set : List Bytes} {ext : Bytes} {n : ℕ} (hset : ∀ s ∈ set, s.length ≤ n)
    (h : Known set ext) : ext.length ≤ n := by
  obtain ⟨s, hs, heq⟩ := h
  have hlength := congrArg List.length (of_decide_eq_true heq)
  rw [List.length_map, List.length_map] at hlength
  rw [hlength]
  exact hset s hs

lemma known_ne_nil {set : List Bytes} {ext : Bytes} (hset : ∀ s ∈ set, s ≠ [])
    (h : Known set ext) : ext ≠ [] := by
  obtain ⟨s, hs, heq⟩ := h
  rintro rfl
  have hmap := of_decide_eq_true heq
  exact hset s hs (List.map_eq_nil_iff.mp hmap.symm)

def doubleText (doc ext : Bytes) : Bytes :=
  ascii "double extension disguise (." ++ doc ++ ascii "." ++ ext ++ ascii ")"

lemma doubleText_length {doc ext : Bytes} (hdoc : Known documentExtensions doc)
    (hext : Known executableExtensions ext) : (doubleText doc ext).length ≤ 37 := by
  have hdocLength : doc.length ≤ 4 := known_length (by decide) hdoc
  have hextLength : ext.length ≤ 3 := known_length (by decide) hext
  have hopen : (ascii "double extension disguise (.").length = 28 := ascii_length _
  have hdot : (ascii ".").length = 1 := ascii_length _
  have hclose : (ascii ")").length = 1 := ascii_length _
  simp only [doubleText, List.length_append, hopen, hdot, hclose]
  omega

lemma doubleExtensionDisguise_some (front : Bytes) {doc ext : Bytes} (hext : dot ∉ ext)
    (hdoc : dot ∉ doc)
    (hdocKnown : Known documentExtensions doc) (hextKnown : Known executableExtensions ext) :
    doubleExtensionDisguise (front ++ dot :: doc ++ dot :: ext) = some (doubleText doc ext) := by
  have hnonempty : 0 < doc.length :=
    List.length_pos_iff.mpr (known_ne_nil (by decide) hdocKnown)
  have hdocLength : doc.length ≤ 4 := known_length (by decide) hdocKnown
  have hbase : (front ++ dot :: doc).length = front.length + 1 + doc.length := by
    rw [List.length_append, List.length_cons]
    omega
  have hlength : (front ++ dot :: doc).length + 1 - 1 - (front.length + 1) = doc.length := by omega
  have hsecond : ((front ++ dot :: doc ++ dot :: ext).drop (front.length + 1)).take doc.length =
      doc := by
    rw [List.append_assoc, List.cons_append, drop_base, List.take_left]
  have hshort := doubleText_length hdocKnown hextKnown
  unfold doubleExtensionDisguise
  rw [nthExtension_first hext, nthExtension_second hext hdoc]
  simp only [drop_base, (inSet_iff ext _).mpr hextKnown, hlength, hsecond,
    (inSet_iff doc _).mpr hdocKnown, Bool.not_true, Bool.false_eq_true, if_false, if_true]
  rw [if_neg (by omega), if_neg (by omega)]
  exact congrArg some (cut_eq_self (by unfold doubleText at hshort; omega))

lemma doubleExtensionDisguise_iff (name reason : Bytes) :
    doubleExtensionDisguise name = some reason ↔
      ∃ doc ext, DoubleExtension name doc ext ∧ reason = doubleText doc ext := by
  constructor
  · intro h
    rcases exists_last dot name with hnone | ⟨base, ext, rfl, hext⟩
    · rw [doubleExtensionDisguise, nthExtension_none 1 hnone] at h
      exact nomatch h
    · rcases exists_last dot base with hnone | ⟨front, doc, rfl, hdoc⟩
      · rw [doubleExtensionDisguise, nthExtension_first hext, nthExtension_second_none hext hnone] at h
        exact nomatch h
      · have hlength : (front ++ dot :: doc).length + 1 - 1 - (front.length + 1) = doc.length := by
          rw [List.length_append, List.length_cons]
          omega
        have hsecond : ((front ++ dot :: doc ++ dot :: ext).drop (front.length + 1)).take
            doc.length = doc := by
          rw [List.append_assoc, List.cons_append, drop_base, List.take_left]
        have hknown : Known executableExtensions ext ∧ Known documentExtensions doc := by
          unfold doubleExtensionDisguise at h
          rw [nthExtension_first hext, nthExtension_second hext hdoc] at h
          simp only [drop_base, hlength, hsecond] at h
          split_ifs at h with hexecutable _ _ hdocument
          rw [Bool.not_eq_true', Bool.not_eq_false] at hexecutable
          exact ⟨(inSet_iff _ _).mp hexecutable, (inSet_iff _ _).mp hdocument⟩
        have hsome := doubleExtensionDisguise_some front hext hdoc hknown.2 hknown.1
        rw [hsome] at h
        exact ⟨doc, ext, ⟨front, ⟨rfl, hext, hknown.1⟩, hdoc, hknown.2⟩, (Option.some.inj h).symm⟩
  · rintro ⟨doc, ext, ⟨front, ⟨rfl, hext, hextKnown⟩, hdoc, hdocKnown⟩, rfl⟩
    exact doubleExtensionDisguise_some front hext hdoc hdocKnown hextKnown

/-! ### The texts -/

/-- The buffer holds these texts whole, and no more than `size` bytes. -/
structure Reasons.Holds (texts : List Bytes) (size : ℕ) (r : Reasons) : Prop where
  tail : r.tail = []
  whole : ∀ t ∈ texts, t <:+: r.kept
  length : r.kept.length ≤ size
  empty_iff : r.kept = [] ↔ texts = []

lemma Reasons.Holds.append {texts : List Bytes} {size : ℕ} {r : Reasons} (h : r.Holds texts size)
    {text : Bytes} (hpos : 0 < text.length) (hfits : size + 2 + text.length < findingMessageMax) :
    (r.append text).Holds (texts ++ [text]) (size + 2 + text.length) := by
  have hsize := h.length
  have hmark : (ascii "; ").length = 2 := ascii_length _
  have hpiece : ∀ piece : Bytes, piece = (if r.kept ≠ [] then ascii "; " else []) ++ text →
      piece.length ≤ 2 + text.length ∧ text.length ≤ piece.length := by
    rintro piece rfl
    rw [List.length_append]
    split_ifs
    · omega
    · rw [List.length_nil]
      omega
  obtain ⟨hle, hge⟩ := hpiece _ rfl
  have hroom : 0 < ((if r.kept ≠ [] then ascii "; " else []) ++ text).length ∧
      ((if r.kept ≠ [] then ascii "; " else []) ++ text).length <
        findingMessageMax - r.kept.length := by omega
  unfold Reasons.append
  rw [if_pos hroom]
  refine ⟨rfl, ?_, ?_, ?_⟩
  · intro t ht
    rcases List.mem_append.mp ht with ht | ht
    · exact (h.whole t ht).trans (List.prefix_append _ _).isInfix
    · rw [List.mem_singleton.mp ht]
      exact ((List.suffix_append _ _).trans (List.suffix_append _ _)).isInfix
  · rw [List.length_append]
    omega
  · refine iff_of_false ?_ (by simp)
    intro hnil
    have hlength := congrArg List.length hnil
    rw [List.length_append, List.length_nil] at hlength
    omega

lemma Reasons.Holds.appendIf {texts : List Bytes} {size : ℕ} {r : Reasons} (h : r.Holds texts size)
    (condition : Bool) {text : Bytes} (hpos : 0 < text.length)
    (hfits : size + 2 + text.length < findingMessageMax) :
    (r.appendIf condition text).Holds (texts ++ if condition then [text] else [])
      (size + 2 + text.length) := by
  cases condition with
  | true => exact h.append hpos hfits
  | false =>
    have hlength := h.length
    simp only [Reasons.appendIf, Bool.false_eq_true, if_false, List.append_nil]
    exact ⟨h.tail, h.whole, by omega, h.empty_iff⟩

/-- The texts of the rules that the name meets, in the order of the source. -/
def ruleTexts (entry : DirEntry) : List Bytes :=
  (doubleExtensionDisguise entry.name).toList ++
    (if hasBidiOverride entry.name then
      [ascii "filename contains a Unicode bidi-override character"] else []) ++
    (if hasSpacePadding entry.name then
      [ascii "long space padding hides the real extension"] else []) ++
    (if entry.isHidden && hasExecutableExtension entry.name then
      [ascii "hidden/system-attributed executable"] else [])

lemma weigh_holds (kind : Kind) (name : Bytes) :
    (weigh false kind name).reasons.Holds (doubleExtensionDisguise name).toList 39 := by
  have hempty : Reasons.Holds [] 0 {} := ⟨rfl, (fun _ h => nomatch h), Nat.le_refl _, by simp⟩
  cases hdisguise : doubleExtensionDisguise name with
  | none =>
    rw [weigh_plain hdisguise]
    exact ⟨rfl, (fun _ h => nomatch h), Nat.zero_le _, by simp⟩
  | some reason =>
    obtain ⟨doc, ext, ⟨_, ⟨_, _, hext⟩, _, hdoc⟩, rfl⟩ :=
      (doubleExtensionDisguise_iff name reason).mp hdisguise
    have hlength := doubleText_length hdoc hext
    have hholds := hempty.append (disguise_length hdisguise).1
      (by unfold findingMessageMax; omega)
    rw [weigh_strict hdisguise]
    exact ⟨hholds.tail, hholds.whole, hholds.length.trans (by omega), hholds.empty_iff⟩

/-- All the texts together fit the message. -/
lemma reasons_holds (kind : Kind) (entry : DirEntry) :
    (reasons false kind entry).Holds (ruleTexts entry) 174 := by
  have hbidi : (ascii "filename contains a Unicode bidi-override character").length = 51 := ascii_length _
  have hpadded : (ascii "long space padding hides the real extension").length = 43 := ascii_length _
  have hhidden : (ascii "hidden/system-attributed executable").length = 35 := ascii_length _
  have h₁ := (weigh_holds kind entry.name).appendIf (hasBidiOverride entry.name)
    (by rw [hbidi]; decide) (by rw [hbidi]; decide)
  rw [hbidi] at h₁
  have h₂ := h₁.appendIf (hasSpacePadding entry.name) (by rw [hpadded]; decide)
    (by rw [hpadded]; decide)
  rw [hpadded] at h₂
  have h₃ := h₂.appendIf (entry.isHidden && hasExecutableExtension entry.name)
    (by rw [hhidden]; decide) (by rw [hhidden]; decide)
  rw [hhidden] at h₃
  exact h₃

lemma hidden_iff (entry : DirEntry) :
    (entry.isHidden && hasExecutableExtension entry.name) = true ↔ HiddenExecutable entry := by
  rw [Bool.and_eq_true, hasExecutableExtension_iff]
  rfl

lemma ruleTexts_ne_nil (entry : DirEntry) : ruleTexts entry ≠ [] ↔ Disguised entry := by
  have hdouble : (doubleExtensionDisguise entry.name).toList ≠ [] ↔
      ∃ doc ext, DoubleExtension entry.name doc ext := by
    cases hdisguise : doubleExtensionDisguise entry.name with
    | none =>
      refine iff_of_false (by simp) ?_
      rintro ⟨doc, ext, h⟩
      have hsome := (doubleExtensionDisguise_iff _ _).mpr ⟨doc, ext, h, rfl⟩
      rw [hdisguise] at hsome
      exact nomatch hsome
    | some reason =>
      obtain ⟨doc, ext, h, _⟩ := (doubleExtensionDisguise_iff _ _).mp hdisguise
      exact iff_of_true (by simp) ⟨doc, ext, h⟩
  have hrule : ∀ (condition : Bool) (text : Bytes),
      (if condition then [text] else []) ≠ [] ↔ condition = true := by
    intro condition text
    cases condition <;> simp
  unfold Disguised ruleTexts
  rw [← hdouble, ← hasBidiOverride_iff, ← hasSpacePadding_iff, ← hidden_iff]
  simp only [ne_eq, List.append_eq_nil_iff, not_and_or] at hrule ⊢
  simp only [hrule, or_assoc]

lemma tells_of_whole {entry : DirEntry} {message : Bytes}
    (h : ∀ t ∈ ruleTexts entry, t <:+: message) : Tells entry message := by
  unfold ruleTexts at h
  refine ⟨?_, ?_, ?_, ?_⟩
  · intro doc ext hdouble
    have hsome := (doubleExtensionDisguise_iff _ _).mpr ⟨doc, ext, hdouble, rfl⟩
    refine h _ ?_
    rw [hsome]
    simp [doubleText]
  · intro hbidi
    refine h _ ?_
    rw [if_pos ((hasBidiOverride_iff _).mpr hbidi)]
    simp
  · intro hpadded
    refine h _ ?_
    rw [if_pos ((hasSpacePadding_iff _).mpr hpadded)]
    simp
  · intro hhidden
    refine h _ ?_
    rw [if_pos ((hidden_iff _).mpr hhidden)]
    simp

/-- A disguised name on a stick is high, whichever rule it meets. -/
lemma severity_strict (kind : Kind) {entry : DirEntry} (h : Disguised entry) :
    severity false kind entry = .high := by
  have hhigh : ((weigh false kind entry.name).high || highRule entry) = true := by
    obtain ⟨doc, ext, hdouble⟩ | hbidi | hpadded | hhidden := h
    · have hsome := (doubleExtensionDisguise_iff _ _).mpr ⟨doc, ext, hdouble, rfl⟩
      rw [weigh_strict hsome]
      rfl
    · simp [highRule, (hasBidiOverride_iff _).mpr hbidi]
    · simp [highRule, (hasSpacePadding_iff _).mpr hpadded]
    · simp only [highRule, (hidden_iff _).mpr hhidden, Bool.or_true]
  rw [severity, if_pos hhigh]

/-- The one finding for a disguised name on a USB device or an unknown bus. -/
lemma onFile_tells (host : ScanHost) {device : Device} (before : CheckResult) (fullPath : Bytes)
    {entry : DirEntry} (w : World) (hbus : device.busType = .usb ∨ device.busType = .unknown)
    (hdisguised : Disguised entry) :
    ∃ f : Finding, f.severity = .high ∧ Tells entry f.message ∧
      Adds (host.findingMemory w.trace) before (onFile host device before fullPath entry w).1 [f] := by
  have hholds := reasons_holds (kindFor device (relative device.volumePath fullPath)) entry
  rw [onFile_eq, policyApplies_usb hbus]
  generalize kindFor device (relative device.volumePath fullPath) = kind at hholds ⊢
  have hne : (reasons false kind entry).kept ≠ [] := fun hnil =>
    (ruleTexts_ne_nil entry).mpr hdisguised (hholds.empty_iff.mp hnil)
  have htext : (reasons false kind entry).text = (reasons false kind entry).kept := by
    rw [Reasons.text, hholds.tail, List.append_nil]
  have hmessage : cut findingMessageMax (reasons false kind entry).kept =
      (reasons false kind entry).kept := by
    refine cut_eq_self (Nat.lt_of_le_of_lt hholds.length ?_)
    decide
  have hfinding : (verdict false kind entry).finding =
      some (.high, (reasons false kind entry).kept) := by
    rw [verdict, if_pos (List.length_pos_iff.mpr hne), severity_strict kind hdisguised, htext]
  have hadds := (verdict false kind entry).apply_adds (host.findingMemory w.trace)
    (relative device.volumePath fullPath) before
  rw [hfinding] at hadds
  refine ⟨_, rfl, ?_, hadds⟩
  rw [stored, hmessage]
  exact tells_of_whole hholds.whole

/-- On a USB device or an unknown bus: one high finding with every text for a disguised name,
and no trace of any other name. -/
theorem onFile_disguised (host : ScanHost) (device : Device) (before : CheckResult)
    (fullPath : Bytes) (entry : DirEntry) (w : World)
    (hbus : device.busType = .usb ∨ device.busType = .unknown) :
    (Disguised entry → ∃ f : Finding, f.severity = .high ∧ Tells entry f.message ∧
        Adds (host.findingMemory w.trace) before (onFile host device before fullPath entry w).1 [f]) ∧
      (¬ Disguised entry → (onFile host device before fullPath entry w).1 = before) := by
  refine ⟨onFile_tells host before fullPath w hbus, ?_⟩
  intro hplain
  have hkept := (reasons_holds (kindFor device (relative device.volumePath fullPath)) entry).empty_iff
  rw [onFile_eq, policyApplies_usb hbus]
  generalize kindFor device (relative device.volumePath fullPath) = kind at hkept ⊢
  have hnil : (reasons false kind entry).kept = [] :=
    hkept.mpr (not_not.mp fun hne => hplain ((ruleTexts_ne_nil entry).mp hne))
  have hunweighed : weigh false kind entry.name = {} := by
    refine weigh_plain (Option.eq_none_iff_forall_ne_some.mpr fun reason hsome => hplain ?_)
    obtain ⟨doc, ext, hdouble, _⟩ := (doubleExtensionDisguise_iff _ _).mp hsome
    exact .inl ⟨doc, ext, hdouble⟩
  have hsilent : verdict false kind entry = {} := by
    rw [verdict, hnil, if_neg (by simp), hunweighed]
  rw [hsilent, Verdict.apply_silent, if_neg Bool.false_ne_true]

def resume : DirEntry := { name := ascii "cv.pdf.exe" }

lemma resume_disguised : Disguised resume :=
  .inl ⟨ascii "pdf", ascii "exe", ascii "cv",
    ⟨by decide, by decide, ascii "exe", by decide, by decide⟩,
    by decide, ascii "pdf", by decide, by decide⟩

theorem onFile_disguised_resume :
    ∃ f : Finding, f.severity = .high ∧ Tells resume f.message ∧
      Adds (ScanHost.blank.findingMemory []) (CheckResult.init suspiciousFilenameId)
        (onFile ScanHost.blank { volumePath := ascii "/v" } (CheckResult.init suspiciousFilenameId)
          (ascii "/v/cv.pdf.exe") resume {}).1 [f] :=
  (onFile_disguised ScanHost.blank { volumePath := ascii "/v" }
    (CheckResult.init suspiciousFilenameId) (ascii "/v/cv.pdf.exe") resume {} (.inl rfl)).1
    resume_disguised

end UsbSentinel.SuspiciousFilename
