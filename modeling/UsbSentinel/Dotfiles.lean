import UsbSentinel.FilenameRules

/-! Extensions of names that start with a dot. That dot is no separator by the rules, and is one
to the search from the end. -/
namespace UsbSentinel.SuspiciousFilename
open ByteString UsbSentinel.Location

/-- What the search returns for the n-th dot from the end, of the dots behind the first byte. -/
structure Extracts (name : Bytes) (n : ℕ) : Prop where
  found : ∀ p, nthExtensionFromEnd name n = some p ↔ ∃ front ext, front ≠ [] ∧
    name = front ++ dot :: ext ∧ ext.count dot + 1 = n ∧ p = front.length + 1
  missing : nthExtensionFromEnd name n = none ↔ name.tail.count dot < n

/-- A dotfile without another dot. -/
def Dotfile (name : Bytes) : Prop := ∃ ext, name = dot :: ext ∧ dot ∉ ext

def hiddenText : Bytes := ascii "hidden/system-attributed executable"

/-- No finding that a run adds for the name calls it a hidden executable. -/
def NeverHidden (name : Bytes) : Prop :=
  ∀ (host : ScanHost) (device : Device) (before : CheckResult) (fullPath : Bytes)
    (entry : DirEntry) (w : World), entry.name = name →
    ∃ added, (onFile host device before fullPath entry w).1.findings.items =
      before.findings.items ++ added ∧ ∀ f ∈ added, ¬ hiddenText <:+: f.message

/-- A dot that is followed by one more byte is followed by it, or is it. -/
lemma snoc_split (base front ext : Bytes) (c : UInt8) :
    base ++ [c] = front ++ dot :: ext ↔ c = dot ∧ base = front ∧ ext = [] ∨
      ∃ ext', ext = ext' ++ [c] ∧ base = front ++ dot :: ext' := by
  constructor
  · intro h
    cases ext using List.reverseRecOn with
    | nil =>
      obtain ⟨hbase, hc⟩ := List.append_inj' h rfl
      exact .inl ⟨(List.cons.inj hc).1, hbase, rfl⟩
    | append_singleton ext x =>
      rw [← List.cons_append, ← List.append_assoc] at h
      obtain ⟨hbase, hc⟩ := List.append_inj' h rfl
      exact .inr ⟨ext, by rw [(List.cons.inj hc).1], hbase⟩
  · rintro (⟨rfl, rfl, rfl⟩ | ⟨ext, rfl, rfl⟩)
    · rfl
    · rw [List.append_assoc, List.cons_append]

lemma getElem_snoc (base rest : Bytes) (c : UInt8) :
    (base ++ [c] ++ rest)[base.length]? = some c := by
  rw [List.append_assoc, List.getElem?_append_right le_rfl, Nat.sub_self]
  rfl

lemma count_snoc_dot (ext : Bytes) : (ext ++ [dot]).count dot = ext.count dot + 1 := by
  rw [List.count_append, List.count_singleton_self]

lemma count_snoc_other {c : UInt8} (hc : c ≠ dot) (ext : Bytes) :
    (ext ++ [c]).count dot = ext.count dot := by
  have hnone : [c].count dot = 0 :=
    List.count_eq_zero.mpr fun hmem => hc (List.mem_singleton.mp hmem).symm
  rw [List.count_append, hnone, Nat.add_zero]

/-- The search over the bytes of `base`, from its end. -/
lemma extensionLoop_some_iff {n : ℕ} (base rest : Bytes) {seen : ℕ} (hseen : seen < n) (p : ℕ) :
    extensionLoop (base ++ rest) n base.length seen = some p ↔
      ∃ front ext, base = front ++ dot :: ext ∧ seen + ext.count dot + 1 = n ∧
        p = front.length + 1 := by
  induction base using List.reverseRecOn generalizing rest seen with
  | nil =>
    refine iff_of_false (fun h => nomatch h) ?_
    rintro ⟨front, ext, hnil, _⟩
    exact absurd hnil.symm (List.append_ne_nil_of_right_ne_nil _ (List.cons_ne_nil _ _))
  | append_singleton base c ih =>
    rw [List.length_append, List.length_singleton, extensionLoop, getElem_snoc]
    simp only [snoc_split]
    by_cases hc : c = dot
    · subst hc
      rw [if_pos (show some dot = some 46 from rfl)]
      by_cases hn : seen + 1 = n
      · rw [if_pos hn, Option.some.injEq]
        constructor
        · rintro rfl
          exact ⟨base, [], .inl ⟨rfl, rfl, rfl⟩, hn, rfl⟩
        · rintro ⟨front, ext, ⟨_, rfl, rfl⟩ | ⟨ext, rfl, _⟩, hcount, rfl⟩
          · rfl
          · rw [count_snoc_dot] at hcount
            omega
      · rw [if_neg hn, List.append_assoc, ih _ (by omega)]
        constructor
        · rintro ⟨front, ext, hbase, hcount, hp⟩
          refine ⟨front, ext ++ [dot], .inr ⟨ext, rfl, hbase⟩, ?_, hp⟩
          rw [count_snoc_dot]
          omega
        · rintro ⟨front, ext, ⟨_, rfl, rfl⟩ | ⟨ext, rfl, hbase⟩, hcount, hp⟩
          · exact absurd hcount hn
          · rw [count_snoc_dot] at hcount
            exact ⟨front, ext, hbase, by omega, hp⟩
    · have hother : ¬ some c = some 46 := fun h => hc (Option.some.inj h)
      rw [if_neg hother, List.append_assoc, ih _ hseen]
      constructor
      · rintro ⟨front, ext, hbase, hcount, hp⟩
        refine ⟨front, ext ++ [c], .inr ⟨ext, rfl, hbase⟩, ?_, hp⟩
        rwa [count_snoc_other hc]
      · rintro ⟨front, ext, ⟨heq, _⟩ | ⟨ext, rfl, hbase⟩, hcount, hp⟩
        · exact absurd heq hc
        · rw [count_snoc_other hc] at hcount
          exact ⟨front, ext, hbase, hcount, hp⟩

/-- The search fails exactly where there are too few dots. -/
lemma extensionLoop_none_iff {n : ℕ} (base rest : Bytes) {seen : ℕ} (hseen : seen < n) :
    extensionLoop (base ++ rest) n base.length seen = none ↔ seen + base.count dot < n := by
  induction base using List.reverseRecOn generalizing rest seen with
  | nil => exact iff_of_true rfl hseen
  | append_singleton base c ih =>
    rw [List.length_append, List.length_singleton, extensionLoop, getElem_snoc]
    by_cases hc : c = dot
    · subst hc
      rw [if_pos (show some dot = some 46 from rfl), count_snoc_dot]
      by_cases hn : seen + 1 = n
      · rw [if_pos hn]
        exact iff_of_false (Option.some_ne_none _) (by omega)
      · rw [if_neg hn, List.append_assoc, ih _ (by omega)]
        omega
    · have hother : ¬ some c = some 46 := fun h => hc (Option.some.inj h)
      rw [if_neg hother, List.append_assoc, ih _ hseen, count_snoc_other hc]

theorem nthExtensionFromEnd_some_iff (name : Bytes) {n : ℕ} (hn : 1 ≤ n) (p : ℕ) :
    nthExtensionFromEnd name n = some p ↔
      ∃ front ext, name = front ++ dot :: ext ∧ ext.count dot + 1 = n ∧ p = front.length + 1 := by
  have hloop := @extensionLoop_some_iff n name [] 0 hn p
  simp only [List.append_nil, Nat.zero_add] at hloop
  exact hloop

theorem nthExtensionFromEnd_none_iff (name : Bytes) {n : ℕ} (hn : 1 ≤ n) :
    nthExtensionFromEnd name n = none ↔ name.count dot < n := by
  have hloop := @extensionLoop_none_iff n name [] 0 hn
  rwa [List.append_nil, Nat.zero_add] at hloop

/-- The search is right unless the dot it is to find is the first byte of the name. -/
theorem extracts_iff (name : Bytes) {n : ℕ} (hn : 1 ≤ n) :
    Extracts name n ↔ ¬ ∃ ext, name = dot :: ext ∧ ext.count dot + 1 = n := by
  constructor
  · rintro h ⟨ext, rfl, hcount⟩
    have hfound := (nthExtensionFromEnd_some_iff (dot :: ext) hn 1).mpr ⟨[], ext, rfl, hcount, rfl⟩
    obtain ⟨front, _, hfront, _, _, hlength⟩ := (h.found 1).mp hfound
    exact hfront (List.length_eq_zero_iff.mp (Nat.succ.inj hlength).symm)
  · intro h
    refine ⟨fun p => ?_, ?_⟩
    · rw [nthExtensionFromEnd_some_iff name hn]
      constructor
      · rintro ⟨front, ext, rfl, hcount, hp⟩
        refine ⟨front, ext, ?_, rfl, hcount, hp⟩
        rintro rfl
        exact h ⟨ext, rfl, hcount⟩
      · rintro ⟨front, ext, _, hname, hcount, hp⟩
        exact ⟨front, ext, hname, hcount, hp⟩
    · rw [nthExtensionFromEnd_none_iff name hn]
      cases name with
      | nil => rfl
      | cons c rest =>
        rw [List.tail_cons, List.count_cons]
        by_cases hc : c = dot
        · have hcount : rest.count dot + 1 ≠ n := fun heq => h ⟨rest, by rw [hc], heq⟩
          rw [if_pos (beq_iff_eq.mpr hc)]
          omega
        · rw [if_neg (fun heq => hc (beq_iff_eq.mp heq)), Nat.add_zero]

lemma dotfile_executable {ext : Bytes} (hext : dot ∉ ext) :
    (∃ base ext', ExecutableName (dot :: ext) base ext') ↔ Known executableExtensions ext := by
  constructor
  · rintro ⟨base, ext', hname, hext', hknown⟩
    have hsame := last_dot_unique (show [] ++ dot :: ext = base ++ dot :: ext' from hname) hext hext'
    rwa [hsame.2]
  · intro hknown
    exact ⟨[], ext, rfl, hext, hknown⟩

/-- Of a name without an executable extension only its bidi override is told. -/
lemma verdict_other {entry : DirEntry} (h : ¬ ∃ base ext, ExecutableName entry.name base ext)
    (tuned : Bool) (kind : Kind) :
    (verdict tuned kind entry).finding = if hasBidiOverride entry.name then
      some (.high, ascii "filename contains a Unicode bidi-override character") else none := by
  have hexecutable : hasExecutableExtension entry.name = false :=
    Bool.eq_false_iff.mpr fun heq => h ((hasExecutableExtension_iff _).mp heq)
  have hpadded : hasSpacePadding entry.name = false := by
    refine Bool.eq_false_iff.mpr fun heq => h ?_
    obtain ⟨front, back, ext, hname⟩ := (hasSpacePadding_iff _).mp heq
    exact ⟨_, ext, hname⟩
  have hdisguise : doubleExtensionDisguise entry.name = none := by
    refine Option.eq_none_iff_forall_ne_some.mpr fun reason hsome => h ?_
    obtain ⟨doc, ext, ⟨front, hname, _⟩, _⟩ := (doubleExtensionDisguise_iff _ _).mp hsome
    exact ⟨_, ext, hname⟩
  have hreasons : reasons tuned kind entry = Reasons.appendIf (hasBidiOverride entry.name)
      (ascii "filename contains a Unicode bidi-override character") {} := by
    simp only [reasons, weigh_plain hdisguise, hpadded, hexecutable, Bool.and_false,
      Reasons.appendIf, Bool.false_eq_true, if_false]
  rw [verdict, severity, highRule, hreasons, hpadded, hexecutable, weigh_plain hdisguise,
    Bool.and_false]
  cases hasBidiOverride entry.name <;> decide

lemma neverHidden_of_other {name : Bytes} (h : ¬ ∃ base ext, ExecutableName name base ext) :
    NeverHidden name := by
  rintro host device before fullPath entry w rfl
  have hbidi : ¬ hiddenText <:+: cut findingMessageMax
      (ascii "filename contains a Unicode bidi-override character") := by decide
  have hadds := ((verdict (policyApplies device)
    (kindFor device (relative device.volumePath fullPath)) entry).apply_adds
      (host.findingMemory w.trace) (relative device.volumePath fullPath) before).1
  rw [verdict_other h] at hadds
  rw [onFile_eq]
  dsimp only
  rw [hadds]
  by_cases hbidiName : hasBidiOverride entry.name = true
  · rw [if_pos hbidiName]
    rcases before.findings.push_cases 4 (host.findingMemory w.trace)
      (stored (relative device.volumePath fullPath)
        (.high, ascii "filename contains a Unicode bidi-override character")) with hnew | hfull
    · refine ⟨[_], hnew, fun f hf => ?_⟩
      rw [List.mem_singleton.mp hf]
      exact hbidi
    · exact ⟨[], by rw [List.append_nil]; exact hfull, fun f hf => absurd hf List.not_mem_nil⟩
  · rw [if_neg hbidiName]
    exact ⟨[], by rw [List.append_nil]; rfl, fun f hf => absurd hf List.not_mem_nil⟩

def stick : Device := { volumePath := ascii "/media/stick" }

/-- A hidden file on a stick, with memory to report it. -/
lemma not_neverHidden {name : Bytes} (h : ∃ base ext, ExecutableName name base ext) :
    ¬ NeverHidden name := by
  intro hnever
  have hhidden : HiddenExecutable { name, isHidden := true } := ⟨rfl, h⟩
  have hbus : stick.busType = .usb ∨ stick.busType = .unknown := .inl rfl
  obtain ⟨f, _, htells, _, hitems⟩ := onFile_tells ScanHost.blank
    (CheckResult.init suspiciousFilenameId) name {} hbus (.inr (.inr (.inr hhidden)))
  obtain ⟨added, hadded, hsilent⟩ := hnever ScanHost.blank stick
    (CheckResult.init suspiciousFilenameId) name { name, isHidden := true } {} rfl
  rw [hitems fun _ => rfl] at hadded
  have hfound : f ∈ added := by
    rw [← List.append_cancel_left hadded]
    exact List.mem_singleton_self f
  exact hsilent f hfound (htells.hidden hhidden)

lemma dotfile_neverHidden_iff (name : Bytes) : (Dotfile name → NeverHidden name) ↔
    ∀ ext, name = dot :: ext → dot ∉ ext → ¬ Known executableExtensions ext := by
  constructor
  · rintro h ext rfl hext hknown
    exact not_neverHidden ((dotfile_executable hext).mpr hknown) (h ⟨ext, rfl, hext⟩)
  · rintro h ⟨ext, rfl, hext⟩
    exact neverHidden_of_other fun hname => h ext rfl hext ((dotfile_executable hext).mp hname)

/-- The search and the report are right unless the dot that is looked for is the first byte, or
the name is a dot with an executable extension. -/
theorem extension_extraction_iff (name : Bytes) {n : ℕ} (hn : 1 ≤ n) :
    (Extracts name n ∧ (Dotfile name → NeverHidden name)) ↔
      (¬ (∃ ext, name = dot :: ext ∧ ext.count dot + 1 = n) ∧
        ∀ ext, name = dot :: ext → dot ∉ ext → ¬ Known executableExtensions ext) := by
  rw [extracts_iff name hn, dotfile_neverHidden_iff]

theorem extension_extraction_archive :
    (Extracts (ascii ".notes.tar.gz") 2 ∧
        (Dotfile (ascii ".notes.tar.gz") → NeverHidden (ascii ".notes.tar.gz"))) ↔
      (¬ (∃ ext, ascii ".notes.tar.gz" = dot :: ext ∧ ext.count dot + 1 = 2) ∧
        ∀ ext, ascii ".notes.tar.gz" = dot :: ext → dot ∉ ext →
          ¬ Known executableExtensions ext) :=
  extension_extraction_iff (ascii ".notes.tar.gz") (by decide)

/-- The name ".js" is all extension to the search. -/
theorem extension_extraction_dotfile :
    ¬ ∀ (name : Bytes) (n : ℕ), 1 ≤ n →
      Extracts name n ∧ (Dotfile name → NeverHidden name) := by
  intro h
  have hfound : nthExtensionFromEnd (ascii ".js") 1 = some 1 := by decide +kernel
  obtain ⟨front, ext, hfront, _, _, hlength⟩ :=
    ((h (ascii ".js") 1 le_rfl).1.found 1).mp hfound
  exact hfront (List.length_eq_zero_iff.mp (Nat.succ.inj hlength).symm)

end UsbSentinel.SuspiciousFilename
