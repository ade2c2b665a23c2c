import UsbSentinel.Disk
import UsbSentinel.JsonRoundtrip
import UsbSentinel.StoreIndex

/-! Where an accepted report lies: one directory below the scans root, unless the
timestamp brings a separator or the identity is itself a dot name. -/
namespace UsbSentinel.Store
open ByteString UsbSentinel.Path

/-- The two public ways to write a report. -/
inductive Form | json | csv
  deriving DecidableEq, Repr

def Form.extension : Form → Bytes
  | .json => ascii "json"
  | .csv => ascii "csv"

def storeReport {σ : Type} (P : StorePlatform σ) (host : Host) (lib : Json.CLib)
    (memory : Memory) (store : Store) (form : Form)
    (identity scanId timestamp content : Bytes) (outCap : ℕ) (s : σ) : Except Status Bytes × σ :=
  match form with
  | .json => writeReport P host lib memory store identity scanId timestamp content outCap s
  | .csv => writeReportCsv P host store identity scanId timestamp content outCap s

def dotName : Bytes := ascii "."
def dotDotName : Bytes := ascii ".."

/-- A name that stays in the directory it is looked up in. -/
structure Single (host : Host) (name : Bytes) : Prop where
  ne_nil : name ≠ []
  plain : ∀ c ∈ name, isSeparator host c = false
  ne_dot : name ≠ dotName
  ne_dotDot : name ≠ dotDotName

/-- A direct child of one directory directly below the scans root. -/
def Contained (host : Host) (root path : Bytes) : Prop :=
  ∃ component leaf, Single host component ∧ Single host leaf ∧
    path = joined host (joined host (joined host root (ascii "scans")) component) leaf

set_option maxRecDepth 8000 in
lemma isSafe_not_separator (host : Host) : ∀ c : UInt8, isSafe c = true →
    isSeparator host c = false := by
  cases host <;> decide

lemma safe_plain (host : Host) {identity : Bytes} :
    ∀ c ∈ encode identity, isSeparator host c = false :=
  fun c hc => isSafe_not_separator host c (isSafe_of_mem_encode hc)

lemma encode_eq_self_iff {identity name : Bytes} (hname : ∀ c ∈ name, c = 46) :
    encode identity = name ↔ identity = name := by
  have hself : ∀ {name : Bytes}, (∀ c ∈ name, c = 46) → encode name = name := by
    intro name h
    induction name with
    | nil => rfl
    | cons c name ih =>
      obtain rfl := h c (by simp)
      rw [encode_cons, ih fun c hc => h c (by simp [hc])]
      rfl
  constructor
  · intro h
    have hconf := confusable_of_encode_eq (h.trans (hself hname).symm)
    clear h
    induction hconf with
    | nil => rfl
    | same b _ ih => rw [ih fun c hc => hname c (by simp [hc])]
    | spelledRight u _ _ _ => exact absurd (hname underscore (by simp)) (by decide)
    | spelledLeft u hu _ _ =>
      obtain rfl := hname u (by simp)
      exact absurd hu (by decide)
  · rintro rfl
    exact hself hname

/-- The first separator splits a path in one way. -/
lemma append_separator_inj {host : Host} {a b c d : Bytes} {s t : UInt8}
    (ha : ∀ x ∈ a, isSeparator host x = false) (hc : ∀ x ∈ c, isSeparator host x = false)
    (hs : isSeparator host s = true) (ht : isSeparator host t = true)
    (h : a ++ s :: b = c ++ t :: d) : a = c ∧ b = d := by
  induction a generalizing c with
  | nil =>
    cases c with
    | nil => exact ⟨rfl, (List.cons.inj h).2⟩
    | cons y c =>
      obtain ⟨rfl, _⟩ := List.cons.inj h
      rw [hc s (by simp)] at hs
      exact absurd hs (by simp)
  | cons x a ih =>
    cases c with
    | nil =>
      obtain ⟨rfl, _⟩ := List.cons.inj h
      rw [ha x (by simp)] at ht
      exact absurd ht (by simp)
    | cons y c =>
      obtain ⟨rfl, htail⟩ := List.cons.inj h
      have hac := ih (fun z hz => ha z (List.mem_cons_of_mem _ hz))
        (fun z hz => hc z (List.mem_cons_of_mem _ hz)) htail
      exact ⟨by rw [hac.1], hac.2⟩

lemma joined_plain {host : Host} {base name leaf : Bytes} (hne : name ≠ [])
    (hplain : ∀ c ∈ name, isSeparator host c = false) :
    joined host (joined host base name) leaf = stem host base ++ (name ++ host.sep :: leaf) := by
  have hlast : (joined host base name).getLast?.any (isSeparator host) = false := by
    rw [joined_eq_stem_append, List.getLast?_append_of_ne_nil _ hne,
      List.getLast?_eq_some_getLast hne]
    simpa using hplain _ (List.getLast_mem hne)
  rw [joined_eq_stem_append, stem, if_neg (by simp [hlast]), joined_eq_stem_append]
  simp

lemma reportName_eq {compact scanId extension : Bytes} (hlen : compact.length = 16) :
    reportName compact scanId extension =
      compact ++ [hyphen] ++ (scanId ++ ascii "." ++ extension).take (filenameMax - 1 - 17) := by
  have hsplit : compact ++ [hyphen] ++ scanId ++ ascii "." ++ extension =
      (compact ++ [hyphen]) ++ (scanId ++ ascii "." ++ extension) := by simp
  have hhead : (compact ++ [hyphen]).length = 17 := by simp [hlen]
  rw [reportName, cut, hsplit, List.take_append, hhead, List.take_of_length_le]
  simp [hlen, filenameMax]

section Containment
variable {host : Host} {store : Store} {identity scanId timestamp extension : Bytes}
  (plan : Plan host store identity scanId timestamp extension)

lemma Plan.safe_ne_nil : plan.safe ≠ [] := by
  obtain ⟨hne, henc⟩ := plan.safe_eq_encode
  exact henc ▸ encode_ne_nil hne

lemma Plan.safe_plain : ∀ c ∈ plan.safe, isSeparator host c = false := by
  rw [plan.safe_eq_encode.2]
  exact Store.safe_plain host

set_option maxRecDepth 8000 in
lemma Plan.safe_single_iff :
    Single host plan.safe ↔ identity ≠ dotName ∧ identity ≠ dotDotName := by
  have henc := plan.safe_eq_encode.2
  have hdot : plan.safe = dotName ↔ identity = dotName := by
    rw [henc, encode_eq_self_iff (by decide)]
  have hdotDot : plan.safe = dotDotName ↔ identity = dotDotName := by
    rw [henc, encode_eq_self_iff (by decide)]
  constructor
  · exact fun h => ⟨fun he => h.ne_dot (hdot.mpr he), fun he => h.ne_dotDot (hdotDot.mpr he)⟩
  · rintro ⟨h₁, h₂⟩
    exact ⟨plan.safe_ne_nil, plan.safe_plain, fun he => h₁ (hdot.mp he),
      fun he => h₂ (hdotDot.mp he)⟩

lemma Plan.final_eq_append : plan.final = stem host (joined host store.root (ascii "scans")) ++
    (plan.safe ++ host.sep :: reportName plan.compact scanId extension) := by
  rw [plan.final_eq_joined.1, plan.dir_eq_joined]
  exact joined_plain plan.safe_ne_nil plan.safe_plain

lemma scanId_not_separator (hscan : ¬(backslash ∈ scanId ∨ slash ∈ scanId)) :
    ∀ c ∈ scanId, isSeparator host c = false := by
  intro c hc
  have hback : c ≠ backslash := fun h => hscan (.inl (h ▸ hc))
  have hslash : c ≠ slash := fun h => hscan (.inr (h ▸ hc))
  cases host <;> simp [isSeparator, hback, hslash]

set_option maxRecDepth 8000 in
/-- Only the timestamp can bring a separator into the file name. -/
lemma Plan.name_plain_iff (hext : ∀ c ∈ extension, isSeparator host c = false) :
    (∀ c ∈ reportName plan.compact scanId extension, isSeparator host c = false) ↔
      ∀ c ∈ timestamp, isSeparator host c = false := by
  obtain ⟨hcompact, hlen⟩ := plan.compact_eq_filter
  have hmark : ∀ c : UInt8, isMark c = true → isSeparator host c = false := by
    cases host <;> decide
  have hdot : ∀ c ∈ ascii ".", isSeparator host c = false := by cases host <;> decide
  have hhyphen : isSeparator host hyphen = false := by cases host <;> rfl
  rw [reportName_eq hlen]
  constructor
  · intro h c hc
    cases hm : isMark c with
    | true => exact hmark c hm
    | false =>
      have hmem : c ∈ plan.compact := hcompact ▸ List.mem_filter.mpr ⟨hc, by simp [hm]⟩
      exact h c (by simp [hmem])
  · intro h c hc
    rcases List.mem_append.mp hc with hc | hc
    · rcases List.mem_append.mp hc with hc | hc
      · exact h c (List.mem_filter.mp (hcompact ▸ hc)).1
      · rw [List.mem_singleton.mp hc, hhyphen]
    · rcases List.mem_append.mp (List.mem_of_mem_take hc) with hc | hc
      · rcases List.mem_append.mp hc with hc | hc
        · exact scanId_not_separator plan.scanId_plain c hc
        · exact hdot c hc
      · exact hext c hc

lemma Plan.contained_iff (hext : ∀ c ∈ extension, isSeparator host c = false) :
    Contained host store.root plan.final ↔
      (∀ c ∈ timestamp, isSeparator host c = false) ∧ identity ≠ dotName ∧
        identity ≠ dotDotName := by
  have hname := plan.name_plain_iff hext
  have hlen : 17 ≤ (reportName plan.compact scanId extension).length := by
    rw [reportName_eq plan.compact_eq_filter.2]
    simp [plan.compact_eq_filter.2, filenameMax]
    omega
  rw [← hname, ← plan.safe_single_iff, Contained]
  constructor
  · rintro ⟨component, leaf, hcomponent, hleaf, hpath⟩
    rw [plan.final_eq_append, joined_plain hcomponent.ne_nil hcomponent.plain] at hpath
    obtain ⟨rfl, rfl⟩ := append_separator_inj plan.safe_plain hcomponent.plain
      (isSeparator_sep host) (isSeparator_sep host) (List.append_cancel_left hpath)
    exact ⟨hleaf.plain, hcomponent⟩
  · rintro ⟨hplain, hsafe⟩
    refine ⟨plan.safe, _, hsafe, ⟨?_, hplain, ?_, ?_⟩, ?_⟩
    · exact List.ne_nil_of_length_pos (by omega)
    · exact fun h => absurd (congrArg List.length h) (by simp [dotName, ascii]; omega)
    · exact fun h => absurd (congrArg List.length h) (by simp [dotDotName, ascii]; omega)
    · rw [plan.final_eq_append, joined_plain plan.safe_ne_nil plan.safe_plain]

end Containment

lemma storeReport_eq_ok {σ : Type} {P : StorePlatform σ} {host : Host} {lib : Json.CLib}
    {memory : Memory} {store : Store} {form : Form} {identity scanId timestamp content out : Bytes}
    {outCap : ℕ} {s s' : σ}
    (h : storeReport P host lib memory store form identity scanId timestamp content outCap s =
      (.ok out, s')) :
    ∃ final s₁, writeReportFile P host store identity scanId timestamp form.extension content s =
        (.ok final, s₁) ∧ out = cut outCap final ∧
      (form = .json ∧ s' = (refreshIndex P host lib memory store identity s₁).2 ∨
        form = .csv ∧ s' = s₁) := by
  cases form with
  | json =>
    obtain ⟨final, s₁, hfile, hout, hs'⟩ := writeReport_eq_ok h
    exact ⟨final, s₁, hfile, hout, .inl ⟨rfl, hs'⟩⟩
  | csv =>
    simp only [storeReport, writeReportCsv] at h
    split at h
    · next final s₁ hfile =>
      simp only [Prod.mk.injEq, Except.ok.injEq] at h
      exact ⟨final, s₁, hfile, h.1.symm, .inr ⟨rfl, h.2.symm⟩⟩
    · simp at h

set_option maxRecDepth 8000 in
lemma Form.extension_plain (form : Form) (host : Host) :
    ∀ c ∈ form.extension, isSeparator host c = false := by
  cases form <;> cases host <;> decide

/-- The file that an accepted report is written to lies one directory below the scans root
exactly when the timestamp has no separator and the identity is no dot name. -/
theorem storeReport_contained_iff {σ : Type} {P : StorePlatform σ} {host : Host}
    {lib : Json.CLib} {memory : Memory} {store : Store} {form : Form}
    {identity scanId timestamp content out : Bytes} {outCap : ℕ} {s s' : σ}
    (h : storeReport P host lib memory store form identity scanId timestamp content outCap s =
      (.ok out, s')) :
    ∃ final s₁, writeReportFile P host store identity scanId timestamp form.extension content s =
        (.ok final, s₁) ∧ out = cut outCap final ∧
      (Contained host store.root final ↔
        (∀ c ∈ timestamp, isSeparator host c = false) ∧ identity ≠ dotName ∧
          identity ≠ dotDotName) := by
  obtain ⟨final, s₁, hfile, hout, _⟩ := storeReport_eq_ok h
  obtain ⟨plan, _, rfl, _, _⟩ := exists_plan_of_ok hfile
  exact ⟨plan.final, s₁, hfile, hout, plan.contained_iff (form.extension_plain host)⟩

/-- A disk with nothing on it. -/
def blankDisk : Posix.Disk := { fs := { cwd := [], dirs := [], files := ∅ } }

def quietPlatform : StorePlatform Posix.Disk := Posix.storePlatform .quiet

theorem storeReport_contained_iff_stick :
    ∃ final s₁, writeReportFile quietPlatform .posix ⟨ascii "/s"⟩ (ascii "usb:1") (ascii "ID")
        (ascii "2026-09-11T14:02:03Z") (Form.extension .csv) (ascii "x") blankDisk =
        (.ok final, s₁) ∧
      ascii "/s/scans/usb_3A1/20260911T140203Z-ID.csv" = cut 512 final ∧
      (Contained .posix (ascii "/s") final ↔
        (∀ c ∈ ascii "2026-09-11T14:02:03Z", isSeparator .posix c = false) ∧
          ascii "usb:1" ≠ dotName ∧ ascii "usb:1" ≠ dotDotName) := by
  have hrun : storeReport quietPlatform .posix Json.wholeLib {} ⟨ascii "/s"⟩ .csv (ascii "usb:1")
      (ascii "ID") (ascii "2026-09-11T14:02:03Z") (ascii "x") 512 blankDisk =
      (.ok (ascii "/s/scans/usb_3A1/20260911T140203Z-ID.csv"), _) :=
    Prod.ext (by decide +kernel) rfl
  exact storeReport_contained_iff hrun

/-- Sixteen bytes that are no timestamp lead out of the store. -/
theorem storeReport_escapes :
    ∃ d, storeReport quietPlatform .posix Json.wholeLib {} ⟨ascii "/s"⟩ .csv (ascii "usb:1")
        (ascii "ID") (ascii "../../../evil.js") (ascii "x") 512 blankDisk =
        (.ok (ascii "/s/scans/usb_3A1/../../../evil.js-ID.csv"), d) ∧
      d.fs.content [ascii "evil.js-ID.csv"] = some (ascii "x") ∧
      ¬ Contained .posix (ascii "/s") (ascii "/s/scans/usb_3A1/../../../evil.js-ID.csv") := by
  refine ⟨_, Prod.ext ?_ rfl, ?_, ?_⟩
  · decide +kernel
  · decide +kernel
  · have hrun : (writeReportFile quietPlatform .posix ⟨ascii "/s"⟩ (ascii "usb:1") (ascii "ID")
        (ascii "../../../evil.js") (Form.extension .csv) (ascii "x") blankDisk).1 =
        .ok (ascii "/s/scans/usb_3A1/../../../evil.js-ID.csv") := by decide +kernel
    obtain ⟨plan, _, hfinal, _⟩ := exists_plan_of_ok (Prod.ext hrun rfl)
    rw [← hfinal, plan.contained_iff (Form.extension_plain .csv .posix)]
    exact fun h => absurd h.1 (by decide +kernel)

end UsbSentinel.Store
