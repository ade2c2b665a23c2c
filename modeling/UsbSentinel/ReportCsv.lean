import UsbSentinel.Csv
import UsbSentinel.JsonEmit
import UsbSentinel.Report

/-! The CSV report of a scan: fields quoted where they must be, formulas defused by an
apostrophe, one row for each finding or for a check without any. -/
namespace UsbSentinel.Report
open ByteString

structure CsvBuf where
  data : Bytes := []
  cap : ℕ := 0
  deriving DecidableEq, Repr

def csvEnsure (realloc : ℕ → Bool) (extra : ℕ) (b : CsvBuf) : Except Status CsvBuf :=
  let needed := b.data.length + extra + 1
  if needed ≤ b.cap then .ok b
  else
    match Json.growCap needed 64 (if b.cap = 0 then 512 else b.cap) with
    | none => .error .noMemory
    | some cap => if realloc cap then .ok { b with cap } else .error .noMemory

def csvAppend (realloc : ℕ → Bool) (text : Bytes) (b : CsvBuf) : Except Status CsvBuf := do
  let b ← csvEnsure realloc text.length b
  .ok { b with data := b.data ++ text }

def csvAppendIf (realloc : ℕ → Bool) (wanted : Bool) (text : Bytes) (b : CsvBuf) :
    Except Status CsvBuf :=
  if wanted then csvAppend realloc text b else .ok b

def csvMarks : Csv.Marks UInt8 := ⟨44, 34, 13, 10, by decide⟩

def formulaTriggers : Bytes := ascii "=+-@"

def needsFormulaPrefix : Bytes → Bool
  | [] => false
  | c :: _ => c ∈ formulaTriggers

def needsQuote (value : Bytes) : Bool :=
  value.any fun c => c = 44 || c = 34 || c = 10 || c = 13

def quoteLoop (realloc : ℕ → Bool) : Bytes → CsvBuf → Except Status CsvBuf
  | [], b => .ok b
  | c :: rest, b => do
    let b ← csvAppend realloc (if c = 34 then [34, 34] else [c]) b
    quoteLoop realloc rest b

def csvWriteField (realloc : ℕ → Bool) (value : Bytes) (b : CsvBuf) : Except Status CsvBuf :=
  if !needsQuote value && !needsFormulaPrefix value then csvAppend realloc value b
  else do
    let b ← csvAppend realloc [34] b
    let b ← csvAppendIf realloc (needsFormulaPrefix value) (ascii "'") b
    let b ← quoteLoop realloc value b
    csvAppend realloc [34] b

/-- The fields from the `i`-th on; all but the first have a comma in front. -/
def fieldsLoop (realloc : ℕ → Bool) : ℕ → List Bytes → CsvBuf → Except Status CsvBuf
  | _, [], b => .ok b
  | i, field :: fields, b => do
    let b ← csvAppendIf realloc (i > 0) (ascii ",") b
    let b ← csvWriteField realloc field b
    fieldsLoop realloc (i + 1) fields b

def csvWriteRow (realloc : ℕ → Bool) (scanId deviceIdentity checkId checkStatus skipReason
    checkMessage severity path message : Bytes) (b : CsvBuf) : Except Status CsvBuf := do
  let b ← fieldsLoop realloc 0 [scanId, deviceIdentity, checkId, checkStatus, skipReason,
    checkMessage, severity, path, message] b
  csvAppend realloc [13, 10] b

def shownSkipReason (check : CheckResult) : Bytes :=
  if check.status = .skipped then check.skipReason else []

def findingsLoop (realloc : ℕ → Bool) (scanId identity : Bytes) (check : CheckResult) :
    List Finding → CsvBuf → Except Status CsvBuf
  | [], b => .ok b
  | finding :: findings, b => do
    let b ← csvWriteRow realloc scanId identity check.id (checkStatusString check.status)
      (shownSkipReason check) check.message (severityString finding.severity) finding.path
      finding.message b
    findingsLoop realloc scanId identity check findings b

def checkRows (realloc : ℕ → Bool) (scanId identity : Bytes) (check : CheckResult)
    (b : CsvBuf) : Except Status CsvBuf :=
  if check.findings.items.length = 0 then
    csvWriteRow realloc scanId identity check.id (checkStatusString check.status)
      (shownSkipReason check) check.message [] [] [] b
  else findingsLoop realloc scanId identity check check.findings.items b

def checksLoop (realloc : ℕ → Bool) (scanId identity : Bytes) :
    List CheckResult → CsvBuf → Except Status CsvBuf
  | [], b => .ok b
  | check :: checks, b => do
    let b ← checkRows realloc scanId identity check b
    checksLoop realloc scanId identity checks b

def csvHeader : Bytes :=
  ascii ("scan_id,device_identity,check_id,check_status,skip_reason," ++
    "check_message,severity,path,message\x0d\n")

/-- `malloc` is asked for the copy that is handed out. -/
def buildCsv (realloc malloc : ℕ → Bool) (result : Result) : Except Status Bytes := do
  let b ← csvAppend realloc csvHeader {}
  let b ← checksLoop realloc result.scanId (identityOf result.device) result.checks.items b
  if b.cap = 0 then .error .internal
  else if malloc (b.data.length + 1) then .ok b.data
  else .error .noMemory

/-! ### What is written -/

/-- The largest text a buffer can be grown for. -/
def csvRoom : ℕ := 2 ^ 63

/-- The operation appends the text; with memory it ends well. -/
structure Appends (realloc : ℕ → Bool) (op : CsvBuf → Except Status CsvBuf) (text : Bytes) :
    Prop where
  data : ∀ b b', op b = .ok b' → b'.data = b.data ++ text
  cap : ∀ b b', op b = .ok b' → b.cap ≠ 0 → b'.cap ≠ 0
  ok : (∀ n, realloc n = true) → ∀ b : CsvBuf, b.data.length + text.length < csvRoom →
    ∃ b', op b = .ok b'

variable {realloc : ℕ → Bool}

lemma Appends.nil : Appends realloc .ok [] := by
  refine ⟨fun b b' h => ?_, fun b b' h hcap => ?_, fun _ b _ => ⟨b, rfl⟩⟩
  · obtain rfl := Except.ok.inj h
    exact (List.append_nil _).symm
  · obtain rfl := Except.ok.inj h
    exact hcap

lemma Appends.bind {f g : CsvBuf → Except Status CsvBuf} {s t : Bytes}
    (hf : Appends realloc f s) (hg : Appends realloc g t) :
    Appends realloc (fun b => f b >>= g) (s ++ t) := by
  constructor
  · intro b b' h
    cases hmiddle : f b with
    | error e =>
      simp only [hmiddle] at h
      cases h
    | ok middle =>
      simp only [hmiddle] at h
      rw [hg.data middle b' h, hf.data b middle hmiddle, List.append_assoc]
  · intro b b' h hcap
    cases hmiddle : f b with
    | error e =>
      simp only [hmiddle] at h
      cases h
    | ok middle =>
      simp only [hmiddle] at h
      exact hg.cap middle b' h (hf.cap b middle hmiddle hcap)
  · intro hrealloc b hroom
    rw [List.length_append] at hroom
    obtain ⟨middle, hmiddle⟩ := hf.ok hrealloc b (by omega)
    have hlength := congrArg List.length (hf.data b middle hmiddle)
    rw [List.length_append] at hlength
    obtain ⟨b', hb'⟩ := hg.ok hrealloc middle (by omega)
    refine ⟨b', ?_⟩
    simp only [hmiddle]
    exact hb'

lemma growCap_le {needed turns cap grown : ℕ} (h : Json.growCap needed turns cap = some grown) :
    needed ≤ grown := by
  induction turns generalizing cap with
  | zero => cases h
  | succ turns ih =>
    rw [Json.growCap] at h
    split_ifs at h with hcap
    · obtain rfl := Option.some.inj h
      exact hcap
    · exact ih h

lemma csvEnsure_ok {extra : ℕ} {b b' : CsvBuf} (h : csvEnsure realloc extra b = .ok b') :
    b'.data = b.data ∧ b'.cap ≠ 0 := by
  unfold csvEnsure at h
  simp only at h
  by_cases hroom : b.data.length + extra + 1 ≤ b.cap
  · rw [if_pos hroom] at h
    obtain rfl := Except.ok.inj h
    exact ⟨rfl, by omega⟩
  · rw [if_neg hroom] at h
    cases hgrow : Json.growCap (b.data.length + extra + 1) 64
        (if b.cap = 0 then 512 else b.cap) with
    | none =>
      rw [hgrow] at h
      cases h
    | some cap =>
      have hcap := growCap_le hgrow
      rw [hgrow] at h
      simp only at h
      split_ifs at h
      obtain rfl := Except.ok.inj h
      exact ⟨rfl, fun hzero : cap = 0 => by omega⟩

lemma csvEnsure_isOk (hrealloc : ∀ n, realloc n = true) {extra : ℕ} {b : CsvBuf}
    (hlength : b.data.length + extra < csvRoom) :
    ∃ b', csvEnsure realloc extra b = .ok b' := by
  unfold csvEnsure
  simp only
  by_cases hroom : b.data.length + extra + 1 ≤ b.cap
  · exact ⟨b, if_pos hroom⟩
  · rw [if_neg hroom]
    have hcap : 1 ≤ if b.cap = 0 then 512 else b.cap := by split_ifs <;> omega
    have hturns : b.data.length + extra + 1 ≤ (if b.cap = 0 then 512 else b.cap) * 2 ^ 63 :=
      (Nat.succ_le_of_lt hlength).trans (Nat.le_mul_of_pos_left _ hcap)
    obtain ⟨grown, hgrown, _⟩ := Json.growCap_eq_some (Nat.succ_le_of_lt hlength) hturns
    rw [hgrown]
    simp only [hrealloc, if_true]
    exact ⟨_, rfl⟩

lemma csvAppend_ok {text : Bytes} {b b' : CsvBuf} (h : csvAppend realloc text b = .ok b') :
    b'.data = b.data ++ text ∧ b'.cap ≠ 0 := by
  unfold csvAppend at h
  cases hensure : csvEnsure realloc text.length b with
  | error e =>
    rw [hensure] at h
    cases h
  | ok grown =>
    obtain ⟨hdata, hcap⟩ := csvEnsure_ok hensure
    rw [hensure] at h
    obtain rfl := Except.ok.inj h
    exact ⟨congrArg (· ++ text) hdata, hcap⟩

lemma csvAppend_appends (text : Bytes) : Appends realloc (csvAppend realloc text) text := by
  refine ⟨fun b b' h => (csvAppend_ok h).1, fun b b' h _ => (csvAppend_ok h).2, ?_⟩
  intro hrealloc b hroom
  obtain ⟨grown, hgrown⟩ := csvEnsure_isOk hrealloc hroom
  unfold csvAppend
  rw [hgrown]
  exact ⟨_, rfl⟩

lemma csvAppendIf_appends (wanted : Bool) (text : Bytes) :
    Appends realloc (csvAppendIf realloc wanted text) (if wanted then text else []) := by
  cases wanted with
  | false => exact Appends.nil
  | true => exact csvAppend_appends text

/-- The cell a field is read back as. -/
def defused (value : Bytes) : Bytes := if needsFormulaPrefix value then 39 :: value else value

def fieldText (value : Bytes) : Bytes :=
  if !needsQuote value && !needsFormulaPrefix value then value
  else Csv.quoted csvMarks (defused value)

lemma quoteLoop_appends (value : Bytes) :
    Appends realloc (quoteLoop realloc value) (Csv.doubled csvMarks value) := by
  induction value with
  | nil => exact Appends.nil
  | cons c rest ih => exact (csvAppend_appends _).bind ih

lemma csvWriteField_appends (value : Bytes) :
    Appends realloc (csvWriteField realloc value) (fieldText value) := by
  unfold csvWriteField fieldText
  by_cases hplain : (!needsQuote value && !needsFormulaPrefix value) = true
  · simp only [if_pos hplain]
    exact csvAppend_appends value
  · simp only [if_neg hplain]
    have htext : Csv.quoted csvMarks (defused value) =
        [34] ++ ((if needsFormulaPrefix value then [39] else []) ++
          (Csv.doubled csvMarks value ++ [34])) := by
      unfold defused
      by_cases hformula : needsFormulaPrefix value = true
      · rw [if_pos hformula, if_pos hformula]
        rfl
      · rw [if_neg hformula, if_neg hformula]
        rfl
    rw [htext]
    exact (csvAppend_appends _).bind
      ((csvAppendIf_appends _ _).bind ((quoteLoop_appends value).bind (csvAppend_appends _)))

lemma fieldsLoop_appends (fields : List Bytes) (i : ℕ) (hne : fields ≠ []) :
    Appends realloc (fieldsLoop realloc i fields)
      ((if i > 0 then [44] else []) ++ Csv.fieldsText csvMarks (fields.map fieldText)) := by
  induction fields generalizing i with
  | nil => exact absurd rfl hne
  | cons field fields ih =>
    have hcomma : Appends realloc (csvAppendIf realloc (i > 0) (ascii ",")) (if i > 0 then [44] else []) := by
      have happend := @csvAppendIf_appends realloc (i > 0) (ascii ",")
      simp only [decide_eq_true_eq] at happend
      exact happend
    have hfield := @csvWriteField_appends realloc field
    cases fields with
    | nil =>
      have hlast : Appends realloc (fieldsLoop realloc i [field])
          ((if i > 0 then [44] else []) ++ (fieldText field ++ [])) :=
        hcomma.bind (hfield.bind Appends.nil)
      rwa [List.append_nil] at hlast
    | cons next fields =>
      have hrest := ih (i + 1) (List.cons_ne_nil _ _)
      exact hcomma.bind (hfield.bind hrest)

def lineText (fields : List Bytes) : Bytes := Csv.line csvMarks (fields.map fieldText)

lemma csvWriteRow_appends (scanId identity checkId checkStatus skipReason checkMessage severity
    path message : Bytes) :
    Appends realloc (csvWriteRow realloc scanId identity checkId checkStatus skipReason checkMessage
        severity path message)
      (lineText [scanId, identity, checkId, checkStatus, skipReason, checkMessage, severity,
        path, message]) :=
  (fieldsLoop_appends _ 0 (List.cons_ne_nil _ _)).bind (csvAppend_appends _)

/-! ### The rows -/

/-- What a row says of a finding, or of none. -/
def sourceRow (scanId identity : Bytes) (check : CheckResult) (finding : Option Finding) :
    List Bytes :=
  [scanId, identity, check.id, checkStatusString check.status, shownSkipReason check,
    check.message, (finding.map fun f => severityString f.severity).getD [],
    (finding.map fun f => f.path).getD [], (finding.map fun f => f.message).getD []]

/-- One for each finding, or one of none. -/
def reported (check : CheckResult) : List (Option Finding) :=
  if check.findings.items = [] then [none] else check.findings.items.map some

def sourceRows (result : Result) : List (List Bytes) :=
  result.checks.items.flatMap fun check =>
    (reported check).map (sourceRow result.scanId (identityOf result.device) check)

lemma findingsLoop_appends (scanId identity : Bytes) (check : CheckResult)
    (findings : List Finding) :
    Appends realloc (findingsLoop realloc scanId identity check findings)
      ((findings.map fun f => sourceRow scanId identity check (some f)).flatMap lineText) := by
  induction findings with
  | nil => exact Appends.nil
  | cons finding findings ih => exact (csvWriteRow_appends _ _ _ _ _ _ _ _ _).bind ih

lemma checkRows_appends (scanId identity : Bytes) (check : CheckResult) :
    Appends realloc (checkRows realloc scanId identity check)
      (((reported check).map (sourceRow scanId identity check)).flatMap lineText) := by
  unfold checkRows reported
  by_cases hnone : check.findings.items = []
  · simp only [hnone, List.length_nil, if_true, List.map_cons, List.map_nil, List.flatMap_cons,
      List.flatMap_nil, List.append_nil]
    exact csvWriteRow_appends _ _ _ _ _ _ _ _ _
  · have hlength : check.findings.items.length ≠ 0 := by
      rwa [ne_eq, List.length_eq_zero_iff]
    simp only [if_neg hlength, if_neg hnone, List.map_map]
    exact findingsLoop_appends scanId identity check check.findings.items

lemma checksLoop_appends (scanId identity : Bytes) (checks : List CheckResult) :
    Appends realloc (checksLoop realloc scanId identity checks)
      ((checks.flatMap fun check =>
        (reported check).map (sourceRow scanId identity check)).flatMap lineText) := by
  induction checks with
  | nil => exact Appends.nil
  | cons check checks ih =>
    rw [List.flatMap_cons, List.flatMap_append]
    exact (checkRows_appends scanId identity check).bind ih

def csvColumns : List Bytes :=
  ["scan_id", "device_identity", "check_id", "check_status", "skip_reason", "check_message",
    "severity", "path", "message"].map ascii

lemma csvHeader_eq : csvHeader = lineText csvColumns := by decide

/-- Everything up to the copy that is handed out. -/
lemma report_appends (result : Result) :
    Appends realloc (fun b => csvAppend realloc csvHeader b >>=
        checksLoop realloc result.scanId (identityOf result.device) result.checks.items)
      ((csvColumns :: sourceRows result).flatMap lineText) := by
  rw [List.flatMap_cons, ← csvHeader_eq]
  exact (csvAppend_appends csvHeader).bind (checksLoop_appends _ _ _)

lemma buildCsv_eq (malloc : ℕ → Bool) (result : Result) :
    buildCsv realloc malloc result =
      (csvAppend realloc csvHeader {} >>=
        checksLoop realloc result.scanId (identityOf result.device) result.checks.items) >>=
      fun b => if b.cap = 0 then .error .internal
        else if malloc (b.data.length + 1) then .ok b.data else .error .noMemory := by
  unfold buildCsv
  exact (bind_assoc _ _ _).symm

lemma buildCsv_text {malloc : ℕ → Bool} {result : Result} {text : Bytes}
    (h : buildCsv realloc malloc result = .ok text) :
    text = (csvColumns :: sourceRows result).flatMap lineText := by
  rw [buildCsv_eq] at h
  cases hwritten : csvAppend realloc csvHeader {} >>=
      checksLoop realloc result.scanId (identityOf result.device) result.checks.items with
  | error e =>
    rw [hwritten] at h
    cases h
  | ok b =>
    have hdata := (report_appends result).data {} b hwritten
    rw [hwritten] at h
    simp only [bind, Except.bind] at h
    split_ifs at h
    obtain rfl := Except.ok.inj h
    exact hdata

/-- With memory there is a report. -/
theorem buildCsv_isOk {malloc : ℕ → Bool} (hrealloc : ∀ n, realloc n = true)
    (hmalloc : ∀ n, malloc n = true) {result : Result}
    (hroom : ((csvColumns :: sourceRows result).flatMap lineText).length < csvRoom) :
    ∃ text, buildCsv realloc malloc result = .ok text := by
  obtain ⟨b, hb⟩ := (report_appends result).ok hrealloc {} (by simpa using hroom)
  have hcap : b.cap ≠ 0 := by
    cases hheader : csvAppend realloc csvHeader {} with
    | error e =>
      simp only [hheader] at hb
      cases hb
    | ok begun =>
      simp only [hheader] at hb
      exact (checksLoop_appends _ _ _).cap begun b hb (csvAppend_ok hheader).2
  refine ⟨b.data, ?_⟩
  rw [buildCsv_eq, hb]
  simp only [bind, Except.bind, if_neg hcap, hmalloc, if_true]

/-! ### The rows are read back -/

lemma fieldText_writes (value : Bytes) :
    Csv.Writes csvMarks (fieldText value) (defused value) := by
  unfold fieldText
  by_cases hplain : (!needsQuote value && !needsFormulaPrefix value) = true
  · rw [if_pos hplain]
    rw [Bool.and_eq_true, Bool.not_eq_true', Bool.not_eq_true'] at hplain
    obtain ⟨hquote, hformula⟩ := hplain
    have hdefused : defused value = value := by simp [defused, hformula]
    rw [hdefused]
    refine .plain fun c hc hmark => ?_
    have hmarks : ∀ c : UInt8, c ∈ [csvMarks.comma, csvMarks.quote, csvMarks.cr, csvMarks.lf] →
        (c = 44 || c = 34 || c = 10 || c = 13) = true := by decide +kernel
    have hany : needsQuote value = true := List.any_eq_true.mpr ⟨c, hc, hmarks c hmark⟩
    rw [hquote] at hany
    exact Bool.false_ne_true hany
  · rw [if_neg hplain]
    exact .quoted (defused value)

lemma lineText_writes (fields : List Bytes) :
    List.Forall₂ (Csv.Writes csvMarks) (fields.map fieldText) (fields.map defused) := by
  rw [List.forall₂_map_left_iff, List.forall₂_map_right_iff]
  exact List.forall₂_same.mpr fun value _ => fieldText_writes value

lemma parse_lineTexts {rows : List (List Bytes)} (hne : ∀ fields ∈ rows, fields ≠ []) :
    Csv.parse csvMarks (rows.flatMap lineText) = some (rows.map fun fields => fields.map defused) := by
  have hlines : rows.flatMap lineText =
      (rows.map fun fields => fields.map fieldText).flatMap (Csv.line csvMarks) := by
    rw [List.flatMap_map]
    rfl
  rw [hlines]
  refine Csv.parse_lines ?_
  rw [List.forall₂_map_left_iff, List.forall₂_map_right_iff]
  refine List.forall₂_same.mpr fun fields hfields => ⟨lineText_writes fields, ?_⟩
  simpa using hne fields hfields

lemma defused_head (value : Bytes) : needsFormulaPrefix (defused value) = false := by
  unfold defused
  by_cases hformula : needsFormulaPrefix value = true
  · rw [if_pos hformula]
    rfl
  · rw [if_neg hformula]
    exact Bool.eq_false_iff.mpr hformula

lemma sourceRows_length {result : Result} : ∀ row ∈ sourceRows result, row.length = csvColumns.length := by
  intro row hrow
  obtain ⟨check, _, hrow⟩ := List.mem_flatMap.mp hrow
  obtain ⟨finding, _, rfl⟩ := List.mem_map.mp hrow
  rfl

lemma columns_defused : csvColumns.map defused = csvColumns := by
  have hcolumns : ∀ column ∈ csvColumns, defused column = column := by decide
  exact (List.map_congr_left hcolumns).trans (List.map_id csvColumns)

lemma buildCsv_read {malloc : ℕ → Bool} {result : Result} {text : Bytes}
    (h : buildCsv realloc malloc result = .ok text) :
    Csv.parse csvMarks text =
      some ((csvColumns :: sourceRows result).map fun row => row.map defused) := by
  rw [buildCsv_text h]
  refine parse_lineTexts fun fields hfields => ?_
  rcases List.mem_cons.mp hfields with rfl | hrow
  · exact List.cons_ne_nil _ _
  · exact List.ne_nil_of_length_eq_add_one (sourceRows_length fields hrow)

/-- A CSV report is read back as the header and the rows, each cell being its source or,
where that begins a formula, the source behind an apostrophe. -/
theorem buildCsv_decodes {malloc : ℕ → Bool} {result : Result} {text : Bytes}
    (h : buildCsv realloc malloc result = .ok text) :
    Csv.parse csvMarks text =
        some (csvColumns :: (sourceRows result).map fun row => row.map defused) ∧
      (∀ row ∈ sourceRows result, row.length = csvColumns.length) ∧
      ∀ rows, Csv.parse csvMarks text = some rows → ∀ row ∈ rows, ∀ cell ∈ row,
        needsFormulaPrefix cell = false := by
  have hparse := buildCsv_read h
  refine ⟨?_, sourceRows_length, ?_⟩
  · rw [hparse, List.map_cons, columns_defused]
  · intro rows hrows row hrow cell hcell
    rw [hparse] at hrows
    obtain rfl := Option.some.inj hrows
    obtain ⟨source, _, rfl⟩ := List.mem_map.mp hrow
    obtain ⟨value, _, rfl⟩ := List.mem_map.mp hcell
    exact defused_head value

def formulaFinding : Finding := ⟨.high, [], ascii "=a,b"⟩

/-- A check with a finding whose path begins a formula and holds a comma. -/
def formulaResult : Result where
  status := .completed
  checks := { items := [{ id := ascii "autorun", findings := { items := [formulaFinding] } }] }
  pathsSkipped := 0
  pathsExcluded := 0
  scanId := ascii "s"
  startedAt := []
  finishedAt := []
  device := { volumePath := ascii "/v" }
  capabilities := {}

theorem formula_decodes :
    ∃ text, buildCsv (fun _ => true) (fun _ => true) formulaResult = .ok text ∧
      Csv.parse csvMarks text = some [csvColumns, ["s", "volume:/v", "autorun", "ran", "", "",
        "high", "'=a,b", ""].map ascii] := by
  have hrows : (sourceRows formulaResult).map (fun row => row.map defused) =
      [["s", "volume:/v", "autorun", "ran", "", "", "high", "'=a,b", ""].map ascii] := by
    decide +kernel
  cases hbuilt : buildCsv (fun _ => true) (fun _ => true) formulaResult with
  | error e =>
    have hok : (buildCsv (fun _ => true) (fun _ => true) formulaResult).toBool = true := by
      decide +kernel
    rw [hbuilt] at hok
    cases hok
  | ok text =>
    refine ⟨text, rfl, ?_⟩
    rw [(buildCsv_decodes hbuilt).1, hrows]

end UsbSentinel.Report
