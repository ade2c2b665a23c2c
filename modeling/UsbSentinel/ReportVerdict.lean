import UsbSentinel.ReportCsv

/-! The summaries of a report: the one the window shows and the one the page computes from
the JSON text, against the counts in that text and the rows of the CSV. -/
namespace UsbSentinel.GuiReport
open ByteString Report

inductive Verdict | clean | incomplete | suspicious | threat
  deriving DecidableEq, Repr

structure Summary where
  verdict : Verdict := .clean
  highCount : ℕ := 0
  warningCount : ℕ := 0
  infoCount : ℕ := 0
  findingCount : ℕ := 0
  checksRun : ℕ := 0
  checksSkipped : ℕ := 0
  checksFailed : ℕ := 0
  completed : Bool := false
  pathsSkipped : ℕ := 0
  deriving DecidableEq, Repr

def increment (n : ℕ) : ℕ := counted (n + 1)

def countFinding (s : Summary) (finding : Finding) : Summary :=
  let s := { s with findingCount := increment s.findingCount }
  match finding.severity with
  | .high => { s with highCount := increment s.highCount }
  | .warning => { s with warningCount := increment s.warningCount }
  | .info => { s with infoCount := increment s.infoCount }

def countStatus (s : Summary) : CheckStatus → Summary
  | .ran => { s with checksRun := increment s.checksRun }
  | .skipped => { s with checksSkipped := increment s.checksSkipped }
  | .failed => { s with checksFailed := increment s.checksFailed }

def countCheck (s : Summary) (check : CheckResult) : Summary :=
  check.findings.items.foldl countFinding (countStatus s check.status)

def Summary.judge (s : Summary) : Summary :=
  if s.highCount > 0 then { s with verdict := .threat }
  else if s.warningCount > 0 then { s with verdict := .suspicious }
  else if !s.completed || s.checksSkipped > 0 || s.checksFailed > 0 then
    { s with verdict := .incomplete }
  else { s with verdict := .clean }

def zeroed (result : Result) : Summary :=
  { completed := result.status = .completed, pathsSkipped := result.pathsSkipped }

/-- No result is not a clean one. -/
def summarize : Option Result → Summary
  | none => { verdict := .incomplete }
  | some result => (result.checks.items.foldl countCheck (zeroed result)).judge

/-! ### What is counted -/

/-- The counters are the totals of these findings and these statuses. -/
structure Counts (s : Summary) (findings : List Finding) (statuses : List CheckStatus) :
    Prop where
  high : s.highCount = counted (findings.countP fun f => f.severity = .high)
  warning : s.warningCount = counted (findings.countP fun f => f.severity = .warning)
  info : s.infoCount = counted (findings.countP fun f => f.severity = .info)
  finding : s.findingCount = counted findings.length
  run : s.checksRun = counted (statuses.count .ran)
  skipped : s.checksSkipped = counted (statuses.count .skipped)
  failed : s.checksFailed = counted (statuses.count .failed)

lemma increment_counted (n : ℕ) : increment (counted n) = counted (n + 1) := by
  unfold increment counted
  omega

variable {s : Summary} {findings : List Finding} {statuses : List CheckStatus}

lemma Counts.countFinding (h : Counts s findings statuses) (finding : Finding) :
    Counts (countFinding s finding) (findings ++ [finding]) statuses := by
  obtain ⟨hhigh, hwarning, hinfo, hfinding, hrun, hskipped, hfailed⟩ := h
  unfold GuiReport.countFinding
  cases hseverity : finding.severity <;>
    constructor <;>
    simp [hseverity, hhigh, hwarning, hinfo, hfinding, hrun, hskipped, hfailed,
      increment_counted]

lemma Counts.countFindings (h : Counts s findings statuses) (more : List Finding) :
    Counts (more.foldl GuiReport.countFinding s) (findings ++ more) statuses := by
  induction more generalizing s findings with
  | nil => rwa [List.append_nil]
  | cons finding more ih =>
    have hnext := ih (h.countFinding finding)
    rwa [List.append_assoc] at hnext

lemma Counts.countStatus (h : Counts s findings statuses) (status : CheckStatus) :
    Counts (countStatus s status) findings (statuses ++ [status]) := by
  obtain ⟨hhigh, hwarning, hinfo, hfinding, hrun, hskipped, hfailed⟩ := h
  unfold GuiReport.countStatus
  cases status <;>
    constructor <;>
    simp [hhigh, hwarning, hinfo, hfinding, hrun, hskipped, hfailed, increment_counted]

def allFindings (checks : List CheckResult) : List Finding :=
  checks.flatMap fun check => check.findings.items

def allStatuses (checks : List CheckResult) : List CheckStatus :=
  checks.map fun check => check.status

lemma Counts.countChecks (h : Counts s findings statuses) (checks : List CheckResult) :
    Counts (checks.foldl countCheck s) (findings ++ allFindings checks)
      (statuses ++ allStatuses checks) := by
  induction checks generalizing s findings statuses with
  | nil => simpa [allFindings, allStatuses] using h
  | cons check checks ih =>
    have hnext := ih ((h.countStatus check.status).countFindings check.findings.items)
    rw [List.append_assoc, List.append_assoc] at hnext
    exact hnext

lemma countStatus_scan (s : Summary) (status : CheckStatus) :
    (countStatus s status).completed = s.completed := by
  cases status <;> rfl

lemma countFindings_scan (s : Summary) (findings : List Finding) :
    (findings.foldl countFinding s).completed = s.completed := by
  induction findings generalizing s with
  | nil => rfl
  | cons finding findings ih =>
    rw [List.foldl_cons, ih]
    unfold countFinding
    cases finding.severity <;> rfl

lemma countChecks_scan (s : Summary) (checks : List CheckResult) :
    (checks.foldl countCheck s).completed = s.completed := by
  induction checks generalizing s with
  | nil => rfl
  | cons check checks ih =>
    rw [List.foldl_cons, ih, countCheck, countFindings_scan, countStatus_scan]

/-- The findings and the checks lie in one address space. -/
structure InMemory (checks : List CheckResult) : Prop where
  findings : (allFindings checks).length < 2 ^ 64
  checks : checks.length < 2 ^ 64

/-- The verdict in terms of the result. -/
def verdictOf (status : ScanStatus) (findings : List Finding) (statuses : List CheckStatus) :
    Verdict :=
  if ∃ f ∈ findings, f.severity = .high then .threat
  else if ∃ f ∈ findings, f.severity = .warning then .suspicious
  else if status = .completed ∧ ∀ st ∈ statuses, st = .ran then .clean
  else .incomplete

lemma counted_pos {n : ℕ} (h : n < 2 ^ 64) : counted n > 0 ↔ 0 < n := by
  rw [counted, Nat.mod_eq_of_lt h]

lemma counted_countP_pos {α : Type} {p : α → Bool} {items : List α}
    (h : items.length < 2 ^ 64) : counted (items.countP p) > 0 ↔ ∃ x ∈ items, p x = true := by
  rw [counted_pos (lt_of_le_of_lt List.countP_le_length h), List.countP_pos_iff]

lemma counted_count_pos {status : CheckStatus} (h : statuses.length < 2 ^ 64) :
    counted (statuses.count status) > 0 ↔ status ∈ statuses := by
  rw [counted_pos (lt_of_le_of_lt List.count_le_length h), List.count_pos_iff]

/-- The verdict from counters that are positive when they should be. -/
lemma verdictOf_eq {status : ScanStatus} {high warning skipped failed : ℕ}
    (hhigh : high > 0 ↔ ∃ f ∈ findings, f.severity = .high)
    (hwarning : warning > 0 ↔ ∃ f ∈ findings, f.severity = .warning)
    (hskipped : skipped > 0 ↔ .skipped ∈ statuses) (hfailed : failed > 0 ↔ .failed ∈ statuses) :
    verdictOf status findings statuses =
      if high > 0 then .threat
      else if warning > 0 then .suspicious
      else if status ≠ .completed ∨ skipped > 0 ∨ failed > 0 then .incomplete
      else .clean := by
  have hran : (∀ st ∈ statuses, st = .ran) ↔ ¬ (skipped > 0 ∨ failed > 0) := by
    rw [hskipped, hfailed]
    constructor
    · rintro hall (hmem | hmem)
      · cases hall _ hmem
      · cases hall _ hmem
    · intro hnone st hst
      cases st with
      | ran => rfl
      | skipped => exact absurd (.inl hst) hnone
      | failed => exact absurd (.inr hst) hnone
  unfold verdictOf
  simp only [← hhigh, ← hwarning, hran]
  congr 2
  by_cases hclean : status = .completed ∧ ¬ (skipped > 0 ∨ failed > 0)
  · rw [if_pos hclean, if_neg (not_or.mpr ⟨not_not.mpr hclean.1, hclean.2⟩)]
  · rw [if_neg hclean, if_pos (by rwa [not_and_or, not_not] at hclean)]

lemma judge_verdict (h : Counts s findings statuses) (hfindings : findings.length < 2 ^ 64)
    (hstatuses : statuses.length < 2 ^ 64) {status : ScanStatus}
    (hscan : s.completed = decide (status = .completed)) :
    s.judge.verdict = verdictOf status findings statuses := by
  have hhigh : s.highCount > 0 ↔ ∃ f ∈ findings, f.severity = .high := by
    rw [h.high, counted_countP_pos hfindings]
    simp only [decide_eq_true_eq]
  have hwarning : s.warningCount > 0 ↔ ∃ f ∈ findings, f.severity = .warning := by
    rw [h.warning, counted_countP_pos hfindings]
    simp only [decide_eq_true_eq]
  have hskipped : s.checksSkipped > 0 ↔ .skipped ∈ statuses := by
    rw [h.skipped, counted_count_pos hstatuses]
  have hfailed : s.checksFailed > 0 ↔ .failed ∈ statuses := by
    rw [h.failed, counted_count_pos hstatuses]
  have hincomplete : (!s.completed || s.checksSkipped > 0 || s.checksFailed > 0) = true ↔
      status ≠ .completed ∨ s.checksSkipped > 0 ∨ s.checksFailed > 0 := by
    simp [hscan, or_assoc]
  rw [verdictOf_eq hhigh hwarning hskipped hfailed, Summary.judge]
  simp only [hincomplete]
  split_ifs <;> rfl

lemma summarize_counts (result : Result) :
    Counts (summarize (some result)) (allFindings result.checks.items)
      (allStatuses result.checks.items) := by
  have hstart : Counts (zeroed result) [] [] := ⟨rfl, rfl, rfl, rfl, rfl, rfl, rfl⟩
  have hcounts := hstart.countChecks result.checks.items
  have hjudge : ∀ s : Summary, ∃ verdict, s.judge = { s with verdict } := by
    intro s
    unfold Summary.judge
    split_ifs <;> exact ⟨_, rfl⟩
  obtain ⟨verdict, hverdict⟩ := hjudge (result.checks.items.foldl countCheck (zeroed result))
  rw [summarize, hverdict]
  exact ⟨hcounts.high, hcounts.warning, hcounts.info, hcounts.finding, hcounts.run,
    hcounts.skipped, hcounts.failed⟩

lemma summarize_verdict {result : Result} (h : InMemory result.checks.items) :
    (summarize (some result)).verdict =
      verdictOf result.status (allFindings result.checks.items)
        (allStatuses result.checks.items) := by
  have hstart : Counts (zeroed result) [] [] := ⟨rfl, rfl, rfl, rfl, rfl, rfl, rfl⟩
  have hstatuses : (allStatuses result.checks.items).length < 2 ^ 64 := by
    rw [allStatuses, List.length_map]
    exact h.checks
  exact judge_verdict (hstart.countChecks result.checks.items) h.findings hstatuses
    (countChecks_scan _ _)

/-- The order of checks and findings does not matter. -/
lemma verdictOf_perm {status : ScanStatus} {other : List Finding} {others : List CheckStatus}
    (hfindings : findings.Perm other) (hstatuses : statuses.Perm others) :
    verdictOf status findings statuses = verdictOf status other others := by
  unfold verdictOf
  simp only [hfindings.mem_iff, hstatuses.mem_iff]

lemma verdictOf_clean_iff {status : ScanStatus} :
    verdictOf status findings statuses = .clean ↔
      status = .completed ∧ (∀ st ∈ statuses, st = .ran) ∧
        ∀ f ∈ findings, f.severity = .info := by
  have hinfo : (∀ f ∈ findings, f.severity = .info) ↔
      ¬ (∃ f ∈ findings, f.severity = .high) ∧ ¬ ∃ f ∈ findings, f.severity = .warning := by
    constructor
    · intro hall
      constructor
      · rintro ⟨f, hf, hhigh⟩
        rw [hall f hf] at hhigh
        cases hhigh
      · rintro ⟨f, hf, hwarning⟩
        rw [hall f hf] at hwarning
        cases hwarning
    · rintro ⟨hhigh, hwarning⟩ f hf
      cases hseverity : f.severity with
      | info => rfl
      | warning => exact absurd ⟨f, hf, hseverity⟩ hwarning
      | high => exact absurd ⟨f, hf, hseverity⟩ hhigh
  unfold verdictOf
  rw [hinfo]
  split_ifs with hhigh hwarning hclean
  · exact iff_of_false nofun fun h => h.2.2.1 hhigh
  · exact iff_of_false nofun fun h => h.2.2.2 hwarning
  · exact iff_of_true rfl ⟨hclean.1, hclean.2, hhigh, hwarning⟩
  · exact iff_of_false nofun fun h => hclean ⟨h.1, h.2.1⟩

end UsbSentinel.GuiReport

/-! ### The page -/

namespace UsbSentinel.WebPage
open ByteString Report Json GuiReport

/-- A value of the page's script; none is `undefined`. -/
abbrev Js (ν : Type) := Option (Value ν)

variable {ν : Type}

/-- Reading a property; of `undefined` and `null` that throws. The last of several members of
one name counts. -/
def property (name : String) : Js ν → Option (Js ν)
  | none => none
  | some .null => none
  | some (.object members) =>
    some ((members.reverse.find? fun m => m.1 = ascii name).map Prod.snd)
  | some _ => some none

/-- Only an array has a `forEach`. -/
def elements : Js ν → Option (List (Value ν))
  | some (.array items) => some items
  | _ => none

def isText (text : String) : Js ν → Bool
  | some (.string s) => s = ascii text
  | _ => false

def isNumber (isZero : ν → Bool) : Js ν → Bool
  | some (.number n) => isZero n
  | _ => false

structure Tally (ν : Type) where
  highCount : ℕ := 0
  warningCount : ℕ := 0
  findings : List (Js ν × Value ν) := []

def tallyFinding (check : Value ν) (t : Tally ν) (finding : Value ν) : Option (Tally ν) := do
  let id ← property "id" (some check)
  let t := { t with findings := t.findings ++ [(id, finding)] }
  let severity ← property "severity" (some finding)
  some
    (if isText "high" severity then { t with highCount := t.highCount + 1 }
    else if isText "warning" severity then { t with warningCount := t.warningCount + 1 }
    else t)

def tallyCheck (t : Tally ν) (check : Value ν) : Option (Tally ν) := do
  let findings ← property "findings" (some check)
  let items ← elements findings
  items.foldlM (tallyFinding check) t

/-- The verdict and the findings; none where the script throws. -/
def summarize (isZero : ν → Bool) (report : Value ν) :
    Option (Bytes × List (Js ν × Value ν)) := do
  let checks ← property "checks" (some report)
  let items ← elements checks
  let t ← items.foldlM tallyCheck {}
  let scan ← property "scan" (some report)
  let status ← property "status" scan
  let completed := isText "completed" status
  let summary ← property "summary" (some report)
  let skipped ← property "checks_skipped" summary
  let failed ← property "checks_failed" summary
  let allRan := isNumber isZero skipped && isNumber isZero failed
  let verdict :=
    if t.highCount > 0 then ascii "threat"
    else if t.warningCount > 0 then ascii "suspicious"
    else if !completed || !allRan then ascii "incomplete"
    else ascii "clean"
  some (verdict, t.findings)

def isAscii (s : Bytes) : Bool := s.all fun c => c < 128

def asciiKeys (members : List (Bytes × Value ℤ)) : Bool := members.all fun m => isAscii m.1

/-- How the page gets a document: numbers become its own, text is decoded, which leaves ASCII
as it is. -/
structure Reader (ν : Type) where
  number : ℤ → ν
  isZero : ν → Bool
  decode : Bytes → Bytes
  isZero_number : ∀ n, isZero (number n) = true ↔ n = 0
  decode_ascii : ∀ s, isAscii s = true → decode s = s

namespace Reader
variable (page : Reader ν)

mutual

def read : Value ℤ → Value ν
  | .null => .null
  | .bool b => .bool b
  | .number n => .number (page.number n)
  | .string s => .string (page.decode s)
  | .array items => .array (readItems items)
  | .object members => .object (readMembers members)

def readItems : List (Value ℤ) → List (Value ν)
  | [] => []
  | v :: rest => read v :: readItems rest

def readMembers : List (Bytes × Value ℤ) → List (Bytes × Value ν)
  | [] => []
  | (k, v) :: rest => (page.decode k, read v) :: readMembers rest

end

lemma readItems_map {α : Type} (f : α → Value ℤ) (items : List α) :
    page.readItems (items.map f) = items.map fun x => page.read (f x) := by
  induction items with
  | nil => rfl
  | cons x items ih => rw [List.map_cons, readItems, ih, List.map_cons]

lemma readMembers_eq (members : List (Bytes × Value ℤ)) :
    page.readMembers members = members.map fun m => (page.decode m.1, page.read m.2) := by
  induction members with
  | nil => rfl
  | cons m members ih =>
    obtain ⟨k, v⟩ := m
    rw [readMembers, ih, List.map_cons]

/-- A property of an object is the last member of that name. -/
lemma property_read {members : List (Bytes × Value ℤ)} (h : asciiKeys members = true) (name : String) :
    property name (some (page.read (.object members))) =
      some ((members.reverse.find? fun m => m.1 = ascii name).map fun m => page.read m.2) := by
  have hmembers : page.readMembers members = members.map fun m => (m.1, page.read m.2) := by
    rw [readMembers_eq]
    exact List.map_congr_left fun m hm => by
      rw [page.decode_ascii m.1 (List.all_eq_true.mp h m hm)]
  rw [read, property, hmembers, ← List.map_reverse, List.find?_map, Option.map_map]
  rfl

lemma isText_read (text : String) {s : Bytes} (hs : isAscii s = true) :
    isText text (some (page.read (.string s))) = decide (s = ascii text) := by
  rw [read, page.decode_ascii s hs]
  rfl

lemma isNumber_read (n : ℕ) :
    isNumber page.isZero (some (page.read (.number n))) = decide (n = 0) := by
  rw [read, isNumber, Bool.eq_iff_iff, page.isZero_number, decide_eq_true_eq, Nat.cast_eq_zero]

end Reader

/-! ### The page agrees with the window -/

section Agreement
variable (page : Reader ν)

/-- One more finding of this severity. -/
def Tally.add (t : Tally ν) (severity : Severity) (entry : Js ν × Value ν) : Tally ν where
  highCount := t.highCount + if severity = .high then 1 else 0
  warningCount := t.warningCount + if severity = .warning then 1 else 0
  findings := t.findings ++ [entry]

lemma tallyFinding_read (members : List (Bytes × Value ν)) (t : Tally ν) (finding : Finding) :
    ∃ entry, tallyFinding (.object members) t (page.read (findingTree finding)) =
      some (t.add finding.severity entry) := by
  have hseverity : property "severity" (some (page.read (findingTree finding))) =
      some (some (page.read (.string (severityString finding.severity)))) := by
    rw [findingTree, page.property_read rfl]
    rfl
  have hascii : isAscii (severityString finding.severity) = true := by
    cases finding.severity <;> decide
  have hhigh : isText "high" (some (page.read (.string (severityString finding.severity)))) =
      decide (finding.severity = .high) := by
    rw [page.isText_read "high" hascii]
    cases finding.severity <;> decide
  have hwarning :
      isText "warning" (some (page.read (.string (severityString finding.severity)))) =
        decide (finding.severity = .warning) := by
    rw [page.isText_read "warning" hascii]
    cases finding.severity <;> decide
  refine ⟨((members.reverse.find? fun m => m.1 = ascii "id").map Prod.snd,
    page.read (findingTree finding)), ?_⟩
  rw [tallyFinding, property, Option.bind_eq_bind, Option.bind_some]
  simp only [hseverity, hhigh, hwarning, Option.bind_some]
  cases finding.severity <;> rfl

lemma tallyFindings_read (members : List (Bytes × Value ν)) (findings : List Finding)
    (t : Tally ν) :
    ∃ entries, (findings.map fun f => page.read (findingTree f)).foldlM
        (tallyFinding (.object members)) t =
      some { highCount := t.highCount + findings.countP fun f => f.severity = .high,
             warningCount := t.warningCount + findings.countP fun f => f.severity = .warning,
             findings := t.findings ++ entries } ∧ entries.length = findings.length := by
  induction findings generalizing t with
  | nil => exact ⟨[], by simp, rfl⟩
  | cons finding findings ih =>
    obtain ⟨entry, hentry⟩ := tallyFinding_read page members t finding
    obtain ⟨entries, hrest, hlength⟩ := ih (t.add finding.severity entry)
    refine ⟨entry :: entries, ?_, by rw [List.length_cons, hlength, List.length_cons]⟩
    have hcount : ∀ (severity : Severity) (n : ℕ),
        n + (if finding.severity = severity then 1 else 0) +
            findings.countP (fun f => f.severity = severity) =
          n + (finding :: findings).countP fun f => f.severity = severity := by
      intro severity n
      simp only [List.countP_cons, decide_eq_true_eq]
      omega
    rw [List.map_cons, List.foldlM_cons, hentry, Option.bind_eq_bind, Option.bind_some, hrest,
      Tally.add, hcount .high, hcount .warning, List.append_assoc]
    rfl

lemma tallyCheck_read (t : Tally ν) (check : CheckResult) :
    ∃ entries, tallyCheck t (page.read (checkTree check)) =
      some { highCount := t.highCount + check.findings.items.countP fun f => f.severity = .high,
             warningCount :=
               t.warningCount + check.findings.items.countP fun f => f.severity = .warning,
             findings := t.findings ++ entries } ∧
        entries.length = check.findings.items.length := by
  have hremark : asciiKeys ((remark check).map fun m => member m.1 m.2) = true := by
    have hone : ∀ (name : String) (value : Bytes), isAscii (ascii name) = true →
        asciiKeys ([(name, value)].map fun m => member m.1 m.2) = true := by
      intro name value hname
      simp [asciiKeys, member, hname]
    unfold remark
    cases check.status with
    | ran =>
      simp only
      split_ifs
      · exact hone "message" check.message (by decide)
      · rfl
    | skipped => exact hone "skip_reason" check.skipReason (by decide)
    | failed => exact hone "message" check.message (by decide)
  have hkeys : asciiKeys ([member "id" check.id, member "status" (checkStatusString check.status)] ++
      (remark check).map (fun m => member m.1 m.2) ++
      [(ascii "findings", .array (check.findings.items.map findingTree))]) = true := by
    unfold asciiKeys at hremark ⊢
    rw [List.all_append, List.all_append, hremark]
    rfl
  have hfindings : property "findings" (some (page.read (checkTree check))) =
      some (some (page.read (.array (check.findings.items.map findingTree)))) := by
    rw [checkTree, page.property_read hkeys, List.reverse_append]
    rfl
  obtain ⟨entries, htally, hlength⟩ := tallyFindings_read page
    (page.readMembers ([member "id" check.id, member "status" (checkStatusString check.status)] ++
      (remark check).map (fun m => member m.1 m.2) ++
      [(ascii "findings", .array (check.findings.items.map findingTree))]))
    check.findings.items t
  refine ⟨entries, ?_, hlength⟩
  rw [tallyCheck, hfindings]
  simp only [Option.bind_eq_bind, Option.bind_some, Reader.read, elements, page.readItems_map]
  exact htally

lemma tallyChecks_read (checks : List CheckResult) (t : Tally ν) :
    ∃ entries, (checks.map fun check => page.read (checkTree check)).foldlM tallyCheck t =
      some { highCount := t.highCount + (allFindings checks).countP fun f => f.severity = .high,
             warningCount :=
               t.warningCount + (allFindings checks).countP fun f => f.severity = .warning,
             findings := t.findings ++ entries } ∧
        entries.length = (allFindings checks).length := by
  induction checks generalizing t with
  | nil => exact ⟨[], by simp [allFindings], rfl⟩
  | cons check checks ih =>
    obtain ⟨entries, hcheck, hlength⟩ := tallyCheck_read page t check
    obtain ⟨more, hrest, hmore⟩ := ih
      { highCount := t.highCount + check.findings.items.countP fun f => f.severity = .high,
        warningCount :=
          t.warningCount + check.findings.items.countP fun f => f.severity = .warning,
        findings := t.findings ++ entries }
    refine ⟨entries ++ more, ?_, ?_⟩
    · rw [List.map_cons, List.foldlM_cons, hcheck, Option.bind_eq_bind, Option.bind_some, hrest]
      simp [allFindings, Nat.add_assoc]
    · simp [allFindings, hlength, hmore]

/-- The name the page has for a verdict. -/
def verdictName : Verdict → Bytes
  | .clean => ascii "clean"
  | .incomplete => ascii "incomplete"
  | .suspicious => ascii "suspicious"
  | .threat => ascii "threat"

lemma checksWith_eq (status : CheckStatus) (checks : List CheckResult) :
    checksWith status checks = counted ((allStatuses checks).count status) := by
  rw [checksWith, allStatuses, List.count, List.countP_map]
  congr 2

lemma findingsCount_eq (checks : List CheckResult) :
    findingsCount checks = counted (allFindings checks).length := by
  rw [findingsCount, allFindings, List.length_flatMap]

lemma summarize_read {result : Result} (h : InMemory result.checks.items) :
    ∃ entries, summarize page.isZero (page.read (reportTree result)) =
        some (verdictName (verdictOf result.status (allFindings result.checks.items)
          (allStatuses result.checks.items)), entries) ∧
      entries.length = (allFindings result.checks.items).length := by
  have hchecks : property "checks" (some (page.read (reportTree result))) =
      some (some (page.read (.array (result.checks.items.map checkTree)))) := by
    rw [reportTree, page.property_read rfl]
    rfl
  have hscan : property "scan" (some (page.read (reportTree result))) =
      some (some (page.read (.object [member "scan_id" result.scanId,
        member "started_at" result.startedAt, member "finished_at" result.finishedAt,
        member "status" (scanStatusString result.status)]))) := by
    rw [reportTree, page.property_read rfl]
    rfl
  have hstatus : property "status" (some (page.read (.object [member "scan_id" result.scanId,
        member "started_at" result.startedAt, member "finished_at" result.finishedAt,
        member "status" (scanStatusString result.status)]))) =
      some (some (page.read (.string (scanStatusString result.status)))) := by
    rw [page.property_read rfl]
    rfl
  have hsummary : property "summary" (some (page.read (reportTree result))) =
      some (some (page.read (summaryTree result.checks.items))) := by
    rw [reportTree, page.property_read rfl]
    rfl
  have hskipped : property "checks_skipped" (some (page.read (summaryTree result.checks.items))) =
      some (some (page.read (.number (checksWith .skipped result.checks.items)))) := by
    rw [summaryTree, page.property_read rfl]
    rfl
  have hfailed : property "checks_failed" (some (page.read (summaryTree result.checks.items))) =
      some (some (page.read (.number (checksWith .failed result.checks.items)))) := by
    rw [summaryTree, page.property_read rfl]
    rfl
  have hcompleted : isText "completed" (some (page.read (.string
      (scanStatusString result.status)))) = decide (result.status = .completed) := by
    have hascii : isAscii (scanStatusString result.status) = true := by
      cases result.status <;> decide
    rw [page.isText_read "completed" hascii]
    cases result.status <;> decide
  obtain ⟨entries, htally, hlength⟩ := tallyChecks_read page result.checks.items {}
  refine ⟨entries, ?_, hlength⟩
  have helements : elements (some (page.read (.array (result.checks.items.map checkTree)))) =
      some (result.checks.items.map fun check => page.read (checkTree check)) := by
    rw [Reader.read, elements, page.readItems_map]
  unfold summarize
  simp only [hchecks, helements, htally, hscan, hstatus, hsummary, hskipped, hfailed,
    hcompleted, Reader.isNumber_read, Option.bind_eq_bind, Option.bind_some]
  have hstatuses : (allStatuses result.checks.items).length < 2 ^ 64 := by
    rw [allStatuses, List.length_map]
    exact h.checks
  have hhigh : (allFindings result.checks.items).countP (fun f => f.severity = .high) > 0 ↔
      ∃ f ∈ allFindings result.checks.items, f.severity = .high := by
    simp only [gt_iff_lt, List.countP_pos_iff, decide_eq_true_eq]
  have hwarning : (allFindings result.checks.items).countP (fun f => f.severity = .warning) > 0 ↔
      ∃ f ∈ allFindings result.checks.items, f.severity = .warning := by
    simp only [gt_iff_lt, List.countP_pos_iff, decide_eq_true_eq]
  have hcount : ∀ status, checksWith status result.checks.items > 0 ↔
      status ∈ allStatuses result.checks.items := by
    intro status
    rw [checksWith_eq, counted_count_pos hstatuses]
  rw [verdictOf_eq hhigh hwarning (hcount .skipped) (hcount .failed)]
  have hincomplete : (!decide (result.status = .completed) ||
      !(decide (checksWith .skipped result.checks.items = 0) &&
        decide (checksWith .failed result.checks.items = 0))) = true ↔
      result.status ≠ .completed ∨ checksWith .skipped result.checks.items > 0 ∨
        checksWith .failed result.checks.items > 0 := by
    simp only [Bool.or_eq_true, Bool.not_eq_true', Bool.and_eq_false_iff, decide_eq_false_iff_not,
      Nat.pos_iff_ne_zero, gt_iff_lt]
  simp only [hincomplete, Nat.zero_add, List.nil_append]
  split_ifs <;> rfl

/-- A count in the summary of a report. -/
def summaryCount (report : Value ℤ) (name : String) : Option ℤ :=
  match (objectGet report (ascii "summary")).bind fun summary => objectGet summary (ascii name) with
  | some (.number n) => some n
  | _ => none

/-- The summary of a report has the counters of the window. -/
structure CountsShown (report : Value ℤ) (s : Summary) : Prop where
  run : summaryCount report "checks_run" = some (s.checksRun : ℤ)
  skipped : summaryCount report "checks_skipped" = some (s.checksSkipped : ℤ)
  failed : summaryCount report "checks_failed" = some (s.checksFailed : ℤ)
  finding : summaryCount report "findings_count" = some (s.findingCount : ℤ)

lemma sourceRows_length (result : Result) :
    (sourceRows result).length = (allFindings result.checks.items).length +
      result.checks.items.countP fun check => check.findings.items = [] := by
  unfold sourceRows allFindings
  induction result.checks.items with
  | nil => rfl
  | cons check checks ih =>
    have hrows : ((reported check).map
        (sourceRow result.scanId (identityOf result.device) check)).length =
        check.findings.items.length + if check.findings.items = [] then 1 else 0 := by
      unfold reported
      by_cases hnone : check.findings.items = []
      · rw [if_pos hnone, if_pos hnone, hnone]
        rfl
      · rw [if_neg hnone, if_neg hnone, List.length_map, List.length_map]
        rfl
    rw [List.flatMap_cons, List.length_append, hrows, ih, List.flatMap_cons, List.length_append,
      List.countP_cons]
    simp only [decide_eq_true_eq]
    omega

/-- The check says the same up to the order of its findings. -/
def SameCheck (a b : CheckResult) : Prop :=
  a.status = b.status ∧ a.findings.items.Perm b.findings.items

/-- The same scan with its checks, and the findings of each, in another order. -/
structure Reordered (a b : Result) : Prop where
  status : a.status = b.status
  checks : ∃ middle, a.checks.items.Perm middle ∧ List.Forall₂ SameCheck middle b.checks.items

lemma sameChecks_perm {a b : List CheckResult} (h : List.Forall₂ SameCheck a b) :
    (allFindings a).Perm (allFindings b) ∧ allStatuses a = allStatuses b := by
  induction h with
  | nil => exact ⟨List.Perm.refl _, rfl⟩
  | cons hcheck _ ih =>
    refine ⟨?_, ?_⟩
    · unfold allFindings
      rw [List.flatMap_cons, List.flatMap_cons]
      exact hcheck.2.append ih.1
    · unfold allStatuses
      rw [List.map_cons, List.map_cons, hcheck.1]
      exact congrArg _ ih.2

lemma Reordered.verdict {a b : Result} (h : Reordered a b) (ha : InMemory a.checks.items) :
    (GuiReport.summarize (some b)).verdict = (GuiReport.summarize (some a)).verdict := by
  obtain ⟨middle, hperm, hsame⟩ := h.checks
  obtain ⟨hfindings, hstatuses⟩ := sameChecks_perm hsame
  have hall : (allFindings a.checks.items).Perm (allFindings b.checks.items) :=
    (hperm.flatMap_right _).trans hfindings
  have hchecks : (allStatuses a.checks.items).Perm (allStatuses b.checks.items) :=
    hstatuses ▸ hperm.map _
  have hb : InMemory b.checks.items := by
    refine ⟨hall.length_eq ▸ ha.findings, ?_⟩
    have hlength := hchecks.length_eq
    rw [allStatuses, allStatuses, List.length_map, List.length_map] at hlength
    rw [← hlength]
    exact ha.checks
  rw [summarize_verdict ha, summarize_verdict hb, h.status, verdictOf_perm hall hchecks]

lemma summaryCount_read (result : Result) {name : String} {n : ℕ}
    (h : (objectGet (summaryTree result.checks.items) (ascii name)) = some (.number n)) :
    summaryCount (reportTree result) name = some (n : ℤ) := by
  have hsummary : objectGet (reportTree result) (ascii "summary") =
      some (summaryTree result.checks.items) := rfl
  rw [summaryCount, hsummary, Option.bind_some, h]

/-- All views of a result agree, and with the memory for them its two texts are there. -/
theorem views_agree {result : Result} (h : InMemory result.checks.items) :
    (∀ realloc malloc text, buildJson realloc malloc result = .ok text →
      text = render (reportTree result)) ∧
    CountsShown (reportTree result) (GuiReport.summarize (some result)) ∧
    (∀ realloc malloc text, buildCsv realloc malloc result = .ok text →
      ∃ rows, Csv.parse csvMarks text = some (csvColumns :: rows) ∧
        rows.length = (allFindings result.checks.items).length +
          result.checks.items.countP fun check => check.findings.items = []) ∧
    (∃ findings, summarize page.isZero (page.read (reportTree result)) =
      some (verdictName (GuiReport.summarize (some result)).verdict, findings)) ∧
    ((GuiReport.summarize (some result)).verdict = .clean ↔
      result.status = .completed ∧
        ∀ check ∈ result.checks.items, check.status = .ran ∧
          ∀ f ∈ check.findings.items, f.severity = .info) ∧
    (∀ other, Reordered result other →
      (GuiReport.summarize (some other)).verdict =
        (GuiReport.summarize (some result)).verdict) ∧
    (∀ realloc malloc, Json.Fits realloc (render (reportTree result)).length →
      malloc ((render (reportTree result)).length + 1) = true →
      buildJson realloc malloc result = .ok (render (reportTree result))) ∧
    (∀ realloc malloc, (∀ n, realloc n = true) → (∀ n, malloc n = true) →
      ((csvColumns :: sourceRows result).flatMap lineText).length < csvRoom →
      ∃ text, buildCsv realloc malloc result = .ok text) := by
  have hcounts := summarize_counts result
  refine ⟨fun _ _ _ htext => (buildJson_text htext).2, ⟨?_, ?_, ?_, ?_⟩, ?_, ?_, ?_,
    fun _ hother => hother.verdict h, fun _ _ => buildJson_ok,
    fun _ _ hrealloc hmalloc => buildCsv_isOk hrealloc hmalloc⟩
  · rw [hcounts.run, ← checksWith_eq]
    exact summaryCount_read result rfl
  · rw [hcounts.skipped, ← checksWith_eq]
    exact summaryCount_read result rfl
  · rw [hcounts.failed, ← checksWith_eq]
    exact summaryCount_read result rfl
  · rw [hcounts.finding, ← findingsCount_eq]
    exact summaryCount_read result rfl
  · intro realloc malloc text htext
    refine ⟨(sourceRows result).map fun row => row.map defused, ?_, ?_⟩
    · rw [buildCsv_read htext, List.map_cons, columns_defused]
    · rw [List.length_map, sourceRows_length]
  · obtain ⟨entries, hpage, _⟩ := summarize_read page h
    refine ⟨entries, ?_⟩
    rw [hpage, summarize_verdict h]
  · rw [summarize_verdict h, verdictOf_clean_iff]
    refine and_congr_right fun _ => ?_
    simp only [allStatuses, allFindings, List.forall_mem_map, List.mem_flatMap]
    constructor
    · rintro ⟨hran, hinfo⟩ check hcheck
      exact ⟨hran check hcheck, fun f hf => hinfo f ⟨check, hcheck, hf⟩⟩
    · intro hall
      refine ⟨fun check hcheck => (hall check hcheck).1, ?_⟩
      rintro f ⟨check, hcheck, hf⟩
      exact (hall check hcheck).2 f hf

/-- A page that reads numbers and text as they are. -/
def plainReader : Reader ℤ where
  number := id
  isZero n := n = 0
  decode := id
  isZero_number _ := decide_eq_true_iff
  decode_ascii _ _ := rfl

theorem views_agree_formula :
    (GuiReport.summarize (some formulaResult)).verdict = .threat ∧
      ∃ findings, summarize plainReader.isZero (plainReader.read (reportTree formulaResult)) =
        some (ascii "threat", findings) := by
  have h := @views_agree ℤ plainReader formulaResult ⟨by decide, by decide⟩
  have hverdict : (GuiReport.summarize (some formulaResult)).verdict = .threat := by
    decide +kernel
  obtain ⟨findings, hpage⟩ := h.2.2.2.1
  refine ⟨hverdict, findings, ?_⟩
  rw [hpage, hverdict]
  rfl

end Agreement

end UsbSentinel.WebPage
