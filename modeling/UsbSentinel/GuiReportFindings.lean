import UsbSentinel.GuiReportView

/-! The findings in the window's report: each stands there once, with all of its text as long
as its path fits the buffer of a line. -/
namespace UsbSentinel.GuiReport
open ByteString Report

/-- The findings with the ids of their checks. -/
def entries (checks : List CheckResult) : List (Bytes × Finding) :=
  checks.flatMap fun check => check.findings.items.map fun finding => (check.id, finding)

/-- The lines of a finding with nothing cut off. -/
def wholeRuns (entry : Bytes × Finding) : List Run :=
  [⟨styleForSeverity entry.2.severity, ascii "   " ++ marker ++ ascii "  [" ++
      labelForSeverity entry.2.severity ++ ascii "]  " ++ entry.2.message ++ crlf⟩] ++
    (if entry.2.path ≠ [] then
      [⟨.muted, ascii "        Location:  " ++ entry.2.path ++ crlf⟩] else []) ++
    [⟨.muted, ascii "        Found by:  " ++ checkDisplayName entry.1 ++ crlf⟩]

/-- Entries below each other, a blank line between. -/
def listing (lines : Bytes × Finding → List Run) (shown : List (Bytes × Finding)) : List Run :=
  emitBlank.intercalate (shown.map lines)

/-- A section of the report: nothing, or a heading over these entries. -/
def Listed (lines : Bytes × Finding → List Run) (shown : List (Bytes × Finding))
    (runs : List Run) : Prop :=
  (shown = [] ∧ runs = []) ∨
    ∃ title, runs = emitSection title ++ listing lines shown ++ emitBlank

/-- The result with the texts of its findings removed. -/
def untoldCheck (check : CheckResult) : CheckResult :=
  { check with findings := { check.findings with
      items := check.findings.items.map fun finding => { finding with message := [], path := [] } } }

def untold (result : Result) : Result :=
  { result with checks := { result.checks with items := result.checks.items.map untoldCheck } }

/-- Every finding stands in one of two sections, once and whole, and all the rest of the report
would be the same without the findings' texts. -/
structure ShowsFindings (result : Result) (totals : Option Totals) : Prop where
  shown : ∃ threats notes threatRuns noteRuns,
    (threats ++ notes).Perm (entries result.checks.items) ∧
      Listed wholeRuns threats threatRuns ∧ Listed wholeRuns notes noteRuns ∧
      renderRuns result totals = renderHead result totals (summarize (some result)) ++
        threatRuns ++ noteRuns ++ renderTail result (summarize (some result))
  rest : renderHead (untold result) totals (summarize (some (untold result))) =
      renderHead result totals (summarize (some result)) ∧
    renderTail (untold result) (summarize (some (untold result))) =
      renderTail result (summarize (some result))
  ended : ∀ entry ∈ entries result.checks.items, ∀ run ∈ wholeRuns entry, crlf <:+ run.text

/-- The texts fit their fields. -/
structure Stored (checks : List CheckResult) : Prop where
  ids : ∀ check ∈ checks, check.id.length < checkIdMax
  messages : ∀ finding ∈ allFindings checks, finding.message.length < findingMessageMax

/-! ### Lists of entries -/

section Listing

variable {lines : Bytes × Finding → List Run} {shown : List (Bytes × Finding)}

lemma listing_snoc (lines : Bytes × Finding → List Run) (shown : List (Bytes × Finding))
    (entry : Bytes × Finding) : listing lines (shown ++ [entry]) =
      listing lines shown ++ (if shown.length > 0 then emitBlank else []) ++ lines entry := by
  induction shown with
  | nil => simp [listing]
  | cons first rest ih =>
    cases rest with
    | nil => simp [listing]
    | cons second rest =>
      simp only [listing, List.map_append, List.map_cons, List.map_nil, List.cons_append,
        List.intercalate_cons_cons, List.length_cons, Nat.zero_lt_succ, gt_iff_lt, if_true] at ih ⊢
      rw [ih]
      simp only [List.append_assoc]

lemma mem_listing {run : Run} (h : run ∈ listing lines shown) :
    run ∈ emitBlank ∨ ∃ entry ∈ shown, run ∈ lines entry := by
  induction shown using List.reverseRecOn with
  | nil => simp [listing] at h
  | append_singleton shown entry ih =>
    rw [listing_snoc] at h
    rcases List.mem_append.mp h with h | h
    · rcases List.mem_append.mp h with h | h
      · rcases ih h with hblank | ⟨e, he, hrun⟩
        · exact .inl hblank
        · exact .inr ⟨e, List.mem_append_left _ he, hrun⟩
      · split_ifs at h
        · exact .inl h
        · cases h
    · exact .inr ⟨entry, by simp, h⟩

lemma listing_mem {entry : Bytes × Finding} (hentry : entry ∈ shown) {run : Run}
    (h : run ∈ lines entry) : run ∈ listing lines shown := by
  induction shown using List.reverseRecOn with
  | nil => cases hentry
  | append_singleton shown last ih =>
    rw [listing_snoc]
    rcases List.mem_append.mp hentry with hbefore | hlast
    · exact List.mem_append_left _ (List.mem_append_left _ (ih hbefore))
    · obtain rfl := List.mem_singleton.mp hlast
      exact List.mem_append_right _ h

end Listing

/-! ### The loop -/

lemma renderFindings_entries (checks : List CheckResult) (floor : Severity) (exact : Bool) :
    renderFindings checks floor exact =
      (entries checks).foldl (fun out entry => renderFinding floor exact entry.1 out entry.2)
        ([], 0) := by
  unfold renderFindings entries
  generalize (([], 0) : List Run × ℕ) = start
  induction checks generalizing start with
  | nil => rfl
  | cons check checks ih =>
    rw [List.foldl_cons, List.flatMap_cons, List.foldl_append, List.foldl_map]
    exact ih _

/-- Both loops together list the selected entries. -/
lemma renderFindings_eq (checks : List CheckResult) (floor : Severity) (exact : Bool) :
    (renderFindings checks floor exact).1 = listing (fun entry => findingRuns entry.1 entry.2)
      ((entries checks).filter fun entry => selected floor exact entry.2) := by
  have hfold : ∀ seen : List (Bytes × Finding),
      seen.foldl (fun out entry => renderFinding floor exact entry.1 out entry.2) ([], 0) =
        (listing (fun entry => findingRuns entry.1 entry.2)
            (seen.filter fun entry => selected floor exact entry.2),
          (seen.filter fun entry => selected floor exact entry.2).length) := by
    intro seen
    induction seen using List.reverseRecOn with
    | nil => rfl
    | append_singleton seen entry ih =>
      rw [List.foldl_append, ih, List.foldl_cons, List.foldl_nil, renderFinding,
        List.filter_append]
      cases hselected : selected floor exact entry.2 with
      | false => simp [hselected]
      | true => simp [hselected, listing_snoc]
  rw [renderFindings_entries, hfold]

/-- A section stands exactly if there is something in it. -/
lemma section_listed {shows : Prop} [Decidable shows] {checks : List CheckResult}
    {floor : Severity} {exact : Bool} (title : String)
    (hshows : shows ↔ ∃ finding ∈ allFindings checks, selected floor exact finding = true) :
    Listed (fun entry => findingRuns entry.1 entry.2)
      ((entries checks).filter fun entry => selected floor exact entry.2)
      (if shows then emitSection title ++ (renderFindings checks floor exact).1 ++ emitBlank
        else []) := by
  by_cases h : shows
  · refine .inr ⟨title, ?_⟩
    rw [if_pos h, renderFindings_eq]
  · refine .inl ⟨?_, if_neg h⟩
    rw [List.filter_eq_nil_iff]
    intro entry hentry hselected
    obtain ⟨check, hcheck, hmem⟩ := List.mem_flatMap.mp hentry
    obtain ⟨finding, hfinding, rfl⟩ := List.mem_map.mp hmem
    exact h (hshows.mpr ⟨finding, List.mem_flatMap.mpr ⟨check, hcheck, hfinding⟩, hselected⟩)

/-! ### The lines -/

lemma emitFmt_whole {style : TextStyle} {text : Bytes} (hsome : text ≠ [])
    (hroom : text.length < guiLineMax) : emitFmt style text = [⟨style, text⟩] := by
  rw [emitFmt, cut_eq_self hroom, emitText, if_pos hsome]

lemma emitFmt_short {style : TextStyle} {text : Bytes} {run : Run} (h : run ∈ emitFmt style text) :
    run.text.length < guiLineMax := by
  rw [emitFmt, emitText] at h
  split_ifs at h with hsome
  · obtain rfl := List.mem_singleton.mp h
    have hcut := cut_length guiLineMax text
    have hmax : guiLineMax = 1024 := rfl
    simp only
    omega
  · cases h

lemma findingRuns_short {id : Bytes} {finding : Finding} {run : Run}
    (h : run ∈ findingRuns id finding) : run.text.length < guiLineMax := by
  rcases List.mem_append.mp h with h | h
  · rcases List.mem_append.mp h with h | h
    · exact emitFmt_short h
    · split_ifs at h
      · exact emitFmt_short h
      · cases h
  · exact emitFmt_short h

lemma append_crlf_ne_nil (text : Bytes) : text ++ crlf ≠ [] := by simp [crlf]

lemma checkDisplayName_length {id : Bytes} (h : id.length < checkIdMax) :
    (checkDisplayName id).length < 64 := by
  unfold checkDisplayName
  split_ifs
  all_goals first | decide | exact h

lemma labelForSeverity_length (severity : Severity) : (labelForSeverity severity).length ≤ 10 := by
  cases severity <;> decide

lemma findingRuns_whole {id : Bytes} {finding : Finding} (hid : id.length < checkIdMax)
    (hmessage : finding.message.length < findingMessageMax) (hpath : finding.path.length ≤ 1002) :
    findingRuns id finding = wholeRuns (id, finding) := by
  have hname := checkDisplayName_length hid
  have hlabel := labelForSeverity_length finding.severity
  have hmax : guiLineMax = 1024 := rfl
  have hmessageMax : findingMessageMax = 256 := rfl
  have hindent : (ascii "   ").length = 3 := ascii_length _
  have hopen : (ascii "  [").length = 3 := ascii_length _
  have hclose : (ascii "]  ").length = 3 := ascii_length _
  have hlocation : (ascii "        Location:  ").length = 19 := ascii_length _
  have hfound : (ascii "        Found by:  ").length = 19 := ascii_length _
  have hmarker : marker.length = 3 := rfl
  have hcrlf : crlf.length = 2 := rfl
  have hfirst : (ascii "   " ++ marker ++ ascii "  [" ++ labelForSeverity finding.severity ++
      ascii "]  " ++ finding.message ++ crlf).length < guiLineMax := by
    simp only [List.length_append, hindent, hopen, hclose, hmarker, hcrlf]
    omega
  have hsecond : (ascii "        Location:  " ++ finding.path ++ crlf).length < guiLineMax := by
    simp only [List.length_append, hlocation, hcrlf]
    omega
  have hthird : (ascii "        Found by:  " ++ checkDisplayName id ++ crlf).length
      < guiLineMax := by
    simp only [List.length_append, hfound, hcrlf]
    omega
  rw [findingRuns, wholeRuns, emitFmt_whole (append_crlf_ne_nil _) hfirst,
    emitFmt_whole (append_crlf_ne_nil _) hsecond, emitFmt_whole (append_crlf_ne_nil _) hthird]

lemma wholeRuns_ended {entry : Bytes × Finding} {run : Run} (h : run ∈ wholeRuns entry) :
    crlf <:+ run.text := by
  rcases List.mem_append.mp h with h | h
  · rcases List.mem_append.mp h with h | h
    · obtain rfl := List.mem_singleton.mp h
      exact List.suffix_append _ _
    · split_ifs at h
      · obtain rfl := List.mem_singleton.mp h
        exact List.suffix_append _ _
      · cases h
  · obtain rfl := List.mem_singleton.mp h
    exact List.suffix_append _ _

/-! ### The rest of the report -/

lemma countCheck_untold (s : Summary) (check : CheckResult) :
    countCheck s (untoldCheck check) = countCheck s check := by
  unfold countCheck untoldCheck
  rw [List.foldl_map]
  rfl

lemma summarize_untold (result : Result) :
    summarize (some (untold result)) = summarize (some result) := by
  have hzero : zeroed (untold result) = zeroed result := rfl
  have hitems : (untold result).checks.items = result.checks.items.map untoldCheck := rfl
  simp only [summarize, hzero, hitems, List.foldl_map, countCheck_untold]

lemma renderCheck_untold (check : CheckResult) :
    renderCheck (untoldCheck check) = renderCheck check := by
  have hcount : (untoldCheck check).findings.items.length = check.findings.items.length :=
    List.length_map _
  have houtcome : checkOutcome (untoldCheck check) = checkOutcome check := by
    unfold checkOutcome
    rw [hcount]
    rfl
  unfold renderCheck
  rw [houtcome]
  rfl

lemma traversalMessage_untold (result : Result) :
    traversalMessage (untold result) = traversalMessage result := by
  have hitems : (untold result).checks.items = result.checks.items.map untoldCheck := rfl
  rw [traversalMessage, hitems, List.find?_map, Option.map_map]
  rfl

lemma renderHead_untold (result : Result) (totals : Option Totals) (summary : Summary) :
    renderHead (untold result) totals summary = renderHead result totals summary := by
  have hscan : renderScan (untold result) totals summary = renderScan result totals summary := by
    unfold renderScan
    rw [traversalMessage_untold]
    rfl
  have hdevice : (untold result).device = result.device := rfl
  rw [renderHead, renderHead, hscan, hdevice]

lemma renderTail_untold (result : Result) (summary : Summary) :
    renderTail (untold result) summary = renderTail result summary := by
  have hitems : (untold result).checks.items = result.checks.items.map untoldCheck := rfl
  have hcheck : renderCheck ∘ untoldCheck = renderCheck := funext renderCheck_untold
  rw [renderTail, renderTail, renderChecks, renderChecks, hitems, List.flatMap_map]
  simp only [renderCheck_untold]

/-! ### All findings -/

lemma summarize_threats {result : Result} (hmemory : InMemory result.checks.items) :
    (summarize (some result)).highCount > 0 ∨ (summarize (some result)).warningCount > 0 ↔
      ∃ finding ∈ allFindings result.checks.items, selected .warning false finding = true := by
  have hcounts := summarize_counts result
  rw [hcounts.high, hcounts.warning, counted_countP_pos hmemory.findings,
    counted_countP_pos hmemory.findings]
  have hselected : ∀ finding : Finding, selected .warning false finding = true ↔
      decide (finding.severity = .high) = true ∨ decide (finding.severity = .warning) = true := by
    intro finding
    cases h : finding.severity <;> simp [selected, Severity.rank, h]
  simp only [hselected]
  constructor
  · rintro (⟨finding, hmem, h⟩ | ⟨finding, hmem, h⟩)
    · exact ⟨finding, hmem, .inl h⟩
    · exact ⟨finding, hmem, .inr h⟩
  · rintro ⟨finding, hmem, h | h⟩
    · exact .inl ⟨finding, hmem, h⟩
    · exact .inr ⟨finding, hmem, h⟩

lemma summarize_notes {result : Result} (hmemory : InMemory result.checks.items) :
    (summarize (some result)).infoCount > 0 ↔
      ∃ finding ∈ allFindings result.checks.items, selected .info true finding = true := by
  rw [(summarize_counts result).info, counted_countP_pos hmemory.findings]
  rfl

/-- What is not shown among the threats is a note. -/
lemma selected_perm (shown : List (Bytes × Finding)) :
    ((shown.filter fun entry => selected .warning false entry.2) ++
      shown.filter fun entry => selected .info true entry.2).Perm shown := by
  have hnote : (fun entry : Bytes × Finding => selected .info true entry.2) =
      fun entry => !selected .warning false entry.2 := by
    funext entry
    cases h : entry.2.severity <;> simp [selected, Severity.rank, h]
  rw [hnote]
  exact List.filter_append_perm _ _

lemma Listed.whole {shown : List (Bytes × Finding)} {runs : List Run}
    (hwhole : ∀ entry ∈ shown, findingRuns entry.1 entry.2 = wholeRuns entry)
    (h : Listed (fun entry => findingRuns entry.1 entry.2) shown runs) :
    Listed wholeRuns shown runs := by
  have hlisting : listing (fun entry => findingRuns entry.1 entry.2) shown =
      listing wholeRuns shown := by
    rw [listing, listing, List.map_congr_left hwhole]
  rcases h with hnone | ⟨title, hruns⟩
  · exact .inl hnone
  · exact .inr ⟨title, hlisting ▸ hruns⟩

lemma emitBlank_short {run : Run} (h : run ∈ emitBlank) : run.text.length < guiLineMax := by
  obtain rfl := List.mem_singleton.mp (show run ∈ [⟨.body, crlf⟩] from h)
  decide

lemma Listed.short {shown : List (Bytes × Finding)} {runs : List Run}
    (h : Listed (fun entry => findingRuns entry.1 entry.2) shown runs) :
    ∀ run ∈ runs, run.text.length < guiLineMax := by
  intro run hrun
  rcases h with ⟨-, rfl⟩ | ⟨title, rfl⟩
  · cases hrun
  · rcases List.mem_append.mp hrun with hrun | hrun
    · rcases List.mem_append.mp hrun with hrun | hrun
      · exact emitFmt_short hrun
      · rcases mem_listing hrun with hblank | ⟨entry, -, hrun⟩
        · exact emitBlank_short hblank
        · exact findingRuns_short hrun
    · exact emitBlank_short hrun

lemma Listed.mem {shown : List (Bytes × Finding)} {runs : List Run}
    (h : Listed wholeRuns shown runs) {entry : Bytes × Finding} (hentry : entry ∈ shown)
    {run : Run} (hrun : run ∈ wholeRuns entry) : run ∈ runs := by
  rcases h with ⟨rfl, -⟩ | ⟨title, rfl⟩
  · cases hentry
  · exact List.mem_append_left _ (List.mem_append_right _ (listing_mem hentry hrun))

lemma renderRuns_listed {result : Result} (hmemory : InMemory result.checks.items)
    (totals : Option Totals) : ∃ threatRuns noteRuns,
      Listed (fun entry => findingRuns entry.1 entry.2)
        ((entries result.checks.items).filter fun entry => selected .warning false entry.2)
        threatRuns ∧
      Listed (fun entry => findingRuns entry.1 entry.2)
        ((entries result.checks.items).filter fun entry => selected .info true entry.2) noteRuns ∧
      renderRuns result totals = renderHead result totals (summarize (some result)) ++
        threatRuns ++ noteRuns ++ renderTail result (summarize (some result)) :=
  ⟨_, _, section_listed (if (summarize (some result)).highCount > 0 then "THREATS FOUND"
      else "SUSPICIOUS ITEMS") (summarize_threats hmemory),
    section_listed "NOTES" (summarize_notes hmemory), rfl⟩

lemma mem_entries {checks : List CheckResult} {entry : Bytes × Finding}
    (h : entry ∈ entries checks) :
    (∃ check ∈ checks, check.id = entry.1) ∧ entry.2 ∈ allFindings checks := by
  obtain ⟨check, hcheck, hmem⟩ := List.mem_flatMap.mp h
  obtain ⟨finding, hfinding, rfl⟩ := List.mem_map.mp hmem
  exact ⟨⟨check, hcheck, rfl⟩, List.mem_flatMap.mpr ⟨check, hcheck, hfinding⟩⟩

/-- The line that names the path is in the report, and no line is longer than its buffer. -/
lemma ShowsFindings.path_fits {result : Result} {totals : Option Totals}
    (h : ShowsFindings result totals) (hmemory : InMemory result.checks.items)
    {finding : Finding} (hfinding : finding ∈ allFindings result.checks.items) :
    finding.path.length ≤ 1002 := by
  by_contra hlong
  have hsome : finding.path ≠ [] := by
    rintro hnil
    rw [hnil] at hlong
    exact hlong (Nat.zero_le _)
  obtain ⟨threats, notes, threatRuns, noteRuns, hall, hthreats, hnotes, heq⟩ := h.shown
  obtain ⟨cutThreats, cutNotes, hcutThreats, hcutNotes, hcut⟩ := renderRuns_listed hmemory totals
  have hsections : cutThreats ++ cutNotes = threatRuns ++ noteRuns := by
    rw [hcut, List.append_assoc _ cutThreats, List.append_assoc _ threatRuns] at heq
    exact List.append_cancel_left (List.append_cancel_right heq)
  obtain ⟨check, hcheck, hmem⟩ := List.mem_flatMap.mp hfinding
  have hentry : (check.id, finding) ∈ entries result.checks.items :=
    List.mem_flatMap.mpr ⟨check, hcheck, List.mem_map_of_mem hmem⟩
  have hline : (⟨.muted, ascii "        Location:  " ++ finding.path ++ crlf⟩ : Run) ∈
      wholeRuns (check.id, finding) := by
    simp [wholeRuns, hsome]
  have hshown : (⟨.muted, ascii "        Location:  " ++ finding.path ++ crlf⟩ : Run) ∈
      cutThreats ++ cutNotes := by
    rw [hsections]
    rcases List.mem_append.mp (hall.mem_iff.mpr hentry) with hthreat | hnote
    · exact List.mem_append_left _ (hthreats.mem hthreat hline)
    · exact List.mem_append_right _ (hnotes.mem hnote hline)
  have hshort : (ascii "        Location:  " ++ finding.path ++ crlf).length < guiLineMax := by
    rcases List.mem_append.mp hshown with h | h
    · exact hcutThreats.short _ h
    · exact hcutNotes.short _ h
  have hlocation : (ascii "        Location:  ").length = 19 := ascii_length _
  have hcrlf : crlf.length = 2 := rfl
  have hmax : guiLineMax = 1024 := rfl
  simp only [List.length_append, hlocation, hcrlf] at hshort
  omega

theorem renderRuns_showsFindings {result : Result} (totals : Option Totals)
    (hstored : Stored result.checks.items) (hmemory : InMemory result.checks.items) :
    ShowsFindings result totals ↔
      ∀ finding ∈ allFindings result.checks.items, finding.path.length ≤ 1002 := by
  constructor
  · exact fun h finding hfinding => h.path_fits hmemory hfinding
  · intro hpaths
    obtain ⟨threatRuns, noteRuns, hthreats, hnotes, heq⟩ := renderRuns_listed hmemory totals
    have hwhole : ∀ entry ∈ entries result.checks.items,
        findingRuns entry.1 entry.2 = wholeRuns entry := by
      intro entry hmem
      obtain ⟨⟨check, hcheck, hid⟩, hfinding⟩ := mem_entries hmem
      have hroom := hid ▸ hstored.ids check hcheck
      exact findingRuns_whole hroom (hstored.messages _ hfinding) (hpaths _ hfinding)
    refine ⟨⟨_, _, threatRuns, noteRuns, selected_perm _, ?_, ?_, heq⟩, ⟨?_, ?_⟩,
      fun _ _ _ => wholeRuns_ended⟩
    · exact hthreats.whole fun entry h => hwhole entry (List.mem_of_mem_filter h)
    · exact hnotes.whole fun entry h => hwhole entry (List.mem_of_mem_filter h)
    · rw [summarize_untold, renderHead_untold]
    · rw [summarize_untold, renderTail_untold]

def longFinding (length : ℕ) : Finding :=
  ⟨.high, ascii "executable disguised as a document", List.replicate length 97⟩

/-- One finding on a path of this length. -/
def pathReport (length : ℕ) : Result where
  status := .completed
  checks := { items :=
    [{ id := ascii "suspicious_filename", findings := { items := [longFinding length] } }] }
  pathsSkipped := 0
  pathsExcluded := 0
  scanId := ascii "0123456789abcdef"
  startedAt := []
  finishedAt := []
  device := { volumePath := ascii "/v/" }
  capabilities := {}

lemma mem_pathReport {length : ℕ} {finding : Finding}
    (h : finding ∈ allFindings (pathReport length).checks.items) : finding = longFinding length :=
  List.mem_singleton.mp h

lemma pathReport_stored (length : ℕ) : Stored (pathReport length).checks.items := by
  constructor
  · intro check hcheck
    obtain rfl := List.mem_singleton.mp hcheck
    simp only
    decide
  · intro finding hfinding
    rw [mem_pathReport hfinding, longFinding]
    simp only
    decide

lemma pathReport_inMemory (length : ℕ) : InMemory (pathReport length).checks.items :=
  ⟨Nat.one_lt_two_pow (by decide), Nat.one_lt_two_pow (by decide)⟩

theorem pathReport_shown : ShowsFindings (pathReport 1002) none := by
  refine (renderRuns_showsFindings none (pathReport_stored 1002) (pathReport_inMemory 1002)).mpr ?_
  intro finding hfinding
  rw [mem_pathReport hfinding, longFinding, List.length_replicate]

/-- A path that its field can hold loses its last byte and the end of the line. -/
theorem pathReport_cut : ¬∀ result : Result, Stored result.checks.items →
    InMemory result.checks.items →
    (∀ finding ∈ allFindings result.checks.items, finding.path.length < findingPathMax) →
    ShowsFindings result none := by
  intro hall
  have hfield : ∀ finding ∈ allFindings (pathReport 1005).checks.items,
      finding.path.length < findingPathMax := by
    intro finding hfinding
    rw [mem_pathReport hfinding, longFinding, List.length_replicate]
    decide
  have hshows := hall (pathReport 1005) (pathReport_stored 1005) (pathReport_inMemory 1005) hfield
  have hfits := hshows.path_fits (pathReport_inMemory 1005) (List.mem_singleton_self _)
  rw [longFinding, List.length_replicate] at hfits
  omega

end UsbSentinel.GuiReport
