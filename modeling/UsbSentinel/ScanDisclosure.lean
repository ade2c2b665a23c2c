import UsbSentinel.ScanDisclaimer
import UsbSentinel.ScanFindings
import UsbSentinel.ScanProgress

/-! What the messages of a result say about places passed over and findings weighed down:
every count in full, as long as the check is in the list. -/
namespace UsbSentinel.Scanner
open ByteString

def skippedText (n : ℕ) : Bytes :=
  ascii ", " ++ decimal n ++ ascii " location(s) skipped (access denied or unavailable)"

def excludedText (n : ℕ) : Bytes :=
  ascii ", " ++ decimal n ++ ascii " location(s) excluded (USB Sentinel test fixtures)"

def policyText (suppressed lowered : UInt64) : Bytes :=
  ascii "internal-drive location policy: " ++ decimal suppressed.toNat ++
    ascii " match(es) in OS-generated or dependency locations not reported, " ++
    decimal lowered.toNat ++ ascii " reported at lowered severity"

/-- The counters of the walk have 64 bits. -/
structure WalkState.Counted (st : WalkState) : Prop where
  files : st.fileCount < 2 ^ 64
  skipped : st.pathsSkipped < 2 ^ 64
  excluded : st.pathsExcluded < 2 ^ 64

/-- Whatever the scan counted is said in the message of a check of the result. -/
structure CountsStated (scan : Scan) (signatures : SignatureState) : Prop where
  skipped : 0 < (scannerScan scan signatures).1.pathsSkipped →
    ∃ check ∈ (scannerScan scan signatures).1.checks.items, check.id = traversalId ∧
      skippedText (scannerScan scan signatures).1.pathsSkipped <:+: check.message
  excluded : 0 < (scannerScan scan signatures).1.pathsExcluded →
    ∃ check ∈ (scannerScan scan signatures).1.checks.items, check.id = traversalId ∧
      excludedText (scannerScan scan signatures).1.pathsExcluded <:+: check.message
  policy : ∀ check ∈ pushedChecks scan signatures, ¬Unweighed check →
    check ∈ (scannerScan scan signatures).1.checks.items ∧
      policyText check.policySuppressed check.policyLowered <:+: check.message

section Messages

lemma decimal_word {n : ℕ} (h : n < 2 ^ 64) : (decimal n).length ≤ 20 :=
  decimal_length (h.trans (by norm_num))

lemma skippedText_length {n : ℕ} (h : n < 2 ^ 64) : (skippedText n).length ≤ 73 := by
  have hword := decimal_word h
  have hcomma : (ascii ", ").length = 2 := ascii_length _
  have hrest : (ascii " location(s) skipped (access denied or unavailable)").length = 51 := ascii_length _
  simp only [skippedText, List.length_append, hcomma, hrest]
  omega

lemma excludedText_length {n : ℕ} (h : n < 2 ^ 64) : (excludedText n).length ≤ 72 := by
  have hword := decimal_word h
  have hcomma : (ascii ", ").length = 2 := ascii_length _
  have hrest : (ascii " location(s) excluded (USB Sentinel test fixtures)").length = 50 := ascii_length _
  simp only [excludedText, List.length_append, hcomma, hrest]
  omega

lemma countsText_length {outcome : Bytes} (houtcome : outcome.length ≤ 19) {files : ℕ}
    (h : files < 2 ^ 64) (bytes : UInt64) : (countsText outcome files bytes).length ≤ 79 := by
  have hfiles := decimal_word h
  have hbytes := decimal_word bytes.toNat_lt
  have hcolon : (ascii ": ").length = 2 := ascii_length _
  have hfile : (ascii " file(s), ").length = 10 := ascii_length _
  have hbyte : (ascii " byte(s)").length = 8 := ascii_length _
  simp only [countsText, List.length_append, hcolon, hfile, hbyte]
  omega

lemma policyText_length (suppressed lowered : UInt64) :
    (policyText suppressed lowered).length ≤ 169 := by
  have hsuppressed := decimal_word suppressed.toNat_lt
  have hlowered := decimal_word lowered.toNat_lt
  have hhead : (ascii "internal-drive location policy: ").length = 32 := ascii_length _
  have hmiddle : (ascii " match(es) in OS-generated or dependency locations not reported, ").length
      = 65 := ascii_length _
  have hend : (ascii " reported at lowered severity").length = 29 := ascii_length _
  simp only [policyText, List.length_append, hhead, hmiddle, hend]
  omega

/-- A part that fits is put behind whole. -/
lemma appendPart_whole {shown : Prop} [Decidable shown] {text part : Bytes}
    (hpos : 0 < text.length) (hroom : text.length + part.length < checkMessageMax) :
    (if shown then appendPart part (text, text.length) else (text, text.length)) =
      (text ++ (if shown then part else []), (text ++ (if shown then part else [])).length) := by
  by_cases hshown : shown
  · have hboth : 0 < text.length ∧ text.length < checkMessageMax := ⟨hpos, by omega⟩
    rw [if_pos hshown, if_pos hshown, appendPart, if_pos hboth, cut_eq_self (by omega),
      List.length_append]
  · rw [if_neg hshown, if_neg hshown, List.append_nil]

def outcomeText (st : WalkState) : Bytes :=
  if st.cancelled then ascii "cancelled"
  else if st.deviceRemoved then ascii "device disconnected" else ascii "completed"

/-- The message with nothing cut off. -/
theorem traversalMessage_whole {st : WalkState} (h : st.Counted) :
    traversalMessage st = countsText (outcomeText st) st.fileCount st.byteCount ++
      (if 0 < st.pathsSkipped then skippedText st.pathsSkipped else []) ++
      (if 0 < st.pathsExcluded then excludedText st.pathsExcluded else []) := by
  have houtcome : (outcomeText st).length ≤ 19 := by
    unfold outcomeText
    split_ifs <;> decide
  have hcounts := countsText_length houtcome h.files st.byteCount
  have hskipped := skippedText_length h.skipped
  have hexcluded := excludedText_length h.excluded
  have hpos : 0 < (countsText (outcomeText st) st.fileCount st.byteCount).length := by
    simp [countsText, ascii]
  have hmax : checkMessageMax = 256 := rfl
  have hshape : traversalMessage st =
      (let counts := countsText (outcomeText st) st.fileCount st.byteCount
        let message := (cut checkMessageMax counts, counts.length)
        let message := if 0 < st.pathsSkipped then appendPart (skippedText st.pathsSkipped) message
          else message
        if 0 < st.pathsExcluded then appendPart (excludedText st.pathsExcluded) message
        else message).1 := rfl
  rw [hshape]
  simp only
  rw [cut_eq_self (by omega)]
  generalize countsText (outcomeText st) st.fileCount st.byteCount = counts at *
  have hmiddle : (counts ++ if 0 < st.pathsSkipped then skippedText st.pathsSkipped else []).length
      ≤ 152 := by
    split_ifs
    · rw [List.length_append]
      omega
    · rw [List.append_nil]
      omega
  have hsome : 0 < (counts ++ if 0 < st.pathsSkipped then skippedText st.pathsSkipped else []).length := by
    rw [List.length_append]
    omega
  rw [appendPart_whole hpos (by omega), appendPart_whole hsome (by omega)]

theorem describeLocationPolicy_states {check : CheckResult} (hsilent : check.message = [])
    (hweighed : ¬Unweighed check) :
    (describeLocationPolicy check).message =
      policyText check.policySuppressed check.policyLowered := by
  have hlength := policyText_length check.policySuppressed check.policyLowered
  have hcounts : ¬(check.policySuppressed = 0 ∧ check.policyLowered = 0) := hweighed
  have hroom : ¬(check.message.length + 1 ≥ checkMessageMax) := by
    rw [hsilent]
    decide
  have hfits : (policyText check.policySuppressed check.policyLowered).length < checkMessageMax := by
    simp only [checkMessageMax]
    omega
  rw [describeLocationPolicy, if_neg hcounts, if_neg hroom]
  simp only [hsilent, ne_eq, not_true_eq_false, if_false, List.nil_append, List.length_nil]
  exact cut_eq_self hfits

end Messages

section Pushing

variable (scan : Scan)

lemma pushChecks_keeps (n : ℕ) (results : List CheckResult) (list : GrowList CheckResult) :
    list.items <+: (pushChecks scan n results list).items := by
  induction results generalizing n list with
  | nil => exact List.prefix_rfl
  | cons r rest ih =>
    refine List.IsPrefix.trans ?_ (ih (n + 1) _)
    rcases list.push_cases 4 (fun _ => scan.host.checkMemory n) r with h | h
    · rw [h]
      exact List.prefix_append _ _
    · rw [h]

/-- The first growth makes room for four. -/
lemma pushChecks_front (hmemory : scan.host.checkMemory 0 = true) (results : List CheckResult) :
    results.take 4 <+: (pushChecks scan 0 results {}).items := by
  match results with
  | [] | [a] | [a, b] | [a, b, c] => simp [pushChecks, GrowList.push, hmemory]
  | a :: b :: c :: d :: rest =>
    have hfour : pushChecks scan 0 (a :: b :: c :: d :: rest) {} =
        pushChecks scan 4 rest { items := [a, b, c, d], capacity := 4 } := by
      simp [pushChecks, GrowList.push, hmemory]
    rw [hfour]
    have hkept := pushChecks_keeps scan 4 rest { items := [a, b, c, d], capacity := 4 }
    simpa using hkept

lemma pushChecks_lost (hmemory : scan.host.checkMemory 0 = false) (first : CheckResult)
    (rest : List CheckResult) :
    (pushChecks scan 0 (first :: rest) {}).items.Sublist rest := by
  have hlost : pushChecks scan 0 (first :: rest) {} = pushChecks scan 1 rest {} := by
    simp [pushChecks, GrowList.push, hmemory]
  rw [hlost]
  exact pushChecks_sublist scan 1 rest {}

end Pushing

lemma autorun_unweighed (host : ScanHost) (device : Device) (w : World) :
    Unweighed (Autorun.detectAutorun host device w).1 := by
  unfold Autorun.detectAutorun
  simp only
  split
  · exact ⟨rfl, rfl⟩
  · split
    · exact ⟨rfl, rfl⟩
    · exact ⟨rfl, rfl⟩
    · split
      · exact ⟨rfl, rfl⟩
      · simp only [Autorun.finding]
        split_ifs <;> exact ⟨rfl, rfl⟩

lemma describeLocationPolicy_weighed {check : CheckResult}
    (h : ¬Unweighed (describeLocationPolicy check)) : ¬Unweighed check := by
  intro hcheck
  rw [describeLocationPolicy_unweighed hcheck] at h
  exact h hcheck

lemma describeLocationPolicy_counts (check : CheckResult) :
    (describeLocationPolicy check).policySuppressed = check.policySuppressed ∧
      (describeLocationPolicy check).policyLowered = check.policyLowered := by
  unfold describeLocationPolicy
  split_ifs <;> exact ⟨rfl, rfl⟩

lemma traversalCheck_unweighed (status : Status) (st : WalkState) :
    Unweighed (traversalCheck status st) := by
  simp only [traversalCheck]
  split_ifs <;> exact ⟨rfl, rfl⟩

variable {scan : Scan}

/-- A slot with counts has no message of its own, so that the sentence is all there is. -/
lemma slot_states {signatures : SignatureState} {slot : Slot}
    (hslot : slot ∈ (walkVolume scan signatures).2.slots)
    (hweighed : ¬Unweighed (describeLocationPolicy slot.result)) :
    slot.detector ≠ Registry.hashMatch ∧ (describeLocationPolicy slot.result).message =
      policyText (describeLocationPolicy slot.result).policySuppressed
        (describeLocationPolicy slot.result).policyLowered := by
  have hplain := describeLocationPolicy_weighed hweighed
  have hother : slot.detector ≠ Registry.hashMatch := fun hhash =>
    hplain ((walkVolume_disclaimed signatures).unweighed slot hslot hhash)
  have hsilent := (walkVolume_sourced signatures).message slot hslot hother
  obtain ⟨hsuppressed, hlowered⟩ := describeLocationPolicy_counts slot.result
  rw [hsuppressed, hlowered]
  exact ⟨hother, describeLocationPolicy_states hsilent hplain⟩

/-- The slots but the hash detector's are pushed before the list has to grow again. -/
lemma slots_front {signatures : SignatureState} {slot : Slot}
    (hslot : slot ∈ (walkVolume scan signatures).2.slots)
    (hother : slot.detector ≠ Registry.hashMatch) :
    slot ∈ (walkVolume scan signatures).2.slots.take 2 := by
  have hdetectors := slots_detectors scan signatures
  by_cases hmemory : scan.host.slotsMemory = true
  · rw [if_pos hmemory] at hdetectors
    obtain ⟨s₁, rest, hcons, -, hrest⟩ := List.map_eq_cons_iff.mp hdetectors
    obtain ⟨s₂, rest, rfl, -, hrest⟩ := List.map_eq_cons_iff.mp hrest
    obtain ⟨s₃, rest, rfl, hs₃, hrest⟩ := List.map_eq_cons_iff.mp hrest
    obtain rfl := List.map_eq_nil_iff.mp hrest
    rw [hcons] at hslot ⊢
    simp only [List.mem_cons, List.not_mem_nil, or_false] at hslot
    rcases hslot with rfl | rfl | rfl
    · simp
    · simp
    · exact absurd hs₃ hother
  · rw [if_neg hmemory] at hdetectors
    rw [List.map_eq_nil_iff.mp hdetectors] at hslot
    cases hslot

lemma weighed_check {signatures : SignatureState} {check : CheckResult}
    (hcheck : check ∈ pushedChecks scan signatures) (hweighed : ¬Unweighed check) :
    check ∈ (pushedChecks scan signatures).take 4 ∧
      check.message = policyText check.policySuppressed check.policyLowered := by
  unfold pushedChecks detectorChecks at hcheck ⊢
  cases hincomplete :
      incomplete (walkVolume scan signatures).1 (walkVolume scan signatures).2 with
  | true =>
    simp only [hincomplete, if_true, skipWholeCheckDetectors_eq, List.mem_cons, List.mem_append,
      List.mem_map, List.not_mem_nil, or_false] at hcheck
    rcases hcheck with rfl | rfl | ⟨slot, -, rfl⟩
    · exact absurd (traversalCheck_unweighed _ _) hweighed
    · exact absurd ⟨rfl, rfl⟩ hweighed
    · exact absurd ⟨rfl, rfl⟩ hweighed
  | false =>
    simp only [hincomplete, Bool.false_eq_true, if_false, runWholeCheckDetectors_eq,
      List.mem_cons, List.mem_append, List.mem_map, List.not_mem_nil, or_false] at hcheck ⊢
    rcases hcheck with rfl | rfl | ⟨slot, hslot, rfl⟩
    · exact absurd (traversalCheck_unweighed _ _) hweighed
    · exact absurd (autorun_unweighed _ _ _) hweighed
    · obtain ⟨hother, hmessage⟩ := slot_states hslot hweighed
      refine ⟨?_, hmessage⟩
      have hfront := List.mem_map_of_mem
        (f := fun slot : Slot => describeLocationPolicy slot.result) (slots_front hslot hother)
      simp only [List.singleton_append, List.take_succ_cons, List.mem_cons, ← List.map_take]
      exact .inr (.inr hfront)

/-- Where the traversal counted a place, its message is that of a finished walk. -/
lemma traversalCheck_states {signatures : SignatureState}
    (hcounted : 0 < (walkVolume scan signatures).2.pathsSkipped ∨
      0 < (walkVolume scan signatures).2.pathsExcluded)
    (h : (walkVolume scan signatures).2.Counted) :
    (traversalCheck (walkVolume scan signatures).1 (walkVolume scan signatures).2).message =
      countsText (outcomeText (walkVolume scan signatures).2)
          (walkVolume scan signatures).2.fileCount (walkVolume scan signatures).2.byteCount ++
        (if 0 < (walkVolume scan signatures).2.pathsSkipped
          then skippedText (walkVolume scan signatures).2.pathsSkipped else []) ++
        (if 0 < (walkVolume scan signatures).2.pathsExcluded
          then excludedText (walkVolume scan signatures).2.pathsExcluded else []) := by
  have hok : (walkVolume scan signatures).1 = .ok := by
    rcases walkVolume_ok_or_opened scan signatures with hok | hopened
    · exact hok
    · rw [hopened] at hcounted
      simp [WalkState.opened, initialState] at hcounted
  rw [traversalCheck, if_pos hok]
  exact traversalMessage_whole h

theorem countsStated {signatures : SignatureState} (hmemory : scan.host.checkMemory 0 = true)
    (h : (walkVolume scan signatures).2.Counted) : CountsStated scan signatures := by
  have hfront := pushChecks_front scan hmemory (pushedChecks scan signatures)
  have htraversal : traversalCheck (walkVolume scan signatures).1 (walkVolume scan signatures).2 ∈
      (scannerScan scan signatures).1.checks.items := by
    refine hfront.subset ?_
    rw [pushedChecks, List.take_succ_cons]
    exact List.mem_cons_self ..
  refine ⟨fun hskipped => ?_, fun hexcluded => ?_, fun check hcheck hweighed => ?_⟩
  · refine ⟨_, htraversal, traversalCheck_id _ _, ?_⟩
    change 0 < (walkVolume scan signatures).2.pathsSkipped at hskipped
    rw [traversalCheck_states (.inl hskipped) h, if_pos hskipped]
    exact List.infix_append _ _ _
  · refine ⟨_, htraversal, traversalCheck_id _ _, ?_⟩
    change 0 < (walkVolume scan signatures).2.pathsExcluded at hexcluded
    rw [traversalCheck_states (.inr hexcluded) h, if_pos hexcluded]
    exact (List.suffix_append _ _).isInfix
  · obtain ⟨hmem, hmessage⟩ := weighed_check hcheck hweighed
    refine ⟨hfront.subset hmem, ?_⟩
    rw [hmessage]

/-- A volume with one directory that cannot be opened, and the memory of the check list. -/
def refusedScan (memory : ℕ → Bool) : Scan where
  host := { ScanHost.blank with
    dirOpen := fun _ path =>
      if path = ascii "/v" then .ok ⟨[{ name := ascii "d", isDirectory := true }], .notFound⟩
      else .error .accessDenied
    checkMemory := memory
    dirOpen_refused := by
      intro t path e h
      split at h
      · cases h
      · cases h
        decide }
  device := { volumePath := ascii "/v" }

lemma refusedScan_walk (memory : ℕ → Bool) :
    (walkVolume (refusedScan memory) {}).2.Counted ∧
      (walkVolume (refusedScan memory) {}).2.pathsSkipped = 1 := by
  have hsame : (walkVolume (refusedScan memory) {}).2.fileCount = 0 ∧
      (walkVolume (refusedScan memory) {}).2.pathsExcluded = 0 ∧
      (walkVolume (refusedScan memory) {}).2.pathsSkipped = 1 := by
    refine ⟨rfl, rfl, rfl⟩
  obtain ⟨hfiles, hexcluded, hskipped⟩ := hsame
  exact ⟨⟨by omega, by omega, by omega⟩, hskipped⟩

/-- Without the first growth the traversal's check is not in the list at all. -/
theorem refusedScan_unstated {memory : ℕ → Bool} (hmemory : memory 0 = false) :
    ¬CountsStated (refusedScan memory) {} := by
  intro hstated
  have hcount : 0 < (scannerScan (refusedScan memory) {}).1.pathsSkipped := by
    change 0 < (walkVolume (refusedScan memory) {}).2.pathsSkipped
    rw [(refusedScan_walk memory).2]
    exact Nat.one_pos
  obtain ⟨check, hcheck, hid, -⟩ := hstated.skipped hcount
  have hlost := (pushChecks_lost (refusedScan memory) hmemory _ _).subset hcheck
  have hids := detectorChecks_ids (refusedScan memory) {}
  have hmem := List.mem_map_of_mem (f := CheckResult.id) hlost
  have hslots : (refusedScan memory).host.slotsMemory = true := rfl
  rw [hids, hid, if_pos hslots] at hmem
  exact absurd hmem (by decide)

/-- For a list with this memory every scan states its counts exactly if the first growth
succeeds. -/
theorem countsStated_iff (memory : ℕ → Bool) :
    (∀ scan : Scan, scan.host.checkMemory = memory → ∀ signatures : SignatureState,
        (walkVolume scan signatures).2.Counted → CountsStated scan signatures) ↔
      memory 0 = true := by
  constructor
  · intro hall
    by_contra hmemory
    exact refusedScan_unstated (Bool.not_eq_true _ ▸ hmemory)
      (hall (refusedScan memory) rfl {} (refusedScan_walk memory).1)
  · rintro hmemory scan rfl signatures hcounted
    exact countsStated hmemory hcounted

theorem counts_unstated :
    ¬∀ (scan : Scan) (signatures : SignatureState),
      (walkVolume scan signatures).2.Counted → CountsStated scan signatures := by
  intro hall
  exact @refusedScan_unstated (fun _ => false) rfl
    (hall (refusedScan fun _ => false) {} (refusedScan_walk _).1)

end UsbSentinel.Scanner
