import UsbSentinel.Path
import UsbSentinel.Platform
import UsbSentinel.SafeId

/-! The report store's own layout: where a device's reports lie, how a report file is
named and written, and the last scan recovered from a directory listing. -/
namespace UsbSentinel
open ByteString UsbSentinel.Path

structure Store where
  root : Bytes
  deriving DecidableEq, Repr

namespace Store

def scansRoot (host : Host) (store : Store) (cap : ℕ) : Except Status Bytes :=
  pathJoin host cap store.root (ascii "scans")

def deviceDir (host : Host) (store : Store) (safe : Bytes) (cap : ℕ) : Except Status Bytes :=
  match scansRoot host store storePathMax with
  | .error e => .error e
  | .ok root => pathJoin host cap root safe

def indexPath (host : Host) (store : Store) (cap : ℕ) : Except Status Bytes :=
  pathJoin host cap store.root (ascii "index.json")

def hyphen : UInt8 := 45
def colon : UInt8 := 58

/-- The punctuation of an ISO-8601 stamp. -/
def isMark (c : UInt8) : Bool := c = hyphen || c = colon

/-- The loop of `compactTimestamp`; none when the buffer is full. -/
def compactLoop (cap : ℕ) : Bytes → Bytes → Option Bytes
  | [], out => some out
  | c :: rest, out =>
    if isMark c then compactLoop cap rest out
    else if out.length + 1 ≥ cap then none
    else compactLoop cap rest (out ++ [c])

/-- "2026-09-11T14:02:03Z" becomes "20260911T140203Z". -/
def compactTimestamp (iso : Bytes) (cap : ℕ) : Except Status Bytes :=
  if cap < 17 then .error .invalidArg
  else
    match compactLoop cap iso [] with
    | none => .error .invalidArg
    | some out => if out.length ≠ 16 then .error .invalidArg else .ok out

def expandTimestamp (compact : Bytes) (cap : ℕ) : Except Status Bytes :=
  if compact.length ≠ 16 ∨ cap < 21 then .error .invalidArg
  else
    .ok (cut cap (compact.take 4 ++ [hyphen] ++ (compact.drop 4).take 2 ++ [hyphen] ++
      (compact.drop 6).take 2 ++ ascii "T" ++ (compact.drop 9).take 2 ++ [colon] ++
      (compact.drop 11).take 2 ++ [colon] ++ (compact.drop 13).take 2 ++ ascii "Z"))

def openAt {σ : Type} (P : StorePlatform σ) (host : Host) (root : Bytes) (s : σ) :
    Except Status Store × σ :=
  let store : Store := ⟨cut storePathMax root⟩
  match P.makeDirs store.root s with
  | (.ok, s₁) =>
    match scansRoot host store storePathMax with
    | .error e => (.error e, s₁)
    | .ok scans =>
      match P.makeDirs scans s₁ with
      | (.ok, s₂) => (.ok store, s₂)
      | (e, s₂) => (.error e, s₂)
  | (e, s₁) => (.error e, s₁)

structure LastScan where
  scanId : Bytes := []
  scannedAt : Bytes := []
  reportCount : ℕ := 0
  found : Bool := false
  deriving DecidableEq, Repr

def scanIdMax : ℕ := 64
def scannedAtMax : ℕ := 32

def dotJson : Bytes := ascii ".json"

/-- An entry that `lastScan` takes for a report. -/
def isReport (entry : DirEntry) : Bool := !entry.isDirectory && endsWith entry.name dotJson

/-- The count and the greatest name that the listing loop carries. -/
structure Tally where
  count : ℕ := 0
  best : Option Bytes := none
  deriving DecidableEq, Repr

def Tally.add (t : Tally) (entry : DirEntry) : Tally :=
  if !isReport entry then t
  else
    { count := t.count + 1
      best :=
        match t.best with
        | none => some (cut nameMax entry.name)
        | some best => if strLt best entry.name then some (cut nameMax entry.name) else t.best }

/-- What the newest report's file name says, read by position. -/
def newest (best : Bytes) (info : LastScan) : LastScan :=
  if 22 ≤ best.length ∧ best[16]? = some hyphen ∧ endsWith best dotJson = true then
    let idLen := best.length - 17 - 5
    { info with
      scannedAt :=
        match expandTimestamp (best.take 16) scannedAtMax with
        | .ok text => text
        | .error _ => info.scannedAt
      scanId := if idLen < scanIdMax then (best.drop 17).take idLen else info.scanId }
  else info

/-- The returned record is the caller's, so a failure part-way leaves the count so far in
it. -/
def lastScan {σ : Type} (P : StorePlatform σ) (host : Host) (store : Store) (identity : Bytes)
    (s : σ) : (Status × LastScan) × σ :=
  match safeId identity storePathMax with
  | .error e => ((e, {}), s)
  | .ok safe =>
    match deviceDir host store safe storePathMax with
    | .error e => ((e, {}), s)
    | .ok dir =>
      match P.dirOpen dir s with
      | (.error .notFound, s₁) => ((.ok, {}), s₁)
      | (.error e, s₁) => ((e, {}), s₁)
      | (.ok listing, s₁) =>
        let tally := listing.entries.foldl Tally.add {}
        let info : LastScan := { reportCount := tally.count }
        if listing.ending ≠ .notFound then ((listing.ending, info), s₁)
        else
          match tally.best with
          | none => ((.ok, info), s₁)
          | some best => ((.ok, { newest best info with found := true }), s₁)

/-- Writes a temporary file and renames it over `final`; the temporary file is deleted
when either step fails. -/
def writeThenReplace {σ : Type} (P : StorePlatform σ) (final temp content : Bytes) (s : σ) :
    Status × σ :=
  match P.writeFile temp content s with
  | (.ok, s₁) =>
    match P.replaceFile final temp s₁ with
    | (.ok, s₂) => (.ok, s₂)
    | (e, s₂) => (e, (P.deleteFile temp s₂).2)
  | (e, s₁) => (e, (P.deleteFile temp s₁).2)

def filenameMax : ℕ := 300

/-- The report's file name as the 300-byte buffer holds it. -/
def reportName (compact scanId extension : Bytes) : Bytes :=
  cut filenameMax (compact ++ [hyphen] ++ scanId ++ ascii "." ++ extension)

def tempPath (final : Bytes) : Bytes := cut storePathMax (final ++ ascii ".tmp")

/-- Returns the report's final path. -/
def writeReportFile {σ : Type} (P : StorePlatform σ) (host : Host) (store : Store)
    (identity scanId timestamp extension content : Bytes) (s : σ) : Except Status Bytes × σ :=
  if backslash ∈ scanId ∨ slash ∈ scanId then (.error .invalidArg, s)
  else
    match safeId identity storePathMax with
    | .error e => (.error e, s)
    | .ok safe =>
      match deviceDir host store safe storePathMax with
      | .error e => (.error e, s)
      | .ok dir =>
        match P.makeDirs dir s with
        | (.ok, s₁) =>
          match compactTimestamp timestamp 17 with
          | .error e => (.error e, s₁)
          | .ok compact =>
            match pathJoin host storePathMax dir (reportName compact scanId extension) with
            | .error e => (.error e, s₁)
            | .ok final =>
              match writeThenReplace P final (tempPath final) content s₁ with
              | (.ok, s₂) => (.ok final, s₂)
              | (e, s₂) => (.error e, s₂)
        | (e, s₁) => (.error e, s₁)

def writeReportCsv {σ : Type} (P : StorePlatform σ) (host : Host) (store : Store)
    (identity scanId timestamp csv : Bytes) (outCap : ℕ) (s : σ) : Except Status Bytes × σ :=
  match writeReportFile P host store identity scanId timestamp (ascii "csv") csv s with
  | (.ok final, s₁) => (.ok (cut outCap final), s₁)
  | (.error e, s₁) => (.error e, s₁)

lemma compactLoop_eq_some {cap : ℕ} {iso acc out : Bytes} (hacc : acc.length < cap) :
    compactLoop cap iso acc = some out ↔
      out = acc ++ iso.filter (fun c => !isMark c) ∧ out.length < cap := by
  induction iso generalizing acc with
  | nil =>
    simp only [compactLoop, Option.some.injEq, List.filter_nil, List.append_nil]
    constructor
    · rintro rfl
      exact ⟨rfl, hacc⟩
    · exact fun h => h.1.symm
  | cons c rest ih =>
    simp only [compactLoop, List.filter_cons]
    by_cases hmark : isMark c
    · simpa [hmark] using ih hacc
    · simp only [hmark, Bool.false_eq_true, if_false, Bool.not_false, if_true]
      by_cases hroom : acc.length + 1 ≥ cap
      · rw [if_pos hroom]
        refine iff_of_false (by simp) fun h => ?_
        have hlen := congrArg List.length h.1
        simp only [List.length_append, List.length_cons] at hlen
        omega
      · rw [if_neg hroom, ih (by simpa using hroom), List.append_assoc, List.singleton_append]

/-- Every byte but '-' and ':' is kept, and sixteen must remain. -/
theorem compactTimestamp_eq_ok {iso out : Bytes} :
    compactTimestamp iso 17 = .ok out ↔
      out = iso.filter (fun c => !isMark c) ∧ out.length = 16 := by
  have hloop : ∀ {out : Bytes}, compactLoop 17 iso [] = some out ↔
      out = [] ++ iso.filter (fun c => !isMark c) ∧ out.length < 17 :=
    compactLoop_eq_some (by simp)
  simp only [compactTimestamp, Nat.lt_irrefl, if_false]
  split
  · next hnone =>
    refine iff_of_false (by simp) fun h => ?_
    have hsome := hloop.mpr ⟨h.1, by omega⟩
    simp [hnone] at hsome
  · next text hsome =>
    obtain ⟨rfl, _⟩ := hloop.mp hsome
    split_ifs with hlen
    · exact iff_of_false (by simp) fun h => hlen (by simpa [h.1] using h.2)
    · simp only [List.nil_append, Except.ok.injEq, ne_eq, not_not] at hlen ⊢
      constructor
      · rintro rfl
        exact ⟨rfl, hlen⟩
      · exact fun h => h.1.symm

/-- The paths of an accepted report, each with the step that computes it. -/
structure Plan (host : Host) (store : Store) (identity scanId timestamp extension : Bytes) where
  safe : Bytes
  dir : Bytes
  compact : Bytes
  final : Bytes
  scanId_plain : ¬(backslash ∈ scanId ∨ slash ∈ scanId)
  safe_eq : safeId identity storePathMax = .ok safe
  dir_eq : deviceDir host store safe storePathMax = .ok dir
  compact_eq : compactTimestamp timestamp 17 = .ok compact
  final_eq : pathJoin host storePathMax dir (reportName compact scanId extension) = .ok final

instance {host : Host} {store : Store} {identity scanId timestamp extension : Bytes} :
    Subsingleton (Plan host store identity scanId timestamp extension) := by
  refine ⟨fun ⟨safe, dir, compact, final, _, hsafe, hdir, hcompact, hfinal⟩
    ⟨safe', dir', compact', final', _, hsafe', hdir', hcompact', hfinal'⟩ => ?_⟩
  obtain rfl := Except.ok.inj (hsafe.symm.trans hsafe')
  obtain rfl := Except.ok.inj (hdir.symm.trans hdir')
  obtain rfl := Except.ok.inj (hcompact.symm.trans hcompact')
  obtain rfl := Except.ok.inj (hfinal.symm.trans hfinal')
  rfl

section Plan
variable {σ : Type} {P : StorePlatform σ} {host : Host} {store : Store}
  {identity scanId timestamp extension : Bytes}

theorem writeReportFile_of_plan (plan : Plan host store identity scanId timestamp extension)
    (content : Bytes) (s : σ) :
    writeReportFile P host store identity scanId timestamp extension content s =
      match P.makeDirs plan.dir s with
      | (.ok, s₁) =>
        match writeThenReplace P plan.final (tempPath plan.final) content s₁ with
        | (.ok, s₂) => (.ok plan.final, s₂)
        | (e, s₂) => (.error e, s₂)
      | (e, s₁) => (.error e, s₁) := by
  simp only [writeReportFile, if_neg plan.scanId_plain, plan.safe_eq, plan.dir_eq,
    plan.compact_eq, plan.final_eq]

/-- Without a plan nothing but directories is made, and the call fails. -/
theorem writeReportFile_of_no_plan
    (hnone : IsEmpty (Plan host store identity scanId timestamp extension)) (content : Bytes)
    (s : σ) :
    ∃ e, writeReportFile P host store identity scanId timestamp extension content s =
        (.error e, s) ∨
      ∃ dir, writeReportFile P host store identity scanId timestamp extension content s =
        (.error e, (P.makeDirs dir s).2) := by
  unfold writeReportFile
  split
  · exact ⟨_, .inl rfl⟩
  · next hplain =>
    split
    · exact ⟨_, .inl rfl⟩
    · next safe hsafe =>
      split
      · exact ⟨_, .inl rfl⟩
      · next dir hdir =>
        split
        · next s₁ hmake =>
          split
          · exact ⟨_, .inr ⟨dir, by rw [hmake]⟩⟩
          · next compact hcompact =>
            split
            · exact ⟨_, .inr ⟨dir, by rw [hmake]⟩⟩
            · next final hfinal =>
              exact hnone.elim ⟨safe, dir, compact, final, hplain, hsafe, hdir, hcompact, hfinal⟩
        · next e s₁ _ hmake => exact ⟨_, .inr ⟨dir, by rw [hmake]⟩⟩

theorem exists_plan_of_ok {content final : Bytes} {s s' : σ}
    (h : writeReportFile P host store identity scanId timestamp extension content s =
      (.ok final, s')) :
    ∃ (plan : Plan host store identity scanId timestamp extension) (s₁ : σ),
      plan.final = final ∧ P.makeDirs plan.dir s = (.ok, s₁) ∧
        writeThenReplace P final (tempPath final) content s₁ = (.ok, s') := by
  by_cases hplan : Nonempty (Plan host store identity scanId timestamp extension)
  · obtain ⟨plan⟩ := hplan
    rw [writeReportFile_of_plan plan] at h
    split at h
    · next s₁ hmake =>
      split at h
      · next s₂ hwrite =>
        simp only [Prod.mk.injEq, Except.ok.injEq] at h
        obtain ⟨rfl, rfl⟩ := h
        exact ⟨plan, s₁, rfl, hmake, hwrite⟩
      · simp at h
    · simp at h
  · obtain ⟨e, he | ⟨dir, he⟩⟩ :=
      writeReportFile_of_no_plan (P := P) (not_nonempty_iff.mp hplan) content s
    · simp [he] at h
    · simp [he] at h

lemma deviceDir_eq_ok {safe dir : Bytes} {cap : ℕ} (h : deviceDir host store safe cap = .ok dir) :
    dir = joined host (joined host store.root (ascii "scans")) safe ∧ dir.length < cap := by
  unfold deviceDir scansRoot at h
  split at h
  · simp at h
  · next root hroot =>
    obtain ⟨rfl, _⟩ := pathJoin_eq_ok.mp hroot
    obtain ⟨rfl, hlen⟩ := pathJoin_eq_ok.mp h
    exact ⟨rfl, hlen⟩

variable (plan : Plan host store identity scanId timestamp extension)

lemma Plan.safe_eq_encode : identity ≠ [] ∧ plan.safe = encode identity := by
  obtain ⟨hne, henc, _⟩ := safeId_eq_ok.mp plan.safe_eq
  exact ⟨hne, henc⟩

lemma Plan.dir_eq_joined :
    plan.dir = joined host (joined host store.root (ascii "scans")) plan.safe :=
  (deviceDir_eq_ok plan.dir_eq).1

lemma Plan.compact_eq_filter :
    plan.compact = timestamp.filter (fun c => !isMark c) ∧ plan.compact.length = 16 :=
  compactTimestamp_eq_ok.mp plan.compact_eq

lemma Plan.final_eq_joined :
    plan.final = joined host plan.dir (reportName plan.compact scanId extension) ∧
      plan.final.length < storePathMax := by
  obtain ⟨hfinal, hlen⟩ := pathJoin_eq_ok.mp plan.final_eq
  exact ⟨hfinal, hfinal ▸ hlen⟩

end Plan

end Store
end UsbSentinel
