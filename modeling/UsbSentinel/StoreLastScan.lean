import UsbSentinel.StoreRuns

/-! What `lastScan` answers after a whole run of report writes on a store that was opened
with nothing below its scans root. -/
namespace UsbSentinel.Store
open ByteString FileSystem UsbSentinel.Posix
open UsbSentinel.Path (Host joined)

section Open
variable {env : Behaviour}

/-- The last directory that a successful loop made or found. -/
lemma makeDirsLoop_last {path : Bytes} (hpath : path ≠ []) {is : List ℕ} {d d' : Disk}
    (h : makeDirsLoop env path (is ++ [path.length]) d = (.ok, d')) :
    ∃ d₁ r, mkdir env path d₁ = (r, d') ∧ (r = .ok () ∨ r = .error .eexist) := by
  induction is generalizing d with
  | nil =>
    have hlen : path.length ≠ 0 := by simpa using hpath
    simp only [List.nil_append, makeDirsLoop, true_or, if_true, hlen, if_false,
      List.take_length] at h
    split at h
    · next d₁ hmk =>
      obtain rfl := (Prod.ext_iff.mp h).2
      exact ⟨d, _, hmk, .inl rfl⟩
    · next e d₁ hmk =>
      split_ifs at h with he
      · obtain rfl := (Prod.ext_iff.mp h).2
        exact ⟨d, _, hmk, .inr (by rw [he])⟩
      · exact absurd (Prod.ext_iff.mp h).1 (statusFromErrno_ne_ok e)
  | cons i is ih =>
    simp only [List.cons_append, makeDirsLoop] at h
    split_ifs at h
    · exact ih h
    · split at h
      · exact ih h
      · split_ifs at h
        · exact ih h
        · exact absurd (Prod.ext_iff.mp h).1 (statusFromErrno_ne_ok _)
    · exact ih h

/-- Where a directory was made or found, the directory above it exists. -/
theorem makeDirs_parent {path : Bytes} {d d' : Disk} (h : makeDirs env path d = (.ok, d')) :
    path ≠ [] ∧ (d'.fs.dirKey path ≠ none ∨ d'.fs.fileKey path ≠ none) := by
  unfold makeDirs at h
  split_ifs at h with hbad
  · exact absurd (Prod.ext_iff.mp h).1 (by simp)
  · have hpath : path ≠ [] := fun he => hbad (.inl (by rw [he]; rfl))
    rw [List.range_succ] at h
    obtain ⟨d₁, r, hmk, hr⟩ := makeDirsLoop_last hpath h
    refine ⟨hpath, ?_⟩
    unfold mkdir at hmk
    split at hmk
    · next f _ =>
      have hf : f.errno ≠ .eexist := f.genuine.1
      rcases hr with rfl | rfl
      · simp at hmk
      · exact absurd (Except.error.inj (Prod.ext_iff.mp hmk).1) hf
    · split at hmk
      · next e he =>
        obtain rfl : d₁.tick = d' := (Prod.ext_iff.mp hmk).2
        unfold Fs.mkdir at he
        split_ifs at he with hdir
        · exact .inl (by rw [Disk.tick_fs]; exact Option.isSome_iff_ne_none.mp hdir)
        · split at he
          · obtain rfl := Except.error.inj he
            rcases hr with rfl | rfl
            · simp at hmk
            · simp at hmk
          · next k hk => exact .inr (by rw [Disk.tick_fs, hk]; simp)
      · next fs hfs =>
        obtain rfl : d₁.run [] fs = d' := (Prod.ext_iff.mp hmk).2
        obtain ⟨hext, _, k, hk, _⟩ := Fs.mkdir_spec hfs
        exact .inr (by rw [Disk.run_fs, hext.fileKey hk]; simp)

/-- Opening a store makes its root a directory and touches no file. -/
theorem openAt_spec {root : Bytes} {store : Store} {d d' : Disk}
    (h : openAt (storePlatform env) .posix root d = (.ok store, d')) :
    store.root ≠ [] ∧ (∃ R, d'.fs.dirKey store.root = some R) ∧
      ∀ k, d'.fs.content k = d.fs.content k := by
  simp only [openAt, storePlatform] at h
  split at h
  · next d₁ h₁ =>
    split at h
    · simp at h
    · next scans hscans =>
      obtain ⟨hjoin, _⟩ := UsbSentinel.Path.pathJoin_eq_ok.mp hscans
      split at h
      · next d₂ h₂ =>
        obtain ⟨hstore, rfl⟩ := Prod.ext_iff.mp h
        obtain rfl := Except.ok.inj hstore
        have hroot := (makeDirs_parent h₁).1
        have hframe₁ := makeDirs_frame env (cut storePathMax root) d
        have hframe₂ := makeDirs_frame env scans d₁
        rw [h₁] at hframe₁
        rw [h₂] at hframe₂
        refine ⟨hroot, ?_, fun k => ?_⟩
        · have hparent := (makeDirs_parent h₂).2
          have hplain : slash ∉ ascii "scans" := by decide
          rw [hjoin, dirKey_joined _ hroot hplain (by decide),
            fileKey_joined _ hroot hplain (by decide) (by decide)
              (by decide)] at hparent
          refine Option.ne_none_iff_exists'.mp fun hnone => ?_
          rw [hnone] at hparent
          simp at hparent
        · exact (hframe₂.content k (Set.notMem_empty k)).trans
            (hframe₁.content k (Set.notMem_empty k))
      · simp at h
  · simp at h

end Open

/-- The names `lastScan` counts in a directory. -/
lemma counted_names (env : Behaviour) (d : Disk) (D : Key) :
    (counted env d D).map RawDirent.name = (d.fs.fileNames D).filter fun n =>
      !isDotEntry n && endsWith (sanitizeUtf8 n nameMax) dotJson := by
  have hdirs : ∀ n, isReport (fillEntry ⟨n, some .directory,
      if env.examinable d.calls n then some ⟨.directory, (4096 : ℕ).toUInt64⟩ else none⟩) =
        false := by
    intro n
    cases env.examinable d.calls n <;> simp [isReport, fillEntry]
  have hfiles : ∀ n, isReport (fillEntry ⟨n, some .regular,
      if env.examinable d.calls n then
        some ⟨.regular, (((d.fs.content (D ++ [n])).getD []).length).toUInt64⟩ else none⟩) =
        endsWith (sanitizeUtf8 n nameMax) dotJson := by
    intro n
    cases env.examinable d.calls n <;> simp [isReport, fillEntry]
  have hdot : isDotEntry dot = true := rfl
  have hdotDot : isDotEntry dotDot = true := rfl
  simp only [counted, rawDirents, List.filter_append, List.filter_map,
    Function.comp_def, hdirs, hfiles, Bool.and_false, List.filter_false, List.map_nil,
    List.map_map, List.append_nil, List.filter_cons, hdot, hdotDot, Bool.not_true,
    Bool.false_and, Bool.false_eq_true, if_false, List.filter_nil, List.nil_append]
  exact List.map_id _

/-- The JSON reports of one safe id. -/
def jsonReports (reports : List Report) (safe : Bytes) : List Report :=
  reports.filter fun r => r.form = .json && r.safe = safe

def Report.key (r : Report) : Bytes × Bytes := (r.timestamp, r.scanId)

/-- What a last scan says when `mine` are the reports written for its device. -/
structure Answers (mine : List Report) (info : LastScan) : Prop where
  found : info.found = true ↔ mine ≠ []
  count : info.reportCount = (mine.map Report.key).dedup.length
  latest : mine ≠ [] → ∃ r ∈ mine, info.scannedAt = r.timestamp ∧ info.scanId = r.scanId ∧
    ∀ q ∈ mine, stampValue q.timestamp ≤ stampValue r.timestamp

lemma Answers.none : Answers [] {} := by
  refine ⟨by simp, rfl, fun h => absurd rfl h⟩

section Count
variable {reports : List Report} {safe : Bytes}

lemma mem_jsonReports {r : Report} :
    r ∈ jsonReports reports safe ↔ r ∈ reports ∧ r.form = .json ∧ r.safe = safe := by
  simp [jsonReports]

lemma isDotEntry_fileName (r : Report) : isDotEntry r.fileName = false := by
  have hmem : hyphen ∈ r.fileName := by simp [Report.fileName]
  have hne : ∀ {name : Bytes}, hyphen ∉ name → r.fileName ≠ name :=
    fun hname he => hname (he ▸ hmem)
  have h₁ : r.fileName ≠ dot := hne (by decide)
  have h₂ : r.fileName ≠ dotDot := hne (by decide)
  simp [isDotEntry, h₁, h₂]

/-- A report's file name says which timestamp and scan id it has. -/
lemma Report.WellFormed.key_of_fileName {q r : Report} (hq : q.WellFormed) (hr : r.WellFormed)
    (hqf : q.form = .json) (hrf : r.form = .json) : q.fileName = r.fileName ↔ q.key = r.key := by
  constructor
  · intro he
    have hread := (hq.newest_fileName hqf {}).symm.trans (he ▸ hr.newest_fileName hrf {})
    have hat := congrArg LastScan.scannedAt hread
    have hid := congrArg LastScan.scanId hread
    exact Prod.ext hat hid
  · intro he
    have hat : q.timestamp = r.timestamp := congrArg Prod.fst he
    have hid : q.scanId = r.scanId := congrArg Prod.snd he
    rw [Report.fileName, Report.fileName, hat, hid, hqf, hrf]

/-- The file names of well-formed JSON reports are as many as their keys. -/
lemma dedup_fileName_length {mine : List Report} (hwf : ∀ r ∈ mine, r.WellFormed)
    (hform : ∀ r ∈ mine, r.form = .json) :
    (mine.map Report.fileName).dedup.length = (mine.map Report.key).dedup.length := by
  induction mine with
  | nil => rfl
  | cons r mine ih =>
    have hmem : r.fileName ∈ mine.map Report.fileName ↔ r.key ∈ mine.map Report.key := by
      have hiff : ∀ q ∈ mine, (q.fileName = r.fileName ↔ q.key = r.key) := fun q hq =>
        (hwf q (by simp [hq])).key_of_fileName (hwf r (by simp)) (hform q (by simp [hq]))
          (hform r (by simp))
      simp only [List.mem_map]
      constructor
      · rintro ⟨q, hq, he⟩
        exact ⟨q, hq, (hiff q hq).mp he⟩
      · rintro ⟨q, hq, he⟩
        exact ⟨q, hq, (hiff q hq).mpr he⟩
    have hrest := ih (fun q hq => hwf q (by simp [hq])) fun q hq => hform q (by simp [hq])
    rw [List.map_cons, List.map_cons]
    by_cases hin : r.key ∈ mine.map Report.key
    · rw [List.dedup_cons_of_mem hin, List.dedup_cons_of_mem (hmem.mpr hin), hrest]
    · rw [List.dedup_cons_of_notMem hin, List.dedup_cons_of_notMem fun h => hin (hmem.mp h),
        List.length_cons, List.length_cons, hrest]

variable {env : Behaviour} {store : Store} {R : Key} {d : Disk}

/-- The listing of a device's directory names its JSON reports, each file once. -/
theorem StoreInv.counted_perm (hinv : StoreInv store R reports d)
    (hwf : ∀ r ∈ reports, r.WellFormed) :
    ((counted env d (R ++ [scansName, safe])).map fun r => sanitizeUtf8 r.name nameMax).Perm
      ((jsonReports reports safe).map Report.fileName).dedup := by
  have hfiles : ∀ n, n ∈ d.fs.fileNames (R ++ [scansName, safe]) ↔
      ∃ r ∈ reports, safe = r.safe ∧ n = r.fileName := by
    intro n
    have hkey : R ++ [scansName, safe] ++ [n] = R ++ scansName :: [safe, n] := by simp
    rw [Fs.mem_fileNames, hkey, hinv.files _ (by simp)]
    simp
  have hnames : (counted env d (R ++ [scansName, safe])).map
      (fun r => sanitizeUtf8 r.name nameMax) =
        (counted env d (R ++ [scansName, safe])).map RawDirent.name := by
    refine List.map_congr_left fun e he => ?_
    have hname := List.mem_map_of_mem (f := RawDirent.name) he
    rw [counted_names] at hname
    obtain ⟨r, hr, _, hfile⟩ := (hfiles _).mp (List.mem_of_mem_filter hname)
    rw [hfile, (hwf r hr).sanitized]
  rw [hnames, counted_names]
  have hnodup := (Fs.fileNames_nodup d.fs (R ++ [scansName, safe])).filter
    fun n => !isDotEntry n && endsWith (sanitizeUtf8 n nameMax) dotJson
  apply (List.perm_ext_iff_of_nodup hnodup (List.nodup_dedup _)).mpr
  intro n
  rw [List.mem_filter, hfiles, List.mem_dedup, List.mem_map]
  constructor
  · rintro ⟨⟨r, hr, hsafe, rfl⟩, hjson⟩
    rw [(hwf r hr).sanitized, isDotEntry_fileName, Bool.not_false, Bool.true_and] at hjson
    exact ⟨r, mem_jsonReports.mpr ⟨hr, r.endsWith_dotJson.mp hjson, hsafe.symm⟩, rfl⟩
  · rintro ⟨r, hmine, rfl⟩
    obtain ⟨hr, hform, hsafe⟩ := mem_jsonReports.mp hmine
    refine ⟨⟨r, hr, hsafe.symm, rfl⟩, ?_⟩
    rw [(hwf r hr).sanitized, isDotEntry_fileName, r.endsWith_dotJson.mpr hform]
    rfl

/-- The greatest file name belongs to a report with the latest timestamp. -/
lemma latest_of_greatest {mine : List Report} (hwf : ∀ r ∈ mine, r.WellFormed)
    (hform : ∀ r ∈ mine, r.form = .json) {r : Report} (hr : r ∈ mine)
    (hgreatest : ∀ n ∈ mine.map Report.fileName, strLt r.fileName n = false) :
    ∀ q ∈ mine, stampValue q.timestamp ≤ stampValue r.timestamp := by
  intro q hq
  obtain ⟨f, hf, hstamp, hname⟩ := (hwf r hr).fileName_json (hform r hr)
  obtain ⟨g, hg, hstamp', hname'⟩ := (hwf q hq).fileName_json (hform q hq)
  have hle := hgreatest _ (List.mem_map_of_mem hq)
  rw [hname, hname'] at hle
  have hcompact : strLt (compactOf f) (compactOf g) = false := strLt_prefix_of_append rfl hle
  rw [hstamp, hstamp']
  by_cases he : compactOf g = compactOf f
  · exact (congrArg stampValue (compactOf_injective he)).le
  · rcases strLt_total he with h | h
    · exact (stampValue_lt hg hf h).le
    · rw [hcompact] at h
      exact absurd h (by simp)

/-- Over a listing that names exactly the reports `mine`, the loop answers for them. -/
theorem answers_of_names {mine : List Report} (hwf : ∀ r ∈ mine, r.WellFormed)
    (hform : ∀ r ∈ mine, r.form = .json) {names : List Bytes}
    (hnames : names.Perm (mine.map Report.fileName).dedup) {best : Option Bytes} {info : LastScan}
    (hinfo : info = match best with
      | none => { reportCount := names.length }
      | some b => { newest b { reportCount := names.length } with found := true })
    (hbest : Greatest best names) : Answers mine info := by
  rw [hinfo]
  have hcount : names.length = (mine.map Report.key).dedup.length :=
    hnames.length_eq.trans (dedup_fileName_length hwf hform)
  cases best with
  | none =>
    obtain rfl : names = [] := hbest
    have hnil : mine = [] := by
      have hdedup := hnames.nil_eq.symm
      rwa [List.dedup_eq_nil, List.map_eq_nil_iff] at hdedup
    rw [hnil]
    exact Answers.none
  | some b =>
    obtain ⟨hmem, hmax⟩ := hbest
    obtain ⟨r, hr, rfl⟩ := List.mem_map.mp (List.mem_dedup.mp (hnames.mem_iff.mp hmem))
    have hread := (hwf r hr).newest_fileName (hform r hr)
    refine ⟨iff_of_true rfl (List.ne_nil_of_mem hr), ?_, fun _ => ⟨r, hr, ?_, ?_, ?_⟩⟩
    · simpa using hcount
    · simp [hread]
    · simp [hread]
    · apply latest_of_greatest hwf hform hr
      intro n hn
      exact hmax n (hnames.mem_iff.mpr (List.mem_dedup.mpr hn))

end Count

section Run
variable {env : Behaviour} {lib : Json.CLib} {store : Store} {root identity : Bytes}
  {before opened d : Disk} {reports : List Report}

lemma safeId_error {cap : ℕ} {e : Status} (h : safeId identity cap = .error e) : e ≠ .ok := by
  have hloop : ∀ {bytes out : Bytes} {e}, safeIdLoop cap bytes out = .error e → e = .noMemory := by
    intro bytes
    induction bytes with
    | nil => simp [safeIdLoop]
    | cons b bytes ih =>
      intro out e he
      rw [safeIdLoop] at he
      by_cases hroom : out.length + (if isSafe b then 1 else 3) ≥ cap
      · rw [if_pos hroom] at he
        exact (Except.error.inj he).symm
      · rw [if_neg hroom] at he
        exact ih he
  unfold safeId at h
  split_ifs at h
  · simp [← Except.error.inj h]
  · split at h
    · next he => simp [← Except.error.inj h, hloop he]
    · simp [← Except.error.inj h]
    · simp at h

lemma pathJoin_error {host : Host} {cap : ℕ} {base leaf : Bytes} {e : Status}
    (h : UsbSentinel.Path.pathJoin host cap base leaf = .error e) : e ≠ .ok := by
  unfold UsbSentinel.Path.pathJoin at h
  split_ifs at h
  · simp [← Except.error.inj h]
  · simp [← Except.error.inj h]

lemma deviceDir_error {safe : Bytes} {cap : ℕ} {e : Status}
    (h : deviceDir .posix store safe cap = .error e) : e ≠ .ok := by
  unfold deviceDir at h
  split at h
  · next he =>
    obtain rfl := Except.error.inj h
    exact pathJoin_error he
  · exact pathJoin_error h

/-- A last scan that succeeds on an attached device was not refused anything. -/
lemma lastScan_ok {info : LastScan} (hattached : env.Attached d.calls)
    (h : (lastScan (storePlatform env) .posix store identity d).1 = (.ok, info)) :
    ∃ safe dir, safeId identity storePathMax = .ok safe ∧
      deviceDir .posix store safe storePathMax = .ok dir ∧
      (d.fs.dirKey dir = none ∨ env.fault d.calls = none) := by
  simp only [lastScan, storePlatform] at h
  split at h
  · next e he => exact absurd (congrArg Prod.fst h) (safeId_error he)
  · next safe hsafe =>
    split at h
    · next e he => exact absurd (congrArg Prod.fst h) (deviceDir_error he)
    · next dir hdir =>
      refine ⟨safe, dir, hsafe, hdir, ?_⟩
      by_contra hcontra
      obtain ⟨hkey, hfault⟩ := not_or.mp hcontra
      obtain ⟨D, hD⟩ := Option.ne_none_iff_exists'.mp hkey
      obtain ⟨f, hf⟩ := Option.ne_none_iff_exists'.mp hfault
      have hnotFound : f.status ≠ .notFound := hattached f hf
      have hnotOk : f.status ≠ .ok := statusFromErrno_ne_ok f.errno
      simp only [dirOpen, hD, hf] at h
      cases hprogress : f.progress with
      | none =>
        rw [hprogress] at h
        split at h
        · next heq => exact hnotFound (Except.error.inj (Prod.ext_iff.mp heq).1)
        · next heq =>
          have he := Except.error.inj (Prod.ext_iff.mp heq).1
          exact hnotOk (he.trans (congrArg Prod.fst h))
        · next heq => simp at heq
      | some n =>
        rw [hprogress] at h
        split at h
        · next heq => simp at heq
        · next heq => simp at heq
        · next listing _ heq =>
          have hending : f.status = listing.ending :=
            congrArg Listing.ending (Except.ok.inj (Prod.ext_iff.mp heq).1)
          rw [← hending, if_pos hnotFound] at h
          exact hnotOk (congrArg Prod.fst h)

/-- After every run of accepted reports on a store opened with nothing below its scans
root, a last scan that succeeds with the store's disk attached answers for the JSON reports
of its device, and one that nothing refuses succeeds. -/
theorem lastScan_after_run
    (hopen : openAt (storePlatform env) .posix root before = (.ok store, opened))
    (hempty : ∀ R, opened.fs.dirKey store.root = some R → ∀ rest, rest ≠ [] →
      before.fs.content (R ++ scansName :: rest) = none)
    (hrun : Stored env lib store opened reports d) (hwf : ∀ r ∈ reports, r.WellFormed)
    (hdot : encode identity ≠ dotName) (hdotDot : encode identity ≠ dotDotName) :
    (env.Attached d.calls →
        ∀ info, (lastScan (storePlatform env) .posix store identity d).1 = (.ok, info) →
          Answers (jsonReports reports (encode identity)) info) ∧
      ∀ dir, safeId identity storePathMax = .ok (encode identity) →
        deviceDir .posix store (encode identity) storePathMax = .ok dir →
        env.fault d.calls = none →
        (lastScan (storePlatform env) .posix store identity d).1.1 = .ok := by
  obtain ⟨hroot, ⟨R, hR⟩, hcontent⟩ := openAt_spec hopen
  have hstart : StoreInv store R [] opened := by
    refine ⟨hroot, hR, fun rest hne => ?_, by simp⟩
    simp [hcontent, hempty R hR rest hne]
  have hinv := hstart.run hrun hwf
  have hmine : ∀ r ∈ jsonReports reports (encode identity), r.WellFormed :=
    fun r hr => hwf r (mem_jsonReports.mp hr).1
  have hform : ∀ r ∈ jsonReports reports (encode identity), r.form = .json :=
    fun r hr => (mem_jsonReports.mp hr).2.1
  constructor
  · intro hattached info hinfo
    obtain ⟨safe, dir, hsafe, hdir, hcase⟩ := lastScan_ok hattached hinfo
    obtain ⟨hne, rfl, _⟩ := safeId_eq_ok.mp hsafe
    obtain rfl : dir = deviceDirPath store (encode identity) := (deviceDir_eq_ok hdir).1
    cases hkey : d.fs.dirKey (deviceDirPath store (encode identity)) with
    | none =>
      -- no directory, so no report can have been written
      rw [lastScan_of_no_dir hsafe hdir hkey] at hinfo
      obtain rfl := (Prod.ext_iff.mp hinfo).2
      have hnil : jsonReports reports (encode identity) = [] := by
        refine List.eq_nil_iff_forall_not_mem.mpr fun r hr => ?_
        obtain ⟨hr, _, hsafe⟩ := mem_jsonReports.mp hr
        have hthere := hinv.dirs r hr
        rw [hsafe, hkey] at hthere
        simp at hthere
      rw [hnil]
      exact Answers.none
    | some D =>
      have hquiet : env.fault d.calls = none := hcase.resolve_left (by simp [hkey])
      obtain rfl := deviceDir_key hroot hinv.root hne hdot hdotDot hkey
      obtain ⟨best, hbest, hscan⟩ := lastScan_of_dir hsafe hdir hkey hquiet
      rw [hscan] at hinfo
      refine answers_of_names hmine hform (hinv.counted_perm hwf) ?_ hbest
      rw [List.length_map]
      exact (Prod.ext_iff.mp hinfo).2.symm
  · intro dir hsafe hdir hquiet
    cases hkey : d.fs.dirKey dir with
    | none => rw [lastScan_of_no_dir hsafe hdir hkey]
    | some D =>
      obtain ⟨best, _, hscan⟩ := lastScan_of_dir hsafe hdir hkey hquiet
      rw [hscan]

end Run

/-- Reports written one after the other on a host that refuses nothing, as long as the store
accepts them. -/
def storeAll (store : Store) : List Report → Disk → Option Disk
  | [], d => some d
  | r :: rest, d =>
    match storeReport quietPlatform .posix Json.wholeLib {} store r.form r.identity r.scanId
      r.timestamp r.content storePathMax d with
    | (.ok _, d') => storeAll store rest d'
    | (.error _, _) => none

lemma storeAll_stored {store : Store} {start d d' : Disk} {before reports : List Report}
    (hbefore : Stored .quiet Json.wholeLib store start before d)
    (h : storeAll store reports d = some d') :
    Stored .quiet Json.wholeLib store start (before ++ reports) d' := by
  induction reports generalizing before d with
  | nil =>
    obtain rfl := Option.some.inj h
    rwa [List.append_nil]
  | cons r rest ih =>
    unfold storeAll at h
    split at h
    · next out d₁ haccepted =>
      have hnext := ih (.snoc hbefore haccepted) h
      rwa [List.append_assoc] at hnext
    · cases h

/-- A report of the device `identity`, some day in September. -/
def stickReport (form : Form) (identity scanId : Bytes) (day : UInt8) : Report :=
  ⟨form, identity, scanId, stampOf ![50, 48, 50, 54, 48, 57, 49, day, 49, 52, 48, 50, 48, 51],
    ascii "\x7b\x7d"⟩

/-- Reports of two devices; the first one is written again later, and the last is CSV. -/
def stickReports : List Report :=
  [stickReport .json (ascii "usb:1") (ascii "A") 49, stickReport .json (ascii "usb:2") (ascii "B") 50,
    stickReport .json (ascii "usb:1") (ascii "C") 53, stickReport .json (ascii "usb:1") (ascii "A") 49,
    stickReport .csv (ascii "usb:1") (ascii "D") 57]

lemma stickReport_wellFormed {form : Form} {identity scanId : Bytes} {day : UInt8}
    (hday : Json.isDigit day = true) (hutf8 : Utf8.Valid scanId) (hshort : scanId.length < scanIdMax)
    (hdot : encode identity ≠ dotName) (hdotDot : encode identity ≠ dotDotName) :
    (stickReport form identity scanId day).WellFormed := by
  refine ⟨⟨⟨_, fun i => ?_, rfl⟩⟩, hutf8, hshort, hdot, hdotDot⟩
  fin_cases i <;> first | exact hday | rfl

lemma stickReports_wellFormed : ∀ r ∈ stickReports, r.WellFormed := by
  have hdevice : ∀ r ∈ stickReports, encode r.identity ≠ dotName ∧ encode r.identity ≠ dotDotName := by
    decide +kernel
  intro r hr
  obtain ⟨hdot, hdotDot⟩ := hdevice r hr
  simp only [stickReports, List.mem_cons, List.not_mem_nil, or_false] at hr
  rcases hr with rfl | rfl | rfl | rfl | rfl
  all_goals
    exact stickReport_wellFormed rfl (Utf8.valid_of_ascii (by decide)) (by decide) hdot hdotDot

def stickOpened : Except Status Store × Disk := openAt quietPlatform .posix (ascii "/s") blankDisk

theorem lastScan_after_run_stick :
    ∃ d, storeAll ⟨ascii "/s"⟩ stickReports stickOpened.2 = some d ∧
      (Behaviour.quiet.Attached d.calls →
        ∀ info, (lastScan (storePlatform .quiet) .posix ⟨ascii "/s"⟩ (ascii "usb:1") d).1 =
            (.ok, info) →
          Answers (jsonReports stickReports (encode (ascii "usb:1"))) info) ∧
      ∀ dir, safeId (ascii "usb:1") storePathMax = .ok (encode (ascii "usb:1")) →
        deviceDir .posix ⟨ascii "/s"⟩ (encode (ascii "usb:1")) storePathMax = .ok dir →
        Behaviour.quiet.fault d.calls = none →
        (lastScan (storePlatform .quiet) .posix ⟨ascii "/s"⟩ (ascii "usb:1") d).1.1 = .ok := by
  have hopened : stickOpened.1 = .ok ⟨ascii "/s"⟩ := by decide +kernel
  have hall : (storeAll ⟨ascii "/s"⟩ stickReports stickOpened.2).isSome = true := by decide +kernel
  obtain ⟨d, hd⟩ := Option.isSome_iff_exists.mp hall
  have hrun : Stored .quiet Json.wholeLib ⟨ascii "/s"⟩ stickOpened.2 stickReports d :=
    storeAll_stored (.nil _) hd
  have hopen : openAt (storePlatform .quiet) .posix (ascii "/s") blankDisk =
      (.ok ⟨ascii "/s"⟩, stickOpened.2) := hopened ▸ Prod.mk.eta.symm
  have hblank : ∀ R, stickOpened.2.fs.dirKey (ascii "/s") = some R → ∀ rest, rest ≠ [] →
      blankDisk.fs.content (R ++ scansName :: rest) = none := fun _ _ _ _ => AList.lookup_empty _
  have hdot : encode (ascii "usb:1") ≠ dotName := by decide +kernel
  have hdotDot : encode (ascii "usb:1") ≠ dotDotName := by decide +kernel
  exact ⟨d, hd, lastScan_after_run hopen hblank hrun stickReports_wellFormed hdot hdotDot⟩

end UsbSentinel.Store
