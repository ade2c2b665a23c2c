import UsbSentinel.ScanReport
import UsbSentinel.Sha256Stream

/-! Detection by content, from the text of the signature file to the findings of the scan: a file
is reported exactly if the text lists its size and the SHA-256 of what it holds. -/
namespace ByteString

def hexLower (n : UInt8) : UInt8 := (ascii "0123456789abcdef").getD n.toNat 0

/-- Two digits a byte, the high half first. -/
def lowerHex (bytes : Bytes) : Bytes :=
  bytes.flatMap fun b : UInt8 => [hexLower ((b >>> 4) &&& 0x0F), hexLower (b &&& 0x0F)]

end ByteString

namespace UsbSentinel
open ByteString Sha256

namespace HashMatch

/-- A call with no data does nothing. -/
def hashUpdate (ctx : Ctx) (data : Bytes) : Ctx := if data = [] then ctx else update ctx data

/-- The digest and its hex form. -/
def hashFinish (ctx : Ctx) : Bytes × Bytes := ((final ctx).1, lowerHex (final ctx).1)

/-- The loop of reads over an open file. -/
def hashLoop (file : FileStream) : ℕ → ℕ → Ctx → Ctx
  | 0, _, ctx => ctx
  | turns + 1, offset, ctx =>
    match file.read offset readChunk with
    | .error _ => ctx
    | .ok [] => ctx
    | .ok got => hashLoop file turns (offset + got.length) (hashUpdate ctx got)

def hashFile (file : FileStream) : Bytes × Bytes :=
  hashFinish (hashLoop file (file.content.length + 1) 0 init)

/-- The hex digest of a text handed over in one call. -/
def hashHex (content : Bytes) : Bytes := (hashFinish (hashUpdate init content)).2

lemma hashUpdate_absorbed {message : Bytes} {ctx : Ctx} (h : Absorbed message ctx)
    (data : Bytes) : Absorbed (message ++ data) (hashUpdate ctx data) := by
  unfold hashUpdate
  by_cases hdata : data = []
  · rw [if_pos hdata, hdata, List.append_nil]
    exact h
  · rw [if_neg hdata]
    exact update_absorbed h data

lemma hashLoop_absorbed {file : FileStream} {turns : ℕ} {buf : Bytes} {ctx : Ctx}
    (h : Absorbed buf ctx) :
    Absorbed (readLoop file (fun _ => readChunk) turns buf).1
      (hashLoop file turns buf.length ctx) := by
  induction turns generalizing buf ctx with
  | zero => exact h
  | succ turns ih =>
    have hask : ¬ readChunk = 0 := by decide
    simp only [readLoop, hashLoop, if_neg hask]
    cases file.read buf.length readChunk with
    | error e => exact h
    | ok got =>
      cases got with
      | nil => exact h
      | cons c rest =>
        have hnext := ih (hashUpdate_absorbed h (c :: rest))
        rwa [List.length_append] at hnext

lemma hashFinish_absorbed {message : Bytes} {ctx : Ctx} (h : Absorbed message ctx)
    (hlength : message.length < 2 ^ 61) :
    hashFinish ctx = (Fips.digest message, lowerHex (Fips.digest message)) := by
  have hbytes : wordBytes = fun word => Fips.bigEndian 4 word.toNat := funext wordBytes_bigEndian
  have hdigest : (final ctx).1 = Fips.digest message := by
    rw [final, (pad_state h hlength).1, hbytes]
    rfl
  rw [hashFinish, hdigest]

/-- Whatever a loop of reads got is a front of the file. -/
lemma readLoop_front (file : FileStream) (ask : ℕ → ℕ) (turns : ℕ) {n : ℕ} :
    ∃ m, (readLoop file ask turns (file.content.take n)).1 = file.content.take m := by
  induction turns generalizing n with
  | zero => exact ⟨n, rfl⟩
  | succ turns ih =>
    simp only [readLoop]
    by_cases hask : ask (file.content.take n).length = 0
    · exact ⟨n, by rw [if_pos hask]⟩
    rw [if_neg hask]
    cases hread : file.read (file.content.take n).length (ask (file.content.take n).length) with
    | error e => exact ⟨n, rfl⟩
    | ok got =>
      cases got with
      | nil => exact ⟨n, rfl⟩
      | cons c rest =>
        have hextends := ByteStream.Stream.read_extends hread
        have hsame : file.content.take (file.content.take n).length = file.content.take n := by
          rw [List.length_take, ← List.take_take, List.take_length]
        rw [hsame] at hextends
        simp only
        rw [hextends]
        exact ih

lemma readChunks_length (chunk : ℕ) (file : FileStream) :
    (readChunks chunk file).1.length ≤ file.content.length := by
  obtain ⟨m, hm⟩ := readLoop_front file (fun _ => chunk) (file.content.length + 1) (n := 0)
  rw [readChunks, show ([] : Bytes) = file.content.take 0 from rfl, hm, List.length_take]
  exact Nat.min_le_right _ _

/-- Hashing while reading gives the standard's digest of the bytes read, in any chunks. -/
theorem hashFile_fips {file : FileStream} (hlength : file.content.length < 2 ^ 61) :
    hashFile file = (Fips.digest (readChunks readChunk file).1,
      lowerHex (Fips.digest (readChunks readChunk file).1)) :=
  hashFinish_absorbed (hashLoop_absorbed init_absorbed)
    ((readChunks_length readChunk file).trans_lt hlength)

lemma hashHex_fips {content : Bytes} (hlength : content.length < 2 ^ 61) :
    hashHex content = lowerHex (Fips.digest content) := by
  have h := hashUpdate_absorbed init_absorbed content
  rw [List.nil_append] at h
  rw [hashHex, hashFinish_absorbed h hlength]

/-! ### What a signature file lists -/

/-- The text of a signature file lists a content under a name. -/
def ListedAs (text : Bytes) (size : UInt64) (content name : Bytes) : Prop :=
  ⟨lowerHex (Fips.digest content), size, name⟩ ∈ SignatureList.parsed text

/-- The loaded entries are those of the text, sorted. -/
lemma load_perm {sort : SignatureList.SizeSort} {realloc grow : ℕ → Bool} {file : FileStream}
    {entries : List Signature} (hlimit : file.content.length ≤ SignatureList.fileMaxRead)
    (hgrow : ∀ n, grow n = true)
    (h : SignatureList.load sort realloc grow file = .ok entries) :
    SignatureList.Sorted entries ∧ entries.Perm (SignatureList.parsed file.content) := by
  refine ⟨SignatureList.load_sorted h, ?_⟩
  unfold SignatureList.load at h
  split at h
  · cases h
  · next text hread =>
    obtain rfl := Except.ok.inj h
    rw [SignatureList.readWholeFileCapped_eq_ok hlimit hread, SignatureList.loadLoop_items hgrow,
      List.nil_append, SignatureList.lines_entries]
    exact sort.perm _

/-- A process that has not looked for signatures yet uses this file. -/
structure UsesList (host : ScanHost) (path : Bytes) (list : FileStream)
    (entries : List Signature) : Prop where
  path_eq : resolveSignaturePath host = some path
  opened : host.fileOpen [] path = .ok list
  size_le : list.content.length ≤ SignatureList.fileMaxRead
  memory : ∀ n, host.signatureGrow n = true
  loaded : SignatureList.load host.signatureSort host.signatureRealloc host.signatureGrow list =
    .ok entries
  nonempty : entries ≠ []

lemma UsesList.inUse {host : ScanHost} {path : Bytes} {list : FileStream}
    {entries : List Signature} (h : UsesList host path list entries) :
    signaturesInUse host {} = { attempted := true, loaded := some (entries, path) } := by
  have hentries := h.nonempty
  unfold signaturesInUse ensureSignaturesLoaded World.fileOpen
  simp only [h.path_eq, h.opened, h.loaded, Bool.false_eq_true, if_false]
  rfl

/-- What the scan needs of its host to hash a file: the program's own hash, its memory, and
files short of 2^61 bytes. -/
structure HashesFiles (host : ScanHost) : Prop where
  sha256Hex : host.sha256Hex = hashHex
  malloc : host.malloc [] = true
  hashBegin : host.hashBegin [] = true
  hashFinish : host.hashFinish [] = true
  short : ∀ path file, host.fileOpen [] path = .ok file → file.content.length < 2 ^ 61

section Verdicts
variable {host : ScanHost} {path : Bytes} {list : FileStream} {entries : List Signature}
  (huses : UsesList host path list entries) (hhashes : HashesFiles host)
include huses hhashes

/-- A listed file is found, under a name it is listed by. -/
lemma verdict_of_listed {fullPath : Bytes} {entry : DirEntry} {file : FileStream}
    (hopen : host.fileOpen [] fullPath = .ok file) (hsound : file.failAt = none)
    (hsize : entry.sizeBytes.toNat ≤ maxFileSize) {name : Bytes}
    (hlists : ListedAs list.content entry.sizeBytes file.content name) :
    ∃ label, ListedAs list.content entry.sizeBytes file.content label ∧
      (verdict host (signaturesInUse host {}) fullPath entry).finding =
        some (.high, matchMessage (signaturesInUse host {}) label
          (lowerHex (Fips.digest file.content))) := by
  obtain ⟨hsorted, hperm⟩ := load_perm huses.size_le huses.memory huses.loaded
  have hmem := hperm.mem_iff.mpr hlists
  have hhex : host.sha256Hex (readChunks readChunk file).1 =
      lowerHex (Fips.digest file.content) := by
    rw [hhashes.sha256Hex, readChunks_sound hsound (by decide), hashHex_fips
      (hhashes.short _ _ hopen)]
  have hcan : sizeCanMatch (signaturesInUse host {}) entry.sizeBytes = true := by
    rw [huses.inUse]
    exact (SignatureList.hasSize_iff hsorted _).mpr ⟨_, hmem, rfl⟩
  have hfound : (SignatureList.lookup entries entry.sizeBytes
      (lowerHex (Fips.digest file.content))).isSome = true :=
    (SignatureList.lookup_isSome hsorted _ _).mpr ⟨_, hmem, rfl, rfl⟩
  obtain ⟨label, hlabel⟩ := Option.isSome_iff_exists.mp hfound
  obtain ⟨e, he, hesize, hehex, hename⟩ := SignatureList.lookup_eq_some hsorted hlabel
  have hlookup : hashMatchLookup (signaturesInUse host {}) entry.sizeBytes
      (lowerHex (Fips.digest file.content)) = some label := by
    rw [huses.inUse]
    exact hlabel
  refine ⟨label, ?_, ?_⟩
  · obtain ⟨hex, size, label'⟩ := e
    simp only at hesize hehex hename
    subst hesize hehex hename
    exact hperm.mem_iff.mp he
  · simp only [verdict, if_neg (not_lt.mpr hsize), hcan, hopen, hhashes.hashBegin, hhashes.malloc,
      hhashes.hashFinish, Bool.not_true, Bool.false_eq_true, if_false, hhex, hlookup]

/-- What is found is listed, as far as it was read. -/
lemma listed_of_verdict {fullPath : Bytes} {entry : DirEntry} {severity : Severity}
    {message : Bytes} (hfinding : (verdict host (signaturesInUse host {}) fullPath entry).finding =
      some (severity, message)) :
    ∃ file label, host.fileOpen [] fullPath = .ok file ∧
      ListedAs list.content entry.sizeBytes (readChunks readChunk file).1 label ∧
      severity = .high ∧
      message = matchMessage (signaturesInUse host {}) label
        (lowerHex (Fips.digest (readChunks readChunk file).1)) := by
  obtain ⟨hsorted, hperm⟩ := load_perm huses.size_le huses.memory huses.loaded
  unfold verdict at hfinding
  by_cases hlarge : entry.sizeBytes.toNat > maxFileSize
  · rw [if_pos hlarge] at hfinding
    cases hfinding
  rw [if_neg hlarge] at hfinding
  by_cases hsize : (!sizeCanMatch (signaturesInUse host {}) entry.sizeBytes) = true
  · rw [if_pos hsize] at hfinding
    cases hfinding
  rw [if_neg hsize] at hfinding
  cases hopen : host.fileOpen [] fullPath with
  | error e =>
    rw [hopen] at hfinding
    cases hfinding
  | ok file =>
    have hhex : host.sha256Hex (readChunks readChunk file).1 =
        lowerHex (Fips.digest (readChunks readChunk file).1) := by
      rw [hhashes.sha256Hex, hashHex_fips
        ((readChunks_length readChunk file).trans_lt (hhashes.short _ _ hopen))]
    simp only [hopen, hhashes.hashBegin, hhashes.malloc, hhashes.hashFinish, Bool.not_true,
      Bool.false_eq_true, if_false, hhex] at hfinding
    cases hlookup : hashMatchLookup (signaturesInUse host {}) entry.sizeBytes
        (lowerHex (Fips.digest (readChunks readChunk file).1)) with
    | none =>
      rw [hlookup] at hfinding
      cases hfinding
    | some label =>
      rw [hlookup] at hfinding
      obtain ⟨rfl, rfl⟩ := Prod.mk.inj (Option.some.inj hfinding)
      rw [huses.inUse] at hlookup
      obtain ⟨⟨hex, size, label'⟩, he, rfl, rfl, rfl⟩ :=
        SignatureList.lookup_eq_some hsorted hlookup
      exact ⟨file, _, rfl, hperm.mem_iff.mp he, rfl, rfl⟩

end Verdicts
end HashMatch

namespace Scanner
open UsbSentinel.Location HashMatch

variable {scan : Scan}

/-- The finding for a file that is listed under a name. -/
def listedFinding (scan : Scan) (f : Bytes × DirEntry) (content label : Bytes) : Finding where
  severity := .high
  message := cut findingMessageMax (matchMessage (signaturesInUse scan.host {}) label
    (lowerHex (Fips.digest content)))
  path := cut findingPathMax (relative scan.device.volumePath f.1)

lemma hashReport_id (signatures : SignatureState) (files : List (Bytes × DirEntry)) :
    (hashReport scan signatures files).id = hashMatchId := by
  change cut checkIdMax hashMatchId = hashMatchId
  decide

lemma describe_findings (check : CheckResult) :
    (describeLocationPolicy check).findings = check.findings := by
  unfold describeLocationPolicy
  split_ifs <;> rfl

/-- The hash check of the report is the one with its id. -/
lemma hashCheck_of_id {signatures : SignatureState} {t : Tally} {check : CheckResult}
    (hcheck : check ∈ reportOf scan signatures t) (hid : check.id = hashMatchId) :
    check.findings = (hashReport scan (signaturesInUse scan.host signatures) t.files).findings := by
  simp only [reportOf, List.mem_cons, List.not_mem_nil, or_false] at hcheck
  have hother : ∀ {id : Bytes}, cut checkIdMax id ≠ hashMatchId →
      check.id = cut checkIdMax id → False := fun hne heq => hne (heq.symm.trans hid)
  rcases hcheck with rfl | rfl | rfl | rfl | rfl
  · exact absurd hid (by
      change (traversalCheck _ _).id ≠ _
      rw [traversalCheck_id]
      decide)
  · exact absurd hid (by
      change (Autorun.detectAutorun _ _ _).1.id ≠ _
      rw [Autorun.detectAutorun_id]
      decide)
  · exact absurd hid (by
      rw [describeLocationPolicy_id]
      change cut checkIdMax SuspiciousFilename.suspiciousFilenameId ≠ _
      decide)
  · exact absurd hid (by
      rw [describeLocationPolicy_id]
      change cut checkIdMax LnkInspect.lnkInspectId ≠ _
      decide)
  · exact describe_findings _

/-- Every file the volume shows whose size and content the signature file lists is reported, and
what the hash check reports is listed. -/
theorem hashFindings_listed {v : Volume} (hv : Unchanging scan v)
    (hslots : scan.host.slotsMemory = true) (hfirst : scan.host.checkMemory 0 = true)
    (hfifth : scan.host.checkMemory 4 = true)
    (hcompleted : (scannerScan scan).1.status = .completed) {path : Bytes} {list : FileStream}
    {entries : List Signature} (huses : UsesList scan.host path list entries)
    (hhashes : HashesFiles scan.host) {check : CheckResult}
    (hcheck : check ∈ (scannerScan scan).1.checks.items) (hid : check.id = hashMatchId) :
    (∀ f ∈ volumeShown scan v, ∀ file name, scan.host.fileOpen [] f.1 = .ok file →
      file.failAt = none → f.2.sizeBytes.toNat ≤ maxFileSize →
      ListedAs list.content f.2.sizeBytes file.content name →
      ∃ label, ListedAs list.content f.2.sizeBytes file.content label ∧
        listedFinding scan f file.content label ∈ check.findings.items) ∧
    ∀ finding ∈ check.findings.items, ∃ f ∈ volumeShown scan v, ∃ file label,
      scan.host.fileOpen [] f.1 = .ok file ∧
      ListedAs list.content f.2.sizeBytes (readChunks readChunk file).1 label ∧
      finding = listedFinding scan f (readChunks readChunk file).1 label := by
  have hmem : check.reported ∈ reportOf scan {} (tallyVolume scan v) := by
    rw [← checks_reported hv hslots hfirst hfifth hcompleted]
    exact List.mem_map_of_mem hcheck
  have hitems : check.findings.items = (volumeShown scan v).filterMap fun f =>
      (hashVerdict scan (signaturesInUse scan.host {}) f).stored
        (relative scan.device.volumePath f.1) := by
    have hfindings := congrArg GrowList.items (hashCheck_of_id hmem hid)
    rw [← tallyVolume_files v]
    exact hfindings
  rw [hitems]
  constructor
  · intro f hf file name hopen hsound hsize hlists
    obtain ⟨label, hlabel, hfinding⟩ :=
      verdict_of_listed huses hhashes hopen hsound hsize hlists
    refine ⟨label, hlabel, List.mem_filterMap.mpr ⟨f, hf, ?_⟩⟩
    rw [hashVerdict, Verdict.stored, hfinding]
    rfl
  · intro finding hmem'
    obtain ⟨f, hf, hstored⟩ := List.mem_filterMap.mp hmem'
    obtain ⟨⟨severity, message⟩, hfinding, heq⟩ := Option.map_eq_some_iff.mp hstored
    obtain ⟨file, label, hopen, hlists, rfl, rfl⟩ := listed_of_verdict huses hhashes hfinding
    exact ⟨f, hf, file, label, hopen, hlists, heq.symm⟩

/-- A completed scan has a hash check. -/
lemma hashCheck_exists {v : Volume} (hv : Unchanging scan v)
    (hslots : scan.host.slotsMemory = true) (hfirst : scan.host.checkMemory 0 = true)
    (hfifth : scan.host.checkMemory 4 = true)
    (hcompleted : (scannerScan scan).1.status = .completed) :
    ∃ check ∈ (scannerScan scan).1.checks.items, check.id = hashMatchId := by
  have hlast : describeLocationPolicy (hashReport scan (signaturesInUse scan.host {})
      (tallyVolume scan v).files) ∈ (scannerScan scan).1.checks.items.map CheckResult.reported := by
    rw [checks_reported hv hslots hfirst hfifth hcompleted, reportOf]
    simp
  obtain ⟨check, hcheck, heq⟩ := List.mem_map.mp hlast
  refine ⟨check, hcheck, ?_⟩
  have hid := congrArg CheckResult.id heq
  rw [describeLocationPolicy_id, hashReport_id] at hid
  exact hid

def shortDir : DirEntry := { name := ascii "d", isDirectory := true }

/-- A volume with three files of one size, one of them in a directory, and a signature file that
lists what two of them hold. -/
def listedHost : ScanHost :=
  { ScanHost.blank with
    dirOpen := fun _ path => .ok
      ⟨if path = ascii "/v/d" then [shortEntry "c"] else [shortEntry "a", shortEntry "b", shortDir],
        .notFound⟩
    fileOpen := fun _ path => .ok
      (if path = ascii "/s" then SignatureList.severalLines
        else if path = ascii "/v/b" then shortFile "abd" else shortFile "abc")
    getenv := fun _ => some (ascii "/s")
    sha256Hex := hashHex
    dirOpen_refused := fun h => nomatch h }

def listedScan : Scan where
  host := listedHost
  device := { volumePath := ascii "/v" }

def listedVolume : Volume where
  answer := .listed 3 .notFound
  top := .cons (shortEntry "a") (.listed 0 .notFound) .nil
    (.cons (shortEntry "b") (.listed 0 .notFound) .nil
      (.cons shortDir (.listed 1 .notFound)
        (.cons (shortEntry "c") (.listed 0 .notFound) .nil .nil) .nil))

lemma listed_unchanging : Unchanging listedScan listedVolume where
  root _ := rfl
  below := ⟨nofun, nofun, fun _ _ => ⟨fun _ => rfl, nofun, trivial⟩, trivial⟩
  steady := ⟨fun _ _ => rfl, fun _ => rfl, fun _ => rfl, fun _ => rfl, fun _ _ => rfl⟩

lemma listed_uses :
    UsesList listedScan.host (ascii "/s") SignatureList.severalLines
      SignatureList.severalEntries where
  path_eq := rfl
  opened := rfl
  size_le := by decide +kernel
  memory _ := rfl
  loaded := SignatureList.severalLines_load
  nonempty := nofun

lemma listed_hashes : HashesFiles listedScan.host where
  sha256Hex := rfl
  malloc := rfl
  hashBegin := rfl
  hashFinish := rfl
  short path file hopen := by
    obtain rfl := Except.ok.inj hopen
    split_ifs
    · decide +kernel
    · decide
    · decide

lemma listed_facts : volumeShown listedScan listedVolume =
      [(ascii "/v/a", shortEntry "a"), (ascii "/v/b", shortEntry "b"),
        (ascii "/v/d/c", shortEntry "c")] ∧
    hashHex (ascii "abc") = SignatureList.abcHash ∧
    ⟨SignatureList.abcHash, 3, ascii "abc"⟩ ∈
      SignatureList.parsed SignatureList.severalLines.content ∧
    ∀ e ∈ SignatureList.parsed SignatureList.severalLines.content,
      e.sha256Hex ≠ hashHex (ascii "abd") := by
  decide +kernel

lemma listed_abc : ListedAs SignatureList.severalLines.content 3 (ascii "abc") (ascii "abc") := by
  rw [ListedAs, ← hashHex_fips (by decide), listed_facts.2.1]
  exact listed_facts.2.2.1

lemma not_listed_abd (name : Bytes) :
    ¬ ListedAs SignatureList.severalLines.content 3 (ascii "abd") name := by
  rw [ListedAs, ← hashHex_fips (by decide)]
  exact fun h => listed_facts.2.2.2 _ h rfl

/-- The two files that are listed are reported, and nothing else. -/
theorem listed_reported :
    ∃ check ∈ (scannerScan listedScan).1.checks.items, check.id = hashMatchId ∧
      (∀ f ∈ [(ascii "/v/a", shortEntry "a"), (ascii "/v/d/c", shortEntry "c")], ∃ label,
        listedFinding listedScan f (ascii "abc") label ∈ check.findings.items) ∧
      ∀ finding ∈ check.findings.items,
        ∃ f ∈ [(ascii "/v/a", shortEntry "a"), (ascii "/v/d/c", shortEntry "c")], ∃ label,
          finding = listedFinding listedScan f (ascii "abc") label := by
  have hcompleted := completed_of_uncancelled listed_unchanging rfl (fun _ => rfl) {}
  obtain ⟨check, hcheck, hid⟩ := hashCheck_exists listed_unchanging rfl rfl rfl hcompleted
  obtain ⟨hlists, hsound⟩ := hashFindings_listed listed_unchanging rfl rfl rfl hcompleted
    listed_uses listed_hashes hcheck hid
  have hfiles := listed_facts.1
  refine ⟨check, hcheck, hid, fun f hf => ?_, fun finding hfinding => ?_⟩
  · have hshown : f ∈ volumeShown listedScan listedVolume ∧
        listedScan.host.fileOpen [] f.1 = .ok (shortFile "abc") ∧ f.2.sizeBytes = 3 := by
      rw [hfiles]
      rcases List.mem_cons.mp hf with rfl | hf
      · exact ⟨by simp, rfl, rfl⟩
      · obtain rfl := List.mem_singleton.mp hf
        exact ⟨by simp, rfl, rfl⟩
    obtain ⟨hshown, hopen, hsize⟩ := hshown
    obtain ⟨label, _, hmem⟩ := hlists f hshown _ (ascii "abc") hopen rfl
      (by rw [hsize]; decide) (hsize ▸ listed_abc)
    exact ⟨label, hmem⟩
  · obtain ⟨f, hf, file, label, hopen, hlisted, rfl⟩ := hsound finding hfinding
    rw [hfiles] at hf
    have hread : ∀ content : String,
        (readChunks readChunk (shortFile content)).1 = ascii content := fun content =>
      congrArg Prod.fst (readChunks_sound rfl (by decide))
    simp only [List.mem_cons, List.not_mem_nil, or_false] at hf
    rcases hf with rfl | rfl | rfl
    · obtain rfl : shortFile "abc" = file := Except.ok.inj hopen
      rw [hread]
      exact ⟨_, by simp, label, rfl⟩
    · obtain rfl : shortFile "abd" = file := Except.ok.inj hopen
      rw [hread] at hlisted
      exact absurd hlisted (not_listed_abd label)
    · obtain rfl : shortFile "abc" = file := Except.ok.inj hopen
      rw [hread]
      exact ⟨_, by simp, label, rfl⟩

end Scanner
end UsbSentinel
