import UsbSentinel.IndexTree
import UsbSentinel.StoreLastScan

/-! Whole runs of JSON report writes and the index they leave: one member for each device
written, as its last scan was then. -/
namespace UsbSentinel.Store
open ByteString FileSystem UsbSentinel.Posix
open UsbSentinel.Path (Host joined)

/-- One call of `writeReport` with the disks before and after it. -/
structure Write where
  identity : Bytes
  scanId : Bytes
  timestamp : Bytes
  json : Bytes
  memory : Memory
  before : Disk
  after : Disk

def Write.safe (w : Write) : Bytes := encode w.identity

/-- The disk with the report in place, when the refresh begins. -/
def Write.stored (env : Behaviour) (store : Store) (w : Write) : Disk :=
  (writeReportFile (storePlatform env) .posix store w.identity w.scanId w.timestamp (ascii "json")
    w.json w.before).2

/-- Accepted reports whose index writes succeed, one after the other. -/
inductive Indexed (env : Behaviour) (lib : Json.CLib) (store : Store) :
    Disk → List Write → Disk → Prop
  | nil (d : Disk) : Indexed env lib store d [] d
  | snoc {d : Disk} {log : List Write} {w : Write} {out : Bytes} {outCap : ℕ}
      (run : Indexed env lib store d log w.before)
      (accepted : writeReport (storePlatform env) .posix lib w.memory store w.identity w.scanId
        w.timestamp w.json outCap w.before = (.ok out, w.after))
      (indexed : (refreshIndex (storePlatform env) .posix lib w.memory store w.identity
        (w.stored env store)).1 = .written) :
      Indexed env lib store d (log ++ [w]) w.after

/-- What a write needs for the index to stay right: its report is counted, or one of its
device is already; the look-up of its device does not lose the disk; and the old index is
not refused when it has another device's member. -/
structure Write.Sound (env : Behaviour) (store : Store) (earlier : List Write) (w : Write) :
    Prop where
  counted : Keeps w.scanId ∧ StaysInDirectory w.before (deviceDirPath store w.safe)
        (w.timestamp.filter fun c => !isMark c) ∨
      ∃ D, w.before.fs.dirKey (deviceDirPath store w.safe) = some D ∧
        Store.counted .quiet w.before D ≠ []
  attached : env.Attached (w.stored env store).calls
  readable : (∀ q ∈ earlier, q.safe = w.safe) ∨
    env.fault ((w.stored env store).calls + 1) = none ∧ (∀ n, w.memory.readBuffer n = true) ∧
      w.memory.parser = true

def indexName : Bytes := ascii "index.json"

section LastScan
variable {env env' : Behaviour} {store : Store} {identity : Bytes} {d d' : Disk}
  {info info' : LastScan}

lemma Greatest.unique {a b : Option Bytes} {names names' : List Bytes} (ha : Greatest a names)
    (hb : Greatest b names') (hperm : names.Perm names') : a = b := by
  have ha' := ha.of_perm hperm
  cases a with
  | none =>
    obtain rfl : names' = [] := ha'
    cases b with
    | none => rfl
    | some b => exact absurd hb.1 (by simp)
  | some a =>
    cases b with
    | none =>
      obtain rfl : names' = [] := hb
      exact absurd ha'.1 (by simp)
    | some b =>
      by_contra hne
      have hab : a ≠ b := fun he => hne (by rw [he])
      have h₁ := ha'.2 b hb.1
      have h₂ := hb.2 a ha'.1
      rcases strLt_total hab with h | h
      · rw [h₁] at h
        exact absurd h (by simp)
      · rw [h₂] at h
        exact absurd h (by simp)

lemma counted_sanitized (env : Behaviour) (d : Disk) (D : Key) :
    ((counted env d D).map fun r => sanitizeUtf8 r.name nameMax) =
      ((d.fs.fileNames D).filter fun n =>
        !isDotEntry n && endsWith (sanitizeUtf8 n nameMax) dotJson).map
          fun n => sanitizeUtf8 n nameMax := by
  rw [← counted_names env d D, List.map_map]
  rfl

/-- The counted names depend on the files of the directory only. -/
lemma counted_perm {D : Key}
    (hfiles : ∀ n, (d'.fs.content (D ++ [n])).isSome = (d.fs.content (D ++ [n])).isSome) :
    ((counted env d D).map fun r => sanitizeUtf8 r.name nameMax).Perm
      ((counted env' d' D).map fun r => sanitizeUtf8 r.name nameMax) := by
  rw [counted_sanitized, counted_sanitized]
  refine (List.Perm.filter _ ?_).map _
  apply (List.perm_ext_iff_of_nodup (Fs.fileNames_nodup _ _) (Fs.fileNames_nodup _ _)).mpr
  intro n
  rw [Fs.mem_fileNames, Fs.mem_fileNames, hfiles]

/-- Last scans of one device agree while its directory keeps its files. -/
theorem lastScan_unique (hattached : env.Attached d.calls) (hattached' : env'.Attached d'.calls)
    (hdir : ∀ path, d'.fs.dirKey path = d.fs.dirKey path)
    (hfiles : ∀ D, d.fs.dirKey (deviceDirPath store (encode identity)) = some D → ∀ n,
      (d'.fs.content (D ++ [n])).isSome = (d.fs.content (D ++ [n])).isSome)
    (h : (lastScan (storePlatform env) .posix store identity d).1 = (.ok, info))
    (h' : (lastScan (storePlatform env') .posix store identity d').1 = (.ok, info')) :
    info = info' := by
  obtain ⟨safe, dir, hsafe, hdev, hcase⟩ := lastScan_ok hattached h
  obtain ⟨safe', dir', hsafe', hdev', hcase'⟩ := lastScan_ok hattached' h'
  obtain rfl := Except.ok.inj (hsafe.symm.trans hsafe')
  obtain rfl := Except.ok.inj (hdev.symm.trans hdev')
  obtain ⟨_, rfl, _⟩ := safeId_eq_ok.mp hsafe
  obtain rfl : dir = deviceDirPath store (encode identity) := (deviceDir_eq_ok hdev).1
  cases hkey : d.fs.dirKey (deviceDirPath store (encode identity)) with
  | none =>
    rw [lastScan_of_no_dir hsafe hdev hkey] at h
    rw [lastScan_of_no_dir hsafe hdev ((hdir _).trans hkey)] at h'
    exact (Prod.ext_iff.mp h).2.symm.trans (Prod.ext_iff.mp h').2
  | some D =>
    have hkey' := (hdir _).trans hkey
    have hquiet := hcase.resolve_left (by simp [hkey])
    have hquiet' := hcase'.resolve_left (by simp [hkey'])
    obtain ⟨best, hbest, hscan⟩ := lastScan_of_dir hsafe hdev hkey hquiet
    obtain ⟨best', hbest', hscan'⟩ := lastScan_of_dir hsafe hdev hkey' hquiet'
    have hperm := @counted_perm env env' d d' D (hfiles D hkey)
    have hcount : (counted env d D).length = (counted env' d' D).length := by
      simpa using hperm.length_eq
    rw [hscan] at h
    rw [hscan', ← hcount, ← hbest.unique hbest' hperm] at h'
    exact (Prod.ext_iff.mp h).2.symm.trans (Prod.ext_iff.mp h').2

/-- A device with a counted report is found. -/
lemma lastScan_found {D : Key} (hattached : env.Attached d.calls)
    (hkey : d.fs.dirKey (deviceDirPath store (encode identity)) = some D) (hcounted : counted env d D ≠ [])
    (h : (lastScan (storePlatform env) .posix store identity d).1 = (.ok, info)) :
    info.found = true := by
  obtain ⟨safe, dir, hsafe, hdev, hcase⟩ := lastScan_ok hattached h
  obtain ⟨_, rfl, _⟩ := safeId_eq_ok.mp hsafe
  obtain rfl : dir = deviceDirPath store (encode identity) := (deviceDir_eq_ok hdev).1
  obtain ⟨best, hbest, hscan⟩ := lastScan_of_dir hsafe hdev hkey
    (hcase.resolve_left (by simp [hkey]))
  rw [hscan] at h
  cases best with
  | none => exact absurd (List.map_eq_nil_iff.mp hbest) hcounted
  | some b =>
    obtain rfl := (Prod.ext_iff.mp h).2
    rfl

end LastScan

section Stored
variable {env : Behaviour} {store : Store} {identity scanId timestamp json final : Bytes}
  {d d₁ : Disk}

/-- A name that ends in a piece of ".tmp" is not counted. -/
lemma not_counted_temp {leaf suffix : Bytes} (hlen : leaf.length ≤ 300) (hne : suffix ≠ [])
    (hstart : suffix <+: ascii ".tmp") :
    endsWith (sanitizeUtf8 (leaf ++ suffix) nameMax) dotJson = false := by
  by_contra hends
  obtain ⟨s, hs⟩ := endsWith_iff.mp (by simpa using hends)
  have hascii : ∀ b ∈ suffix, b ≤ 0x7F := fun b hb =>
    (show ∀ b ∈ ascii ".tmp", b ≤ 0x7F by decide +kernel) b (hstart.subset hb)
  have hshort : suffix.length ≤ 4 := hstart.length_le
  have hkeep : suffix <:+ sanitizeUtf8 (leaf ++ suffix) nameMax := by
    refine sanitizeLoop_suffix hascii le_rfl ?_
    simp only [List.length_nil, nameMax]
    omega
  obtain ⟨t, ht⟩ := hkeep
  have hlast := congrArg List.getLast? (hs.trans ht.symm)
  rw [List.getLast?_append_of_ne_nil _ hne,
    List.getLast?_append_of_ne_nil _ (show dotJson ≠ [] by decide)] at hlast
  have hmem : (110 : UInt8) ∈ suffix := List.mem_of_getLast? hlast.symm
  exact absurd (hstart.subset hmem) (by decide)

/-- The temporary file is the report's own, or its name ends in a piece of ".tmp". -/
lemma temp_or_final (plan : Plan .posix store identity scanId timestamp Form.json.extension)
    {fs : Fs} {t k E : Key} (ht : fs.locate (tempPath plan.final) = .ok t)
    (hk : fs.locate plan.final = .ok k) (hkE : k = E ++ [plan.leaf]) :
    t = k ∨ ∃ suffix, suffix ≠ [] ∧ suffix <+: ascii ".tmp" ∧ t = E ++ [plan.leaf ++ suffix] := by
  by_cases hlen : plan.final.length = storePathMax - 1
  · rw [tempPath_of_long hlen, hk] at ht
    exact .inl (Except.ok.inj ht).symm
  · obtain ⟨E', suffix, hE', htE, hne, hstart⟩ :=
      plan.temp_key hlen (Fs.locate_eq_ok.mp hk).1 (Fs.locate_eq_ok.mp ht).1
    obtain ⟨rfl, _⟩ := List.append_inj' (hkE.symm.trans hE') rfl
    exact .inr ⟨suffix, hne, hstart, htE⟩

/-- A report that was counted still is when another one's file was replaced. -/
lemma counted_still (plan : Plan .posix store identity scanId timestamp Form.json.extension)
    {t k D E : Key} (htemp : t = k ∨ ∃ suffix, suffix ≠ [] ∧ suffix <+: ascii ".tmp" ∧
      t = E ++ [plan.leaf ++ suffix]) (hfinal : (d₁.fs.content k).isSome = true)
    (hrest : ∀ x, x ≠ t → x ≠ k → d₁.fs.content x = d.fs.content x)
    (hcounted : counted .quiet d D ≠ []) (env' : Behaviour) : counted env' d₁ D ≠ [] := by
  obtain ⟨r, hr⟩ := List.exists_mem_of_ne_nil _ hcounted
  have hname := List.mem_map_of_mem (f := RawDirent.name) hr
  rw [counted_names, List.mem_filter, Fs.mem_fileNames, Bool.and_eq_true,
    Bool.not_eq_true'] at hname
  obtain ⟨hfile, hdot, hjson⟩ := hname
  have hstill : (d₁.fs.content (D ++ [r.name])).isSome = true := by
    by_cases hnk : D ++ [r.name] = k
    · rw [hnk]
      exact hfinal
    · have hnt : D ++ [r.name] ≠ t := by
        rcases htemp with rfl | ⟨suffix, hne, hstart, rfl⟩
        · exact hnk
        · intro he
          have hlast : r.name = plan.leaf ++ suffix := by
            simpa using congrArg List.getLast? he
          rw [hlast, not_counted_temp plan.leaf_length hne hstart] at hjson
          cases hjson
      rw [hrest _ hnt hnk]
      exact hfile
  obtain ⟨r', hr', _⟩ : ∃ r' ∈ counted env' d₁ D, r'.name = r.name :=
    mem_counted hstill hdot hjson
  exact List.ne_nil_of_mem hr'

/-- What writing a report's file leaves alone: directories, every file without a hyphen in
its name, and the counted files of the device's own directory. -/
theorem stored_spec
    (h : writeReportFile (storePlatform env) .posix store identity scanId timestamp (ascii "json")
      json d = (.ok final, d₁)) :
    ∃ (plan : Plan .posix store identity scanId timestamp Form.json.extension) (D : Key),
      Fs.Extends d.fs d₁.fs ∧
      (∀ K name, hyphen ∉ name → d₁.fs.content (K ++ [name]) = d.fs.content (K ++ [name])) ∧
      d₁.fs.dirKey plan.dir = some D ∧
      ((Keeps scanId ∧ StaysInDirectory d plan.dir plan.compact ∨
          ∃ E, d.fs.dirKey plan.dir = some E ∧ counted .quiet d E ≠ []) →
        ∀ env', counted env' d₁ D ≠ []) := by
  have hform : ascii "json" = Form.json.extension := rfl
  rw [hform] at h
  obtain ⟨plan, d₀, rfl, hmake, hwrite⟩ := exists_plan_of_ok h
  have hmade := makeDirs_frame env plan.dir d
  simp only [storePlatform] at hmake
  rw [hmake] at hmade
  obtain ⟨t, k, _, ht, hk, _, _, hcontent, _, hplaces, hrest⟩ := writeThenReplace_ok env hwrite
  obtain ⟨D, E, hD, hE, hkE⟩ := plan.exists_of_final_key (Fs.locate_eq_ok.mp hk).1
  have htemp := temp_or_final plan ht hk hkE
  have hold : ∀ x, x ≠ t → x ≠ k → d₁.fs.content x = d.fs.content x := by
    intro x hxt hxk
    rw [hrest x hxt hxk, hmade.content x (Set.notMem_empty _)]
  have hext : Fs.Extends d₀.fs d₁.fs := .of_dirs_eq hplaces.cwd hplaces.dirs
  refine ⟨plan, D, hmade.extends_dirs.trans hext, fun K name hname => ?_, hext.dirKey hD, ?_⟩
  · -- both files that change have a hyphen in their names
    have hother : ∀ suffix, K ++ [name] ≠ E ++ [plan.leaf ++ suffix] := by
      intro suffix he
      have hlast : name = plan.leaf ++ suffix := by
        simpa using congrArg List.getLast? he
      exact hname (hlast ▸ List.mem_append_left _ plan.hyphen_mem_leaf)
    have hne : K ++ [name] ≠ k := by simpa [hkE] using hother []
    have hnt : K ++ [name] ≠ t := by
      rcases htemp with rfl | ⟨suffix, _, _, rfl⟩
      · exact hne
      · exact hother suffix
    exact hold _ hnt hne
  · have hfinal : (d₁.fs.content k).isSome = true := by
      rw [hcontent]
      rfl
    rintro (⟨hkeeps, hstays⟩ | ⟨D', hD', hcounted⟩) env'
    · -- the new report is counted
      obtain ⟨D₀, hD₀, hback⟩ := hstays d₀ (makeDirs_ok env hmake)
      obtain rfl : D = D₀ := by simpa [hD] using hD₀
      obtain rfl : E = D := by simpa [hE] using hback
      obtain ⟨r, hr, _⟩ : ∃ r ∈ counted env' d₁ E, r.name = plan.leaf := by
        refine plan.mem_counted ?_ (plan.keeps_iff.mpr hkeeps).2
        rw [← hkE]
        exact hfinal
      exact List.ne_nil_of_mem hr
    · obtain rfl : D = D' := by
        simpa [hD] using hmade.extends_dirs.dirKey hD'
      exact counted_still plan htemp hfinal hold hcounted env'

end Stored

section Refresh
variable {env : Behaviour} {lib : Json.CLib} {memory : Memory} {store : Store}
  {identity path : Bytes} {R : Key} {d d' : Disk}

/-- The text of the index, when there is one. -/
def indexText (store : Store) (d : Disk) : Option Bytes :=
  (d.fs.fileKey (indexFile store)).bind d.fs.content

lemma oldIndex_of_missing (h : (d.fs.fileKey path).bind d.fs.content = none) :
    (oldIndex (storePlatform env) lib memory path d).1 = none := by
  simp [oldIndex, readWholeFile, storePlatform, fileOpenRead, h]

/-- With nothing refused, the old index is the parsed file. -/
lemma oldIndex_of_readable {text : Bytes} (h : (d.fs.fileKey path).bind d.fs.content = some text)
    (hfault : env.fault d.calls = none) (hbuffer : ∀ n, memory.readBuffer n = true)
    (hparser : memory.parser = true) :
    (oldIndex (storePlatform env) lib memory path d).1 = (Json.parse lib text).toOption := by
  have hread : readLoop memory.readBuffer { content := text, chunk := env.chunk d.calls }
      (text.length + 1) (text.take 0) 0 = .ok text :=
    readLoop_of_sound rfl hbuffer (Nat.zero_le _) (by simp) le_rfl (.inl rfl)
  rw [List.take_zero] at hread
  simp only [oldIndex, readWholeFile, storePlatform, fileOpenRead, h, hfault, hread, hparser,
    if_true]
  cases Json.parse lib text <;> rfl

/-- Whatever is refused, the old index is the parsed file or none. -/
lemma oldIndex_cases {text : Bytes} (h : (d.fs.fileKey path).bind d.fs.content = some text) :
    (oldIndex (storePlatform env) lib memory path d).1 = none ∨
      (oldIndex (storePlatform env) lib memory path d).1 = (Json.parse lib text).toOption := by
  have hloop : ∀ {file : FileStream} {out : Bytes}, file.content = text →
      readLoop memory.readBuffer file (file.content.length + 1) [] 0 = .ok out → out = text := by
    intro file out hfile hread
    have hstart : ([] : Bytes) = file.content.take 0 := List.take_zero.symm
    rw [hstart] at hread
    exact (readLoop_eq_ok le_rfl (.inl rfl) (Nat.zero_le _) hread).trans hfile
  unfold oldIndex
  split
  · exact .inl rfl
  · next out d₁ hread =>
    have hout : out = text := by
      simp only [readWholeFile, storePlatform, fileOpenRead, h] at hread
      cases hfault : env.fault d.calls with
      | none =>
        rw [hfault] at hread
        exact hloop rfl (Prod.ext_iff.mp hread).1
      | some f =>
        rw [hfault] at hread
        cases hprogress : f.progress with
        | none =>
          simp only [hprogress] at hread
          simp at hread
        | some n =>
          simp only [hprogress] at hread
          exact hloop rfl (Prod.ext_iff.mp hread).1
    subst hout
    split_ifs
    · cases Json.parse lib out with
      | ok root => exact .inr rfl
      | error e => exact .inl rfl
    · exact .inl rfl

lemma indexKey (hne : store.root ≠ []) (hroot : d.fs.dirKey store.root = some R) :
    d.fs.fileKey (indexFile store) = some (R ++ [indexName]) := by
  rw [indexFile, fileKey_joined d.fs hne (by decide) (by decide)
    (by decide) (by decide), hroot]
  rfl

lemma indexText_eq (hne : store.root ≠ []) (hroot : d.fs.dirKey store.root = some R) :
    indexText store d = d.fs.content (R ++ [indexName]) := by
  rw [indexText, indexKey hne hroot, Option.bind_some]

/-- A refresh that wrote the index: which text, and from what. -/
theorem refreshIndex_written (hne : store.root ≠ []) (hroot : d.fs.dirKey store.root = some R)
    (hattached : env.Attached d.calls)
    (h : refreshIndex (storePlatform env) .posix lib memory store identity d = (.written, d')) :
    ∃ last text, (lastScan (storePlatform env) .posix store identity d).1 = (.ok, last) ∧
      Json.finish (buildIndex memory.writer
        ((oldDevices (oldIndex (storePlatform env) lib memory (indexFile store) d.tick).1).filterMap
          (carried lib (encode identity)) ++ freshEntry (encode identity) last)) = .ok text ∧
      d'.fs.content (R ++ [indexName]) = some text ∧ SamePlaces d d' ∧
      ∀ rest, rest ≠ [] → d'.fs.content (R ++ scansName :: rest) =
        d.fs.content (R ++ scansName :: rest) := by
  obtain ⟨hframe, hplaces⟩ := refreshIndex_frame env lib memory store identity d
  rw [h] at hframe hplaces
  have hbelow : ∀ rest, rest ≠ [] → d'.fs.content (R ++ scansName :: rest) =
      d.fs.content (R ++ scansName :: rest) := by
    intro rest hrest
    refine hframe.content _ ?_
    rintro (hmem | hmem)
    · exact below_scans_untouched hne hroot (by decide) (by decide)
        (by decide) (by decide) hrest hmem
    · exact below_scans_untouched hne hroot (by decide) (by decide)
        (by decide) (by decide) hrest hmem
  unfold refreshIndex at h
  split at h
  · simp at h
  · next safe hsafe =>
    obtain ⟨_, rfl, _⟩ := safeId_eq_ok.mp hsafe
    split at h
    · simp at h
    · next file hfile =>
      obtain ⟨hfile, _⟩ := UsbSentinel.Path.pathJoin_eq_ok.mp hfile
      obtain rfl : file = indexFile store := hfile
      split at h
      · next last d₁ hlast =>
        have htick : d₁ = d.tick := by
          obtain ⟨safe', dir, hsafe', hdev, hcase⟩ := lastScan_ok hattached (congrArg Prod.fst hlast)
          rcases hcase with hnone | hquiet
          · rw [lastScan_of_no_dir hsafe' hdev hnone] at hlast
            exact (Prod.ext_iff.mp hlast).2.symm
          · cases hkey : d.fs.dirKey dir with
            | none =>
              rw [lastScan_of_no_dir hsafe' hdev hkey] at hlast
              exact (Prod.ext_iff.mp hlast).2.symm
            | some D =>
              obtain ⟨_, _, hscan⟩ := lastScan_of_dir hsafe' hdev hkey hquiet
              rw [hscan] at hlast
              exact (Prod.ext_iff.mp hlast).2.symm
        subst htick
        dsimp only at h
        split at h
        · simp at h
        · next text htext =>
          split_ifs at h
          · simp at h
          · split at h
            · next d₂ hwrite =>
              obtain rfl := (Prod.ext_iff.mp h).2
              obtain ⟨t, k, _, _, hk, _, _, hcontent, _⟩ := writeThenReplace_ok env hwrite
              have hkey : k = R ++ [indexName] := by
                have hlocated := (Fs.locate_eq_ok.mp hk).1
                rw [oldIndex_disk, Disk.tick_fs, Disk.tick_fs, indexKey hne hroot] at hlocated
                exact (Option.some.inj hlocated).symm
              exact ⟨last, text, congrArg Prod.fst hlast, htext, hkey ▸ hcontent, hplaces, hbelow⟩
            · simp at h
      · simp at h

end Refresh

/-- The member that says what a last scan answered. -/
def memberOf (safe : Bytes) (info : LastScan) : IndexEntry :=
  ⟨safe, some (cstr info.scanId), some (cstr info.scannedAt), info.reportCount⟩

/-- One member for each safe id written, telling every last scan after its latest write that
succeeds on an attached disk. -/
structure Describes (store : Store) (log : List Write) (entries : List IndexEntry) : Prop where
  nodup : (entries.map IndexEntry.key).Nodup
  keys : ∀ safe, safe ∈ entries.map IndexEntry.key ↔ ∃ w ∈ log, w.safe = safe
  latest : ∀ earlier w later, log = earlier ++ w :: later → (∀ q ∈ later, q.safe ≠ w.safe) →
    ∀ env info, env.Attached w.after.calls →
      (lastScan (storePlatform env) .posix store w.identity w.after).1 = (.ok, info) →
        memberOf w.safe info ∈ entries

section Runs
variable {env : Behaviour} {lib : Json.CLib} {store : Store} {R : Key} {log : List Write}
  {entries : List IndexEntry} {w : Write}

lemma Describes.snoc {member : IndexEntry} (h : Describes store log entries)
    (hkey : member.key = w.safe)
    (hmember : ∀ env info, env.Attached w.after.calls →
      (lastScan (storePlatform env) .posix store w.identity w.after).1 = (.ok, info) →
        memberOf w.safe info = member) :
    Describes store (log ++ [w]) (entries.filter (·.key ≠ w.safe) ++ [member]) := by
  have hmem : ∀ safe, safe ∈ (entries.filter (·.key ≠ w.safe)).map IndexEntry.key ↔
      safe ≠ w.safe ∧ ∃ q ∈ log, q.safe = safe := by
    intro safe
    rw [← h.keys safe]
    simp only [List.mem_map, List.mem_filter, decide_eq_true_eq]
    constructor
    · rintro ⟨e, ⟨he, hne⟩, rfl⟩
      exact ⟨hne, e, he, rfl⟩
    · rintro ⟨hne, e, he, rfl⟩
      exact ⟨e, ⟨he, hne⟩, rfl⟩
  refine ⟨?_, fun safe => ?_, fun earlier u later hlog hlater env info hattached hscan => ?_⟩
  · rw [List.map_append, List.map_singleton, hkey]
    refine List.Nodup.append (h.nodup.sublist (List.filter_sublist.map _)) (by simp) ?_
    intro safe hin hsame
    exact ((hmem safe).mp hin).1 (List.mem_singleton.mp hsame)
  · rw [List.map_append, List.mem_append, hmem, List.map_singleton, List.mem_singleton, hkey]
    constructor
    · rintro (⟨_, q, hq, hsafe⟩ | rfl)
      · exact ⟨q, List.mem_append_left _ hq, hsafe⟩
      · exact ⟨w, by simp, rfl⟩
    · rintro ⟨q, hq, rfl⟩
      by_cases hsame : q.safe = w.safe
      · exact .inr hsame
      · rcases List.mem_append.mp hq with hq | hq
        · exact .inl ⟨hsame, q, hq, rfl⟩
        · exact absurd (by rw [List.mem_singleton.mp hq]) hsame
  · rcases List.eq_nil_or_concat later with rfl | ⟨later, x, rfl⟩
    · obtain ⟨_, hu⟩ := List.append_inj' hlog rfl
      obtain rfl : w = u := by simpa using hu
      exact List.mem_append_right _ (List.mem_singleton.mpr (hmember env info hattached hscan))
    · rw [List.concat_eq_append] at hlog hlater
      have hsplit : log ++ [w] = (earlier ++ u :: later) ++ [x] := by simpa using hlog
      obtain ⟨hlog', hx⟩ := List.append_inj' hsplit rfl
      obtain rfl : w = x := by simpa using hx
      have hne : u.safe ≠ w.safe := fun he => hlater w (by simp) he.symm
      have hearlier := h.latest earlier u later hlog' (fun q hq => hlater q (by simp [hq])) env info
        hattached hscan
      exact List.mem_append_left _ (List.mem_filter.mpr ⟨hearlier, decide_eq_true hne⟩)

/-- After the writes `log` the index spells `entries`. -/
structure IndexInv (lib : Json.CLib) (store : Store) (R : Key) (log : List Write)
    (entries : List IndexEntry) (d : Disk) : Prop where
  root_ne : store.root ≠ []
  root : d.fs.dirKey store.root = some R
  text : log = [] ∧ d.fs.content (R ++ [indexName]) = none ∨
    ∃ text, d.fs.content (R ++ [indexName]) = some text ∧ IndexReads lib text entries
  describes : Describes store log entries
  read : ∀ e ∈ entries, e.asRead = e
  small : ∀ e ∈ entries, e.count.natAbs ≤ 2 ^ 53

lemma cstr_safe (w : Write) : cstr w.safe = w.safe := by
  refine cstr_eq_self fun hmem => ?_
  exact absurd (isSafe_of_mem_encode hmem) (by decide)

/-- What a refresh carries over: every other device's member. -/
lemma IndexInv.carries {d : Disk} (hinv : IndexInv lib store R log entries w.before)
    (hroot : d.fs.dirKey store.root = some R)
    (hsame : d.fs.content (R ++ [indexName]) = w.before.fs.content (R ++ [indexName]))
    (hreadable : (∀ q ∈ log, q.safe = w.safe) ∨
      env.fault d.calls = none ∧ (∀ n, w.memory.readBuffer n = true) ∧ w.memory.parser = true) :
    (oldDevices (oldIndex (storePlatform env) lib w.memory (indexFile store) d).1).filterMap
      (carried lib w.safe) = entries.filter (·.key ≠ w.safe) := by
  have hkey := indexKey hinv.root_ne hroot
  rcases hinv.text with ⟨hlog, hnone⟩ | ⟨text, htext, root, members, hparse, _, hdevices, hmembers⟩
  · have hentries : entries = [] := by
      have hkeys := hinv.describes.keys
      have hnil : entries.map IndexEntry.key = [] := by
        refine List.eq_nil_iff_forall_not_mem.mpr fun safe hsafe => ?_
        obtain ⟨q, hq, _⟩ := (hkeys safe).mp hsafe
        simp [hlog] at hq
      exact List.map_eq_nil_iff.mp hnil
    have hmissing : (d.fs.fileKey (indexFile store)).bind d.fs.content = none := by
      rw [hkey, Option.bind_some, hsame, hnone]
    rw [oldIndex_of_missing hmissing, hentries]
    rfl
  · have hthere : (d.fs.fileKey (indexFile store)).bind d.fs.content = some text := by
      rw [hkey, Option.bind_some, hsame, htext]
    have hparsed : (oldDevices (Json.parse lib text).toOption).filterMap (carried lib w.safe) =
        entries.filter (·.key ≠ w.safe) := by
      have hold : oldDevices (Json.parse lib text).toOption = members := by
        simp [oldDevices, hparse, Except.toOption, hdevices, Json.objectMembers]
      rw [hold]
      exact filterMap_carried hmembers w.safe
    rcases hreadable with hall | ⟨hfault, hbuffer, hparser⟩
    · have hcases := @oldIndex_cases env lib w.memory _ d text hthere
      rcases hcases with hnone | hsome
      · -- no other device has a member that could be lost
        have hother : entries.filter (·.key ≠ w.safe) = [] := by
          refine List.filter_eq_nil_iff.mpr fun e he => ?_
          obtain ⟨q, hq, hsafe⟩ := (hinv.describes.keys e.key).mp (List.mem_map_of_mem he)
          simp [← hsafe, hall q hq]
        rw [hnone, hother]
        rfl
      · rw [hsome, hparsed]
    · rw [oldIndex_of_readable hthere hfault hbuffer hparser, hparsed]

/-- One accepted write whose index write succeeds. -/
theorem IndexInv.step (hlib : lib.Exact) {out : Bytes} {outCap : ℕ}
    (hinv : IndexInv lib store R log entries w.before)
    (accepted : writeReport (storePlatform env) .posix lib w.memory store w.identity w.scanId
      w.timestamp w.json outCap w.before = (.ok out, w.after))
    (indexed : (refreshIndex (storePlatform env) .posix lib w.memory store w.identity
      (w.stored env store)).1 = .written)
    (hsound : w.Sound env store log) (hdot : w.safe ≠ dotName) (hdotDot : w.safe ≠ dotDotName)
    (hcount : ∀ info, (lastScan (storePlatform .quiet) .posix store w.identity w.after).1 =
      (.ok, info) → info.reportCount < 2 ^ 53) :
    ∃ member, member.key = w.safe ∧
      IndexInv lib store R (log ++ [w]) (entries.filter (·.key ≠ w.safe) ++ [member]) w.after ∧
      ∃ text, w.after.fs.content (R ++ [indexName]) = some text := by
  obtain ⟨final, d₁, hfile, _, hafter⟩ := writeReport_eq_ok accepted
  have hstored : w.stored env store = d₁ := congrArg Prod.snd hfile
  have hattached := hsound.attached
  rw [hstored] at indexed hattached
  have hrefresh : refreshIndex (storePlatform env) .posix lib w.memory store w.identity d₁ =
      (.written, w.after) := Prod.ext indexed hafter.symm
  obtain ⟨plan, D, hext, hother, hD, hcounted⟩ := stored_spec hfile
  have hdir : plan.dir = deviceDirPath store w.safe := by
    rw [plan.dir_eq_joined, plan.safe_eq_encode.2]
    rfl
  have hroot := hext.dirKey hinv.root
  rw [hdir, plan.compact_eq_filter.1] at hcounted
  rw [hdir] at hD
  obtain rfl : D = R ++ [scansName, w.safe] :=
    deviceDir_key hinv.root_ne hroot plan.safe_eq_encode.1 hdot hdotDot hD
  obtain ⟨last, text, hlast, hbuilt, htext, hplaces, hbelow⟩ :=
    refreshIndex_written hinv.root_ne hroot hattached hrefresh
  have hfound := lastScan_found hattached hD (hcounted hsound.counted env) hlast
  -- the listing after the call is the listing the refresh saw
  have hagree : ∀ env' info, env'.Attached w.after.calls →
      (lastScan (storePlatform env') .posix store w.identity w.after).1 = (.ok, info) →
        last = info := by
    intro env' info hattached' hscan
    refine lastScan_unique hattached hattached' (Fs.dirKey_congr hplaces.cwd hplaces.dirs) ?_ hlast hscan
    intro E hE n
    obtain rfl : R ++ [scansName, w.safe] = E := Option.some.inj (hD.symm.trans hE)
    have hkey : R ++ [scansName, w.safe] ++ [n] = R ++ scansName :: [w.safe, n] := by simp
    rw [hkey, hbelow _ (by simp)]
  have hsmall : last.reportCount < 2 ^ 53 := by
    obtain ⟨safe, dir, hsafe, hdev, _⟩ := lastScan_ok hattached hlast
    obtain ⟨_, rfl, _⟩ := safeId_eq_ok.mp hsafe
    obtain rfl : dir = deviceDirPath store w.safe := (deviceDir_eq_ok hdev).1
    have hD' : w.after.fs.dirKey (deviceDirPath store w.safe) = some (R ++ [scansName, w.safe]) :=
      (Fs.dirKey_congr hplaces.cwd hplaces.dirs _).trans hD
    obtain ⟨best, _, hscan⟩ := @lastScan_of_dir .quiet store w.identity _ _ w.after hsafe hdev _ hD' rfl
    have hsame := hagree .quiet _ (Behaviour.attached_of_quiet rfl) (congrArg Prod.fst hscan)
    rw [hsame]
    exact hcount _ (congrArg Prod.fst hscan)
  have hcarries : (oldDevices (oldIndex (storePlatform env) lib w.memory (indexFile store)
      d₁.tick).1).filterMap (carried lib w.safe) = entries.filter (·.key ≠ w.safe) := by
    refine hinv.carries hroot ?_ ?_
    · exact hother R indexName (by decide)
    · have hreadable := hsound.readable
      rw [hstored] at hreadable
      exact hreadable
  have hfresh : freshEntry w.safe last =
      [⟨w.safe, some last.scanId, some last.scannedAt, last.reportCount⟩] := by
    rw [freshEntry, if_pos hfound]
  have hbuilt' : Json.finish (buildIndex w.memory.writer (entries.filter (·.key ≠ w.safe) ++
      [⟨w.safe, some last.scanId, some last.scannedAt, last.reportCount⟩])) = .ok text := by
    rw [← hcarries, ← hfresh]
    exact hbuilt
  have hreads := buildIndex_reads hlib (by
    intro e he
    rcases List.mem_append.mp he with he | he
    · exact hinv.small e (List.mem_of_mem_filter he)
    · obtain rfl := List.mem_singleton.mp he
      simpa using hsmall.le) hbuilt'
  have hread : ∀ e ∈ entries.filter (·.key ≠ w.safe), e.asRead = e :=
    fun e he => hinv.read e (List.mem_of_mem_filter he)
  have hnew : (⟨w.safe, some last.scanId, some last.scannedAt, last.reportCount⟩ :
      IndexEntry).asRead = memberOf w.safe last := by
    simp [IndexEntry.asRead, memberOf, cstr_safe]
  rw [List.map_append, List.map_congr_left hread, List.map_id', List.map_singleton, hnew] at hreads
  refine ⟨memberOf w.safe last, rfl, ⟨hinv.root_ne, ?_, .inr ⟨text, htext, hreads⟩, ?_, ?_, ?_⟩, text,
    htext⟩
  · exact (Fs.dirKey_congr hplaces.cwd hplaces.dirs _).trans hroot
  · refine hinv.describes.snoc rfl fun env' info hattached' hscan => ?_
    rw [hagree env' info hattached' hscan]
  · intro e he
    rcases List.mem_append.mp he with he | he
    · exact hread e he
    · rw [List.mem_singleton.mp he, ← hnew, IndexEntry.asRead_asRead]
  · intro e he
    rcases List.mem_append.mp he with he | he
    · exact hinv.small e (List.mem_of_mem_filter he)
    · rw [List.mem_singleton.mp he]
      simpa [memberOf] using hsmall.le

/-- What each call of a run is asked for; the safe id and the count are its caller's side. -/
structure Write.Admissible (env : Behaviour) (store : Store) (earlier : List Write) (w : Write) :
    Prop where
  sound : w.Sound env store earlier
  ne_dot : w.safe ≠ dotName
  ne_dotDot : w.safe ≠ dotDotName
  small : ∀ info, (lastScan (storePlatform .quiet) .posix store w.identity w.after).1 =
    (.ok, info) → info.reportCount < 2 ^ 53

theorem IndexInv.run (hlib : lib.Exact) {d d' : Disk} (hrun : Indexed env lib store d log d')
    (hall : ∀ earlier w later, log = earlier ++ w :: later → w.Admissible env store earlier)
    (hinv : IndexInv lib store R [] [] d) : ∃ entries, IndexInv lib store R log entries d' := by
  induction hrun with
  | nil => exact ⟨[], hinv⟩
  | @snoc log w out outCap _ accepted indexed ih =>
    have hbefore : ∀ earlier (u : Write) later, log = earlier ++ u :: later →
        u.Admissible env store earlier := by
      rintro earlier u later rfl
      exact hall earlier u (later ++ [w]) (by simp)
    obtain ⟨entries, hentries⟩ := ih hbefore
    have hw := hall log w [] rfl
    obtain ⟨member, _, hafter, _⟩ :=
      hentries.step hlib accepted indexed hw.sound hw.ne_dot hw.ne_dotDot hw.small
    exact ⟨_, hafter⟩

/-- After every run of accepted reports on a store opened without an index, in which no
write hides its own report or loses another's member, the index has one member for each
device, telling its last scan; and the last write left every other member as it was. -/
theorem index_after_run (hlib : lib.Exact) {root : Bytes} {start opened d : Disk}
    (hopen : openAt (storePlatform env) .posix root start = (.ok store, opened))
    (hempty : ∀ R, opened.fs.dirKey store.root = some R →
      start.fs.content (R ++ [indexName]) = none)
    (hrun : Indexed env lib store opened log d)
    (hall : ∀ earlier w later, log = earlier ++ w :: later → w.Admissible env store earlier)
    (hne : log ≠ []) :
    ∃ text entries, indexText store d = some text ∧ IndexReads lib text entries ∧
      Describes store log entries ∧
      ∀ earlier w, log = earlier ++ [w] → earlier ≠ [] →
        ∃ text₀ entries₀, indexText store w.before = some text₀ ∧
          IndexReads lib text₀ entries₀ ∧
          entries.filter (·.key ≠ w.safe) = entries₀.filter (·.key ≠ w.safe) := by
  obtain ⟨hroot, ⟨R, hR⟩, hcontent⟩ := openAt_spec hopen
  have hstart : IndexInv lib store R [] [] opened := by
    refine ⟨hroot, hR, .inl ⟨rfl, ?_⟩, ⟨by simp, by simp, ?_⟩, by simp, by simp⟩
    · rw [hcontent, hempty R hR]
    · intro earlier w later hlog
      simp at hlog
  cases hrun with
  | nil => exact absurd rfl hne
  | @snoc log w out outCap before accepted indexed =>
    have hbefore : ∀ earlier (u : Write) later, log = earlier ++ u :: later →
        u.Admissible env store earlier := by
      rintro earlier u later rfl
      exact hall earlier u (later ++ [w]) (by simp)
    obtain ⟨entries, hentries⟩ := hstart.run hlib before hbefore
    have hw := hall log w [] rfl
    obtain ⟨member, hkey, hafter, text, htext⟩ :=
      hentries.step hlib accepted indexed hw.sound hw.ne_dot hw.ne_dotDot hw.small
    have hreads : IndexReads lib text (entries.filter (·.key ≠ w.safe) ++ [member]) := by
      rcases hafter.text with ⟨hnil, _⟩ | ⟨text', htext', hreads⟩
      · simp at hnil
      · obtain rfl : text = text' := by simpa [htext] using htext'
        exact hreads
    refine ⟨text, _, (indexText_eq hroot hafter.root).trans htext, hreads, hafter.describes, ?_⟩
    intro earlier u hlog hearlier
    obtain ⟨rfl, hu⟩ := List.append_inj' hlog rfl
    obtain rfl : w = u := by simpa using hu
    rcases hentries.text with ⟨hnil, _⟩ | ⟨text₀, htext₀, hreads₀⟩
    · exact absurd hnil hearlier
    · refine ⟨text₀, entries, (indexText_eq hroot hentries.root).trans htext₀, hreads₀, ?_⟩
      rw [List.filter_append, List.filter_filter]
      simp [hkey]

end Runs

/-- The report `scanId` of the device `identity` as the next one of a run. -/
def stickWrite (env : Behaviour) (before : Disk) (identity scanId : Bytes) : Write where
  identity
  scanId
  timestamp := ascii "2026-09-11T14:02:03Z"
  json := ascii "\x7b\x7d"
  memory := {}
  before
  after := (writeReport (storePlatform env) .posix Json.wholeLib {} ⟨ascii "/s"⟩ identity scanId
    (ascii "2026-09-11T14:02:03Z") (ascii "\x7b\x7d") storePathMax before).2

/-- Two devices in turn, the first one again at the end. -/
def stickWrites (env : Behaviour) : List Write :=
  let first := stickWrite env stickOpened.2 (ascii "usb:1") (ascii "A")
  let second := stickWrite env first.after (ascii "usb:2") (ascii "B")
  [first, second, stickWrite env second.after (ascii "usb:1") (ascii "C")]

/-- The write is accepted and so is its index. -/
def Write.accepted (env : Behaviour) (w : Write) : Bool :=
  (writeReport (storePlatform env) .posix Json.wholeLib w.memory ⟨ascii "/s"⟩ w.identity w.scanId
    w.timestamp w.json storePathMax w.before).1.isOk &&
  (refreshIndex (storePlatform env) .posix Json.wholeLib w.memory ⟨ascii "/s"⟩ w.identity
    (w.stored env ⟨ascii "/s"⟩)).1 = .written

lemma stickWrite_indexed {env : Behaviour} {start before : Disk} {log : List Write}
    {identity scanId : Bytes} (hrun : Indexed env Json.wholeLib ⟨ascii "/s"⟩ start log before)
    (haccepted : (stickWrite env before identity scanId).accepted env = true) :
    Indexed env Json.wholeLib ⟨ascii "/s"⟩ start (log ++ [stickWrite env before identity scanId])
      (stickWrite env before identity scanId).after := by
  obtain ⟨hok, hwritten⟩ := Bool.and_eq_true_iff.mp haccepted
  cases hout : (writeReport (storePlatform env) .posix Json.wholeLib {} ⟨ascii "/s"⟩ identity scanId
      (ascii "2026-09-11T14:02:03Z") (ascii "\x7b\x7d") storePathMax before).1 with
  | error e =>
    have hno : (Except.error e : Except Status Bytes).isOk = true := hout ▸ hok
    cases hno
  | ok out =>
    have hrun' : Indexed env Json.wholeLib ⟨ascii "/s"⟩ start log
        (stickWrite env before identity scanId).before := hrun
    exact .snoc hrun' (hout ▸ Prod.mk.eta.symm) (of_decide_eq_true hwritten)

/-- The write has a plain name, and its device few reports. -/
def Write.plain (w : Write) : Bool :=
  w.scanId.length ≤ 277 && slash ∉ w.timestamp && w.safe ≠ dotName && w.safe ≠ dotDotName &&
  ((makeDirs .quiet (deviceDirPath ⟨ascii "/s"⟩ w.safe) w.before).2.fs.dirKey
    (deviceDirPath ⟨ascii "/s"⟩ w.safe)).isSome &&
  (lastScan (storePlatform .quiet) .posix ⟨ascii "/s"⟩ w.identity w.after).1.2.reportCount < 9

/-- Such a write is sound after any others on a host that refuses nothing. -/
lemma Write.plain.admissible {earlier : List Write} {w : Write} (hmemory : w.memory = {})
    (hplain : w.plain = true) : w.Admissible .quiet ⟨ascii "/s"⟩ earlier := by
  simp only [Write.plain, Bool.and_eq_true, decide_eq_true_eq] at hplain
  obtain ⟨⟨⟨⟨⟨hshort, hplain⟩, hdot⟩, hdotDot⟩, hdir⟩, hcount⟩ := hplain
  have hcompact : slash ∉ w.timestamp.filter fun c => !isMark c :=
    fun hmem => hplain (List.mem_of_mem_filter hmem)
  refine ⟨⟨.inl ⟨.inl hshort, staysInDirectory_of_plain hcompact hdir⟩,
    Behaviour.attached_of_quiet rfl, .inr ⟨rfl, fun _ => by rw [hmemory], by rw [hmemory]⟩⟩,
    hdot, hdotDot, ?_⟩
  intro info hinfo
  rw [hinfo] at hcount
  dsimp only at hcount
  omega

theorem index_after_run_stick :
    ∃ d text entries, Indexed .quiet Json.wholeLib ⟨ascii "/s"⟩ stickOpened.2 (stickWrites .quiet) d ∧
      indexText ⟨ascii "/s"⟩ d = some text ∧ IndexReads Json.wholeLib text entries ∧
      Describes ⟨ascii "/s"⟩ (stickWrites .quiet) entries ∧
      ∀ earlier w, stickWrites .quiet = earlier ++ [w] → earlier ≠ [] →
        ∃ text₀ entries₀, indexText ⟨ascii "/s"⟩ w.before = some text₀ ∧
          IndexReads Json.wholeLib text₀ entries₀ ∧
          entries.filter (·.key ≠ w.safe) = entries₀.filter (·.key ≠ w.safe) := by
  have hopened : stickOpened.1 = .ok ⟨ascii "/s"⟩ := by decide +kernel
  have hopen : openAt (storePlatform .quiet) .posix (ascii "/s") blankDisk =
      (.ok ⟨ascii "/s"⟩, stickOpened.2) := hopened ▸ Prod.mk.eta.symm
  have hblank : ∀ R, stickOpened.2.fs.dirKey (ascii "/s") = some R →
      blankDisk.fs.content (R ++ [indexName]) = none := fun _ _ => AList.lookup_empty _
  have hchecks : ∀ w ∈ stickWrites .quiet, w.accepted .quiet = true ∧ w.plain = true := by
    decide +kernel
  have haccepted : ∀ w ∈ stickWrites .quiet, w.accepted .quiet = true := fun w hw => (hchecks w hw).1
  simp only [stickWrites, List.mem_cons, List.not_mem_nil, or_false, forall_eq_or_imp,
    forall_eq] at haccepted
  obtain ⟨hfirst, hsecond, hthird⟩ := haccepted
  have hrun := stickWrite_indexed (stickWrite_indexed (stickWrite_indexed (.nil _) hfirst) hsecond)
    hthird
  have hall : ∀ earlier (w : Write) later, stickWrites .quiet = earlier ++ w :: later →
      w.Admissible .quiet ⟨ascii "/s"⟩ earlier := by
    intro earlier w later hlog
    have hmem : w ∈ stickWrites .quiet := by rw [hlog]; simp
    refine Write.plain.admissible ?_ (hchecks w hmem).2
    simp only [stickWrites, List.mem_cons, List.not_mem_nil, or_false] at hmem
    rcases hmem with rfl | rfl | rfl <;> rfl
  obtain ⟨text, entries, hresult⟩ :=
    index_after_run Json.wholeLib_exact hopen hblank hrun hall (by simp)
  exact ⟨_, text, entries, hrun, hresult⟩

/-- Call 18, which reads the old index for the second write of the run, meets an error of the
disk. -/
def unreadable : Behaviour where
  fault n := if n = 18 then some { errno := .eio } else none

/-- After the second write, whose refresh could not read the old index, the first device has
no member, though both indexes were written. -/
theorem index_misses_device :
    ∃ d, Indexed unreadable Json.wholeLib ⟨ascii "/s"⟩ stickOpened.2
        ((stickWrites unreadable).take 2) d ∧
      ¬ ∃ text entries, indexText ⟨ascii "/s"⟩ d = some text ∧
        IndexReads Json.wholeLib text entries ∧
        Describes ⟨ascii "/s"⟩ ((stickWrites unreadable).take 2) entries := by
  let left : IndexEntry :=
    ⟨ascii "usb_3A2", some (ascii "B"), some (ascii "2026-09-11T14:02:03Z"), 1⟩
  have hchecks : ∀ w ∈ (stickWrites unreadable).take 2, w.accepted unreadable = true ∧
      (w.identity = ascii "usb:2" →
        indexText ⟨ascii "/s"⟩ w.after = some (Json.render (indexTree [left]))) := by
    decide +kernel
  simp only [stickWrites, List.take_succ_cons, List.take_zero, List.mem_cons, List.not_mem_nil,
    or_false, forall_eq_or_imp, forall_eq] at hchecks
  obtain ⟨⟨hfirst, _⟩, hsecond, hleft⟩ := hchecks
  have htext := hleft rfl
  refine ⟨_, stickWrite_indexed (stickWrite_indexed (.nil _) hfirst) hsecond, ?_⟩
  rintro ⟨text, entries, hindex, hreads, hdescribes⟩
  obtain rfl := Option.some.inj (hindex.symm.trans htext)
  have hsmall : ∀ e ∈ [left], e.count.natAbs ≤ 2 ^ 53 := by decide
  obtain rfl := hreads.unique (indexTree_reads Json.wholeLib_exact hsmall)
  have hwritten : ∃ w ∈ (stickWrites unreadable).take 2, w.safe = ascii "usb_3A1" :=
    ⟨_, List.mem_cons_self, rfl⟩
  exact absurd ((hdescribes.keys _).mpr hwritten) (by decide +kernel)

end UsbSentinel.Store
