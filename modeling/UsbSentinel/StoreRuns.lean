import UsbSentinel.Stamp
import UsbSentinel.StoreCounted

/-! Whole runs of report writes on one store: the files below the scans root are exactly
the reports written, and `lastScan` answers from them. -/
namespace UsbSentinel.Store
open ByteString FileSystem UsbSentinel.Posix
open UsbSentinel.Path (Host joined)

structure Report where
  form : Form
  identity : Bytes
  scanId : Bytes
  timestamp : Bytes
  content : Bytes
  deriving DecidableEq

def Report.safe (r : Report) : Bytes := encode r.identity

def Report.fileName (r : Report) : Bytes :=
  r.timestamp.filter (fun c => !isMark c) ++
    hyphen :: (r.scanId ++ ascii "." ++ r.form.extension)

structure Report.WellFormed (r : Report) : Prop where
  stamp : IsStamp r.timestamp
  utf8 : Utf8.Valid r.scanId
  short : r.scanId.length < scanIdMax
  ne_dot : r.safe ≠ dotName
  ne_dotDot : r.safe ≠ dotDotName

/-- Successful writes, one after the other, on one store. -/
inductive Stored (env : Behaviour) (lib : Json.CLib) (store : Store) :
    Disk → List Report → Disk → Prop
  | nil (d : Disk) : Stored env lib store d [] d
  | snoc {d d' d'' : Disk} {reports : List Report} {r : Report} {memory : Memory} {out : Bytes}
      {outCap : ℕ} (before : Stored env lib store d reports d')
      (accepted : storeReport (storePlatform env) .posix lib memory store r.form r.identity
        r.scanId r.timestamp r.content outCap d' = (.ok out, d'')) :
      Stored env lib store d (reports ++ [r]) d''
  /-- The index may hold anything at any time. -/
  | index {d d' : Disk} {reports : List Report} {k : Key}
      (before : Stored env lib store d reports d')
      (place : k ∈ fileAt d' (indexFile store)) (text : Bytes) :
      Stored env lib store d reports { d' with fs := d'.fs.put k text }

def scansName : Bytes := ascii "scans"

/-- The directory that `deviceDir` computes for a safe id. -/
def deviceDirPath (store : Store) (safe : Bytes) : Bytes :=
  joined .posix (joined .posix store.root scansName) safe

lemma walk_single {fs : Fs} {k D : Key} {name : Bytes} (hdot : name ≠ dot)
    (hdotDot : name ≠ dotDot) (h : fs.walk k [name] = some D) : D = k ++ [name] := by
  simp only [Fs.walk, hdot, hdotDot, if_false] at h
  split_ifs at h
  exact (Option.some.inj h).symm

lemma slash_notMem_encode (identity : Bytes) : slash ∉ encode identity :=
  posix_plain (safe_plain .posix)

/-- A device's directory has the key its path spells. -/
lemma deviceDir_key {fs : Fs} {store : Store} {R D : Key} {identity : Bytes}
    (hne : store.root ≠ []) (hroot : fs.dirKey store.root = some R) (hid : identity ≠ [])
    (hdot : encode identity ≠ dot) (hdotDot : encode identity ≠ dotDot)
    (h : fs.dirKey (deviceDirPath store (encode identity)) = some D) :
    D = R ++ [scansName, encode identity] := by
  have hscans : slash ∉ scansName := by decide
  have hscansNe : scansName ≠ [] := by decide
  rw [deviceDirPath, dirKey_joined fs (joined_ne_nil hscansNe) (slash_notMem_encode identity)
    (encode_ne_nil hid), dirKey_joined fs hne hscans hscansNe, hroot, Option.bind_some] at h
  obtain ⟨S, hS, hD⟩ := Option.bind_eq_some_iff.mp h
  obtain rfl := walk_single (by decide) (by decide) hS
  rw [walk_single hdot hdotDot hD]
  simp

section Step
variable {env : Behaviour} {lib : Json.CLib} {memory : Memory} {store : Store} {r : Report}
  {out : Bytes} {outCap : ℕ} {R : Key} {d d' : Disk}

lemma Report.WellFormed.leaf_eq (hwf : r.WellFormed)
    (plan : Plan .posix store r.identity r.scanId r.timestamp r.form.extension) :
    parentPart plan.compact = [] ∧ plan.leaf = r.fileName := by
  obtain ⟨f, hf, hstamp⟩ := hwf.stamp.exists_digits
  obtain ⟨hcompact, hlen⟩ := plan.compact_eq_filter
  have hplain : slash ∉ plan.compact := by
    rw [hcompact, hstamp, filter_stampOf hf]
    have hdigit : ∀ i, slash ≠ f i := by
      intro i he
      have hi := hf i
      rw [← he] at hi
      exact absurd hi (by decide)
    have h84 : slash ≠ 84 := by decide
    have h90 : slash ≠ 90 := by decide
    simp [compactOf, hdigit, h84, h90]
  obtain ⟨hparent, hlast⟩ := parentPart_of_plain hplain
  have hext : r.form.extension.length ≤ 4 := by cases r.form <;> decide
  have hshort := hwf.short
  refine ⟨hparent, ?_⟩
  rw [Plan.leaf, hlast, Report.fileName, hcompact, nameTail, List.take_of_length_le]
  have hdot : (ascii ".").length = 1 := rfl
  simp only [List.length_append, hdot, filenameMax]
  unfold scanIdMax at hshort
  omega

/-- The index and its temporary file lie beside the scans root, not below it. -/
lemma below_scans_untouched {leaf : Bytes} {rest : Key} (hne : store.root ≠ [])
    (hroot : d.fs.dirKey store.root = some R) (hplain : slash ∉ leaf) (hleaf : leaf ≠ [])
    (hdot : leaf ≠ dot) (hdotDot : leaf ≠ dotDot) (hrest : rest ≠ []) :
    R ++ scansName :: rest ∉ fileAt d (joined .posix store.root leaf) := by
  intro hmem
  have hkey := (Fs.locate_eq_ok.mp hmem).1
  rw [fileKey_joined d.fs hne hplain hleaf hdot hdotDot, hroot, Option.map_some] at hkey
  have htail := List.append_cancel_left (Option.some.inj hkey)
  exact hrest (List.cons.inj htail).2.symm

/-- What one accepted report changes below the scans root: its own file appears, its
temporary file is gone, everything else stays. -/
theorem storeReport_spec (hwf : r.WellFormed) (hne : store.root ≠ [])
    (hroot : d.fs.dirKey store.root = some R)
    (h : storeReport (storePlatform env) .posix lib memory store r.form r.identity r.scanId
      r.timestamp r.content outCap d = (.ok out, d')) :
    Fs.Extends d.fs d'.fs ∧
      d'.fs.dirKey (deviceDirPath store r.safe) = some (R ++ [scansName, r.safe]) ∧
      ∃ suffix, suffix <+: ascii ".tmp" ∧
        ∀ rest, rest ≠ [] → d'.fs.content (R ++ scansName :: rest) =
          if rest = [r.safe, r.fileName] then some r.content
          else if rest = [r.safe, r.fileName ++ suffix] then none
          else d.fs.content (R ++ scansName :: rest) := by
  obtain ⟨final, d₂, hfile, _, hd'⟩ := storeReport_eq_ok h
  obtain ⟨plan, d₁, rfl, hmake, hwrite⟩ := exists_plan_of_ok hfile
  have hmade := makeDirs_frame env plan.dir d
  simp only [storePlatform] at hmake
  rw [hmake] at hmade
  obtain ⟨t, k, _, ht, hk, _, _, hcontent, hgone, hplaces, hrest⟩ := writeThenReplace_ok env hwrite
  have hroot₁ : d₁.fs.dirKey store.root = some R := hmade.extends_dirs.dirKey hroot
  have hroot₂ : d₂.fs.dirKey store.root = some R :=
    (Fs.dirKey_congr hplaces.cwd hplaces.dirs store.root).trans hroot₁
  -- the file's directory and name
  obtain ⟨hparent, hleaf⟩ := hwf.leaf_eq plan
  obtain ⟨D, E, hD, hE, hkE⟩ := plan.exists_of_final_key (Fs.locate_eq_ok.mp hk).1
  obtain rfl : D = E := by simpa [hparent, components, splitSlash, Fs.walk] using hE
  have hdir : plan.dir = deviceDirPath store r.safe := by
    rw [plan.dir_eq_joined, plan.safe_eq_encode.2]
    rfl
  rw [hdir] at hD
  obtain rfl := deviceDir_key hne hroot₁ plan.safe_eq_encode.1 hwf.ne_dot hwf.ne_dotDot hD
  have hkey : k = R ++ scansName :: [r.safe, r.fileName] := by
    rw [hkE, hleaf]
    simp [Report.safe]
  have htemp : ∃ suffix, suffix <+: ascii ".tmp" ∧
      t = R ++ scansName :: [r.safe, r.fileName ++ suffix] := by
    by_cases hlen : plan.final.length = storePathMax - 1
    · rw [tempPath_of_long hlen, hk] at ht
      exact ⟨[], List.nil_prefix, by rw [← Except.ok.inj ht, hkey, List.append_nil]⟩
    · obtain ⟨E, suffix, hE', rfl, _, hstart⟩ :=
        plan.temp_key hlen (Fs.locate_eq_ok.mp hk).1 (Fs.locate_eq_ok.mp ht).1
      obtain ⟨rfl, _⟩ := List.append_inj' (hkE.symm.trans hE') rfl
      exact ⟨suffix, hstart, by simp [hleaf, Report.safe]⟩
  obtain ⟨suffix, hstart, htkey⟩ := htemp
  -- the refresh that follows a JSON report does not reach below the scans root
  have hafter : Fs.Extends d₂.fs d'.fs ∧ ∀ rest, rest ≠ [] →
      d'.fs.content (R ++ scansName :: rest) = d₂.fs.content (R ++ scansName :: rest) := by
    rcases hd' with ⟨_, rfl⟩ | ⟨_, rfl⟩
    · have hframe := (refreshIndex_frame env lib memory store r.identity d₂).1
      refine ⟨hframe.extends_dirs, fun rest hne' => hframe.content _ ?_⟩
      rintro (hmem | hmem)
      · exact below_scans_untouched hne hroot₂ (by decide) (by decide)
          (by decide) (by decide) hne' hmem
      · exact below_scans_untouched hne hroot₂ (by decide) (by decide)
          (by decide) (by decide) hne' hmem
    · exact ⟨.refl _, fun _ _ => rfl⟩
  obtain ⟨hext, hsame⟩ := hafter
  have hext₂ : Fs.Extends d₁.fs d'.fs := (Fs.Extends.of_dirs_eq hplaces.cwd hplaces.dirs).trans hext
  refine ⟨hmade.extends_dirs.trans hext₂, hext₂.dirKey hD, suffix, hstart, fun rest hne' => ?_⟩
  rw [hsame rest hne']
  by_cases hfinal : rest = [r.safe, r.fileName]
  · rw [if_pos hfinal, hfinal, ← hkey, hcontent]
  · have hxk : R ++ scansName :: rest ≠ k := by
      rw [hkey]
      simpa using hfinal
    rw [if_neg hfinal]
    by_cases htmp : rest = [r.safe, r.fileName ++ suffix]
    · have hxt : R ++ scansName :: rest = t := by rw [htkey, htmp]
      rw [if_pos htmp, hxt]
      exact hgone (hxt ▸ hxk)
    · have hxt : R ++ scansName :: rest ≠ t := by
        rw [htkey]
        simpa using htmp
      rw [if_neg htmp, hrest _ hxt hxk, hmade.content _ (by simp)]

end Step

lemma Report.fileName_getLast (r : Report) :
    r.fileName.getLast? = some (if r.form = .json then 110 else 118) := by
  have hsplit : r.fileName = (r.timestamp.filter (fun c => !isMark c) ++
      hyphen :: (r.scanId ++ ascii ".")) ++ r.form.extension := by
    simp [Report.fileName]
  rw [hsplit]
  cases r.form
  · rw [List.getLast?_append_of_ne_nil _ (show Form.json.extension ≠ [] by decide)]
    rfl
  · rw [List.getLast?_append_of_ne_nil _ (show Form.csv.extension ≠ [] by decide)]
    rfl

/-- No report has the name of a temporary file. -/
lemma Report.fileName_ne_temp (q r : Report) {suffix : Bytes} (hstart : suffix <+: ascii ".tmp")
    (hne : suffix ≠ []) : q.fileName ≠ r.fileName ++ suffix := by
  intro he
  have hlast := congrArg List.getLast? he
  rw [q.fileName_getLast, List.getLast?_append_of_ne_nil _ hne] at hlast
  have hmem := hstart.subset (List.mem_of_getLast? hlast.symm)
  have h110 : (110 : UInt8) ∉ ascii ".tmp" := by decide
  have h118 : (118 : UInt8) ∉ ascii ".tmp" := by decide
  split_ifs at hmem
  · exact h110 hmem
  · exact h118 hmem

/-- Below the scans root of key `R` lie the files of `reports` and nothing else. -/
structure StoreInv (store : Store) (R : Key) (reports : List Report) (d : Disk) : Prop where
  root_ne : store.root ≠ []
  root : d.fs.dirKey store.root = some R
  files : ∀ rest, rest ≠ [] → ((d.fs.content (R ++ scansName :: rest)).isSome = true ↔
    ∃ r ∈ reports, rest = [r.safe, r.fileName])
  dirs : ∀ r ∈ reports,
    d.fs.dirKey (deviceDirPath store r.safe) = some (R ++ [scansName, r.safe])

section Runs
variable {env : Behaviour} {lib : Json.CLib} {memory : Memory} {store : Store} {R : Key}
  {reports : List Report} {d d' : Disk}

theorem StoreInv.step {r : Report} {out : Bytes} {outCap : ℕ} (hinv : StoreInv store R reports d)
    (hwf : r.WellFormed)
    (h : storeReport (storePlatform env) .posix lib memory store r.form r.identity r.scanId
      r.timestamp r.content outCap d = (.ok out, d')) : StoreInv store R (reports ++ [r]) d' := by
  obtain ⟨hext, hdir, suffix, hstart, hcontent⟩ :=
    storeReport_spec hwf hinv.root_ne hinv.root h
  refine ⟨hinv.root_ne, hext.dirKey hinv.root, fun rest hne => ?_, fun q hq => ?_⟩
  · rw [hcontent rest hne]
    by_cases hfinal : rest = [r.safe, r.fileName]
    · rw [if_pos hfinal]
      exact iff_of_true rfl ⟨r, by simp, hfinal⟩
    · rw [if_neg hfinal]
      by_cases htemp : rest = [r.safe, r.fileName ++ suffix]
      · rw [if_pos htemp]
        refine iff_of_false (by simp) ?_
        rintro ⟨q, _, hq⟩
        have hsuffix : suffix ≠ [] := by
          rintro rfl
          exact hfinal (by simpa using htemp)
        have hname : q.fileName = r.fileName ++ suffix := by
          simpa using (congrArg List.getLast? (hq.symm.trans htemp))
        exact q.fileName_ne_temp r hstart hsuffix hname
      · rw [if_neg htemp, hinv.files rest hne]
        constructor
        · rintro ⟨q, hq, hrest⟩
          exact ⟨q, by simp [hq], hrest⟩
        · rintro ⟨q, hq, hrest⟩
          rcases List.mem_append.mp hq with hq | hq
          · exact ⟨q, hq, hrest⟩
          · exact absurd (List.mem_singleton.mp hq ▸ hrest) hfinal
  · rcases List.mem_append.mp hq with hq | hq
    · exact hext.dirKey (hinv.dirs q hq)
    · rw [List.mem_singleton.mp hq]
      exact hdir

lemma StoreInv.index {k : Key} (hinv : StoreInv store R reports d)
    (hk : k ∈ fileAt d (indexFile store)) (text : Bytes) :
    StoreInv store R reports { d with fs := d.fs.put k text } := by
  have hother : ∀ rest, rest ≠ [] → (d.fs.put k text).content (R ++ scansName :: rest) =
      d.fs.content (R ++ scansName :: rest) := by
    intro rest hne
    refine Fs.content_put_of_ne _ _ ?_
    rintro rfl
    exact below_scans_untouched hinv.root_ne hinv.root (by decide) (by decide)
      (by decide) (by decide) hne hk
  have hkeys : ∀ path, (d.fs.put k text).dirKey path = d.fs.dirKey path :=
    Fs.dirKey_congr rfl rfl
  refine ⟨hinv.root_ne, (hkeys _).trans hinv.root, fun rest hne => ?_, fun r hr => ?_⟩
  · rw [hother rest hne]
    exact hinv.files rest hne
  · exact (hkeys _).trans (hinv.dirs r hr)

theorem StoreInv.run (hrun : Stored env lib store d reports d')
    (hwf : ∀ r ∈ reports, r.WellFormed) (hinv : StoreInv store R [] d) :
    StoreInv store R reports d' := by
  induction hrun with
  | nil => exact hinv
  | snoc _ accepted ih =>
    exact (ih fun r hr => hwf r (by simp [hr])).step (hwf _ (by simp)) accepted
  | index _ place text ih => exact (ih hwf).index place text

end Runs

section Names
variable {r : Report}

lemma Report.WellFormed.fileName_json (hwf : r.WellFormed) (hform : r.form = .json) :
    ∃ f : Fin 14 → UInt8, (∀ i, Json.isDigit (f i) = true) ∧ r.timestamp = stampOf f ∧
      r.fileName = compactOf f ++ hyphen :: (r.scanId ++ dotJson) := by
  obtain ⟨f, hf, hstamp⟩ := hwf.stamp.exists_digits
  have hext : ascii "." ++ r.form.extension = dotJson := by rw [hform]; rfl
  refine ⟨f, hf, hstamp, ?_⟩
  rw [Report.fileName, hstamp, filter_stampOf hf, List.append_assoc, hext]

/-- Listed, a well-formed report has its own name. -/
lemma Report.WellFormed.sanitized (hwf : r.WellFormed) :
    sanitizeUtf8 r.fileName nameMax = r.fileName := by
  obtain ⟨f, hf, hstamp⟩ := hwf.stamp.exists_digits
  have hdigit : ∀ c : UInt8, Json.isDigit c = true → c ≤ 0x7F := by decide +kernel
  have hhead : Utf8.Valid (compactOf f ++ [hyphen]) := by
    refine Utf8.valid_of_ascii fun b hb => ?_
    simp only [compactOf, List.cons_append, List.nil_append, List.mem_cons, List.not_mem_nil,
      or_false] at hb
    rcases hb with h | h | h | h | h | h | h | h | h | h | h | h | h | h | h | h | h <;>
      rw [h] <;> first | exact hdigit _ (hf _) | decide
  have htail : Utf8.Valid (ascii "." ++ r.form.extension) :=
    Utf8.valid_of_ascii (by cases r.form <;> decide)
  have hname : r.fileName =
      (compactOf f ++ [hyphen]) ++ (r.scanId ++ (ascii "." ++ r.form.extension)) := by
    simp [Report.fileName, hstamp, filter_stampOf hf]
  have htailLen : (ascii "." ++ r.form.extension).length ≤ 5 := by
    cases r.form <;> decide
  have hheadLen : (compactOf f).length = 16 := rfl
  refine (sanitizeUtf8_eq_self_iff (by decide)).mpr ⟨?_, ?_⟩
  · rw [hname]
    exact hhead.append (hwf.utf8.append htail)
  · have hshort := hwf.short
    have hlen := congrArg List.length hname
    generalize ascii "." ++ r.form.extension = tail at htailLen hlen
    simp only [List.length_append, hheadLen, List.length_singleton] at hlen
    unfold scanIdMax at hshort
    unfold nameMax
    omega

lemma Report.endsWith_dotJson (r : Report) : endsWith r.fileName dotJson = true ↔ r.form = .json := by
  rw [endsWith_iff]
  constructor
  · rintro ⟨p, hp⟩
    have hlast := congrArg List.getLast? hp
    rw [r.fileName_getLast, List.getLast?_append_of_ne_nil _ (by decide)] at hlast
    by_contra hform
    rw [if_neg hform] at hlast
    exact absurd hlast (by decide)
  · intro hform
    have hext : ascii "." ++ r.form.extension = dotJson := by rw [hform]; rfl
    refine ⟨r.timestamp.filter (fun c => !isMark c) ++ hyphen :: r.scanId, ?_⟩
    rw [Report.fileName, List.append_assoc r.scanId, hext]
    simp

/-- Read by position, a report's name gives back its timestamp and its scan id. -/
theorem Report.WellFormed.newest_fileName (hwf : r.WellFormed) (hform : r.form = .json)
    (info : LastScan) :
    newest r.fileName info = { info with scannedAt := r.timestamp, scanId := r.scanId } := by
  obtain ⟨f, hf, hstamp, hname⟩ := hwf.fileName_json hform
  have hjson : dotJson.length = 5 := rfl
  have hcompact : (compactOf f).length = 16 := rfl
  have hlen : r.fileName.length = r.scanId.length + 22 := by
    rw [hname, List.length_append, List.length_cons, List.length_append, hjson, hcompact]
    omega
  have hshort := hwf.short
  have hmark : r.fileName[16]? = some hyphen := by
    rw [hname, List.getElem?_append_right (by rw [hcompact])]
    rfl
  have htake : r.fileName.take 16 = compactOf f := by
    rw [hname]
    exact List.take_left' rfl
  have hdrop : r.fileName.drop 17 = r.scanId ++ dotJson := by
    have hsplit : compactOf f ++ hyphen :: (r.scanId ++ dotJson) =
        (compactOf f ++ [hyphen]) ++ (r.scanId ++ dotJson) := by simp
    rw [hname, hsplit]
    exact List.drop_left' rfl
  have hidLen : r.fileName.length - 17 - 5 = r.scanId.length := by omega
  unfold newest
  rw [if_pos ⟨by omega, hmark, r.endsWith_dotJson.mpr hform⟩, htake, expandTimestamp_compactOf,
    hdrop, hidLen]
  dsimp only
  rw [if_pos hshort, List.take_left, hstamp]

end Names

end UsbSentinel.Store
