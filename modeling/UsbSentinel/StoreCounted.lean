import UsbSentinel.StoreListing

/-! Whether an accepted report is counted by a following `lastScan`: the name buffer must
hold the scan id and the extension, and the file must lie in the device's directory. -/
namespace UsbSentinel.Store
open ByteString FileSystem UsbSentinel.Posix
open UsbSentinel.Path (Host)

/-- The scan ids whose report keeps its whole id and the extension: those that fit, and
one length at which the id itself ends the name and happens to end in the extension. -/
def Keeps (scanId : Bytes) : Prop :=
  scanId.length ≤ 277 ∨ scanId.length = 282 ∧ endsWith scanId dotJson = true

lemma nameTail_json (scanId : Bytes) :
    nameTail scanId (ascii "json") = (scanId ++ dotJson).take 282 := by
  have hdot : ascii "." ++ ascii "json" = dotJson := rfl
  rw [nameTail, List.append_assoc, hdot]
  rfl

/-- A scan id that ends the cut name before the extension does. -/
lemma not_suffix_of_cut {scanId : Bytes} {j : ℕ} (hpos : 0 < j) (hj : j < 5) :
    ¬ dotJson <:+ scanId ++ dotJson.take j := by
  rintro ⟨s, hs⟩
  have hlast := congrArg List.getLast? hs
  have hjson : dotJson = [46, 106, 115, 111, 110] := rfl
  rw [hjson] at hlast
  interval_cases j <;> simp at hlast

lemma length_le_of_infix {c scanId tail : Bytes} (hc : hyphen ∉ c)
    (h : hyphen :: scanId <:+: c ++ hyphen :: tail) : scanId.length ≤ tail.length := by
  obtain ⟨s, t, hst⟩ := h
  have hlen := congrArg List.length hst
  have hsc : c.length ≤ s.length := by
    by_contra hlt
    have hget := congrArg (fun l => l[s.length]?) hst
    simp only [List.append_assoc, List.cons_append] at hget
    rw [List.getElem?_append_right le_rfl, Nat.sub_self, List.getElem?_append_left (by omega)] at hget
    exact hc (List.mem_of_getElem? hget.symm)
  simp only [List.length_append, List.length_cons] at hlen
  omega

/-- What the name keeps of the scan id and the extension. -/
theorem keeps_iff {c scanId : Bytes} (hc : hyphen ∉ c) :
    (hyphen :: scanId <:+: c ++ hyphen :: nameTail scanId (ascii "json") ∧
      dotJson <:+ c ++ hyphen :: nameTail scanId (ascii "json")) ↔ Keeps scanId := by
  have hjson : dotJson.length = 5 := rfl
  rw [nameTail_json]
  constructor
  · rintro ⟨hwithin, hsuffix⟩
    by_cases hfits : scanId.length ≤ 277
    · exact .inl hfits
    · have hlong := length_le_of_infix hc hwithin
      have htail : ((scanId ++ dotJson).take 282).length = 282 := by
        simp only [List.length_take, List.length_append, hjson]
        omega
      have hle : scanId.length ≤ 282 := htail ▸ hlong
      have hin : (scanId ++ dotJson).take 282 <:+
          c ++ hyphen :: (scanId ++ dotJson).take 282 :=
        ⟨c ++ [hyphen], by simp⟩
      have hend : dotJson <:+ (scanId ++ dotJson).take 282 :=
        List.suffix_of_suffix_length_le hsuffix hin (by rw [htail, hjson]; omega)
      rw [List.take_append, List.take_of_length_le hle] at hend
      rcases Nat.lt_or_ge scanId.length 282 with hlt | hge
      · exact absurd hend (not_suffix_of_cut (by omega) (by omega))
      · have heq : scanId.length = 282 := by omega
        rw [heq, Nat.sub_self, List.take_zero, List.append_nil] at hend
        exact .inr ⟨heq, endsWith_iff.mpr hend⟩
  · rintro (hfits | ⟨hlen, hend⟩)
    · rw [List.take_of_length_le (by rw [List.length_append, hjson]; omega)]
      refine ⟨⟨c, dotJson, by simp⟩, ⟨c ++ hyphen :: scanId, by simp⟩⟩
    · rw [List.take_left' hlen]
      obtain ⟨s, hs⟩ := endsWith_iff.mp hend
      exact ⟨⟨c, [], by simp⟩, ⟨c ++ hyphen :: s, by simp [← hs]⟩⟩

/-- Replacing invalid bytes leaves the extension of a name of bounded length alone. -/
lemma endsWith_sanitized {name : Bytes} (hjson : dotJson <:+ name) (hlen : name.length ≤ 300) :
    endsWith (sanitizeUtf8 name nameMax) dotJson = true := by
  obtain ⟨s, rfl⟩ := hjson
  have hascii : ∀ b ∈ dotJson, b ≤ 0x7F := by decide +kernel
  have hfive : dotJson.length = 5 := rfl
  rw [List.length_append, hfive] at hlen
  refine endsWith_iff.mpr (sanitizeLoop_suffix hascii le_rfl ?_)
  simp only [List.length_nil, hfive, nameMax]
  omega

/-- A file of the directory with the extension is counted. -/
lemma mem_counted {env : Behaviour} {d : Disk} {D : Key} {name : Bytes}
    (hfile : (d.fs.content (D ++ [name])).isSome = true) (hdot : isDotEntry name = false)
    (hjson : endsWith (sanitizeUtf8 name nameMax) dotJson = true) :
    ∃ r ∈ counted env d D, r.name = name := by
  have hname : name ∈ d.fs.fileNames D := Fs.mem_fileNames.mpr hfile
  refine ⟨_, List.mem_filter.mpr ⟨List.mem_append_right _ (List.mem_map_of_mem hname), ?_⟩, rfl⟩
  have hkind : ∀ {stat : Option Stat}, (∀ st, stat = some st → st.kind = .regular) →
      isReport (fillEntry ⟨name, some .regular, stat⟩) = true := by
    intro stat hstat
    cases stat with
    | none => simp [isReport, fillEntry, hjson]
    | some st => simp [isReport, fillEntry, hjson, hstat st rfl]
  simp only [hdot, Bool.not_false, Bool.true_and]
  refine hkind fun st hst => ?_
  split_ifs at hst
  rw [← Option.some.inj hst]

/-- Followed from the device's directory, the directory part of the timestamp leads back
to it. -/
def LeadsBack (fs : Fs) (dir compact : Bytes) : Prop :=
  ∃ D, fs.dirKey dir = some D ∧ fs.walk D (components (parentPart compact)) = some D

/-- The same once the device's directory has been made. -/
def StaysInDirectory (d : Disk) (dir compact : Bytes) : Prop :=
  ∀ d₁, makeDirs .quiet dir d = (.ok, d₁) → LeadsBack d₁.fs dir compact

/-- A timestamp without a separator leads nowhere else. -/
lemma staysInDirectory_of_plain {d : Disk} {dir compact : Bytes} (hplain : slash ∉ compact)
    (hdir : ((makeDirs .quiet dir d).2.fs.dirKey dir).isSome = true) :
    StaysInDirectory d dir compact := by
  intro d₁ hmake
  rw [hmake] at hdir
  obtain ⟨D, hD⟩ := Option.isSome_iff_exists.mp hdir
  refine ⟨D, hD, ?_⟩
  rw [(parentPart_of_plain hplain).1]
  rfl

/-- Every `lastScan` that nothing refuses counts the file `k`, whose name carries the whole
scan id. -/
def CountsReport (store : Store) (identity scanId dir : Bytes) (d : Disk) (k : Key) : Prop :=
  ∀ env : Behaviour, env.fault d.calls = none →
    ∃ info D r, lastScan (storePlatform env) .posix store identity d = ((.ok, info), d.tick) ∧
      d.fs.dirKey dir = some D ∧ info.reportCount = (counted env d D).length ∧
      r ∈ counted env d D ∧ k = D ++ [r.name] ∧ hyphen :: scanId <:+: r.name ∧
      dotJson <:+ r.name

@[simp] lemma newest_reportCount (best : Bytes) (info : LastScan) :
    (newest best info).reportCount = info.reportCount := by
  unfold newest
  split <;> rfl

section Accepted
variable {env : Behaviour} {lib : Json.CLib} {memory : Memory} {store : Store}
  {identity scanId timestamp json out : Bytes} {outCap : ℕ} {d d' : Disk}

/-- The name of a JSON report keeps the scan id and the extension together or not at all. -/
lemma Plan.keeps_iff (plan : Plan .posix store identity scanId timestamp Form.json.extension) :
    (hyphen :: scanId <:+: plan.leaf ∧ dotJson <:+ plan.leaf) ↔ Keeps scanId := by
  refine Store.keeps_iff fun hmem => ?_
  have hin : hyphen ∈ plan.compact := by
    rw [← (parentPart_append_lastPart plan.compact).1]
    exact List.mem_append_right _ hmem
  rw [plan.compact_eq_filter.1] at hin
  simpa [isMark] using (List.mem_filter.mp hin).2

lemma Plan.leaf_length {form : Form}
    (plan : Plan .posix store identity scanId timestamp form.extension) : plan.leaf.length ≤ 300 := by
  have hcut := congrArg List.length (parentPart_append_lastPart plan.compact).1
  rw [plan.compact_eq_filter.2, List.length_append] at hcut
  simp only [Plan.leaf, nameTail, List.length_append, List.length_cons, List.length_take,
    filenameMax]
  omega

/-- A report that lies in a directory with its extension is counted there. -/
lemma Plan.mem_counted {form : Form} {D : Key}
    (plan : Plan .posix store identity scanId timestamp form.extension)
    (hfile : (d.fs.content (D ++ [plan.leaf])).isSome = true) (hjson : dotJson <:+ plan.leaf) :
    ∃ r ∈ counted env d D, r.name = plan.leaf := by
  refine Store.mem_counted hfile ?_ (endsWith_sanitized hjson plan.leaf_length)
  have h₁ := plan.leaf_append_ne (show hyphen ∉ dot by decide) []
  have h₂ := plan.leaf_append_ne (show hyphen ∉ dotDot by decide) []
  rw [List.append_nil] at h₁ h₂
  simp [isDotEntry, h₁, h₂]

/-- An accepted JSON report is on the disk, and the index refresh did not touch it. -/
theorem writeReport_content
    (h : writeReport (storePlatform env) .posix lib memory store identity scanId timestamp json
      outCap d = (.ok out, d')) :
    ∃ (plan : Plan .posix store identity scanId timestamp Form.json.extension) (d₁ : Disk)
        (k : Key),
      out = cut outCap plan.final ∧ makeDirs .quiet plan.dir d = (.ok, d₁) ∧
        SamePlaces d₁ d' ∧ d'.fs.locate plan.final = .ok k ∧ d'.fs.content k = some json := by
  obtain ⟨final, d₂, hfile, rfl, rfl⟩ := writeReport_eq_ok h
  have hform : ascii "json" = Form.json.extension := rfl
  rw [hform] at hfile
  obtain ⟨plan, d₁, rfl, hmake, hwrite⟩ := exists_plan_of_ok hfile
  obtain ⟨t, k, _, _, hk, _, _, hcontent, _, hplaces, _⟩ := writeThenReplace_ok env hwrite
  obtain ⟨hframe, hrefreshed⟩ := refreshIndex_frame env lib memory store identity d₂
  obtain ⟨D, E, _, _, hleaf⟩ := plan.exists_of_final_key (Fs.locate_eq_ok.mp hk).1
  have hlast : k.getLast? = some plan.leaf := by rw [hleaf, List.getLast?_concat]
  have hother : ∀ leaf : Bytes, slash ∉ leaf → leaf ≠ [] → hyphen ∉ leaf →
      k ∉ fileAt d₂ (UsbSentinel.Path.joined .posix store.root leaf) := by
    intro leaf hplain hne hhyphen hmem
    have hkey := fileKey_joined_getLast hplain hne (Fs.locate_eq_ok.mp hmem).1
    rw [hlast] at hkey
    exact hhyphen (Option.some.inj hkey ▸ plan.hyphen_mem_leaf)
  have huntouched : k ∉ fileAt d₂ (indexFile store) ∪ fileAt d₂ (indexTemp store) := by
    rintro (hmem | hmem)
    · exact hother _ (by decide) (by decide) (by decide) hmem
    · exact hother _ (by decide) (by decide) (by decide) hmem
  have hall := hplaces.trans hrefreshed
  refine ⟨plan, d₁, k, rfl, makeDirs_ok env hmake, hall, ?_, ?_⟩
  · rw [hall.locate, hk]
  · rw [hframe.content k huntouched, hcontent]

/-- An accepted report is counted under its whole scan id exactly when the scan id fits
the name and the timestamp does not lead out of the device's directory. -/
theorem writeReport_counted_iff
    (h : writeReport (storePlatform env) .posix lib memory store identity scanId timestamp json
      outCap d = (.ok out, d')) :
    ∃ (plan : Plan .posix store identity scanId timestamp Form.json.extension) (k : Key),
      out = cut outCap plan.final ∧ d'.fs.locate plan.final = .ok k ∧
        d'.fs.content k = some json ∧
        (CountsReport store identity scanId plan.dir d' k ↔
          Keeps scanId ∧ StaysInDirectory d plan.dir plan.compact) := by
  obtain ⟨plan, d₁, k, hout, hmake, hplaces, hk, hcontent⟩ := writeReport_content h
  obtain ⟨D, E, hD, hE, hleaf⟩ := plan.exists_of_final_key (Fs.locate_eq_ok.mp hk).1
  have hback : StaysInDirectory d plan.dir plan.compact ↔ E = D := by
    have hsame : LeadsBack d₁.fs plan.dir plan.compact ↔ E = D := by
      have hdirKey : d₁.fs.dirKey plan.dir = some D :=
        (Fs.dirKey_congr hplaces.cwd hplaces.dirs plan.dir) ▸ hD
      have hwalk := (Fs.walk_congr hplaces.dirs D (components (parentPart plan.compact))) ▸ hE
      simp [LeadsBack, hdirKey, hwalk]
    rw [← hsame]
    constructor
    · exact fun hstays => hstays d₁ hmake
    · intro hleads d₂ hmake₂
      obtain rfl : d₁ = d₂ := (Prod.ext_iff.mp (hmake.symm.trans hmake₂)).2
      exact hleads
  refine ⟨plan, k, hout, hk, hcontent, ?_⟩
  rw [hback, ← plan.keeps_iff]
  constructor
  · intro hcounts
    obtain ⟨_, D', r, _, hD', _, _, hkr, hwithin, hsuffix⟩ := hcounts .quiet rfl
    obtain rfl : D = D' := by simpa [hD] using hD'
    obtain ⟨hdir, hname⟩ := List.append_inj' (hleaf.symm.trans hkr) rfl
    have hname' : r.name = plan.leaf := by simpa using hname.symm
    rw [hname'] at hwithin hsuffix
    exact ⟨⟨hwithin, hsuffix⟩, hdir⟩
  · rintro ⟨⟨hwithin, hsuffix⟩, rfl⟩ env' hquiet
    have hfile : (d'.fs.content (E ++ [plan.leaf])).isSome = true := by
      rw [← hleaf, hcontent]
      rfl
    obtain ⟨r, hr, hname⟩ : ∃ r ∈ counted env' d' E, r.name = plan.leaf :=
      plan.mem_counted hfile hsuffix
    obtain ⟨best, _, hscan⟩ := lastScan_of_dir plan.safe_eq plan.dir_eq hD hquiet
    refine ⟨_, E, r, hscan, hD, ?_, hr, by rw [hname]; exact hleaf, by rw [hname]; exact hwithin,
      by rw [hname]; exact hsuffix⟩
    cases best <;> simp

end Accepted

/-- One report on a blank disk. -/
def stickRun (timestamp : Bytes) : Except Status Bytes × Disk :=
  writeReport quietPlatform .posix Json.wholeLib {} ⟨ascii "/s"⟩ (ascii "usb:1") (ascii "ID")
    timestamp (ascii "\x7b\x7d") 512 blankDisk

theorem writeReport_counted_iff_stick :
    ∃ (plan : Plan .posix ⟨ascii "/s"⟩ (ascii "usb:1") (ascii "ID") (ascii "2026-09-11T14:02:03Z")
        Form.json.extension) (k : Key),
      ascii "/s/scans/usb_3A1/20260911T140203Z-ID.json" = cut 512 plan.final ∧
        (stickRun (ascii "2026-09-11T14:02:03Z")).2.fs.locate plan.final = .ok k ∧
        (stickRun (ascii "2026-09-11T14:02:03Z")).2.fs.content k = some (ascii "\x7b\x7d") ∧
        (CountsReport ⟨ascii "/s"⟩ (ascii "usb:1") (ascii "ID") plan.dir
            (stickRun (ascii "2026-09-11T14:02:03Z")).2 k ↔
          Keeps (ascii "ID") ∧ StaysInDirectory blankDisk plan.dir plan.compact) := by
  have hfirst : (stickRun (ascii "2026-09-11T14:02:03Z")).1 =
      .ok (ascii "/s/scans/usb_3A1/20260911T140203Z-ID.json") := by decide +kernel
  exact writeReport_counted_iff (hfirst ▸ Prod.mk.eta.symm)

/-- Sixteen bytes that are no timestamp put the report beside the store, where no last scan
of its device finds it. -/
theorem writeReport_uncounted :
    (stickRun (ascii "../../../evil.js")).1 =
        .ok (ascii "/s/scans/usb_3A1/../../../evil.js-ID.json") ∧
      (stickRun (ascii "../../../evil.js")).2.fs.content [ascii "evil.js-ID.json"] =
        some (ascii "\x7b\x7d") ∧
      (lastScan quietPlatform .posix ⟨ascii "/s"⟩ (ascii "usb:1")
        (stickRun (ascii "../../../evil.js")).2).1 = (.ok, {}) := by
  decide +kernel

end UsbSentinel.Store
