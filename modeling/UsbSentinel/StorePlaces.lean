import UsbSentinel.StoreContainment

/-! Where a report and its temporary file lie on a POSIX disk: behind the directory part
that the timestamp may bring, all looked up in the device's directory. -/
namespace UsbSentinel.Store
open ByteString FileSystem
open UsbSentinel.Path (Host stem joined)

/-- The scan id and the extension as far as the name buffer holds them. -/
def nameTail (scanId extension : Bytes) : Bytes :=
  (scanId ++ ascii "." ++ extension).take (filenameMax - 1 - 17)

lemma posix_plain {name : Bytes} (h : ∀ c ∈ name, UsbSentinel.Path.isSeparator .posix c = false) :
    slash ∉ name := by
  intro hmem
  simpa [UsbSentinel.Path.isSeparator, slash, UsbSentinel.Path.slash] using h _ hmem

lemma tempPath_of_long {final : Bytes} (h : final.length = storePathMax - 1) :
    tempPath final = final := by
  rw [tempPath, cut, List.take_left' h]

lemma tempPath_eq_append {final : Bytes} (h : final.length < storePathMax - 1) :
    ∃ suffix, tempPath final = final ++ suffix ∧ suffix ≠ [] ∧ suffix <+: ascii ".tmp" := by
  have htmp : ascii ".tmp" = [46, 116, 109, 112] := rfl
  refine ⟨(ascii ".tmp").take (storePathMax - 1 - final.length), ?_, ?_, List.take_prefix _ _⟩
  · rw [tempPath, cut, List.take_append, List.take_of_length_le h.le]
  · intro hnil
    have hlen := congrArg List.length hnil
    simp only [htmp, List.length_take, List.length_cons, List.length_nil] at hlen
    omega

section Joined

lemma components_joined (base leaf : Bytes) :
    components (joined .posix base leaf) = components base ++ components leaf := by
  obtain ⟨p, s, hstem, hsep⟩ := UsbSentinel.Path.stem_ends_with_separator .posix base
  have hslash : s = slash := of_decide_eq_true hsep
  have hbase : components p = components base := by
    unfold stem at hstem
    split_ifs at hstem
    · rw [hstem, hslash, components_append_slash]
    · obtain ⟨rfl, _⟩ := List.append_inj' hstem rfl
      rfl
  rw [UsbSentinel.Path.joined_eq_stem_append, hstem, hslash, List.append_assoc,
    List.singleton_append, components_append, hbase]

variable {base leaf : Bytes}

lemma joined_ne_nil (hleaf : leaf ≠ []) : joined .posix base leaf ≠ [] := by
  rw [UsbSentinel.Path.joined_eq_stem_append]
  simp [hleaf]

lemma start_joined (fs : Fs) (hbase : base ≠ []) :
    fs.start (joined .posix base leaf) = fs.start base := by
  obtain ⟨c, cs, rfl⟩ := List.exists_cons_of_ne_nil hbase
  unfold joined
  split_ifs <;> rfl

lemma joined_append (base leaf suffix : Bytes) :
    joined .posix base leaf ++ suffix = joined .posix base (leaf ++ suffix) := by
  simp only [UsbSentinel.Path.joined_eq_stem_append, List.append_assoc]

/-- A plain name joined to a directory is looked up in that directory. -/
theorem dirKey_joined (fs : Fs) (hbase : base ≠ []) (hplain : slash ∉ leaf) (hne : leaf ≠ []) :
    fs.dirKey (joined .posix base leaf) =
      (fs.dirKey base).bind fun k => fs.walk k [leaf] := by
  rw [Fs.dirKey, if_neg (joined_ne_nil hne), start_joined fs hbase, components_joined,
    components_of_notMem hplain hne, Fs.walk_append, Fs.dirKey, if_neg hbase]

theorem fileKey_joined (fs : Fs) (hbase : base ≠ []) (hplain : slash ∉ leaf) (hne : leaf ≠ [])
    (hdot : leaf ≠ dot) (hdotDot : leaf ≠ dotDot) :
    fs.fileKey (joined .posix base leaf) = (fs.dirKey base).map (· ++ [leaf]) := by
  rw [Fs.fileKey, if_neg (joined_ne_nil hne), start_joined fs hbase, components_joined,
    components_of_notMem hplain hne, Fs.place_append _ _ _ (by simp), Fs.dirKey, if_neg hbase]
  cases fs.walk (fs.start base) (components base) <;> simp [Fs.place, Fs.walk, hdot, hdotDot]

lemma fileKey_joined_getLast {fs : Fs} {k : Key} (hplain : slash ∉ leaf) (hne : leaf ≠ [])
    (h : fs.fileKey (joined .posix base leaf) = some k) : k.getLast? = some leaf := by
  rw [Fs.fileKey_getLast h, components_joined, components_of_notMem hplain hne,
    List.getLast?_concat]

end Joined

section Place
variable {store : Store} {form : Form} {identity scanId timestamp : Bytes}
  (plan : Plan .posix store identity scanId timestamp form.extension)

/-- The file's own name: what follows the last separator that the timestamp brought. -/
def Plan.leaf : Bytes := lastPart plan.compact ++ hyphen :: nameTail scanId form.extension

lemma Plan.slash_notMem_leaf : slash ∉ plan.leaf := by
  have hscan : slash ∉ scanId := posix_plain (scanId_not_separator plan.scanId_plain)
  have hext : slash ∉ form.extension := posix_plain (form.extension_plain .posix)
  have hdot : slash ∉ ascii "." := by decide
  have htail : slash ∉ nameTail scanId form.extension := fun hmem => by
    simpa [hscan, hext, hdot] using List.mem_of_mem_take hmem
  have hne : slash ≠ hyphen := by decide
  simp [Plan.leaf, (parentPart_append_lastPart plan.compact).2, hne, htail]

lemma Plan.hyphen_mem_leaf : hyphen ∈ plan.leaf := by simp [Plan.leaf]

lemma Plan.leaf_append_ne {name : Bytes} (h : hyphen ∉ name) (suffix : Bytes) :
    plan.leaf ++ suffix ≠ name :=
  fun he => h (he ▸ List.mem_append_left _ plan.hyphen_mem_leaf)

lemma Plan.dir_ne_nil : plan.dir ≠ [] := by
  rw [plan.dir_eq_joined, UsbSentinel.Path.joined_eq_stem_append]
  simp [plan.safe_ne_nil]

lemma Plan.final_eq_leaf :
    plan.final = plan.dir ++ slash :: (parentPart plan.compact ++ plan.leaf) := by
  have hdir : plan.dir = stem .posix (joined .posix store.root (ascii "scans")) ++ plan.safe := by
    rw [plan.dir_eq_joined, UsbSentinel.Path.joined_eq_stem_append]
  have hsep : Host.posix.sep = slash := rfl
  rw [plan.final_eq_append, reportName_eq plan.compact_eq_filter.2, hdir, hsep, Plan.leaf, nameTail]
  conv_lhs => rw [← (parentPart_append_lastPart plan.compact).1]
  simp

/-- The key of the final path, and of any path that only goes on behind its name. -/
theorem Plan.final_key (fs : Fs) {suffix : Bytes} (hplain : slash ∉ suffix) :
    fs.fileKey (plan.final ++ suffix) =
      (fs.dirKey plan.dir).bind fun D =>
        (fs.walk D (components (parentPart plan.compact))).map (· ++ [plan.leaf ++ suffix]) := by
  have hpath : plan.final ++ suffix =
      plan.dir ++ slash :: (parentPart plan.compact ++ (plan.leaf ++ suffix)) := by
    rw [plan.final_eq_leaf]
    simp
  rw [hpath]
  refine Fs.fileKey_below fs _ plan.dir_ne_nil ?_ ?_ ?_ ?_
  · simp [plan.slash_notMem_leaf, hplain]
  · exact plan.leaf_append_ne (by simp) suffix
  · exact plan.leaf_append_ne (by decide) suffix
  · exact plan.leaf_append_ne (by decide) suffix

lemma Plan.exists_of_final_key {fs : Fs} {k : Key} (h : fs.fileKey plan.final = some k) :
    ∃ D E, fs.dirKey plan.dir = some D ∧
      fs.walk D (components (parentPart plan.compact)) = some E ∧ k = E ++ [plan.leaf] := by
  have hplain : slash ∉ ([] : Bytes) := by simp
  have hkey := plan.final_key fs hplain
  rw [List.append_nil, List.append_nil, h] at hkey
  obtain ⟨D, hD, hmap⟩ := Option.bind_eq_some_iff.mp hkey.symm
  obtain ⟨E, hwalk, rfl⟩ := Option.map_eq_some_iff.mp hmap
  exact ⟨D, E, hD, hwalk, rfl⟩

/-- The temporary file lies beside the report, under a longer name. -/
theorem Plan.temp_key (hlen : plan.final.length ≠ storePathMax - 1) {fs : Fs} {k t : Key}
    (hk : fs.fileKey plan.final = some k) (ht : fs.fileKey (tempPath plan.final) = some t) :
    ∃ E suffix, k = E ++ [plan.leaf] ∧ t = E ++ [plan.leaf ++ suffix] ∧ suffix ≠ [] ∧
      suffix <+: ascii ".tmp" := by
  have hshort := plan.final_eq_joined.2
  have hlt : plan.final.length < storePathMax - 1 := by omega
  obtain ⟨suffix, htemp, hsuffix, hstart⟩ := tempPath_eq_append hlt
  have hplain : slash ∉ suffix := fun hmem =>
    absurd (hstart.subset hmem) (by decide)
  obtain ⟨D, E, hD, hE, rfl⟩ := plan.exists_of_final_key hk
  rw [htemp, plan.final_key fs hplain, hD, Option.bind_some, hE, Option.map_some] at ht
  exact ⟨E, suffix, rfl, (Option.some.inj ht).symm, hsuffix, hstart⟩

end Place

end UsbSentinel.Store
