import UsbSentinel.StorePlaces

/-! Atomicity of a report write on a POSIX disk: through every failure and every partial
write, the final path holds its old or its whole new content and no other report is lost,
provided the temporary path is a path of its own. -/
namespace UsbSentinel.Store
open ByteString FileSystem UsbSentinel.Posix
open UsbSentinel.Path (Host)

section Keys
variable {store : Store} {form : Form} {identity scanId timestamp : Bytes}
  (plan : Plan .posix store identity scanId timestamp form.extension)

/-- Short of the buffer's last byte the temporary file is another file. -/
theorem Plan.temp_key_ne (hlen : plan.final.length ≠ storePathMax - 1) {fs : Fs} {k t : Key}
    (hk : fs.locate plan.final = .ok k) (ht : fs.locate (tempPath plan.final) = .ok t) :
    t ≠ k := by
  obtain ⟨E, suffix, rfl, rfl, hsuffix, _⟩ :=
    plan.temp_key hlen (Fs.locate_eq_ok.mp hk).1 (Fs.locate_eq_ok.mp ht).1
  simpa using hsuffix

end Keys

section Replace
variable (env : Behaviour)

/-- A failed replacement leaves only the temporary file changed. -/
theorem writeThenReplace_failed {final temp content : Bytes} {d d' : Disk} {e : Status}
    (h : writeThenReplace (storePlatform env) final temp content d = (e, d')) (he : e ≠ .ok) :
    Frame (fileAt d temp) d d' ∧ SamePlaces d d' := by
  have hwrite := writeFile_frame env temp content d
  have hplaces := writeFile_places env temp content d
  simp only [writeThenReplace, storePlatform] at h
  split at h
  · next d₁ heq =>
    rw [heq] at hwrite hplaces
    split at h
    · exact absurd (Prod.ext_iff.mp h).1.symm he
    · next e₂ d₂ hne hreplace =>
      obtain rfl := replaceFile_failed env hreplace hne
      obtain rfl := (Prod.ext_iff.mp h).2
      have hticked : SamePlaces d d₁.tick := hplaces.trans ⟨rfl, rfl⟩
      have hdelete := deleteFile_frame env temp d₁.tick
      rw [hticked.fileAt] at hdelete
      exact ⟨(hwrite.trans (Frame.tick _ _)).trans hdelete,
        hticked.trans (deleteFile_places env temp d₁.tick)⟩
  · next e₁ d₁ hne heq =>
    rw [heq] at hwrite hplaces
    obtain rfl := (Prod.ext_iff.mp h).2
    have hdelete := deleteFile_frame env temp d₁
    rw [hplaces.fileAt] at hdelete
    exact ⟨hwrite.trans hdelete, hplaces.trans (deleteFile_places env temp d₁)⟩

/-- A completed replacement wrote the temporary file whole and then renamed it. -/
theorem writeThenReplace_ok {final temp content : Bytes} {d d' : Disk}
    (h : writeThenReplace (storePlatform env) final temp content d = (.ok, d')) :
    ∃ t k d₁, d.fs.locate temp = .ok t ∧ d.fs.locate final = .ok k ∧
      Frame {t} d d₁ ∧ d'.history = d₁.history ++ [d'.fs] ∧ d'.fs.content k = some content ∧
      (t ≠ k → d'.fs.content t = none) ∧ SamePlaces d d' ∧
      ∀ x, x ≠ t → x ≠ k → d'.fs.content x = d.fs.content x := by
  simp only [writeThenReplace, storePlatform] at h
  split at h
  · next d₁ hwrite =>
    split at h
    · next d₂ hreplace =>
      obtain rfl := (Prod.ext_iff.mp h).2
      have hplaces := writeFile_places env temp content d
      rw [hwrite] at hplaces
      obtain ⟨t, ht, hd₁⟩ := writeFile_ok env hwrite
      obtain ⟨fs, hrename, rfl⟩ := replaceFile_ok env hreplace
      obtain ⟨s, k, data, hs, hk, hdata, hcwd, hdirs, hnew, hgone, hrest⟩ :=
        Fs.rename_spec hrename
      rw [hplaces.locate] at hs hk
      obtain rfl : t = s := by simpa [ht] using hs
      have hfilled : d₁.fs.content t = some content := by
        rw [hd₁]
        simp [fill]
      obtain rfl : data = content := by simpa [hfilled] using hdata.symm
      have hframe : Frame {t} d d₁ := hd₁ ▸ fill_frame d t data _
      refine ⟨t, k, d₁, ht, hk, hframe, by simp, hnew, hgone,
        hplaces.trans ⟨hcwd, hdirs⟩, fun x hxt hxk => ?_⟩
      exact (hrest x hxt hxk).trans (hframe.content x hxt)
    · next hne _ => exact absurd (Prod.ext_iff.mp h).1 hne
  · next hne _ => exact absurd (Prod.ext_iff.mp h).1 hne

end Replace

/-- What one write promises, whatever fails: the temporary path is another path, the
final path never holds part of the content, and a failed call loses no report. -/
structure Atomic (store : Store) (form : Form) (identity scanId timestamp content : Bytes)
    (reports : Set Key) (fs : Fs) (run : Except Status Bytes × Disk) : Prop where
  separate : ∀ plan : Plan .posix store identity scanId timestamp form.extension,
    tempPath plan.final ≠ plan.final
  whole : ∀ plan : Plan .posix store identity scanId timestamp form.extension,
    ∀ k, run.2.fs.locate plan.final = .ok k → ∀ past ∈ run.2.history ++ [run.2.fs],
      past.content k = fs.content k ∨ past.content k = some content
  kept : ∀ e, run.1 = .error e → ∀ k ∈ reports, ∀ data, fs.content k = some data →
    run.2.fs.content k = some data

/-- Once the device's directory is there, no report lies at the temporary path. -/
def TempIsFree (reports : Set Key) (fs : Fs) (dir temp : Bytes) : Prop :=
  ∀ calls d₁ t, makeDirs .quiet dir { fs, calls } = (.ok, d₁) → d₁.fs.locate temp = .ok t →
    t ∈ reports → fs.content t = none

section Atomicity
variable {store : Store} {form : Form} {identity scanId timestamp content : Bytes}
  {reports : Set Key} {fs : Fs}

lemma Frame.past_content {touched : Set Key} {calls : ℕ} {d : Disk}
    (h : Frame touched { fs, calls } d) {k : Key} (hk : k ∉ touched) :
    ∀ past ∈ d.history ++ [d.fs], past.content k = fs.content k := by
  intro past hpast
  rcases List.mem_append.mp hpast with hpast | hpast
  · rcases h.past past hpast with hold | hnew
    · simp at hold
    · exact hnew k hk
  · rw [List.mem_singleton.mp hpast]
    exact h.content k hk

/-- A run that changes at most the temporary file. -/
lemma atomic_of_frame {calls : ℕ} {run : Except Status Bytes × Disk}
    {touched : Set Key} (hframe : Frame touched { fs, calls } run.2)
    (hseparate : ∀ plan : Plan .posix store identity scanId timestamp form.extension,
      tempPath plan.final ≠ plan.final)
    (hfinal : ∀ plan : Plan .posix store identity scanId timestamp form.extension,
      ∀ k, run.2.fs.locate plan.final = .ok k → k ∉ touched)
    (hreports : ∀ k ∈ touched, k ∈ reports → fs.content k = none) :
    Atomic store form identity scanId timestamp content reports fs run := by
  refine ⟨hseparate, fun plan k hk past hpast => ?_, fun e _ k hk data hdata => ?_⟩
  · exact .inl (Frame.past_content hframe (hfinal plan k hk) past hpast)
  · have hfree : k ∉ touched := fun hmem => by simp [hreports k hmem hk] at hdata
    exact (hframe.content k hfree).trans hdata

theorem atomic_of_temp_free
    (hfree : ∀ plan : Plan .posix store identity scanId timestamp form.extension,
      plan.final.length ≠ storePathMax - 1 ∧
        TempIsFree reports fs plan.dir (tempPath plan.final)) (env : Behaviour) (calls : ℕ) :
    Atomic store form identity scanId timestamp content reports fs
      (writeReportFile (storePlatform env) .posix store identity scanId timestamp form.extension
        content { fs, calls }) := by
  have hseparate : ∀ plan : Plan .posix store identity scanId timestamp form.extension,
      tempPath plan.final ≠ plan.final := by
    intro plan
    have hshort := plan.final_eq_joined.2
    have hlen := (hfree plan).1
    have hlt : plan.final.length < storePathMax - 1 := by omega
    obtain ⟨suffix, htemp, hsuffix, _⟩ := tempPath_eq_append hlt
    simpa [htemp] using hsuffix
  by_cases hplan : Nonempty (Plan .posix store identity scanId timestamp form.extension)
  · obtain ⟨plan⟩ := hplan
    have hmake := makeDirs_frame env plan.dir { fs, calls }
    obtain ⟨hlen, htempFree⟩ := hfree plan
    rw [writeReportFile_of_plan plan]
    simp only [storePlatform]
    split
    · next d₁ hdirs =>
      rw [hdirs] at hmake
      split
      · next d₂ hwrite =>
        obtain ⟨t, k, d, ht, hk, hframe, hpast, hnew, _, hplaces, _⟩ :=
          writeThenReplace_ok env hwrite
        have htk := plan.temp_key_ne hlen hk ht
        refine ⟨hseparate, fun plan' k' hk' past hmem => ?_, fun e he => by simp at he⟩
        obtain rfl := Subsingleton.elim plan plan'
        obtain rfl : k = k' := by simpa [hplaces.locate, hk] using hk'
        have hframe₀ := (hmake.mono (Set.empty_subset {t})).trans hframe
        have hbefore := Frame.past_content hframe₀ (k := k) (by simpa using Ne.symm htk)
        simp only [hpast, List.append_assoc, List.mem_append, List.mem_singleton] at hmem
        rcases hmem with hmem | rfl | rfl
        · exact .inl (hbefore past (List.mem_append_left _ hmem))
        · exact .inr hnew
        · exact .inr hnew
      · next e d₂ he hwrite =>
        obtain ⟨hframe, hplaces⟩ := writeThenReplace_failed env hwrite he
        have hframe₀ := (hmake.mono (Set.empty_subset _)).trans hframe
        refine atomic_of_frame hframe₀ hseparate (fun plan' k hk hmem => ?_) fun k hmem hreport => ?_
        · obtain rfl := Subsingleton.elim plan plan'
          dsimp only at hk
          rw [hplaces.locate] at hk
          exact plan.temp_key_ne hlen hk hmem rfl
        · exact htempFree calls d₁ k (makeDirs_ok env hdirs) hmem hreport
    · next e d₁ _ hdirs =>
      rw [hdirs] at hmake
      exact atomic_of_frame hmake hseparate (fun _ _ _ => by simp) (by simp)
  · have hnone := not_nonempty_iff.mp hplan
    obtain ⟨e, he | ⟨dir, he⟩⟩ :=
      writeReportFile_of_no_plan (P := storePlatform env) hnone content { fs, calls }
    · rw [he]
      exact atomic_of_frame (Frame.refl ∅ _) hseparate (fun plan => hnone.elim plan) (by simp)
    · rw [he]
      exact atomic_of_frame (makeDirs_frame env dir _) hseparate (fun plan => hnone.elim plan)
        (by simp)

/-- A report at the temporary path is lost when the disk fills up. -/
lemma temp_free_of_atomic
    (hatomic : ∀ env calls, Atomic store form identity scanId timestamp content reports fs
      (writeReportFile (storePlatform env) .posix store identity scanId timestamp form.extension
        content { fs, calls }))
    (plan : Plan .posix store identity scanId timestamp form.extension) :
    TempIsFree reports fs plan.dir (tempPath plan.final) := by
  intro calls d₁ t hdirs ht hreport
  by_contra hsome
  obtain ⟨data, hdata⟩ := Option.ne_none_iff_exists'.mp hsome
  -- the first write after the directories is refused, its file having been truncated
  let env : Behaviour :=
    { fault := fun n => if n = d₁.calls then some { errno := .enospc, progress := some 0 } else none }
  have hquiet : ∀ n, calls ≤ n → n < (makeDirs .quiet plan.dir { fs, calls }).2.calls →
      env.fault n = none := by
    intro n _ hn
    rw [hdirs] at hn
    exact if_neg (by dsimp only at hn; omega)
  have hmake : makeDirs env plan.dir { fs, calls } = (.ok, d₁) :=
    (makeDirs_of_no_fault env hquiet).trans hdirs
  have hwrite : writeFile env (tempPath plan.final) content d₁ = (.internal, fill d₁ t content 0) := by
    simp [writeFile, ht, env, Fault.status, statusFromErrno]
  have hlocate : (fill d₁ t content 0).fs.locate (tempPath plan.final) = .ok t := by
    have hsame : SamePlaces d₁ (fill d₁ t content 0) := ⟨rfl, rfl⟩
    rw [hsame.locate, ht]
  have hdelete : ((deleteFile env (tempPath plan.final) (fill d₁ t content 0)).2).fs.content t =
      none := by
    have hnofault : env.fault (fill d₁ t content 0).calls = none := if_neg (by simp [fill])
    have hfilled : (fill d₁ t content 0).fs.content t = some [] := by simp [fill]
    simp only [deleteFile, hnofault, Fs.unlink, hlocate, hfilled, Option.isNone_some,
      Bool.false_eq_true, if_false, Disk.run_fs]
    exact AList.lookup_erase _ _
  have hlost := (hatomic env calls).kept .internal
  rw [writeReportFile_of_plan plan] at hlost
  simp only [storePlatform, hmake, writeThenReplace, hwrite] at hlost
  have hkept := hlost trivial t hreport data hdata
  rw [hdelete] at hkept
  exact absurd hkept (by simp)

/-- A report write is atomic under every failure exactly when its final path stops short
of the buffer's last byte and no report lies at its temporary path. -/
theorem writeReportFile_atomic_iff (store : Store) (form : Form)
    (identity scanId timestamp content : Bytes) (reports : Set Key) (fs : Fs) :
    (∀ env calls, Atomic store form identity scanId timestamp content reports fs
      (writeReportFile (storePlatform env) .posix store identity scanId timestamp form.extension
        content { fs, calls })) ↔
      ∀ plan : Plan .posix store identity scanId timestamp form.extension,
        plan.final.length ≠ storePathMax - 1 ∧
          TempIsFree reports fs plan.dir (tempPath plan.final) := by
  constructor
  · intro hatomic plan
    have hseparate := (hatomic .quiet 0).separate plan
    exact ⟨fun hlen => hseparate (tempPath_of_long hlen), temp_free_of_atomic hatomic plan⟩
  · exact fun hfree env calls => atomic_of_temp_free hfree env calls

end Atomicity

/-- A root and a scan id that together fill the path buffer to its last byte. -/
def longRoot : Bytes :=
  slash :: List.replicate 150 114 ++ slash :: List.replicate 149 114

def longId : Bytes := List.replicate 173 105

def fullPath : Bytes :=
  longRoot ++ ascii "/scans/usb_3A1/20260911T140203Z-" ++ longId ++ ascii ".json"

def fullKey : Key :=
  [List.replicate 150 114, List.replicate 149 114, ascii "scans", ascii "usb_3A1",
    ascii "20260911T140203Z-" ++ longId ++ ascii ".json"]

/-- A store that already has the report. -/
def storeWithReport : Fs :=
  { cwd := []
    dirs := [fullKey.take 4, fullKey.take 3, fullKey.take 2, fullKey.take 1]
    files := (∅ : AList fun _ : Key => Bytes).insert fullKey (ascii "old") }

/-- The disk is full when the fifth call, the write, is made. -/
def diskFull : Behaviour where
  fault n := if n = 4 then some { errno := .enospc, progress := some 0 } else none

def fullRun : Except Status Bytes × Disk :=
  writeReportFile (storePlatform diskFull) .posix ⟨longRoot⟩ (ascii "usb:1") longId
    (ascii "2026-09-11T14:02:03Z") (ascii "json") (ascii "new") { fs := storeWithReport }

theorem writeReportFile_loses_report :
    tempPath fullPath = fullPath ∧ storeWithReport.locate fullPath = .ok fullKey ∧
      storeWithReport.content fullKey = some (ascii "old") ∧
      fullRun.1 = .error .internal ∧ fullRun.2.fs.content fullKey = none := by
  have hplace : tempPath fullPath = fullPath ∧ storeWithReport.locate fullPath = .ok fullKey := by
    decide +kernel
  have hlost : fullRun.1 = .error .internal ∧ fullRun.2.fs.content fullKey = none := by
    decide +kernel
  exact ⟨hplace.1, hplace.2, AList.lookup_insert _, hlost⟩

end UsbSentinel.Store
