import UsbSentinel.ScanChecks

/-! The marks that a walk leaves: a stop, a skip, an exclusion. -/
namespace UsbSentinel.Scanner
open ByteString UsbSentinel.Path

variable {scan : Scan}

/-- Neither a skip nor an exclusion happened, and the walk goes on. -/
structure Unmarked (st st' : WalkState) : Prop where
  goes_on : st'.stopped = false
  skipped : st'.pathsSkipped = st.pathsSkipped
  excluded : st'.pathsExcluded = st.pathsExcluded

/-- Marks are never taken back. -/
structure Marks (st st' : WalkState) : Prop where
  stopped : st.stopped = true → st'.stopped = true
  skipped : st.pathsSkipped ≤ st'.pathsSkipped
  excluded : st.pathsExcluded ≤ st'.pathsExcluded

theorem Marks.refl (st : WalkState) : Marks st st := ⟨id, le_refl _, le_refl _⟩

theorem Marks.trans {a b c : WalkState} (hab : Marks a b) (hbc : Marks b c) : Marks a c :=
  ⟨fun h => hbc.stopped (hab.stopped h), hab.skipped.trans hbc.skipped,
    hab.excluded.trans hbc.excluded⟩

/-- A failure below the root is marked. -/
theorem classifyPathFailure_marks (scan : Scan) (st : WalkState) :
    Marks st (classifyPathFailure scan st) ∧ ¬ Unmarked st (classifyPathFailure scan st) := by
  unfold classifyPathFailure World.dirOpen
  cases scan.host.dirOpen st.world.trace scan.device.volumePath with
  | ok listing =>
    refine ⟨⟨id, Nat.le_succ _, le_refl _⟩, fun h => ?_⟩
    have := h.skipped
    simp only at this
    omega
  | error e =>
    refine ⟨⟨fun _ => by simp [WalkState.stopped], le_refl _, le_refl _⟩, fun h => ?_⟩
    have := h.goes_on
    simp [WalkState.stopped] at this

theorem Step.marks {D : Bytes → Prop} {F : Bytes → DirEntry → Prop} {st st' : WalkState}
    (h : Step scan D F st st') : Marks st st' := by
  cases h with
  | poll | opened | visited => exact ⟨id, le_refl _, le_refl _⟩
  | cancel => exact ⟨fun _ => by simp [WalkState.stopped], le_refl _, le_refl _⟩
  | failed => exact (classifyPathFailure_marks scan st).1
  | excluded => exact ⟨id, le_refl _, Nat.le_succ _⟩

theorem Steps.marks {D : Bytes → Prop} {F : Bytes → DirEntry → Prop} {st st' : WalkState}
    (h : Steps scan D F st st') : Marks st st' := by
  induction h with
  | refl => exact .refl st
  | tail _ hlast ih => exact ih.trans hlast.marks

theorem Unmarked.split {a b c : WalkState} (hab : Marks a b) (hbc : Marks b c)
    (h : Unmarked a c) : Unmarked a b ∧ Unmarked b c := by
  have hskipped := h.skipped
  have hexcluded := h.excluded
  have h1 := hab.skipped
  have h2 := hbc.skipped
  have h3 := hab.excluded
  have h4 := hbc.excluded
  refine ⟨⟨?_, by omega, by omega⟩, ⟨h.goes_on, by omega, by omega⟩⟩
  by_contra hstopped
  have := hbc.stopped (by simpa using hstopped)
  rw [h.goes_on] at this
  cases this

theorem walkEntries_marks (scan : Scan) (levels : ℕ) (dir : Bytes) (ending : Status) (entries : List DirEntry)
    (st : WalkState) :
    Marks st (walkEntries scan (walkDir scan levels) dir ending entries st).2 := by
  refine (show Steps scan (fun _ => True) (fun _ _ => True) st _ from walkEntries_steps ?_ ?_ st).marks
  · exact fun path st _ => walkDir_steps (closed_true scan) trivial st
  · intros
    split <;> trivial

theorem walkDir_marks (scan : Scan) (levels : ℕ) (dir : Bytes) (st : WalkState) :
    Marks st (walkDir scan levels dir st).2 :=
  (walkDir_steps (closed_true scan) trivial st).marks

lemma Unmarked.started {levels : ℕ} {dir : Bytes} {st : WalkState}
    (h : Unmarked st (walkDir scan levels dir st).2) : st.stopped = false := by
  by_contra hstopped
  have := (walkDir_marks scan levels dir st).stopped (by simpa using hstopped)
  rw [h.goes_on] at this
  cases this

/-- Only the root's failure to open is an error of the walk. -/
theorem walkEntries_ok {descend : Bytes → WalkState → Status × WalkState} {dir : Bytes}
    (hdescend : ∀ path st, (descend path st).1 = .ok) (ending : Status)
    (entries : List DirEntry) (st : WalkState) :
    (walkEntries scan descend dir ending entries st).1 = .ok := by
  induction entries generalizing st with
  | nil =>
    simp only [walkEntries]
    split_ifs <;> rfl
  | cons entry rest ih =>
    obtain ⟨outcome, houtcome, heq⟩ := walkEntries_cons scan descend dir ending entry rest st
    rw [heq]
    cases houtcome with
    | cancelled => rfl
    | ended => exact hdescend _ _
    | reparse | tooLong | file | excluded | entered => exact ih _

theorem walkDir_ok {levels : ℕ} (hlevels : levels ≤ scanMaxDepth) (dir : Bytes) (st : WalkState) :
    (walkDir scan levels dir st).1 = .ok := by
  induction levels generalizing dir st with
  | zero => rfl
  | succ levels ih =>
    have hne : levels ≠ scanMaxDepth := by omega
    unfold walkDir World.dirOpen
    by_cases hstopped : st.stopped = true
    · simp only [hstopped, if_true]
    · simp only [hstopped, Bool.false_eq_true, if_false]
      cases scan.host.dirOpen st.world.trace dir with
      | error e => simp only [hne, if_false]
      | ok listing => exact walkEntries_ok (fun path st => ih (by omega) path st) _ _ _

theorem visitFile_registered {path : Bytes} {entry : DirEntry} {st : WalkState}
    (hslots : Registered st.slots) : Registered (visitFile scan path entry st).slots :=
  have hstep : Step scan (fun _ => True) (fun _ _ => True) st (visitFile scan path entry st) :=
    .visited st trivial
  (hstep.slotsKept hslots).registered hslots

theorem visitFile_counted (path : Bytes) (entry : DirEntry) {st : WalkState}
    (hslots : Registered st.slots) :
    countedFiles (visitFile scan path entry st).world.trace =
      countedFiles st.world.trace ++ [(path, entry)] :=
  (visitFile_events path entry hslots []).1

def WalkState.opened (st : WalkState) (path : Bytes) : WalkState :=
  { st with world := st.world.record (.dirOpen path) }

theorem opened_counted (st : WalkState) (path : Bytes) :
    countedFiles (st.opened path).world.trace = countedFiles st.world.trace :=
  (opened_events st.world path []).1

theorem walkDir_refused {levels : ℕ} {path : Bytes} {st : WalkState} {e : Status}
    (hgoes : st.stopped = false) (hlevels : levels ≠ scanMaxDepth)
    (hopen : scan.host.dirOpen st.world.trace path = .error e) :
    (walkDir scan (levels + 1) path st).2 =
      classifyPathFailure scan (st.opened path) := by
  simp [walkDir, World.dirOpen, WalkState.opened, hgoes, hopen, hlevels]

theorem walkDir_listed (levels : ℕ) {path : Bytes} {st : WalkState} {listing : Listing}
    (hgoes : st.stopped = false) (hopen : scan.host.dirOpen st.world.trace path = .ok listing) :
    walkDir scan (levels + 1) path st =
      walkEntries scan (walkDir scan levels) path listing.ending listing.entries
        (st.opened path) := by
  simp [walkDir, World.dirOpen, WalkState.opened, hgoes, hopen]

end UsbSentinel.Scanner
