import UsbSentinel.ScanSteps

/-! A walk as a run of moves, each with what it requires. None is made from a state in which
the walk has to end. -/
namespace UsbSentinel.Scanner
open ByteString Relation

variable (scan : Scan)

inductive Move : WalkState → WalkState → Prop
  | asked {st : WalkState} (hgoes : st.stopped = false) (hcancel : scan.cancel st.polls = false) :
      Move st st.polled
  | cancelled {st : WalkState} (hgoes : st.stopped = false)
      (hcancel : scan.cancel st.polls = true) : Move st { st.polled with cancelled := true }
  | opened {st : WalkState} (hgoes : st.stopped = false) (path : Bytes) :
      Move st { st with world := st.world.record (.dirOpen path) }
  | failed {st : WalkState} (hgoes : st.stopped = false) : Move st (classifyPathFailure scan st)
  | excluded {st : WalkState} (hgoes : st.stopped = false) :
      Move st { st with pathsExcluded := st.pathsExcluded + 1 }
  | visited {st : WalkState} (hgoes : st.stopped = false) (path : Bytes) (entry : DirEntry) :
      Move st (visitFile scan path entry st)

abbrev Moves : WalkState → WalkState → Prop := ReflTransGen (Move scan)

variable {scan}

lemma Move.goes {st st' : WalkState} (h : Move scan st st') : st.stopped = false := by
  cases h <;> assumption

lemma walkEntries_moves {descend : Bytes → WalkState → Status × WalkState} {dir : Bytes}
    {ending : Status} {entries : List DirEntry}
    (hdescend : ∀ path st, Moves scan st (descend path st).2) {st : WalkState}
    (hgoes : st.stopped = false) :
    Moves scan st (walkEntries scan descend dir ending entries st).2 := by
  induction entries generalizing st with
  | nil =>
    simp only [walkEntries]
    split_ifs with hcancel hending
    · exact .single (.cancelled hgoes hcancel)
    · exact .single (.asked hgoes (by simpa using hcancel))
    · exact (ReflTransGen.single (.asked hgoes (by simpa using hcancel))).tail (.failed hgoes)
  | cons entry rest ih =>
    obtain ⟨outcome, houtcome, heq⟩ := walkEntries_cons scan descend dir ending entry rest st
    rw [heq]
    cases houtcome with
    | cancelled hcancel => exact .single (.cancelled hgoes hcancel)
    | reparse _ hcancel => exact (ReflTransGen.single (.asked hgoes hcancel)).trans (ih hgoes)
    | tooLong _ _ hcancel => exact (ReflTransGen.single (.asked hgoes hcancel)).trans (ih hgoes)
    | file _ _ _ hcancel =>
      have hasked : Moves scan st st.polled := .single (.asked hgoes hcancel)
      exact (hasked.tail (@Move.visited scan st.polled hgoes _ _)).trans (ih hgoes)
    | excluded _ _ _ _ hcancel =>
      have hasked : Moves scan st st.polled := .single (.asked hgoes hcancel)
      exact (hasked.tail (@Move.excluded scan st.polled hgoes)).trans (ih hgoes)
    | entered _ _ _ _ hcancel hstill =>
      have hasked : Moves scan st st.polled := .single (.asked hgoes hcancel)
      exact (hasked.trans (hdescend _ _)).trans (ih hstill)
    | ended _ _ _ _ _ hcancel =>
      have hasked : Moves scan st st.polled := .single (.asked hgoes hcancel)
      exact hasked.trans (hdescend _ _)

theorem walkDir_moves (levels : ℕ) (dir : Bytes) (st : WalkState) :
    Moves scan st (walkDir scan levels dir st).2 := by
  induction levels generalizing dir st with
  | zero => exact .refl
  | succ levels ih =>
    unfold walkDir World.dirOpen
    by_cases hstopped : st.stopped = true
    · simp only [hstopped, if_true]
      exact .refl
    · have hgoes : st.stopped = false := by simpa using hstopped
      simp only [hgoes, Bool.false_eq_true, if_false]
      have hopened : Moves scan st { st with world := st.world.record (.dirOpen dir) } :=
        .single (.opened hgoes dir)
      cases scan.host.dirOpen st.world.trace dir with
      | error e =>
        simp only
        split_ifs
        · exact hopened
        · exact hopened.tail (.failed hgoes)
      | ok listing => exact hopened.trans (walkEntries_moves ih hgoes)

theorem walkVolume_moves (signatures : SignatureState) :
    Moves scan (initialState scan signatures) (walkVolume scan signatures).2 :=
  walkDir_moves _ _ _

/-- A true answer has been heeded: it was the last one asked for. -/
structure Heeds (scan : Scan) (st : WalkState) : Prop where
  last : ∀ n < st.polls, scan.cancel n = true → st.cancelled = true ∧ n + 1 = st.polls
  caused : st.cancelled = true → ∃ n < st.polls, scan.cancel n = true

lemma classifyPathFailure_flags (st : WalkState) :
    (classifyPathFailure scan st).polls = st.polls ∧
      (classifyPathFailure scan st).cancelled = st.cancelled := by
  unfold classifyPathFailure World.dirOpen
  cases scan.host.dirOpen st.world.trace scan.device.volumePath <;> exact ⟨rfl, rfl⟩

lemma Move.heeds {st st' : WalkState} (h : Move scan st st') (hst : Heeds scan st) :
    Heeds scan st' := by
  have huncancelled : st.cancelled = false := by
    have hgoes := h.goes
    simp only [WalkState.stopped, Bool.or_eq_false_iff] at hgoes
    exact hgoes.1
  have hfalse : ∀ n < st.polls, scan.cancel n = true → False := by
    intro n hn htrue
    have hcancelled := (hst.last n hn htrue).1
    rw [huncancelled] at hcancelled
    cases hcancelled
  cases h with
  | asked _ hcancel =>
    refine ⟨?_, ?_⟩
    · intro n hn htrue
      exfalso
      rcases Nat.lt_succ_iff_lt_or_eq.mp hn with hlt | rfl
      · exact hfalse n hlt htrue
      · rw [hcancel] at htrue
        cases htrue
    · intro htrue
      exact absurd (huncancelled.symm.trans htrue) (by simp)
  | cancelled _ hcancel =>
    refine ⟨?_, fun _ => ⟨st.polls, Nat.lt_succ_self _, hcancel⟩⟩
    intro n hn htrue
    rcases Nat.lt_succ_iff_lt_or_eq.mp hn with hlt | rfl
    · exact absurd htrue fun h => hfalse n hlt h
    · exact ⟨rfl, rfl⟩
  | opened => exact ⟨hst.last, hst.caused⟩
  | failed =>
    obtain ⟨hpolls, hcancelled⟩ := @classifyPathFailure_flags scan st
    refine ⟨?_, ?_⟩
    · rw [hpolls, hcancelled]
      exact hst.last
    · rw [hpolls, hcancelled]
      exact hst.caused
  | excluded => exact ⟨hst.last, hst.caused⟩
  | visited => exact ⟨hst.last, hst.caused⟩

lemma Moves.heeds {st st' : WalkState} (h : Moves scan st st') (hst : Heeds scan st) :
    Heeds scan st' := by
  induction h with
  | refl => exact hst
  | tail _ hlast ih => exact hlast.heeds ih

/-- The walk ends where it is stopped: by the first true answer, or by the probe that does
not find the root. Nothing happens after that. -/
structure Halts (scan : Scan) (start final : WalkState) : Prop where
  moves : Moves scan start final
  heeded : ∀ n < final.polls, scan.cancel n = true → final.cancelled = true ∧ n + 1 = final.polls
  cancelled : final.cancelled = true → ∃ st, Moves scan start st ∧ st.stopped = false ∧
    scan.cancel st.polls = true ∧ final = { st.polled with cancelled := true }
  removed : final.deviceRemoved = true → ∃ st, Moves scan start st ∧ st.stopped = false ∧
    (∃ e, scan.host.dirOpen st.world.trace scan.device.volumePath = .error e) ∧
      final = { st with
        world := st.world.record (.dirOpen scan.device.volumePath)
        deviceRemoved := true }

lemma halts_of_moves {start final : WalkState} (hgoes : start.stopped = false)
    (hstart : Heeds scan start) (h : Moves scan start final) : Halts scan start final := by
  have hlast : final.stopped = true → ∃ st, Moves scan start st ∧ Move scan st final := by
    intro hstopped
    rcases ReflTransGen.cases_tail h with heq | ⟨st, hst, hmove⟩
    · rw [heq, hgoes] at hstopped
      cases hstopped
    · exact ⟨st, hst, hmove⟩
  have hflags : ∀ st : WalkState, st.stopped = false →
      st.cancelled = false ∧ st.deviceRemoved = false := by
    intro st hst
    simpa only [WalkState.stopped, Bool.or_eq_false_iff] using hst
  refine ⟨h, (h.heeds hstart).last, ?_, ?_⟩
  · intro hcancelled
    obtain ⟨st, hst, hmove⟩ := hlast (by simp [WalkState.stopped, hcancelled])
    have hbefore := (hflags st hmove.goes).1
    cases hmove with
    | cancelled hgoes hcancel => exact ⟨st, hst, hgoes, hcancel, rfl⟩
    | asked => exact absurd hcancelled (by rw [show st.polled.cancelled = st.cancelled from rfl, hbefore]; simp)
    | failed =>
      rw [(classifyPathFailure_flags st).2, hbefore] at hcancelled
      cases hcancelled
    | opened | excluded => exact absurd hcancelled (by simp [hbefore])
    | visited => exact absurd hcancelled (by simp [visitFile, hbefore])
  · intro hremoved
    obtain ⟨st, hst, hmove⟩ := hlast (by simp [WalkState.stopped, hremoved])
    have hbefore := (hflags st hmove.goes).2
    cases hmove with
    | failed hgoes =>
      refine ⟨st, hst, hgoes, ?_⟩
      unfold classifyPathFailure World.dirOpen at hremoved ⊢
      cases hopen : scan.host.dirOpen st.world.trace scan.device.volumePath with
      | ok listing =>
        simp only [hopen, hbefore] at hremoved
        cases hremoved
      | error e => exact ⟨⟨e, rfl⟩, rfl⟩
    | asked => exact absurd hremoved (by simp [WalkState.polled, hbefore])
    | cancelled => exact absurd hremoved (by simp [WalkState.polled, hbefore])
    | opened | excluded => exact absurd hremoved (by simp [hbefore])
    | visited => exact absurd hremoved (by simp [visitFile, hbefore])

theorem walkVolume_halts (signatures : SignatureState) :
    Halts scan (initialState scan signatures) (walkVolume scan signatures).2 := by
  refine halts_of_moves rfl ⟨?_, ?_⟩ (walkVolume_moves signatures)
  · intro n hn
    exact absurd hn (Nat.not_lt_zero n)
  · intro h
    cases h

/-- No detector of the whole volume runs after a stop. -/
lemma scannerScan_stopped {signatures : SignatureState}
    (h : (walkVolume scan signatures).2.stopped = true) :
    (scannerScan scan signatures).2 = (walkVolume scan signatures).2.world := by
  simp [scannerScan, detectorChecks, incomplete, h]

end UsbSentinel.Scanner
