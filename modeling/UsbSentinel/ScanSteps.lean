import UsbSentinel.Scanner

/-! Every walk is a sequence of elementary steps, so what a step preserves a walk
preserves. -/
namespace UsbSentinel.Scanner
open ByteString Relation

variable (scan : Scan)

/-- The elementary steps of a walk that opens only directories in `D` and visits only files
in `F`. -/
inductive Step (D : Bytes → Prop) (F : Bytes → DirEntry → Prop) : WalkState → WalkState → Prop
  | poll (st : WalkState) : Step D F st { st with polls := st.polls + 1 }
  | cancel (st : WalkState) : Step D F st { st with cancelled := true }
  | opened (st : WalkState) {path : Bytes} (hD : D path) :
      Step D F st { st with world := st.world.record (.dirOpen path) }
  | failed (st : WalkState) : Step D F st (classifyPathFailure scan st)
  | excluded (st : WalkState) : Step D F st { st with pathsExcluded := st.pathsExcluded + 1 }
  | visited (st : WalkState) {path : Bytes} {entry : DirEntry} (hF : F path entry) :
      Step D F st (visitFile scan path entry st)

abbrev Steps (D : Bytes → Prop) (F : Bytes → DirEntry → Prop) : WalkState → WalkState → Prop :=
  ReflTransGen (Step scan D F)

/-- `D` and `F` are closed under listing: what a listed directory of `D` shows, reparse
points apart, is in them again. -/
structure Closed (D : Bytes → Prop) (F : Bytes → DirEntry → Prop) : Prop where
  below : ∀ {t dir listing entry path}, D dir → scan.host.dirOpen t dir = .ok listing →
    entry ∈ listing.entries → entry.isReparsePoint = false →
    childPath scan.host.kind dir entry.name = .ok path →
    if entry.isDirectory then D path else F path entry

theorem closed_true : Closed scan (fun _ => True) (fun _ _ => True) :=
  ⟨by intros; split <;> trivial⟩

def WalkState.polled (st : WalkState) : WalkState := { st with polls := st.polls + 1 }

/-- What the loop over a listing does with its next entry: it ends, or goes on in another
state. -/
inductive EntryOutcome (descend : Bytes → WalkState → Status × WalkState) (dir : Bytes)
    (entry : DirEntry) (st : WalkState) : (Status × WalkState) ⊕ WalkState → Prop
  | cancelled (hcancel : scan.cancel st.polls = true) :
      EntryOutcome descend dir entry st (.inl (.ok, { st.polled with cancelled := true }))
  | reparse (hreparse : entry.isReparsePoint = true) (hcancel : scan.cancel st.polls = false) :
      EntryOutcome descend dir entry st (.inr st.polled)
  | tooLong (hreparse : entry.isReparsePoint = false) {e : Status}
      (hpath : childPath scan.host.kind dir entry.name = .error e)
      (hcancel : scan.cancel st.polls = false) :
      EntryOutcome descend dir entry st (.inr st.polled)
  | file (hreparse : entry.isReparsePoint = false) {path : Bytes}
      (hpath : childPath scan.host.kind dir entry.name = .ok path)
      (hdir : entry.isDirectory = false) (hcancel : scan.cancel st.polls = false) :
      EntryOutcome descend dir entry st (.inr (visitFile scan path entry st.polled))
  | excluded (hreparse : entry.isReparsePoint = false) {path : Bytes}
      (hpath : childPath scan.host.kind dir entry.name = .ok path)
      (hdir : entry.isDirectory = true) (hexcluded : isExcluded scan.device path = true)
      (hcancel : scan.cancel st.polls = false) :
      EntryOutcome descend dir entry st
        (.inr { st.polled with pathsExcluded := st.pathsExcluded + 1 })
  | entered (hreparse : entry.isReparsePoint = false) {path : Bytes}
      (hpath : childPath scan.host.kind dir entry.name = .ok path)
      (hdir : entry.isDirectory = true) (hexcluded : isExcluded scan.device path = false)
      (hcancel : scan.cancel st.polls = false) (hgoes : (descend path st.polled).2.stopped = false) :
      EntryOutcome descend dir entry st (.inr (descend path st.polled).2)
  | ended (hreparse : entry.isReparsePoint = false) {path : Bytes}
      (hpath : childPath scan.host.kind dir entry.name = .ok path)
      (hdir : entry.isDirectory = true)
      (hend : (descend path st.polled).1 ≠ .ok ∨ (descend path st.polled).2.stopped = true)
      (hexcluded : isExcluded scan.device path = false) (hcancel : scan.cancel st.polls = false) :
      EntryOutcome descend dir entry st (.inl (descend path st.polled))

theorem walkEntries_cons (descend : Bytes → WalkState → Status × WalkState) (dir : Bytes)
    (ending : Status) (entry : DirEntry) (rest : List DirEntry) (st : WalkState) :
    ∃ outcome, EntryOutcome scan descend dir entry st outcome ∧
      walkEntries scan descend dir ending (entry :: rest) st =
        outcome.elim id (walkEntries scan descend dir ending rest) := by
  unfold walkEntries
  by_cases hcancel : scan.cancel st.polls = true
  · simp only [hcancel, if_true]
    exact ⟨_, .cancelled hcancel, rfl⟩
  have hcancel : scan.cancel st.polls = false := by simpa using hcancel
  by_cases hreparse : entry.isReparsePoint = true
  · simp only [hcancel, hreparse, Bool.false_eq_true, if_false, if_true]
    exact ⟨_, .reparse hreparse hcancel, rfl⟩
  simp only [hcancel, hreparse, Bool.false_eq_true, if_false]
  have hreparse : entry.isReparsePoint = false := by simpa using hreparse
  cases hpath : childPath scan.host.kind dir entry.name with
  | error e => exact ⟨_, .tooLong hreparse hpath hcancel, rfl⟩
  | ok path =>
    by_cases hdir : entry.isDirectory = true
    · simp only [hdir, if_true]
      by_cases hexcluded : isExcluded scan.device path = true
      · simp only [hexcluded, if_true]
        exact ⟨_, .excluded hreparse hpath hdir hexcluded hcancel, rfl⟩
      · simp only [hexcluded, Bool.false_eq_true, if_false]
        have hexcluded : isExcluded scan.device path = false := by simpa using hexcluded
        have hended : ((descend path st.polled).1 ≠ .ok ∨
            (descend path st.polled).2.stopped = true) →
              EntryOutcome scan descend dir entry st (.inl (descend path st.polled)) :=
          fun hend => .ended hreparse hpath hdir hend hexcluded hcancel
        split
        · rename_i st' hst'
          by_cases hstopped : st'.stopped = true
          · rw [if_pos hstopped]
            refine ⟨_, hended (.inr ?_), hst'.symm⟩
            exact (congrArg (fun r => WalkState.stopped r.2) hst').trans hstopped
          · rw [if_neg hstopped]
            have hgoes : (descend path st.polled).2.stopped = false :=
              (congrArg (fun r => WalkState.stopped r.2) hst').trans (by simpa using hstopped)
            refine ⟨_, .entered hreparse hpath hdir hexcluded hcancel hgoes, ?_⟩
            exact congrArg (fun r => walkEntries scan descend dir ending rest r.2) hst'.symm
        · rename_i hnotok hst'
          refine ⟨_, hended (.inl fun hok => ?_), hst'.symm⟩
          exact hnotok ((congrArg Prod.fst hst').symm.trans hok)
    · simp only [hdir, Bool.false_eq_true, if_false]
      exact ⟨_, .file hreparse hpath (by simpa using hdir) hcancel, rfl⟩

variable {scan} {D : Bytes → Prop} {F : Bytes → DirEntry → Prop}

theorem walkEntries_steps {descend : Bytes → WalkState → Status × WalkState} {dir : Bytes}
    {ending : Status} {entries : List DirEntry}
    (hdescend : ∀ path st, D path → Steps scan D F st (descend path st).2)
    (hbelow : ∀ entry ∈ entries, ∀ path, entry.isReparsePoint = false →
      childPath scan.host.kind dir entry.name = .ok path →
      if entry.isDirectory then D path else F path entry)
    (st : WalkState) : Steps scan D F st (walkEntries scan descend dir ending entries st).2 := by
  have hpoll : ∀ st, Steps scan D F st st.polled := fun st => .single (.poll st)
  induction entries generalizing st with
  | nil =>
    simp only [walkEntries]
    split_ifs
    · exact (hpoll st).tail (.cancel _)
    · exact hpoll st
    · exact (hpoll st).tail (.failed _)
  | cons entry rest ih =>
    have hrest := ih fun e he => hbelow e (List.mem_cons_of_mem _ he)
    have hentry := hbelow entry (List.mem_cons_self ..)
    obtain ⟨outcome, houtcome, heq⟩ := walkEntries_cons scan descend dir ending entry rest st
    rw [heq]
    cases houtcome with
    | cancelled => exact (hpoll st).tail (.cancel _)
    | reparse => exact (hpoll st).trans (hrest _)
    | tooLong => exact (hpoll st).trans (hrest _)
    | file hreparse hpath hdir =>
      have hF := hentry _ hreparse hpath
      rw [hdir] at hF
      exact ((hpoll st).tail (.visited _ hF)).trans (hrest _)
    | excluded => exact ((hpoll st).tail (.excluded _)).trans (hrest _)
    | entered hreparse hpath hdir =>
      have hD := hentry _ hreparse hpath
      rw [if_pos hdir] at hD
      exact ((hpoll st).trans (hdescend _ _ hD)).trans (hrest _)
    | ended hreparse hpath hdir =>
      have hD := hentry _ hreparse hpath
      rw [if_pos hdir] at hD
      exact (hpoll st).trans (hdescend _ _ hD)

theorem walkDir_steps (hclosed : Closed scan D F) {levels : ℕ} {dir : Bytes} (hD : D dir)
    (st : WalkState) : Steps scan D F st (walkDir scan levels dir st).2 := by
  induction levels generalizing dir st with
  | zero => exact .refl
  | succ levels ih =>
    unfold walkDir World.dirOpen
    by_cases hstopped : st.stopped = true
    · simp only [hstopped, if_true]
      exact .refl
    · simp only [hstopped, Bool.false_eq_true, if_false]
      have hopened : Steps scan D F st { st with world := st.world.record (.dirOpen dir) } :=
        .single (.opened st hD)
      cases hopen : scan.host.dirOpen st.world.trace dir with
      | error e =>
        simp only
        split_ifs
        · exact hopened
        · exact hopened.tail (.failed _)
      | ok listing =>
        refine hopened.trans (walkEntries_steps (fun path st hpath => ih hpath st) ?_ _)
        exact fun entry he path hr hp => hclosed.below hD hopen he hr hp

theorem walkVolume_steps (hclosed : Closed scan D F) (hD : D scan.device.volumePath)
    (signatures : SignatureState) :
    Steps scan D F (initialState scan signatures) (walkVolume scan signatures).2 :=
  walkDir_steps hclosed hD _

/-- The walk of any volume, with nothing said about what it opens. -/
theorem walkVolume_run (signatures : SignatureState) :
    Steps scan (fun _ => True) (fun _ _ => True) (initialState scan signatures)
      (walkVolume scan signatures).2 :=
  walkVolume_steps (closed_true scan) trivial signatures

/-- The slots hold results of the same detectors, still marked as run. -/
def SlotsKept (st st' : WalkState) : Prop :=
  st'.slots.map (fun s => (s.detector, s.result.id, s.result.status)) =
    st.slots.map fun s => (s.detector, s.result.id, s.result.status)

/-- Slots of registered detectors. -/
def Registered (slots : List Slot) : Prop := ∀ s ∈ slots, s.detector ∈ Registry.detectors

theorem dispatch_slots (path : Bytes) (entry : DirEntry) {slots : List Slot}
    (hslots : Registered slots) (w : World) :
    (dispatch scan path entry slots w).1.map (fun s => (s.detector, s.result.id, s.result.status)) =
      slots.map fun s => (s.detector, s.result.id, s.result.status) := by
  induction slots generalizing w with
  | nil => rfl
  | cons slot rest ih =>
    have hrest := ih (fun s hs => hslots s (List.mem_cons_of_mem _ hs))
    simp only [dispatch, handFile, List.map_cons, hrest, List.cons.injEq, Prod.mk.injEq, true_and,
      and_true]
    cases hf : slot.detector.onFile with
    | none => exact ⟨rfl, rfl⟩
    | some f =>
      have hvisit := Registry.onFile_visits (hslots slot (List.mem_cons_self ..)) hf scan.host
        scan.device slot.result path entry (w.record (.onFile slot.detector.id path entry))
      exact ⟨hvisit.id_eq, hvisit.status_eq⟩

theorem SlotsKept.registered {st st' : WalkState} (h : SlotsKept st st')
    (hst : Registered st.slots) : Registered st'.slots := by
  intro s hs
  have hmem : (s.detector, s.result.id, s.result.status) ∈
      st.slots.map fun s => (s.detector, s.result.id, s.result.status) :=
    h ▸ List.mem_map_of_mem hs
  obtain ⟨s', hs', heq⟩ := List.mem_map.mp hmem
  have hdetector : s'.detector = s.detector := (Prod.mk.inj heq).1
  exact hdetector ▸ hst s' hs'

theorem Step.slotsKept {st st' : WalkState} (h : Step scan D F st st')
    (hst : Registered st.slots) : SlotsKept st st' := by
  cases h with
  | poll | cancel | opened | excluded => rfl
  | failed =>
    unfold classifyPathFailure SlotsKept World.dirOpen
    cases scan.host.dirOpen st.world.trace scan.device.volumePath <;> rfl
  | visited => exact dispatch_slots _ _ hst _

theorem Steps.slotsKept {st st' : WalkState} (h : Steps scan D F st st')
    (hst : Registered st.slots) : SlotsKept st st' := by
  induction h with
  | refl => rfl
  | tail _ hlast ih => exact (hlast.slotsKept (ih.registered hst)).trans ih

theorem initialState_registered (signatures : SignatureState) :
    Registered (initialState scan signatures).slots := by
  intro s hs
  simp only [initialState, prepareOnFileSlots] at hs
  split_ifs at hs
  · obtain ⟨d, hd, rfl⟩ := List.mem_map.mp hs
    exact List.mem_of_mem_filter hd
  · simp at hs

theorem walkVolume_slots (scan : Scan) (signatures : SignatureState) :
    SlotsKept (initialState scan signatures) (walkVolume scan signatures).2 :=
  (walkVolume_run signatures).slotsKept (initialState_registered signatures)

end UsbSentinel.Scanner
