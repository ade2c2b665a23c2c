import UsbSentinel.MediumTree
import UsbSentinel.ScanMarks

/-! What a walk without a skip or an exclusion visits: every site as often as shown entries lead to
it, and there the files that the listing shows. -/
namespace UsbSentinel.Scanner
open ByteString UsbSentinel.Path

variable {scan : Scan}

/-- What the walk does at a path: it opens a directory there, or counts a file. -/
inductive Visit
  | dir (path : Bytes)
  | file (path : Bytes) (entry : DirEntry)
  deriving DecidableEq

def visitEvent : Event → Option Visit
  | .dirOpen path => some (.dir path)
  | .counted path entry => some (.file path entry)
  | _ => none

/-- The visits of a trace, in any order. -/
def visits (t : Trace) : Multiset Visit := ↑(t.filterMap visitEvent)

/-! ### One step -/

lemma visits_append (t : Trace) (e : Event) :
    visits (t ++ [e]) = visits t + ↑(visitEvent e).toList := by
  unfold visits
  rw [List.filterMap_append, ← Multiset.coe_add]
  cases h : visitEvent e <;> simp [h]

lemma dispatch_visits (path : Bytes) (entry : DirEntry) {slots : List Slot}
    (hslots : Registered slots) (w : World) :
    visits (dispatch scan path entry slots w).2.trace = visits w.trace := by
  induction slots generalizing w with
  | nil => rfl
  | cons slot rest ih =>
    have hrest := ih (fun s hs => hslots s (List.mem_cons_of_mem _ hs)) (handFile scan path entry slot w).2
    have hrecord : visits (w.record (.onFile slot.detector.id path entry)).trace = visits w.trace := by
      rw [World.record_trace, visits_append]
      exact add_zero _
    refine hrest.trans ?_
    rw [← hrecord]
    simp only [handFile]
    cases hf : slot.detector.onFile with
    | none => rfl
    | some f =>
      have hvisit := Registry.onFile_visits (hslots slot (List.mem_cons_self ..)) hf scan.host
        scan.device slot.result path entry (w.record (.onFile slot.detector.id path entry))
      refine congrArg (fun l : List Visit => (l : Multiset Visit))
        (hvisit.continues.filterMap_eq fun e he => ?_)
      rcases he with ⟨p, _, rfl⟩ | ⟨rfl, _⟩ <;> rfl

lemma visitFile_visits (path : Bytes) (entry : DirEntry) {st : WalkState}
    (hslots : Registered st.slots) :
    visits (visitFile scan path entry st).world.trace =
      visits st.world.trace + {.file path entry} := by
  simp only [visitFile]
  rw [dispatch_visits path entry hslots]
  cases scan.onProgress with
  | false => exact visits_append _ _
  | true =>
    simp only [if_true]
    rw [World.record_trace, visits_append, World.record_trace, visits_append]
    exact add_zero _

lemma opened_visits (st : WalkState) (path : Bytes) :
    visits (st.opened path).world.trace = visits st.world.trace + {.dir path} := by
  simp [WalkState.opened, visits_append, visitEvent]

/-! ### One listing -/

/-- What an entry of a listing adds; `found` is what a directory listed under the name adds. -/
def noted (kind : Host) (dir : Bytes) (found : Bytes → Multiset Visit) (e : DirEntry) :
    Multiset Visit :=
  if (joined kind dir e.name).length < childPathMax then
    if e.isFile then {.file (joined kind dir e.name) e}
    else if e.isEntered then found e.name else 0
  else 0

/-- A listing walked without a mark, given what the walk of each directory in it visits. By
induction on the entries. -/
theorem walkEntries_visits {levels : ℕ} (hlevels : levels ≤ scanMaxDepth) {dir : Bytes}
    {ending : Status} {found : Bytes → Multiset Visit} {entries : List DirEntry} {st : WalkState}
    (hslots : Registered st.slots)
    (hfound : ∀ e ∈ entries, e.isEntered = true →
      (joined scan.host.kind dir e.name).length < childPathMax →
      ∀ {st' : WalkState}, Registered st'.slots →
        Unmarked st' (walkDir scan levels (joined scan.host.kind dir e.name) st').2 →
        visits (walkDir scan levels (joined scan.host.kind dir e.name) st').2.world.trace =
          visits st'.world.trace + found e.name)
    (h : Unmarked st (walkEntries scan (walkDir scan levels) dir ending entries st).2) :
    visits (walkEntries scan (walkDir scan levels) dir ending entries st).2.world.trace =
      visits st.world.trace + (entries.map (noted scan.host.kind dir found)).sum := by
  induction entries generalizing st with
  | nil =>
    simp only [walkEntries] at h ⊢
    split_ifs at h ⊢ with hcancel hending
    · have := h.goes_on
      simp [WalkState.stopped] at this
    · simp
    · exact absurd ⟨h.goes_on, h.skipped, h.excluded⟩ (classifyPathFailure_marks scan st.polled).2
  | cons entry rest ih =>
    have hrest := fun (st' : WalkState) hs hu =>
      @ih st' hs (fun e he => hfound e (List.mem_cons_of_mem _ he)) hu
    have hpoll : Registered st.polled.slots := hslots
    obtain ⟨outcome, houtcome, heq⟩ := walkEntries_cons scan (walkDir scan levels) dir ending entry
      rest st
    rw [heq] at h ⊢
    rw [List.map_cons, List.sum_cons, ← add_assoc]
    cases houtcome with
    | cancelled =>
      have := h.goes_on
      simp [WalkState.stopped] at this
    | reparse hreparse =>
      have hnone : noted scan.host.kind dir found entry = 0 := by
        simp [noted, DirEntry.isFile, DirEntry.isEntered, hreparse]
      rw [hnone, add_zero]
      exact hrest _ hpoll ⟨h.goes_on, h.skipped, h.excluded⟩
    | tooLong hreparse hpath =>
      have hnone : noted scan.host.kind dir found entry = 0 :=
        if_neg (not_lt.mpr (le_joined_of_error hpath))
      rw [hnone, add_zero]
      exact hrest _ hpoll ⟨h.goes_on, h.skipped, h.excluded⟩
    | file hreparse hpath hdir =>
      obtain ⟨rfl, hshort⟩ := pathJoin_eq_ok.mp hpath
      have hone : noted scan.host.kind dir found entry =
          {.file (joined scan.host.kind dir entry.name) entry} := by
        simp [noted, hshort, DirEntry.isFile, hreparse, hdir]
      refine (hrest _ (visitFile_registered hpoll) ⟨h.goes_on, h.skipped, h.excluded⟩).trans ?_
      rw [visitFile_visits _ _ hpoll, hone]
      rfl
    | excluded =>
      have hmarks := walkEntries_marks scan levels dir ending rest
        { st.polled with pathsExcluded := st.pathsExcluded + 1 }
      have h1 := hmarks.excluded
      have h2 := h.excluded
      simp only [Sum.elim_inr] at h1 h2
      omega
    | entered hreparse hpath hdir =>
      obtain ⟨rfl, hshort⟩ := pathJoin_eq_ok.mp hpath
      have hentered : entry.isEntered = true := by simp [DirEntry.isEntered, hreparse, hdir]
      have hone : noted scan.host.kind dir found entry = found entry.name := by
        simp [noted, hshort, DirEntry.isFile, hentered, hdir]
      obtain ⟨hsub, hgo⟩ := Unmarked.split
        (walkDir_marks scan levels (joined scan.host.kind dir entry.name) st.polled)
        (walkEntries_marks scan levels dir ending rest _) ⟨h.goes_on, h.skipped, h.excluded⟩
      have hkept := (show Steps scan (fun _ => True) (fun _ _ => True) st.polled (walkDir scan levels
        (joined scan.host.kind dir entry.name) st.polled).2 from
        walkDir_steps (closed_true scan) trivial st.polled).slotsKept hpoll
      refine (hrest _ (hkept.registered hpoll) hgo).trans ?_
      rw [hfound entry (List.mem_cons_self ..) hentered hshort hpoll hsub, hone]
      rfl
    | ended hreparse hpath hdir hend =>
      exfalso
      rcases hend with hend | hend
      · exact hend (walkDir_ok hlevels _ _)
      · have := h.goes_on
        simp only [Sum.elim_inl, id_eq] at this
        rw [hend] at this
        cases this

/-! ### Sites -/

/-- The walk goes to a site of this depth and path, if shown entries lead there. -/
def Reachable (s : Site) : Prop :=
  s.depth ≤ scanMaxDepth ∧ (s.depth = 0 ∨ s.path.length < childPathMax)

instance (s : Site) : Decidable (Reachable s) := by unfold Reachable; infer_instance

/-- The files that the walk counts each time it is at the site. -/
def seen (kind : Host) (s : Site) : List (Bytes × DirEntry) :=
  (s.shown kind).filter fun f => f.1.length < childPathMax

def Visit.ofFile (f : Bytes × DirEntry) : Visit := .file f.1 f.2

/-- One visit of the site, without the sites below it. -/
def met (kind : Host) (s : Site) : Multiset Visit :=
  if Reachable s then {.dir s.path} + ↑((seen kind s).map Visit.ofFile) else 0

/-- All visits of the sites. -/
def total (kind : Host) (sites : List Site) : Multiset Visit :=
  (sites.map fun s => s.ways • met kind s).sum

/-- One visit of the site and what follows from it. -/
def walked (kind : Host) (s : Site) : Multiset Visit :=
  met kind s + total kind (s.inside.sites kind s.path s.depth 1 false (s.inside.entries.take s.delivered))

/-- What one visit under the name adds, in the directory `path` with these contents. -/
def found (kind : Host) (path : Bytes) (depth : ℕ) : Contents → Bytes → Multiset Visit
  | .nil, _ => 0
  | .cons own entry answer below rest, name =>
    (if own = name ∧ entry.isFile = false then
      walked kind ⟨joined kind path own, depth + 1, 1, false, answer.delivered, below⟩ else 0) +
      found kind path depth rest name

section Sites
variable {kind : Host} {path : Bytes} {depth : ℕ}

lemma total_append (a b : List Site) : total kind (a ++ b) = total kind a + total kind b := by
  simp [total]

lemma total_cons (s : Site) (rest : List Site) :
    total kind (s :: rest) = s.ways • met kind s + total kind rest := by
  simp [total]

/-- Twice as many ways, twice as many visits; whether they go through a link is the same. -/
lemma total_ways {c : Contents} (ways : ℕ) (linked : Bool) (shown : List DirEntry) :
    total kind (c.sites kind path depth ways linked shown) =
      ways • total kind (c.sites kind path depth 1 false shown) := by
  induction c generalizing path depth ways linked shown with
  | nil => simp [Contents.sites, total]
  | cons own entry answer below rest ihbelow ihrest =>
    rw [Contents.sites, Contents.sites, total_append, total_append, ihrest, nsmul_add]
    congr 1
    split_ifs with hfile
    · simp [total]
    · rw [total_cons, total_cons, ihbelow, ihbelow (1 * leads shown own), nsmul_add, one_mul, mul_smul,
        mul_smul]
      rfl

lemma met_of_unreachable {s : Site} (h : ¬ Reachable s) : met kind s = 0 := if_neg h

lemma total_eq_zero {sites : List Site} (h : ∀ s ∈ sites, ¬ Reachable s) : total kind sites = 0 := by
  refine List.sum_eq_zero fun x hx => ?_
  obtain ⟨s, hs, rfl⟩ := List.mem_map.mp hx
  rw [met_of_unreachable (h s hs), smul_zero]

/-- Nothing below a site is reachable unless the site is. -/
lemma walked_eq_zero {s : Site} (h : ¬ Reachable s) (hdepth : 0 < s.depth) : walked kind s = 0 := by
  rw [walked, met_of_unreachable h, zero_add]
  refine total_eq_zero fun s' hs' hreach => h ?_
  obtain ⟨hdeeper, hlonger⟩ := Contents.sites_bounds hs'
  refine ⟨by have := hreach.1; omega, .inr ?_⟩
  rcases hreach.2 with hroot | hshort
  · omega
  · omega

lemma found_eq_zero {c : Contents} {name : Bytes} (h : name ∉ c.names) :
    found kind path depth c name = 0 := by
  induction c with
  | nil => rfl
  | cons own entry answer below rest _ ihrest =>
    obtain ⟨hne, hrest⟩ := List.ne_and_not_mem_of_not_mem_cons h
    rw [found, ihrest hrest, if_neg (fun hsame => hne hsame.1.symm), add_zero]

/-- A name that makes too long a path adds nothing. -/
lemma found_long {c : Contents} {name : Bytes}
    (hlong : childPathMax ≤ (joined kind path name).length) :
    found kind path depth c name = 0 := by
  induction c with
  | nil => rfl
  | cons own entry answer below rest _ ihrest =>
    rw [found, ihrest, add_zero]
    split_ifs with hsame
    · obtain ⟨rfl, _⟩ := hsame
      refine walked_eq_zero ?_ (Nat.succ_pos _)
      rintro ⟨_, hroot | hshort⟩
      · exact absurd hroot (Nat.succ_ne_zero _)
      · exact absurd hshort (not_lt.mpr hlong)
    · rfl

lemma leads_nsmul (shown : List DirEntry) (own : Bytes) (x : Multiset Visit) :
    ((shown.filter DirEntry.isEntered).map fun e => if own = e.name then x else 0).sum =
      leads shown own • x := by
  induction shown with
  | nil => simp [leads]
  | cons e rest ih =>
    unfold leads at ih ⊢
    rw [List.filter_cons, List.countP_cons, add_nsmul, ← ih]
    by_cases hentered : e.isEntered = true
    · by_cases hsame : own = e.name
      · simp [hentered, hsame, add_comm]
      · simp [hentered, hsame, Ne.symm hsame]
    · simp [hentered]

/-- The shown entries lead to each object as often as they have its name. -/
lemma total_eq_found {c : Contents} (shown : List DirEntry) :
    total kind (c.sites kind path depth 1 false shown) =
      ((shown.filter DirEntry.isEntered).map fun e => found kind path depth c e.name).sum := by
  induction c with
  | nil =>
    simp [Contents.sites, total, found]
  | cons own entry answer below rest _ ihrest =>
    simp only [found]
    rw [List.sum_map_add, ← ihrest, Contents.sites, total_append]
    congr 1
    split_ifs with hfile
    · simp [total, hfile]
    · rw [total_cons, total_ways, one_mul, ← nsmul_add, ← leads_nsmul]
      simp [hfile, walked, met, seen, Site.shown, Reachable]

/-- What the shown entries of a site add, file by file and directory by directory. -/
lemma noted_sum {f : Bytes → Multiset Visit}
    (hlong : ∀ name, childPathMax ≤ (joined kind path name).length → f name = 0)
    (shown : List DirEntry) :
    (shown.map (noted kind path f)).sum =
      ↑((((shown.filter DirEntry.isFile).map fun e => (joined kind path e.name, e)).filter
        fun g => g.1.length < childPathMax).map Visit.ofFile) +
        ((shown.filter DirEntry.isEntered).map fun e => f e.name).sum := by
  induction shown with
  | nil => simp
  | cons e rest ih =>
    rw [List.map_cons, List.sum_cons, ih, noted]
    by_cases hfile : e.isFile = true
    · have hentered : e.isEntered = false := by
        simp only [DirEntry.isFile, Bool.and_eq_true, Bool.not_eq_true'] at hfile
        simp [DirEntry.isEntered, hfile.1]
      by_cases hshort : (joined kind path e.name).length < childPathMax
      · simp [hfile, hentered, hshort, Visit.ofFile, ← Multiset.cons_coe]
      · simp [hfile, hentered, hshort]
    · by_cases hentered : e.isEntered = true
      · by_cases hshort : (joined kind path e.name).length < childPathMax
        · simp [hfile, hentered, hshort, add_left_comm]
        · simp [hfile, hentered, hshort, hlong e.name (not_lt.mp hshort)]
      · simp [hfile, hentered]

end Sites

/-! ### The walk -/

lemma not_refused {levels : ℕ} (hlevels : levels ≠ scanMaxDepth) {path : Bytes} {st : WalkState}
    (h : Unmarked st (walkDir scan (levels + 1) path st).2) {e : Status} :
    scan.host.dirOpen st.world.trace path ≠ .error e := by
  intro hopen
  rw [walkDir_refused (h.started) hlevels hopen] at h
  exact absurd ⟨h.goes_on, h.skipped, h.excluded⟩ (classifyPathFailure_marks scan _).2

/-- A directory listed under a name that nothing has is not opened. -/
lemma Opens.stranger {host : ScanHost} {levels : ℕ} {path : Bytes} {names : List Bytes}
    {c : Contents} (h : c.Opens host (levels + 1) path names) {e : DirEntry} (he : e ∈ c.entries)
    (hentered : e.isEntered = true) (hname : e.name ∉ names) (t : Trace) :
    ∃ status, host.dirOpen t (joined host.kind path e.name) = .error status := by
  induction c with
  | nil => simp [Contents.entries] at he
  | cons own entry answer below rest _ ihrest =>
    rcases List.mem_cons.mp he with rfl | he
    · exact h.1 hentered hname t
    · exact ihrest h.2.2 he

/-- A site walked without a mark, given what the walk of each entry there visits. -/
lemma walkEntries_site {s : Site} {levels n : ℕ} (hdepth : s.depth + levels = scanMaxDepth)
    (hreach : Reachable s) (hdelivered : s.delivered = n) {ending : Status} {st : WalkState}
    (hslots : Registered st.slots)
    (hfound : ∀ e ∈ s.inside.entries, e.isEntered = true →
      (joined scan.host.kind s.path e.name).length < childPathMax →
      ∀ {st' : WalkState}, Registered st'.slots →
        Unmarked st' (walkDir scan levels (joined scan.host.kind s.path e.name) st').2 →
        visits (walkDir scan levels (joined scan.host.kind s.path e.name) st').2.world.trace =
          visits st'.world.trace + found scan.host.kind s.path s.depth s.inside e.name)
    (h : Unmarked st (walkEntries scan (walkDir scan levels) s.path ending
      (s.inside.entries.take n) (st.opened s.path)).2) :
    visits (walkEntries scan (walkDir scan levels) s.path ending (s.inside.entries.take n)
        (st.opened s.path)).2.world.trace =
      visits st.world.trace + walked scan.host.kind s := by
  have hopened : Unmarked (st.opened s.path) (walkEntries scan (walkDir scan levels) s.path ending
      (s.inside.entries.take n) (st.opened s.path)).2 := ⟨h.goes_on, h.skipped, h.excluded⟩
  have hregistered : Registered (st.opened s.path).slots := hslots
  rw [walkEntries_visits (by omega) hregistered
    (fun e he => hfound e (List.take_subset _ _ he)) hopened, opened_visits,
    noted_sum (fun name => found_long), walked, met, if_pos hreach, total_eq_found, seen, Site.shown,
    hdelivered]
  simp only [add_assoc]

/-- The walk of a listed directory adds what its name does, if it does for the own names. -/
lemma entry_found {c : Contents} {path : Bytes} {depth levels : ℕ}
    (hdepth : depth + levels = scanMaxDepth) (hopens : c.Opens scan.host levels path c.names)
    {e : DirEntry} (he : e ∈ c.entries) (hentered : e.isEntered = true) {st : WalkState}
    (h : Unmarked st (walkDir scan levels (joined scan.host.kind path e.name) st).2)
    (hown : e.name ∈ c.names →
      visits (walkDir scan levels (joined scan.host.kind path e.name) st).2.world.trace =
        visits st.world.trace + found scan.host.kind path depth c e.name) :
    visits (walkDir scan levels (joined scan.host.kind path e.name) st).2.world.trace =
      visits st.world.trace + found scan.host.kind path depth c e.name := by
  by_cases hname : e.name ∈ c.names
  · exact hown hname
  · rw [found_eq_zero hname, add_zero]
    cases levels with
    | zero => rfl
    | succ levels =>
      obtain ⟨status, hstatus⟩ := Opens.stranger hopens he hentered hname st.world.trace
      exact absurd hstatus (not_refused (by omega) h)

/-- The walk of an object of a directory, without a mark: what its name adds. By induction on the
contents, below the object and beside it. -/
theorem walkDir_found {c : Contents} (hnamed : c.WellNamed scan.host.kind) {names : List Bytes}
    {path : Bytes} {depth levels : ℕ} (hdepth : depth + levels = scanMaxDepth)
    (hopens : c.Opens scan.host levels path names) {own : Bytes} (hown : own ∈ c.names)
    (hshort : (joined scan.host.kind path own).length < childPathMax) {st : WalkState}
    (hslots : Registered st.slots)
    (h : Unmarked st (walkDir scan levels (joined scan.host.kind path own) st).2) :
    visits (walkDir scan levels (joined scan.host.kind path own) st).2.world.trace =
      visits st.world.trace + found scan.host.kind path depth c own := by
  induction c generalizing names path depth levels own st with
  | nil => simp [Contents.names] at hown
  | cons head entry answer below rest ihbelow ihrest =>
    obtain ⟨hfresh, _, _, hbelow, hrest⟩ := hnamed
    by_cases hhead : own = head
    · subst hhead
      rw [found, found_eq_zero hfresh, add_zero]
      cases levels with
      | zero =>
        -- beyond the depth limit nothing is opened
        split_ifs with hsame
        · rw [walked_eq_zero (fun hreach => ?_) (Nat.succ_pos _), add_zero]
          · rfl
          · have hdeep : depth + 1 ≤ scanMaxDepth := hreach.1
            omega
        · rw [add_zero]
          rfl
      | succ levels =>
        have hlevels : levels ≠ scanMaxDepth := by omega
        obtain ⟨_, hopen, _⟩ := hopens
        by_cases hfile : entry.isFile = true
        · rw [if_pos hfile] at hopen
          obtain ⟨e, he⟩ := hopen st.world.trace
          exact absurd he (not_refused hlevels h)
        · rw [if_neg hfile] at hopen
          rw [if_pos ⟨rfl, by simpa using hfile⟩]
          obtain ⟨hanswer, hinside⟩ := hopen
          cases answer with
          | refused e he => exact absurd (hanswer _) (not_refused hlevels h)
          | listed n ending =>
            have hgoes := h.started
            rw [walkDir_listed levels hgoes (hanswer _)] at h ⊢
            let s : Site := ⟨joined scan.host.kind path own, depth + 1, 1, false, n, below⟩
            refine @walkEntries_site scan s levels n (by simp only [s]; omega)
              ⟨by simp only [s]; omega, .inr hshort⟩ rfl ending st hslots ?_ h
            intro e he hentered hshort' st' hslots' h'
            refine @entry_found scan below s.path s.depth levels (by simp only [s]; omega) hinside e he
              hentered st' h' fun hname => ?_
            exact ihbelow hbelow (show depth + 1 + levels = scanMaxDepth by omega) hinside hname hshort'
              hslots' h'
    · have htail := (List.mem_cons.mp hown).resolve_left hhead
      rw [found, if_neg (fun hsame => hhead hsame.1.symm), zero_add]
      have hopens' : rest.Opens scan.host levels path names := by
        cases levels with
        | zero => cases rest <;> trivial
        | succ levels => exact hopens.2.2
      exact ihrest hrest hdepth hopens' htail hshort hslots h

theorem walkDir_entry {c : Contents} (hnamed : c.WellNamed scan.host.kind) {path : Bytes}
    {depth levels : ℕ} (hdepth : depth + levels = scanMaxDepth)
    (hopens : c.Opens scan.host levels path c.names) {e : DirEntry} (he : e ∈ c.entries)
    (hentered : e.isEntered = true)
    (hshort : (joined scan.host.kind path e.name).length < childPathMax) {st : WalkState}
    (hslots : Registered st.slots)
    (h : Unmarked st (walkDir scan levels (joined scan.host.kind path e.name) st).2) :
    visits (walkDir scan levels (joined scan.host.kind path e.name) st).2.world.trace =
      visits st.world.trace + found scan.host.kind path depth c e.name :=
  entry_found hdepth hopens he hentered h fun hname =>
    walkDir_found hnamed hdepth hopens hname hshort hslots h

end UsbSentinel.Scanner
