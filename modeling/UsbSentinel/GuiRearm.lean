import UsbSentinel.GuiAutoScan

/-! A device that comes back is auto-scanned again: what the set still holds then, and what
it holds without a scan. -/
namespace UsbSentinel.GuiWindow
open ByteString

def IsAbsent (identity : Bytes) (w : World) : Prop :=
  w.attached.any (hasIdentity identity) = false

instance (identity : Bytes) (w : World) : Decidable (IsAbsent identity w) :=
  inferInstanceAs (Decidable (_ = false))

/-- The identity is absent before every step of the run. -/
def StaysAbsent (identity : Bytes) : World → List Event → Prop :=
  Along fun w _ => IsAbsent identity w

/-- No step of the run lists the devices: a message handled while idle would. -/
def Unlisted : World → List Event → Prop := Along fun w e => lists w e = false

section Steps
variable {identity : Bytes} {w : World} {e : Event} {events : List Event}

/-- What is absent is dropped by the next list, and by nothing else. -/
lemma step_absent (habsent : IsAbsent identity w) :
    identity ∈ (step w e).gui.autoScanned.items ↔
      identity ∈ w.gui.autoScanned.items ∧ lists w e = false := by
  have hgone : lists w e = true → (step w e).gui.devices.any (hasIdentity identity) = false := by
    intro hlists
    rw [List.any_eq_false]
    intro device hdevice
    exact List.any_eq_false.mp habsent device (step_attached hlists device hdevice)
  have hpruned : lists w e = true → identity ∉ (pruned w (step w e).gui.devices).items := by
    intro hlists hmem
    have hshown := (BoundedSet.mem_keep.mp hmem).2
    rw [hgone hlists] at hshown
    exact Bool.false_ne_true hshown
  cases step_change w e with
  | silent unlisted _ tracked => rw [tracked, and_iff_left unlisted]
  | listed listed _ tracked =>
    rw [tracked]
    exact iff_of_false (hpruned listed) fun h => by rw [listed] at h; cases h.2
  | autoScan launch other h =>
    have hne : identity ≠ other := by
      rintro rfl
      have hshown : (step w e).gui.devices.any (hasIdentity identity) = true :=
        List.any_eq_true.mpr ⟨launch.device, h.present, (hasIdentity_iff h.named).mpr rfl⟩
      rw [hgone h.listed] at hshown
      exact Bool.false_ne_true hshown
    rw [h.tracked, BoundedSet.mem_add_of_ne hne]
    exact iff_of_false (hpruned h.listed) fun h' => by rw [h.listed] at h'; cases h'.2

lemma run_absent (habsent : StaysAbsent identity w events) :
    identity ∈ (run w events).gui.autoScanned.items ↔
      identity ∈ w.gui.autoScanned.items ∧ Unlisted w events := by
  induction events generalizing w with
  | nil => exact (and_iff_left (along_nil _ w)).symm
  | cons e rest ih =>
    obtain ⟨hfirst, hrest⟩ := along_cons.mp habsent
    rw [run_cons, ih hrest, step_absent hfirst, Unlisted, along_cons, and_assoc]

lemma run_unlisted (hunlisted : Unlisted w events) :
    (run w events).gui.autoScanned = w.gui.autoScanned := by
  induction events generalizing w with
  | nil => rfl
  | cons e rest ih =>
    obtain ⟨hfirst, hrest⟩ := along_cons.mp hunlisted
    rw [run_cons, ih hrest]
    cases step_change w e with
    | silent _ _ tracked => exact tracked
    | listed listed _ _ =>
      rw [hfirst] at listed
      cases listed
    | autoScan _ _ h =>
      have hlists := h.listed
      rw [hfirst] at hlists
      cases hlists

end Steps

/-- An auto-scanned device goes away over `away`, and is back, over `back`, before any message
is handled. -/
structure Returns (identity : Bytes) (w : World) (away back : List Event) : Prop where
  scanned : 0 < autoScansOf identity w
  absent : StaysAbsent identity w away
  gone : IsAbsent identity (run w away)
  unhandled : Unlisted (run w away) back
  present : ¬ IsAbsent identity (run (run w away) back)

/-- Whenever an auto-scanned device is back, the set does not hold it. -/
def Rearms (identity : Bytes) (w : World) (events : List Event) : Prop :=
  ∀ before away back after, events = before ++ (away ++ (back ++ after)) →
    Returns identity (run w before) away back →
    identity ∉ (run (run (run w before) away) back).gui.autoScanned.items

/-- The list was made at least once while the device was away, or the set had lost it
before. -/
def SeesAbsences (identity : Bytes) (w : World) (events : List Event) : Prop :=
  ∀ before away back after, events = before ++ (away ++ (back ++ after)) →
    Returns identity (run w before) away back →
    identity ∈ (run w before).gui.autoScanned.items → ¬ Unlisted (run w before) away

theorem rearms_iff_seesAbsences (identity : Bytes) (w : World) (events : List Event) :
    Rearms identity w events ↔ SeesAbsences identity w events := by
  have hheld : ∀ {v away back}, Returns identity v away back →
      (identity ∈ (run (run v away) back).gui.autoScanned.items ↔
        identity ∈ v.gui.autoScanned.items ∧ Unlisted v away) := by
    intro v away back h
    rw [run_unlisted h.unhandled, run_absent h.absent]
  refine forall_congr' fun before => forall_congr' fun away => forall_congr' fun back =>
    forall_congr' fun after => forall_congr' fun _ => forall_congr' fun hreturns => ?_
  rw [hheld hreturns, not_and]

/-- A scan of the identity was started by itself. -/
def WasStarted (identity : Bytes) (w : World) : Prop :=
  ∃ launch ∈ autoScans w, hasIdentity identity launch.device = true ∧ launch.started = true

/-- In every state of the run the set holds only what was really scanned. -/
def TracksStarted (w : World) (events : List Event) : Prop :=
  ∀ before after, events = before ++ after →
    ∀ identity ∈ (run w before).gui.autoScanned.items, WasStarted identity (run w before)

/-- Whenever a device is due, its scan finds the store, the memory and the thread. -/
def StartsSucceed : World → List Event → Prop :=
  Along fun w e => ∀ launch identity enum l, e = .deviceChange enum l →
    AutoScan w e (step w e) launch identity → canStart w l = true

lemma step_tracksStarted {w : World} {e : Event}
    (h : ∀ identity ∈ w.gui.autoScanned.items, WasStarted identity w)
    (hstarts : ∀ launch identity enum l, e = .deviceChange enum l →
      AutoScan w e (step w e) launch identity → canStart w l = true) :
    ∀ identity ∈ (step w e).gui.autoScanned.items, WasStarted identity (step w e) := by
  intro identity hmem
  cases step_change w e with
  | silent _ launches tracked =>
    rw [tracked] at hmem
    rw [WasStarted, launches]
    exact h identity hmem
  | listed _ launches tracked =>
    rw [tracked] at hmem
    rw [WasStarted, launches]
    exact h identity (BoundedSet.mem_keep.mp hmem).1
  | autoScan launch other hscan =>
    rw [WasStarted, hscan.launches]
    by_cases hsame : identity = other
    · obtain ⟨enum, l, he, hstarted⟩ := hscan.started
      refine ⟨launch, List.mem_append_right _ (List.mem_singleton_self launch), ?_, ?_⟩
      · exact (hasIdentity_iff hscan.named).mpr hsame
      · rw [hstarted]
        exact hstarts launch other enum l he hscan
    · rw [hscan.tracked, BoundedSet.mem_add_of_ne hsame] at hmem
      obtain ⟨old, hold, hnamed, hstarted⟩ := h identity (BoundedSet.mem_keep.mp hmem).1
      exact ⟨old, List.mem_append_left _ hold, hnamed, hstarted⟩

lemma run_tracksStarted {w : World} {events : List Event}
    (h : ∀ identity ∈ w.gui.autoScanned.items, WasStarted identity w)
    (hstarts : StartsSucceed w events) : TracksStarted w events := by
  intro before after hsplit
  induction before generalizing w events with
  | nil => exact h
  | cons e before ih =>
    subst hsplit
    obtain ⟨hfirst, hrest⟩ := along_cons.mp hstarts
    rw [run_cons]
    exact ih (step_tracksStarted h hfirst) hrest rfl

/-- From the creation of the window on: a device is auto-scanned again after exactly those
absences that a list was made in, and the set holds only what was scanned if the scans could
be started. -/
theorem rearm_iff (attached : List Device) (enum : Enumeration) (storeOpens : Bool)
    (events : List Event) :
    (∀ identity, Rearms identity (created attached enum storeOpens) events ↔
      SeesAbsences identity (created attached enum storeOpens) events) ∧
    (StartsSucceed (created attached enum storeOpens) events →
      TracksStarted (created attached enum storeOpens) events) := by
  refine ⟨fun identity => rearms_iff_seesAbsences identity _ events, fun hstarts => ?_⟩
  have hempty : (created attached enum storeOpens).gui.autoScanned.items = [] := by
    unfold created onCreate populateDevices autoScanSetPruneAbsent
    split_ifs <;> rfl
  refine run_tracksStarted (fun identity hmem => ?_) hstarts
  rw [hempty] at hmem
  cases hmem

/-- A stick, and a scan of it that ends. -/
theorem rearm_iff_stick :
    TracksStarted (created [stickAt 0] {} true) (.autoscanToggled true :: changeAndDone) := by
  refine (rearm_iff [stickAt 0] {} true _).2 ?_
  have hstarts : ∀ (w : World) (l : Launching), l = {} → canStart w l = true := by
    rintro w l rfl
    simp [canStart]
  refine along_cons.mpr ⟨?_, along_cons.mpr ⟨?_, along_cons.mpr ⟨?_, along_nil _ _⟩⟩⟩
  · intro launch identity enum l he
    cases he
  · intro launch identity enum l he _
    obtain ⟨_, rfl⟩ := Event.deviceChange.inj he
    exact hstarts _ _ rfl
  · intro launch identity enum l he
    cases he

/-- The stick is pulled out while it is scanned. -/
def pulledOut : List Event :=
  [.autoscanToggled true, .attach [stickAt 0], .deviceChange {} {}, .attach []]

/-- It is back before the scan is done. -/
def pluggedIn : List Event := [.attach [stickAt 0], .deviceChange {} {}, .scanDone]

/-- A stick that is away during its scan only is not scanned again; a scan that could not be
started is not tried again. -/
theorem unseen_absence :
    ¬ Rearms (ascii "volume:/v0") (created [] {} true)
        (pulledOut ++ ([.deviceChange {} {}] ++ (pluggedIn ++ []))) ∧
      ¬ TracksStarted (created [stickAt 0] {} false)
        [.autoscanToggled true, .deviceChange {} { storeOpens := false }] := by
  constructor
  · intro h
    refine h pulledOut [.deviceChange {} {}] pluggedIn [] rfl ?_ (by decide +kernel)
    refine ⟨by decide +kernel, along_cons.mpr ⟨by decide +kernel, along_nil _ _⟩,
      by decide +kernel, ?_, by decide +kernel⟩
    refine along_cons.mpr ⟨by decide +kernel, along_cons.mpr ⟨by decide +kernel, ?_⟩⟩
    exact along_cons.mpr ⟨by decide +kernel, along_nil _ _⟩
  · intro h
    obtain ⟨launch, hlaunch, _, hstarted⟩ :=
      h [.autoscanToggled true, .deviceChange {} { storeOpens := false }] [] rfl
        (ascii "volume:/v0") (by decide +kernel)
    have hnone : ∀ launch ∈ autoScans (run (created [stickAt 0] {} false)
        [.autoscanToggled true, .deviceChange {} { storeOpens := false }]),
        launch.started = false := by
      decide +kernel
    rw [hnone launch hlaunch] at hstarted
    cases hstarted

end UsbSentinel.GuiWindow
