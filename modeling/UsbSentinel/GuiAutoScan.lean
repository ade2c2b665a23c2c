import UsbSentinel.GuiWindow

/-! Auto-scans over runs of the window: one for each presence while the set has room, and
another after an absence that was seen. -/
namespace UsbSentinel.GuiWindow
open ByteString

def autoScansOf (identity : Bytes) (w : World) : ℕ :=
  (autoScans w).countP fun launch => hasIdentity identity launch.device

lemma hasIdentity_iff {identity own : Bytes} {device : Device}
    (h : deviceIdentity device identityMax = .ok own) :
    hasIdentity identity device = true ↔ identity = own := by
  unfold hasIdentity
  rw [h]
  exact decide_eq_true_iff.trans eq_comm

/-- Every list that is made over the run shows the identity. -/
def StaysListed (identity : Bytes) : World → List Event → Prop :=
  Along fun w e => lists w e = true →
    (step w e).gui.devices.any (hasIdentity identity) = true

/-- The set is not full when the identity is auto-scanned. -/
def HasRoom (identity : Bytes) : World → List Event → Prop :=
  Along fun w e => ∀ launch, AutoScan w e (step w e) launch identity →
    (pruned w (step w e).gui.devices).items.length < autoScanTrackMax

section Presence
variable {identity : Bytes} {w : World} {e : Event} {rest : List Event}

/-- A tracked identity that stays listed stays tracked, and is not auto-scanned. -/
lemma step_tracked (htracked : identity ∈ w.gui.autoScanned.items)
    (hlisted : lists w e = true → (step w e).gui.devices.any (hasIdentity identity) = true) :
    identity ∈ (step w e).gui.autoScanned.items ∧
      autoScansOf identity (step w e) = autoScansOf identity w := by
  have hkept : lists w e = true → identity ∈ (pruned w (step w e).gui.devices).items :=
    fun h => BoundedSet.mem_keep.mpr ⟨htracked, hlisted h⟩
  cases step_change w e with
  | silent _ launches tracked =>
    rw [tracked, autoScansOf, launches]
    exact ⟨htracked, rfl⟩
  | listed hlists launches tracked =>
    rw [tracked, autoScansOf, launches]
    exact ⟨hkept hlists, rfl⟩
  | autoScan launch other h =>
    have hmem := hkept h.listed
    have hne : identity ≠ other := by
      rintro rfl
      exact h.unseen hmem
    have hother : hasIdentity identity launch.device = false := by
      rw [Bool.eq_false_iff]
      exact fun hsame => hne ((hasIdentity_iff h.named).mp hsame)
    refine ⟨?_, ?_⟩
    · rw [h.tracked]
      exact (BoundedSet.mem_add_of_ne hne).mpr hmem
    · simp [autoScansOf, h.launches, hother]

lemma run_tracked {events : List Event} (htracked : identity ∈ w.gui.autoScanned.items)
    (hlisted : StaysListed identity w events) :
    autoScansOf identity (run w events) = autoScansOf identity w := by
  induction events generalizing w with
  | nil => rfl
  | cons e rest ih =>
    obtain ⟨hfirst, hrest⟩ := along_cons.mp hlisted
    obtain ⟨hstill, hsame⟩ := step_tracked htracked hfirst
    rw [run_cons, ih hstill hrest, hsame]

/-- A step auto-scans the identity at most once, and then has it in the set. -/
lemma step_autoScansOf (hroom : ∀ launch, AutoScan w e (step w e) launch identity →
    (pruned w (step w e).gui.devices).items.length < autoScanTrackMax) :
    autoScansOf identity (step w e) = autoScansOf identity w ∨
      autoScansOf identity (step w e) = autoScansOf identity w + 1 ∧
        identity ∈ (step w e).gui.autoScanned.items := by
  cases hstep : step_change w e with
  | silent _ launches _ => exact .inl (by rw [autoScansOf, launches, autoScansOf])
  | listed _ launches _ => exact .inl (by rw [autoScansOf, launches, autoScansOf])
  | autoScan launch other h =>
    by_cases hsame : identity = other
    · subst hsame
      have hown : hasIdentity identity launch.device = true := (hasIdentity_iff h.named).mpr rfl
      refine .inr ⟨?_, ?_⟩
      · simp [autoScansOf, h.launches, hown]
      · rw [h.tracked]
        exact BoundedSet.mem_add_self (hroom launch h)
    · have hother : hasIdentity identity launch.device = false := by
        rw [Bool.eq_false_iff]
        exact fun h' => hsame ((hasIdentity_iff h.named).mp h')
      exact .inl (by simp [autoScansOf, h.launches, hother])

lemma run_autoScansOf {events : List Event} (hlisted : StaysListed identity w events)
    (hroom : HasRoom identity w events) :
    autoScansOf identity (run w events) ≤ autoScansOf identity w + 1 := by
  induction events generalizing w with
  | nil => exact Nat.le_succ _
  | cons e rest ih =>
    obtain ⟨_, hlistedRest⟩ := along_cons.mp hlisted
    obtain ⟨hfirst, hroomRest⟩ := along_cons.mp hroom
    rw [run_cons]
    obtain hsame | ⟨hmore, htracked⟩ := step_autoScansOf hfirst
    · rw [← hsame]
      exact ih hlistedRest hroomRest
    · rw [run_tracked htracked hlistedRest, hmore]

end Presence

/-- The identities that a list shows. -/
def identities (devices : List Device) : List Bytes :=
  devices.filterMap fun device => (deviceIdentity device identityMax).toOption

lemma mem_identities {identity : Bytes} {devices : List Device} :
    identity ∈ identities devices ↔ devices.any (hasIdentity identity) = true := by
  rw [identities, List.mem_filterMap, List.any_eq_true]
  refine exists_congr fun device => and_congr_right fun _ => ?_
  unfold hasIdentity
  cases deviceIdentity device identityMax with
  | error _ => simp [Except.toOption]
  | ok own => simp [Except.toOption]

/-- Every list that is made over the run shows at most as many identities as can be tracked. -/
def FewIdentities : World → List Event → Prop :=
  Along fun w e => lists w e = true →
    (identities (step w e).gui.devices).dedup.length ≤ autoScanTrackMax

lemma FewIdentities.hasRoom {w : World} {events : List Event} (h : FewIdentities w events)
    (identity : Bytes) : HasRoom identity w events := by
  intro before e after hsplit launch hscan
  have hfew := h before e after hsplit hscan.listed
  have hlaunched : identity ∈ (identities (step (run w before) e).gui.devices).dedup := by
    rw [List.mem_dedup, mem_identities, List.any_eq_true]
    exact ⟨launch.device, hscan.present, (hasIdentity_iff hscan.named).mpr rfl⟩
  have hsub : identity :: (pruned (run w before) (step (run w before) e).gui.devices).items ⊆
      (identities (step (run w before) e).gui.devices).dedup := by
    intro other hother
    rcases List.mem_cons.mp hother with rfl | hkept
    · exact hlaunched
    · rw [List.mem_dedup, mem_identities]
      exact (BoundedSet.mem_keep.mp hkept).2
  have hnodup := List.nodup_cons.mpr ⟨hscan.unseen,
    (pruned (run w before) (step (run w before) e).gui.devices).nodup⟩
  have hlength := (hnodup.subperm hsub).length_le
  rw [List.length_cons] at hlength
  omega

/-- Only USB devices with media are auto-scanned. -/
lemma run_usb {w : World} (hstart : ∀ launch ∈ autoScans w, isScannableUsb launch.device = true)
    (events : List Event) :
    ∀ launch ∈ autoScans (run w events), isScannableUsb launch.device = true := by
  induction events generalizing w with
  | nil => exact hstart
  | cons e rest ih =>
    refine ih ?_
    cases step_change w e with
    | silent _ launches _ => exact launches ▸ hstart
    | listed _ launches _ => exact launches ▸ hstart
    | autoScan launch other h =>
      intro launched hlaunched
      rw [h.launches] at hlaunched
      rcases List.mem_append.mp hlaunched with hold | hnew
      · exact hstart launched hold
      · rw [List.mem_singleton.mp hnew]
        exact h.usb

/-- While an identity stays in every list that is made, it is auto-scanned at most once if
the set has room for it then, as it has when no list shows more than eight identities. -/
theorem auto_scan_once (attached : List Device) (enum : Enumeration) (storeOpens : Bool)
    (before events : List Event) :
    (∀ identity, StaysListed identity (run (created attached enum storeOpens) before) events →
      HasRoom identity (run (created attached enum storeOpens) before) events ∨
        FewIdentities (run (created attached enum storeOpens) before) events →
      autoScansOf identity (run (created attached enum storeOpens) (before ++ events)) ≤
        autoScansOf identity (run (created attached enum storeOpens) before) + 1) ∧
    ∀ launch ∈ autoScans (run (created attached enum storeOpens) (before ++ events)),
      launch.device.busType = .usb ∧ launch.device.mediaPresent = true := by
  constructor
  · intro identity hlisted hroom
    rw [run_append]
    exact run_autoScansOf hlisted (hroom.elim id fun h => h.hasRoom identity)
  · intro launch hlaunch
    have hnone : autoScans (created attached enum storeOpens) = [] := rfl
    have husb := run_usb (by simp [hnone]) _ launch hlaunch
    simpa [isScannableUsb] using husb

def stickAt (n : ℕ) : Device :=
  { volumePath := ascii "/v" ++ decimal n, mediaPresent := true }

/-- A handled device change, and the end of the scan it may have started. -/
def changeAndDone : List Event := [.deviceChange {} {}, .scanDone]

/-- The window with the sticks attached and auto-scan switched on. -/
def switchedOn (sticks : ℕ) : World :=
  run (created ((List.range sticks).map stickAt) {} true) [.autoscanToggled true]

def showsAfter (identity : Bytes) (w : World) (e : Event) : Bool :=
  !lists w e || (step w e).gui.devices.any (hasIdentity identity)

lemma staysListed_of_check {identity : Bytes} {w : World} {events : List Event}
    (h : checkAlong (showsAfter identity) w events = true) : StaysListed identity w events := by
  intro before e after hsplit hlists
  have hshows : showsAfter identity (run w before) e = true :=
    along_of_check h before e after hsplit
  simpa [showsAfter, hlists] using hshows

/-- One stick, two device changes. -/
theorem auto_scan_once_stick :
    autoScansOf (ascii "volume:/v0") (run (created [stickAt 0] {} true)
      ([.autoscanToggled true] ++ (changeAndDone ++ changeAndDone))) ≤ 1 := by
  have hlisted : StaysListed (ascii "volume:/v0")
      (run (created [stickAt 0] {} true) [.autoscanToggled true])
      (changeAndDone ++ changeAndDone) := staysListed_of_check (by decide +kernel)
  have hfew : FewIdentities (run (created [stickAt 0] {} true) [.autoscanToggled true])
      (changeAndDone ++ changeAndDone) := by
    refine along_cons.mpr ⟨fun _ => by decide +kernel, along_cons.mpr ⟨nofun, ?_⟩⟩
    exact along_cons.mpr ⟨fun _ => by decide +kernel, along_cons.mpr ⟨nofun, along_nil _ _⟩⟩
  have honce := (auto_scan_once [stickAt 0] {} true [.autoscanToggled true]
    (changeAndDone ++ changeAndDone)).1 (ascii "volume:/v0") hlisted (.inr hfew)
  exact honce.trans (by decide +kernel)

/-- Nine sticks: once the set is full, the ninth is scanned at every device change. -/
theorem ninth_stick_again :
    ¬ ∀ (sticks : ℕ) (events : List Event) (identity : Bytes),
      StaysListed identity (switchedOn sticks) events →
        autoScansOf identity (run (switchedOn sticks) events) ≤ 1 := by
  intro h
  have hlisted : StaysListed (ascii "volume:/v8") (switchedOn 9)
      ((List.range 10).flatMap fun _ => changeAndDone) :=
    staysListed_of_check (by decide +kernel)
  have htwice : autoScansOf (ascii "volume:/v8")
      (run (switchedOn 9) ((List.range 10).flatMap fun _ => changeAndDone)) = 2 := by
    decide +kernel
  have honce := h _ _ _ hlisted
  rw [htwice] at honce
  omega

end UsbSentinel.GuiWindow
