import UsbSentinel.BoundedSet
import UsbSentinel.Device
import UsbSentinel.ScanResult

/-! The device list of the window, the set of identities that were auto-scanned, and the
messages that change them. -/
namespace UsbSentinel.GuiWindow
open ByteString

def autoScanTrackMax : ℕ := 8

structure GuiState where
  devices : List Device := []
  showAllDrives : Bool := false
  haveStore : Bool := false
  scanning : Bool := false
  autoScanEnabled : Bool := false
  autoScanned : BoundedSet Bytes autoScanTrackMax := BoundedSet.empty

/-- How an enumeration fares: whether it succeeds, and what the list can be grown to. -/
structure Enumeration where
  ok : Bool := true
  grow : ℕ → Bool := fun _ => true

/-- How the start of a scan fares. -/
structure Launching where
  storeOpens : Bool := true
  memory : Bool := true
  thread : Bool := true
  deriving DecidableEq, Repr

/-- A scan that was asked for. -/
structure Launch where
  device : Device
  auto : Bool
  started : Bool
  deriving DecidableEq, Repr

def isScannable (device : Device) (allVolumes : Bool) : Bool :=
  if !allVolumes then isScannableUsb device
  else device.mediaPresent && device.mountPoints ≠ [] && device.volumePath ≠ []

def hasIdentity (identity : Bytes) (device : Device) : Bool :=
  match deviceIdentity device identityMax with
  | .ok own => own = identity
  | .error _ => false

def autoScanSetPruneAbsent (s : GuiState) : GuiState :=
  { s with autoScanned := s.autoScanned.keep fun identity => s.devices.any (hasIdentity identity) }

/-- A device that finds no room in the list is left out. -/
def pushAll (grow : ℕ → Bool) (devices : List Device) : GrowList Device :=
  devices.foldl (fun list device => (list.push 8 grow device).2) {}

/-- A failed enumeration leaves an empty list, and the set as it was. -/
def populateDevices (attached : List Device) (e : Enumeration) (s : GuiState) : GuiState :=
  if !e.ok then { s with devices := [] }
  else
    let shown := attached.filter fun device => isScannable device s.showAllDrives
    autoScanSetPruneAbsent { s with devices := (pushAll e.grow shown).items }

/-- The state, and whether the worker was started. -/
def startScanForDevice (l : Launching) (s : GuiState) : GuiState × Bool :=
  if s.scanning then (s, false)
  else if !s.haveStore && !l.storeOpens then (s, false)
  else
    let s := { s with haveStore := true }
    if !l.memory then (s, false)
    else if !l.thread then (s, false)
    else ({ s with scanning := true }, true)

def shouldAutoScan (device : Device) (autoScanEnabled alreadyScanning alreadyAutoScanned : Bool) :
    Bool :=
  isScannableUsb device && autoScanEnabled && !alreadyScanning && !alreadyAutoScanned

/-- Scans the first device that is due; only one scan can run at a time. -/
def autoScanLoop (l : Launching) (s : GuiState) : List Device → GuiState × Option Launch
  | [] => (s, none)
  | device :: rest =>
    match deviceIdentity device identityMax with
    | .error _ => autoScanLoop l s rest
    | .ok identity =>
      if shouldAutoScan device s.autoScanEnabled s.scanning (s.autoScanned.contains identity) then
        let (s, started) :=
          startScanForDevice l { s with autoScanned := s.autoScanned.add identity }
        (s, some { device, auto := true, started })
      else autoScanLoop l s rest

def handleDeviceChange (attached : List Device) (e : Enumeration) (l : Launching) (s : GuiState) :
    GuiState × Option Launch :=
  if s.scanning then (s, none)
  else
    let s := populateDevices attached e s
    if !s.autoScanEnabled then (s, none) else autoScanLoop l s s.devices

def onRefreshClicked (attached : List Device) (e : Enumeration) (s : GuiState) : GuiState :=
  if s.scanning then s else populateDevices attached e s

def onAlldrivesToggled (checked : Bool) (attached : List Device) (e : Enumeration)
    (s : GuiState) : GuiState :=
  if s.scanning then s else populateDevices attached e { s with showAllDrives := checked }

def onScanClicked (selection : Option ℕ) (l : Launching) (s : GuiState) :
    GuiState × Option Launch :=
  if s.scanning then (s, none)
  else
    match selection.bind fun i => s.devices[i]? with
    | none => (s, none)
    | some device =>
      let (s, started) := startScanForDevice l s
      (s, some { device, auto := false, started })

def onCreate (attached : List Device) (e : Enumeration) (storeOpens : Bool) : GuiState :=
  { populateDevices attached e {} with haveStore := storeOpens }

/-! ### Runs -/

/-- The window, the devices attached to the host, and the scans asked for so far. -/
structure World where
  gui : GuiState
  attached : List Device
  launches : List Launch := []

/-- Devices arrive and leave at any time; what the window makes of it are its messages. -/
inductive Event
  | attach (devices : List Device)
  | deviceChange (e : Enumeration) (l : Launching)
  | refreshClicked (e : Enumeration)
  | alldrivesToggled (checked : Bool) (e : Enumeration)
  | autoscanToggled (checked : Bool)
  | scanClicked (selection : Option ℕ) (l : Launching)
  | scanDone

def World.launched (w : World) (r : GuiState × Option Launch) : World :=
  { w with gui := r.1, launches := w.launches ++ r.2.toList }

def step (w : World) : Event → World
  | .attach devices => { w with attached := devices }
  | .deviceChange e l => w.launched (handleDeviceChange w.attached e l w.gui)
  | .refreshClicked e => { w with gui := onRefreshClicked w.attached e w.gui }
  | .alldrivesToggled checked e =>
    { w with gui := onAlldrivesToggled checked w.attached e w.gui }
  | .autoscanToggled checked => { w with gui := { w.gui with autoScanEnabled := checked } }
  | .scanClicked selection l => w.launched (onScanClicked selection l w.gui)
  | .scanDone => { w with gui := { w.gui with scanning := false } }

def run (w : World) (events : List Event) : World := events.foldl step w

def created (attached : List Device) (e : Enumeration) (storeOpens : Bool) : World where
  gui := onCreate attached e storeOpens
  attached := attached

lemma run_append (w : World) (a b : List Event) : run w (a ++ b) = run (run w a) b :=
  List.foldl_append

lemma run_cons (w : World) (e : Event) (rest : List Event) :
    run w (e :: rest) = run (step w e) rest := rfl

/-- Every step of the run satisfies `P`. -/
def Along (P : World → Event → Prop) (w : World) (events : List Event) : Prop :=
  ∀ before e after, events = before ++ e :: after → P (run w before) e

lemma along_nil (P : World → Event → Prop) (w : World) : Along P w [] := by
  intro before e after hsplit
  exact absurd hsplit.symm (List.append_ne_nil_of_right_ne_nil _ (List.cons_ne_nil _ _))

lemma along_cons {P : World → Event → Prop} {w : World} {e : Event} {rest : List Event} :
    Along P w (e :: rest) ↔ P w e ∧ Along P (step w e) rest := by
  constructor
  · intro h
    refine ⟨h [] e rest rfl, fun before f after hsplit => ?_⟩
    exact h (e :: before) f after (by rw [hsplit, List.cons_append])
  · rintro ⟨hfirst, hrest⟩ before f after hsplit
    cases before with
    | nil =>
      obtain ⟨rfl, _⟩ := List.cons.inj hsplit
      exact hfirst
    | cons _ before =>
      obtain ⟨rfl, htail⟩ := List.cons.inj hsplit
      exact hrest before f after htail

/-- `Along` for what can be decided. -/
def checkAlong (p : World → Event → Bool) : World → List Event → Bool
  | _, [] => true
  | w, e :: rest => p w e && checkAlong p (step w e) rest

lemma along_of_check {p : World → Event → Bool} {w : World} {events : List Event}
    (h : checkAlong p w events = true) : Along (fun w e => p w e = true) w events := by
  induction events generalizing w with
  | nil => exact along_nil _ w
  | cons e rest ih =>
    rw [checkAlong, Bool.and_eq_true] at h
    exact along_cons.mpr ⟨h.1, ih h.2⟩

/-! ### What one step does -/

/-- The enumeration a message makes; while a scan runs there is none. -/
def enumeration (w : World) : Event → Option Enumeration
  | .deviceChange e _ | .refreshClicked e | .alldrivesToggled _ e =>
    if w.gui.scanning then none else some e
  | _ => none

/-- The message lists the devices anew. -/
def lists (w : World) (e : Event) : Bool := (enumeration w e).any fun e => e.ok

def autoScans (w : World) : List Launch := w.launches.filter fun launch => launch.auto

/-- The set without the identities that the list does not show. -/
def pruned (w : World) (devices : List Device) : BoundedSet Bytes autoScanTrackMax :=
  w.gui.autoScanned.keep fun identity => devices.any (hasIdentity identity)

/-- The start has what it needs. -/
def canStart (w : World) (l : Launching) : Bool :=
  (w.gui.haveStore || l.storeOpens) && l.memory && l.thread

/-- A device due for an auto-scan was found in the list, put into the set and launched. -/
structure AutoScan (w : World) (e : Event) (w' : World) (launch : Launch) (identity : Bytes) :
    Prop where
  listed : lists w e = true
  launches : autoScans w' = autoScans w ++ [launch]
  named : deviceIdentity launch.device identityMax = .ok identity
  present : launch.device ∈ w'.gui.devices
  usb : isScannableUsb launch.device = true
  unseen : identity ∉ (pruned w w'.gui.devices).items
  tracked : w'.gui.autoScanned = (pruned w w'.gui.devices).add identity
  started : ∃ enum l, e = .deviceChange enum l ∧ launch.started = canStart w l

/-- What a step can do to the set. -/
inductive Change (w : World) (e : Event) (w' : World) : Prop
  | silent (unlisted : lists w e = false) (launches : autoScans w' = autoScans w)
      (tracked : w'.gui.autoScanned = w.gui.autoScanned)
  | listed (listed : lists w e = true) (launches : autoScans w' = autoScans w)
      (tracked : w'.gui.autoScanned = pruned w w'.gui.devices)
  | autoScan (launch : Launch) (identity : Bytes) (h : AutoScan w e w' launch identity)

lemma startScanForDevice_eq (l : Launching) (s : GuiState) :
    (startScanForDevice l s).1.devices = s.devices ∧
      (startScanForDevice l s).1.autoScanned = s.autoScanned ∧
      (s.scanning = false →
        (startScanForDevice l s).2 = ((s.haveStore || l.storeOpens) && l.memory && l.thread)) := by
  have hstarted : s.scanning = false →
      (startScanForDevice l s).2 = ((s.haveStore || l.storeOpens) && l.memory && l.thread) := by
    intro hidle
    simp only [startScanForDevice, hidle]
    cases s.haveStore <;> cases l.storeOpens <;> cases l.memory <;> cases l.thread <;> rfl
  refine ⟨?_, ?_, hstarted⟩
  · unfold startScanForDevice
    split_ifs <;> rfl
  · unfold startScanForDevice
    split_ifs <;> rfl

/-- The loop finds nothing due, or launches a device of the list. -/
lemma autoScanLoop_cases (l : Launching) (s : GuiState) (hidle : s.scanning = false)
    (devices : List Device) :
    autoScanLoop l s devices = (s, none) ∨
      ∃ device ∈ devices, ∃ identity,
        deviceIdentity device identityMax = .ok identity ∧ isScannableUsb device = true ∧
          identity ∉ s.autoScanned.items ∧
          (autoScanLoop l s devices).1.devices = s.devices ∧
          (autoScanLoop l s devices).1.autoScanned = s.autoScanned.add identity ∧
          (autoScanLoop l s devices).2 =
            some ⟨device, true, (s.haveStore || l.storeOpens) && l.memory && l.thread⟩ := by
  induction devices with
  | nil => exact .inl rfl
  | cons device rest ih =>
    have hrest : autoScanLoop l s (device :: rest) = autoScanLoop l s rest →
        autoScanLoop l s (device :: rest) = (s, none) ∨
        ∃ other ∈ device :: rest, ∃ identity,
          deviceIdentity other identityMax = .ok identity ∧ isScannableUsb other = true ∧
            identity ∉ s.autoScanned.items ∧
            (autoScanLoop l s (device :: rest)).1.devices = s.devices ∧
            (autoScanLoop l s (device :: rest)).1.autoScanned = s.autoScanned.add identity ∧
            (autoScanLoop l s (device :: rest)).2 =
              some ⟨other, true, (s.haveStore || l.storeOpens) && l.memory && l.thread⟩ := by
      intro hskip
      rw [hskip]
      refine ih.imp id ?_
      rintro ⟨other, hother, h⟩
      exact ⟨other, List.mem_cons_of_mem _ hother, h⟩
    cases hidentity : deviceIdentity device identityMax with
    | error _ => exact hrest (by rw [autoScanLoop, hidentity])
    | ok identity =>
      by_cases hdue : shouldAutoScan device s.autoScanEnabled s.scanning
          (s.autoScanned.contains identity) = true
      · right
        obtain ⟨hdevices, htracked, hstarted⟩ := startScanForDevice_eq l
          { s with autoScanned := s.autoScanned.add identity }
        have hconditions := hdue
        unfold shouldAutoScan at hconditions
        simp only [Bool.and_eq_true, Bool.not_eq_true', BoundedSet.contains,
          decide_eq_false_iff_not] at hconditions
        refine ⟨device, List.mem_cons_self, identity, hidentity, hconditions.1.1.1,
          hconditions.2, ?_⟩
        simp only [autoScanLoop, hidentity, if_pos hdue]
        exact ⟨hdevices, htracked, by rw [hstarted hidle]⟩
      · exact hrest (by simp only [autoScanLoop, hidentity, if_neg hdue])

lemma populateDevices_eq (attached : List Device) (e : Enumeration) (s : GuiState) :
    (populateDevices attached e s).scanning = s.scanning ∧
      (populateDevices attached e s).haveStore = s.haveStore ∧
      (e.ok = false → (populateDevices attached e s).autoScanned = s.autoScanned ∧
        (populateDevices attached e s).devices = []) ∧
      (e.ok = true → (populateDevices attached e s).autoScanned =
        s.autoScanned.keep fun identity =>
          (populateDevices attached e s).devices.any (hasIdentity identity)) := by
  unfold populateDevices
  cases he : e.ok with
  | false => exact ⟨rfl, rfl, fun _ => ⟨rfl, rfl⟩, nofun⟩
  | true => exact ⟨rfl, rfl, nofun, fun _ => rfl⟩

lemma launched_none (w : World) (s : GuiState) :
    autoScans (w.launched (s, none)) = autoScans w := by
  unfold autoScans World.launched
  simp

lemma deviceChange_change (w : World) (e : Enumeration) (l : Launching) :
    Change w (.deviceChange e l) (step w (.deviceChange e l)) := by
  by_cases hscanning : w.gui.scanning = true
  · have hstep : step w (.deviceChange e l) = w.launched (w.gui, none) := by
      rw [step, handleDeviceChange, if_pos hscanning]
    have hunlisted : lists w (.deviceChange e l) = false := by
      rw [lists, enumeration, if_pos hscanning]
      rfl
    rw [hstep]
    exact .silent hunlisted (launched_none w w.gui) rfl
  · have hidle : w.gui.scanning = false := by simpa using hscanning
    have hlists : lists w (.deviceChange e l) = e.ok := by
      rw [lists, enumeration, if_neg hscanning]
      rfl
    obtain ⟨hpopulated, hstore, hfailed, hok⟩ := populateDevices_eq w.attached e w.gui
    rw [hidle] at hpopulated
    generalize hs : populateDevices w.attached e w.gui = s at *
    have hquiet : Change w (.deviceChange e l) (w.launched (s, none)) := by
      cases he : e.ok with
      | false => exact .silent (by rw [hlists, he]) (launched_none w s) (hfailed he).1
      | true => exact .listed (by rw [hlists, he]) (launched_none w s) (hok he)
    by_cases henabled : s.autoScanEnabled = true
    · have hstep : step w (.deviceChange e l) = w.launched (autoScanLoop l s s.devices) := by
        simp [step, handleDeviceChange, hidle, hs, henabled]
      rw [hstep]
      obtain hnone | ⟨device, hdevice, identity, hnamed, husb, hunseen, hdevices, htracked, hlaunch⟩ :=
        autoScanLoop_cases l s hpopulated s.devices
      · rw [hnone]
        exact hquiet
      · have he : e.ok = true := by
          by_contra hfalse
          rw [(hfailed (by simpa using hfalse)).2] at hdevice
          cases hdevice
        have hpruned : pruned w (autoScanLoop l s s.devices).1.devices = s.autoScanned := by
          rw [hdevices]
          exact (hok he).symm
        refine .autoScan ⟨device, true, (s.haveStore || l.storeOpens) && l.memory && l.thread⟩
          identity ⟨by rw [hlists, he], ?_, hnamed, ?_, husb, ?_, ?_, e, l, rfl, ?_⟩
        · unfold autoScans World.launched
          rw [hlaunch, List.filter_append]
          rfl
        · exact (congrArg (device ∈ ·) hdevices).mpr hdevice
        · exact hpruned ▸ hunseen
        · exact htracked.trans (congrArg (fun t => t.add identity) hpruned.symm)
        · rw [canStart, hstore]
    · have hstep : step w (.deviceChange e l) = w.launched (s, none) := by
        simp [step, handleDeviceChange, hidle, hs, henabled]
      rw [hstep]
      exact hquiet

/-- A message that lists the devices and does no more. -/
lemma populate_change {w : World} {event : Event} {e : Enumeration} {s : GuiState}
    (hlists : lists w event = e.ok) (hs : s.autoScanned = w.gui.autoScanned) :
    Change w event { w with gui := populateDevices w.attached e s } := by
  obtain ⟨_, _, hfailed, hok⟩ := populateDevices_eq w.attached e s
  cases he : e.ok with
  | false => exact .silent (by rw [hlists, he]) rfl ((hfailed he).1.trans hs)
  | true =>
    refine .listed (by rw [hlists, he]) rfl ((hok he).trans ?_)
    rw [hs]
    rfl

lemma onScanClicked_eq (selection : Option ℕ) (l : Launching) (s : GuiState) :
    (∀ launch, (onScanClicked selection l s).2 = some launch → launch.auto = false) ∧
      (onScanClicked selection l s).1.autoScanned = s.autoScanned := by
  unfold onScanClicked
  by_cases hscanning : s.scanning = true
  · rw [if_pos hscanning]
    exact ⟨nofun, rfl⟩
  · rw [if_neg hscanning]
    cases selection.bind fun i => s.devices[i]? with
    | none => exact ⟨nofun, rfl⟩
    | some device =>
      refine ⟨?_, (startScanForDevice_eq l s).2.1⟩
      intro launch hlaunch
      obtain rfl := Option.some.inj hlaunch
      rfl

/-- The step lemma: a message leaves the set, prunes it, or prunes it and adds one. -/
theorem step_change (w : World) (event : Event) : Change w event (step w event) := by
  cases event with
  | attach devices => exact .silent rfl rfl rfl
  | deviceChange e l => exact deviceChange_change w e l
  | refreshClicked e =>
    by_cases hscanning : w.gui.scanning = true
    · refine .silent ?_ rfl ?_
      · rw [lists, enumeration, if_pos hscanning]
        rfl
      · rw [step, onRefreshClicked, if_pos hscanning]
    · rw [step, onRefreshClicked, if_neg hscanning]
      refine populate_change ?_ rfl
      rw [lists, enumeration, if_neg hscanning]
      rfl
  | alldrivesToggled checked e =>
    by_cases hscanning : w.gui.scanning = true
    · refine .silent ?_ rfl ?_
      · rw [lists, enumeration, if_pos hscanning]
        rfl
      · rw [step, onAlldrivesToggled, if_pos hscanning]
    · rw [step, onAlldrivesToggled, if_neg hscanning]
      refine populate_change ?_ rfl
      rw [lists, enumeration, if_neg hscanning]
      rfl
  | autoscanToggled checked => exact .silent rfl rfl rfl
  | scanClicked selection l =>
    obtain ⟨hmanual, htracked⟩ := onScanClicked_eq selection l w.gui
    refine .silent rfl ?_ htracked
    unfold autoScans step World.launched
    rw [List.filter_append]
    cases hlaunch : (onScanClicked selection l w.gui).2 with
    | none => simp
    | some launch => simp [hmanual launch hlaunch]
  | scanDone => exact .silent rfl rfl rfl

lemma pushAll_subset (grow : ℕ → Bool) (devices : List Device) :
    ∀ device ∈ (pushAll grow devices).items, device ∈ devices := by
  have hpush : ∀ (list : GrowList Device) (d : Device),
      ∀ x ∈ (list.push 8 grow d).2.items, x ∈ list.items ∨ x = d := by
    intro list d x hx
    unfold GrowList.push at hx
    simp only at hx
    split_ifs at hx <;> simp_all
  have hfold : ∀ (list : GrowList Device),
      ∀ x ∈ (devices.foldl (fun list d => (list.push 8 grow d).2) list).items,
        x ∈ list.items ∨ x ∈ devices := by
    induction devices with
    | nil => exact fun list x hx => .inl hx
    | cons d devices ih =>
      intro list x hx
      rcases ih _ x hx with hlist | hrest
      · rcases hpush list d x hlist with hmem | rfl
        · exact .inl hmem
        · exact .inr List.mem_cons_self
      · exact .inr (List.mem_cons_of_mem d hrest)
  intro device hdevice
  exact (hfold {} device hdevice).resolve_left List.not_mem_nil

lemma populateDevices_attached (attached : List Device) (e : Enumeration) (s : GuiState) :
    ∀ device ∈ (populateDevices attached e s).devices, device ∈ attached := by
  unfold populateDevices
  split_ifs
  · exact fun _ h => nomatch h
  · exact fun device h => (List.mem_filter.mp (pushAll_subset e.grow _ device h)).1

/-- What a message lists is attached. -/
lemma step_attached {w : World} {event : Event} (h : lists w event = true) :
    ∀ device ∈ (step w event).gui.devices, device ∈ w.attached := by
  have hidle : w.gui.scanning = false := by
    by_contra hscanning
    have hbusy : w.gui.scanning = true := by simpa using hscanning
    rw [lists, enumeration.eq_def] at h
    cases event <;> simp [hbusy] at h
  cases event with
  | deviceChange e l =>
    have hdevices : (step w (.deviceChange e l)).gui.devices =
        (populateDevices w.attached e w.gui).devices := by
      have hpopulated : (populateDevices w.attached e w.gui).scanning = false :=
        (populateDevices_eq w.attached e w.gui).1.trans hidle
      unfold step handleDeviceChange World.launched
      simp only [hidle, Bool.false_eq_true, if_false]
      split_ifs
      · rfl
      · obtain hnone | ⟨_, _, _, _, _, _, hdevices, _⟩ :=
          autoScanLoop_cases l _ hpopulated (populateDevices w.attached e w.gui).devices
        · rw [hnone]
        · exact hdevices
    rw [hdevices]
    exact populateDevices_attached _ _ _
  | refreshClicked e =>
    rw [step, onRefreshClicked, hidle, if_neg Bool.false_ne_true]
    exact populateDevices_attached _ _ _
  | alldrivesToggled checked e =>
    rw [step, onAlldrivesToggled, hidle, if_neg Bool.false_ne_true]
    exact populateDevices_attached _ _ _
  | attach devices => cases h
  | autoscanToggled checked => cases h
  | scanClicked selection l => cases h
  | scanDone => cases h

end UsbSentinel.GuiWindow
