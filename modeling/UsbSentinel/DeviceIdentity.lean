import UsbSentinel.Device

/-! The durable key of a volume on a bus known not to be USB: the rule on the serial is
skipped there, the two rules on USB ids are not. No enumerator fills the ids of such a
volume. -/
namespace UsbSentinel
open ByteString

/-- What the header promises of two volumes on internal disks. -/
structure VolumeKeyed (first second : Device) : Prop where
  firstKey : deviceIdentity first identityMax = .ok (ascii "volume:" ++ first.volumePath)
  secondKey : deviceIdentity second identityMax = .ok (ascii "volume:" ++ second.volumePath)
  distinct : deviceIdentity first identityMax ≠ deviceIdentity second identityMax
  ignoresNames : ∀ device mountPoints label cap,
    deviceIdentity { device with mountPoints := mountPoints, label := label } cap =
      deviceIdentity device cap

theorem deviceIdentity_ignoresNames (device : Device) (mountPoints : List Bytes) (label : Bytes)
    (cap : ℕ) : deviceIdentity { device with mountPoints := mountPoints, label := label } cap =
      deviceIdentity device cap := rfl

theorem deviceIdentity_volume {device : Device} (hbus : isKnownNonUsbBus device.busType = true)
    (hids : device.usbVid = [] ∨ device.usbPid = [])
    (hpath : device.volumePath.length < volumePathMax) :
    deviceIdentity device identityMax = .ok (ascii "volume:" ++ device.volumePath) := by
  have hroom : ¬identityMax ≤ (ascii "volume:").length + device.volumePath.length := by
    have hword : (ascii "volume:").length = 7 := ascii_length _
    simp only [hword, identityMax, volumePathMax] at hpath ⊢
    omega
  have hno : ¬(device.usbVid ≠ [] ∧ device.usbPid ≠ []) := by tauto
  simp only [deviceIdentity, hbus]
  rw [if_neg (by decide)]
  simp [hno, -not_le, hroom]

/-- Both ids known: the key names them and not the volume. -/
theorem deviceIdentity_usbIds {device : Device} (hbus : isKnownNonUsbBus device.busType = true)
    (hvid : device.usbVid ≠ []) (hpid : device.usbPid ≠ []) (cap : ℕ) (key : Bytes)
    (hkey : deviceIdentity device cap = .ok key) :
    key = ascii "usb:" ++ device.usbVid ++ ascii "-" ++ device.usbPid := by
  simp only [deviceIdentity, hbus] at hkey
  split at hkey
  · simp at hkey
  simp only [hvid, hpid, ne_eq, not_false_eq_true, decide_true, Bool.not_true, Bool.and_false,
    Bool.and_true, Bool.false_eq_true, if_false, if_true] at hkey
  split at hkey
  · simp at hkey
  · simpa using hkey.symm

theorem usbKey_ne_volumeKey (vid pid path : Bytes) :
    ascii "usb:" ++ vid ++ ascii "-" ++ pid ≠ ascii "volume:" ++ path := by
  have husb : ascii "usb:" = 117 :: ascii "sb:" := by decide
  have hvolume : ascii "volume:" = 118 :: ascii "olume:" := by decide
  intro heq
  rw [husb, hvolume] at heq
  simp at heq

theorem ids_of_volumeKey {device : Device} (hbus : isKnownNonUsbBus device.busType = true)
    (hkey : deviceIdentity device identityMax = .ok (ascii "volume:" ++ device.volumePath)) :
    device.usbVid = [] ∨ device.usbPid = [] := by
  by_contra hids
  push Not at hids
  have heq := deviceIdentity_usbIds hbus hids.1 hids.2 identityMax _ hkey
  exact usbKey_ne_volumeKey _ _ _ heq.symm

/-- The volume path is a field of `volumePathMax` bytes with its terminator. -/
theorem deviceIdentity_volumeKeyed {first second : Device}
    (hfirstBus : isKnownNonUsbBus first.busType = true)
    (hsecondBus : isKnownNonUsbBus second.busType = true)
    (hfirstPath : first.volumePath.length < volumePathMax)
    (hsecondPath : second.volumePath.length < volumePathMax)
    (hpaths : first.volumePath ≠ second.volumePath) :
    VolumeKeyed first second ↔
      (first.usbVid = [] ∨ first.usbPid = []) ∧ (second.usbVid = [] ∨ second.usbPid = []) := by
  constructor
  · intro hkeyed
    exact ⟨ids_of_volumeKey hfirstBus hkeyed.firstKey, ids_of_volumeKey hsecondBus hkeyed.secondKey⟩
  · rintro ⟨hfirst, hsecond⟩
    have hfirstKey := deviceIdentity_volume hfirstBus hfirst hfirstPath
    have hsecondKey := deviceIdentity_volume hsecondBus hsecond hsecondPath
    refine ⟨hfirstKey, hsecondKey, ?_, deviceIdentity_ignoresNames⟩
    rw [hfirstKey, hsecondKey]
    simpa using hpaths

theorem deviceIdentity_volumeKeyed_sata :
    VolumeKeyed { volumePath := ascii "C/", busType := .sata, serial := ascii "S1" }
      { volumePath := ascii "D/", busType := .nvme, serial := ascii "S1", usbVid := ascii "0781" } :=
  (deviceIdentity_volumeKeyed (by decide) (by decide) (by decide) (by decide) (by decide)).2
    (by decide)

/-- Two volumes of one disk on a SCSI bus that carry a bridge's ids share one key. -/
theorem deviceIdentity_shared :
    ¬∀ first second : Device, isKnownNonUsbBus first.busType = true →
      isKnownNonUsbBus second.busType = true → first.volumePath.length < volumePathMax →
      second.volumePath.length < volumePathMax → first.volumePath ≠ second.volumePath →
      VolumeKeyed first second := by
  intro hall
  have hkeyed := hall
    { volumePath := ascii "C/", busType := .scsi, usbVid := ascii "0781", usbPid := ascii "5583" }
    { volumePath := ascii "D/", busType := .scsi, usbVid := ascii "0781", usbPid := ascii "5583" }
    (by decide) (by decide) (by decide) (by decide) (by decide)
  exact hkeyed.distinct rfl

end UsbSentinel
