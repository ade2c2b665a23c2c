import UsbSentinel.Status

/-! The device model and its durable identity key. -/
namespace UsbSentinel
open ByteString

inductive BusType
  | unknown | usb | sata | nvme | scsi | sd | other | network
  deriving DecidableEq, Repr

def busTypeString : BusType → Bytes
  | .unknown => ascii "unknown"
  | .usb => ascii "USB"
  | .sata => ascii "SATA"
  | .nvme => ascii "NVMe"
  | .scsi => ascii "SCSI"
  | .sd => ascii "SD"
  | .other => ascii "other"
  | .network => ascii "network"

structure Device where
  volumePath : Bytes
  busType : BusType := .usb
  serial : Bytes := []
  usbVid : Bytes := []
  usbPid : Bytes := []
  mountPoints : List Bytes := []
  label : Bytes := []
  filesystem : Bytes := []
  capacityBytes : UInt64 := 0
  freeBytes : UInt64 := 0
  vendor : Bytes := []
  product : Bytes := []
  mediaPresent : Bool := false
  deriving DecidableEq, Repr

def volumePathMax : ℕ := 512
def mountPointMax : ℕ := 512
def mountPointsMax : ℕ := 4

/-- Room for "volume:" and the longest volume path. -/
def identityMax : ℕ := volumePathMax + 32

/-- A bus positively identified as something other than USB; `unknown` is not one. -/
def isKnownNonUsbBus (bus : BusType) : Bool := bus != .usb && bus != .unknown

def deviceIdentity (device : Device) (cap : ℕ) : Except Status Bytes :=
  if cap = 0 then .error .invalidArg
  else
    let haveUsbIds := device.usbVid ≠ [] && device.usbPid ≠ []
    let haveSerial := device.serial ≠ [] && !isKnownNonUsbBus device.busType
    let text :=
      if haveUsbIds && haveSerial then
        ascii "usb:" ++ device.usbVid ++ ascii "-" ++ device.usbPid ++ ascii ":" ++ device.serial
      else if haveUsbIds then ascii "usb:" ++ device.usbVid ++ ascii "-" ++ device.usbPid
      else if haveSerial then ascii "serial:" ++ device.serial
      else ascii "volume:" ++ device.volumePath
    if text.length ≥ cap then .error .noMemory else .ok text

/-- The identity as it is shown; empty for a device that has none. -/
def identityOf (device : Device) : Bytes :=
  match deviceIdentity device identityMax with
  | .ok identity => identity
  | .error _ => []

def isScannableUsb (device : Device) : Bool := device.busType = .usb && device.mediaPresent

end UsbSentinel
