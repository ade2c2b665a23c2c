import UsbSentinel.HttpResponse
import UsbSentinel.LinuxEnumerate
import UsbSentinel.WebBodies

/-! The device list on its way from the kernel to the browser: the volumes of the block layer,
the answer of the application, and the message that carries it. -/
namespace UsbSentinel.Web
open ByteString HttpMessage UsbSentinel.Http UsbSentinel.Path
open DeviceLinux (Sysfs Kernel BlockDevice Mount IsVolume Shows Describes IsUsbDevice ancestors
  deviceEnumerate)

section Answer
variable {ρ : Type} {env : Env ρ} {devices : List Device}

lemma writeDevices_finish
    (hfits : Json.Fits env.realloc (Json.render (devicesTree devices)).length) :
    Json.finish (Json.run env.realloc (writeDevices devices)) =
      .ok (Json.render (devicesTree devices)) := by
  have hdepth : Json.nesting (devicesTree devices) ≤ Json.maxDepth := by
    have hle := Json.nesting_le_height (devicesTree devices)
    have hheight := (devicesTree_fits devices).1
    have hmax : 4 ≤ Json.maxDepth := by decide
    omega
  rw [← Json.run_unfoldAll, writeDevices_unfold]
  exact Json.finish_emit hdepth hfits

/-- With memory for its text, the list is the answer. -/
lemma handleDevices_list (hdevices : env.enumerate = .ok devices)
    (hfits : Json.Fits env.realloc (Json.render (devicesTree devices)).length) :
    handleDevices env = sendJson 200 (Json.render (devicesTree devices))
      (Json.render (devicesTree devices)).length := by
  have hfinish := writeDevices_finish hfits
  simp only [handleDevices, hdevices, hfinish]

end Answer

variable {ρ : Type} {env : Env ρ} {app : App ρ} {client : Client} {request : Request}
  {body : Bytes}

/-- An allowed request for the list is answered with it, whatever the state of the application. -/
lemma responseTo_devices (hsent : answer client.sent = .handled request body)
    (hallowed : requestIsAuthorized app request = true) (hroute : route request = .devices) :
    responseTo env app (ending client) = some (handleDevices env) := by
  rw [responseTo_handled env app hsent, handleRequest, hallowed, hroute]
  rfl

/-- A USB device is among the directories above the disk. -/
def OnUsb (sysfs : Sysfs) (b : BlockDevice) : Prop :=
  ∃ up ∈ b.up, ∃ dir ∈ (ancestors up).take 12, IsUsbDevice sysfs dir

open Classical in
/-- The block devices that the page is to show. -/
noncomputable def usbVolumes (sysfs : Sysfs) (layer : List BlockDevice) : List BlockDevice :=
  (layer.filter (IsVolume layer)).filter fun b => OnUsb sysfs b

variable {kernel : Kernel} {sysfsRoot extra : Bytes} {layer : List BlockDevice}
  {table : List Mount} {grow : ℕ → Bool}

lemma listed_describes {devices : List Device}
    (h : List.Forall₂ (Describes kernel extra table) (layer.filter (IsVolume layer)) devices) :
    List.Forall₂ (Describes kernel extra table) (usbVolumes kernel.sysfs layer)
      (listed devices) := by
  refine List.rel_filter (fun b device hdescribes => ?_) h
  simp only [decide_eq_true_eq]
  exact hdescribes.busType.symm

/-- From the kernel to the browser: whatever segments an allowed request for the device list
comes in, and however few bytes each send takes, a client that reads to the end reads the JSON
text of one array, with the volumes of the block layer that are on USB, in order, each as sysfs,
the mount table and udev show it. -/
theorem devices_served (hshows : Shows kernel sysfsRoot extra layer table)
    (hgrow : ∀ n, grow n = true)
    (henumerate : env.enumerate = deviceEnumerate kernel grow sysfsRoot)
    (hfits : ∀ devices, env.enumerate = .ok devices →
      Json.Fits env.realloc (Json.render (devicesTree devices)).length)
    (hsent : answer client.sent = .handled request body)
    (hallowed : requestIsAuthorized app request = true) (hroute : route request = .devices)
    {peer : Peer} (hpeer : peer.Stays) (beyond : ℕ → UInt8) :
    ∃ (shown : List Device) (message : Message),
      List.Forall₂ (Describes kernel extra table) (usbVolumes kernel.sysfs layer) shown ∧
      decode (serveConnection env app client peer beyond) = some message ∧
      message.code = 200 ∧
      fieldNamed (ascii "Content-Type") message.fields = some applicationJson ∧
      message.body = Json.render (.array (shown.map deviceTree)) := by
  obtain ⟨devices, hdevices⟩ := hshows.enumerates hgrow
  have hdescribes := hshows.enumerated hdevices
  rw [← henumerate] at hdevices
  have hroom := hfits devices hdevices
  have hsize := hroom.length.trans (show 2 ^ 63 < 2 ^ 64 by decide)
  obtain ⟨message, hdecode, hcode, htype, hbody⟩ := decode_sendJson hpeer beyond hsize
  have hserved : serveConnection env app client peer beyond =
      sendResponse peer beyond (handleDevices env) [] := by
    rw [serveConnection, responseTo_devices hsent hallowed hroute]
  refine ⟨listed devices, message, listed_describes hdescribes, ?_, hcode, htype, hbody⟩
  rw [hserved, handleDevices_list hdevices hroom]
  exact hdecode

open DeviceLinux (dirPath entriesOf partedFiles partedLinks partedSysfs partedKernel partedUp
  partedDisk partedPart stickMount parted_facts parted_shows)

def partedEnv : Env ℕ where
  enumerate := deviceEnumerate partedKernel (fun _ => true) (ascii "/sys")
  realloc _ := true
  calloc := true
  pthreadCreate := true
  buildReport _ := .error .internal
  indexHtml := []

/-- The page asks for the list. -/
def listClient : Client :=
  ⟨ascii "GET /api/devices?token=00ff HTTP/1.1\r\nHost: 127.0.0.1:8080\r\n\r\n", fun _ => 0⟩

def listRequest : Request where
  method := ascii "GET"
  path := ascii "/api/devices"
  query := ascii "token=00ff"
  headers := [⟨ascii "Host", ascii "127.0.0.1:8080"⟩]

/-- What the server takes the request for, the length of the list, and the two files that make
the directory above the disk a USB device. -/
lemma list_facts : answer listClient.sent = .handled listRequest [] ∧
    (∀ devices ∈ partedEnv.enumerate.toOption,
      (Json.render (devicesTree devices)).length < 2 ^ 63) ∧
    partedSysfs.readlink (dirPath (partedUp.drop 1) ++ slash :: ascii "subsystem") =
      some (ascii "../../../bus/usb") ∧
    entriesOf partedFiles (dirPath (partedUp.drop 1) ++ slash :: ascii "idVendor") =
      some (ascii "0781\n") := by
  decide +kernel

lemma parted_onUsb : OnUsb partedSysfs partedPart := by
  obtain ⟨_, _, hlink, hfile⟩ := list_facts
  refine ⟨partedUp, rfl, dirPath (partedUp.drop 1), by simp [partedUp, ancestors],
    ⟨ascii "../../../bus/usb", hlink, by decide⟩, { content := ascii "0781\n" }, ?_⟩
  simp only [partedSysfs, hfile]

lemma parted_usbVolumes : usbVolumes partedSysfs [partedDisk, partedPart] = [partedPart] := by
  rw [usbVolumes, parted_facts.2.2.2.2.2.2.1]
  exact List.filter_cons_of_pos (by simpa using parted_onUsb)

theorem parted_served : ∃ (device : Device) (message : Message),
    Describes partedKernel [] [stickMount] partedPart device ∧
    decode (serveConnection partedEnv (App.create (ascii "00ff") 8080) listClient
      (fun _ => some 2) fun _ => 0) = some message ∧
    message.body = Json.render (.array [deviceTree device]) := by
  have hfits : ∀ devices, partedEnv.enumerate = .ok devices →
      Json.Fits partedEnv.realloc (Json.render (devicesTree devices)).length := by
    intro devices hdevices
    have hmem : devices ∈ partedEnv.enumerate.toOption := by rw [hdevices]; rfl
    exact ⟨list_facts.2.1 devices hmem, fun _ _ => rfl⟩
  have hallowed : requestIsAuthorized (App.create (ascii "00ff") 8080 : App ℕ) listRequest =
      true := by decide
  have hstays : Peer.Stays fun _ => some 2 := fun _ h => by cases h
  obtain ⟨shown, message, hshown, hdecode, _, _, hbody⟩ := devices_served parted_shows
    (fun _ => rfl) rfl hfits list_facts.1 hallowed (by decide) hstays fun _ => 0
  have hvolumes : usbVolumes partedKernel.sysfs [partedDisk, partedPart] = [partedPart] :=
    parted_usbVolumes
  rw [hvolumes] at hshown
  cases hshown with
  | cons hfirst hrest =>
    cases hrest
    exact ⟨_, message, hfirst, hdecode, hbody⟩

end UsbSentinel.Web
