import UsbSentinel.HttpRequest
import UsbSentinel.JsonCalls
import UsbSentinel.SafeId

/-! The web application: the state that the request handlers share with the scan worker,
and the routes. Each section that the mutex guards is a function of its own. -/
namespace UsbSentinel.Web
open ByteString UsbSentinel.Http

structure Progress where
  filesScanned : UInt64 := 0
  bytesScanned : UInt64 := 0
  pathsSkipped : UInt64 := 0
  deriving DecidableEq, Repr

/-- `ρ` is what stands for a finished scan. -/
structure App (ρ : Type) where
  token : Bytes
  expectedHost : Bytes
  expectedHostLocalhost : Bytes
  busy : Bool := false
  cancelFlag : Bool := false
  progress : Progress := {}
  done : Bool := false
  doneStatus : Status := .ok
  doneResult : Option ρ := none
  deriving DecidableEq, Repr

def App.create {ρ : Type} (token : Bytes) (port : ℕ) : App ρ where
  token := cut 65 token
  expectedHost := cut 64 (ascii "127.0.0.1:" ++ decimal port)
  expectedHostLocalhost := cut 64 (ascii "localhost:" ++ decimal port)

section Locked
variable {ρ : Type}

/-- `handle_scan_start` takes the slot for its scan. -/
def App.claim (app : App ρ) : App ρ :=
  { app with
    doneResult := none
    cancelFlag := false
    progress := {}
    busy := true
    done := false
    doneStatus := .ok }

/-- `handle_scan_start` gives the slot back when there is no thread for the scan. -/
def App.release (app : App ρ) : App ρ := { app with busy := false }

/-- `handle_cancel`, and the first section of `gui_web_app_shutdown`. -/
def App.requestCancel (app : App ρ) : App ρ :=
  if app.busy then { app with cancelFlag := true } else app

/-- `on_scan_progress`. -/
def App.scanProgress (app : App ρ) (progress : Progress) : App ρ := { app with progress }

/-- `on_scan_done`. -/
def App.scanDone (app : App ρ) (status : Status) (result : Option ρ) : App ρ :=
  { app with doneResult := result, doneStatus := status, done := true, busy := false }

end Locked

/-- What is passed to `http_send_response`: the text that `body` points to and the length
that is sent of it. -/
structure Response where
  statusCode : ℕ
  contentType : Bytes
  body : Bytes
  bodyLen : ℕ
  deriving DecidableEq, Repr

def applicationJson : Bytes := ascii "application/json"

def sendJson (statusCode : ℕ) (body : Bytes) (bodyLen : ℕ) : Response :=
  { statusCode, contentType := applicationJson, body, bodyLen }

def sendText (statusCode : ℕ) (body : Bytes) (bodyLen : ℕ) : Response :=
  { statusCode, contentType := ascii "text/plain", body, bodyLen }

/-- `{"<name>":"<text>"}`. -/
def literalJson (name text : String) : Bytes :=
  ascii "\x7b\"" ++ ascii name ++ ascii "\":\"" ++ ascii text ++ ascii "\"\x7d"

/-- What the rest of the program and the system answer while one request is handled. -/
structure Env (ρ : Type) where
  enumerate : Except Status (List Device)
  realloc : ℕ → Bool
  calloc : Bool
  pthreadCreate : Bool
  buildReport : ρ → Except Status Bytes
  indexHtml : Bytes

/-- `started` is the device that a new worker scans. -/
structure Outcome (ρ : Type) where
  response : Response
  app : App ρ
  started : Option Device := none

def requestIsAuthorized {ρ : Type} (app : App ρ) (request : Request) : Bool :=
  match requestHeader request (ascii "Host") with
  | none => false
  | some host =>
    if host ≠ app.expectedHost ∧ host ≠ app.expectedHostLocalhost then false
    else if requestHeader request (ascii "X-USBSentinel-Token") = some app.token then true
    else queryGet (ascii "token") 128 request.query = some app.token

def safeIdMax : ℕ := identityMax * 3 + 1

/-- The name the frontend knows a device by. -/
def safeIdOf (device : Device) : Bytes :=
  match Store.safeId (identityOf device) safeIdMax with
  | .ok safeId => safeId
  | .error _ => []

open Json.Call in
def writeDeviceJson (device : Device) : List Json.Call :=
  [beginObject,
    memberString (ascii "safe_id") (some (safeIdOf device)),
    memberString (ascii "identity") (some (identityOf device)),
    memberString (ascii "label") (some device.label),
    memberString (ascii "bus_type") (some (busTypeString device.busType)),
    memberString (ascii "vendor") (some device.vendor),
    memberString (ascii "product") (some device.product),
    memberString (ascii "filesystem") (some device.filesystem),
    memberUint (ascii "capacity_bytes") device.capacityBytes.toNat,
    memberUint (ascii "free_bytes") device.freeBytes.toNat,
    memberBool (ascii "media_present") device.mediaPresent,
    memberBool (ascii "scannable") (isScannableUsb device),
    key (ascii "mount_points"),
    beginArray] ++
  device.mountPoints.map (fun mountPoint => string (some mountPoint)) ++
  [endArray, endObject]

/-- The entries of the answer: every USB volume. -/
def listed (devices : List Device) : List Device := devices.filter fun d => d.busType = .usb

def writeDevices (devices : List Device) : List Json.Call :=
  .beginArray :: (listed devices).flatMap writeDeviceJson ++ [.endArray]

/-- The test in the loop of `find_device_by_safe_id`: a device without an identity or a safe
id is passed over. -/
def goesBy (safeId : Bytes) (device : Device) : Bool :=
  match deviceIdentity device identityMax with
  | .error _ => false
  | .ok identity => Store.safeId identity safeIdMax = .ok safeId

section Handlers
variable {ρ : Type} (env : Env ρ) (app : App ρ) (request : Request)

def handleDevices : Response :=
  match env.enumerate with
  | .error _ => sendJson 500 (literalJson "error" "enumeration failed") 30
  | .ok devices =>
    match Json.finish (Json.run env.realloc (writeDevices devices)) with
    | .ok text => sendJson 200 text text.length
    | .error _ => sendJson 500 (literalJson "error" "serialization failed") 32

/-- The first device with this safe id. -/
def findDeviceBySafeId (safeId : Bytes) : Option Device :=
  match env.enumerate with
  | .error _ => none
  | .ok devices => devices.find? (goesBy safeId)

def deviceHasValidMountPoint (device : Device) : Bool :=
  device.mountPoints ≠ [] && device.volumePath ≠ [] && device.volumePath ≠ ascii "/"

def noMountMsg : Bytes :=
  literalJson "error" "No mount point found for this device. Cannot scan."

def handleScanStart : Outcome ρ :=
  match queryGet (ascii "device") 256 request.query with
  | none => ⟨sendJson 400 (literalJson "error" "missing device parameter") 37, app, none⟩
  | some safeId =>
    if app.busy then
      ⟨sendJson 409 (literalJson "error" "a scan is already running") 39, app, none⟩
    else
      match findDeviceBySafeId env safeId with
      | none => ⟨sendJson 404 (literalJson "error" "device not found") 29, app, none⟩
      | some device =>
        if !deviceHasValidMountPoint device then
          ⟨sendJson 409 noMountMsg noMountMsg.length, app, none⟩
        else if !env.calloc then
          ⟨sendJson 500 (literalJson "error" "out of memory") 26, app, none⟩
        else if !env.pthreadCreate then
          -- the state is already that of a new scan
          ⟨sendJson 500 (literalJson "error" "failed to start scan thread") 41,
            app.claim.release, none⟩
        else ⟨sendJson 202 (literalJson "status" "started") 21, app.claim, some device⟩

open Json.Call in
def writeProgress : List Json.Call :=
  [beginObject,
    memberBool (ascii "busy") app.busy,
    memberBool (ascii "done") app.done,
    memberUint (ascii "files_scanned") app.progress.filesScanned.toNat,
    memberUint (ascii "bytes_scanned") app.progress.bytesScanned.toNat] ++
  (if app.done && app.doneStatus ≠ .ok then
    [memberString (ascii "error") (some (statusString app.doneStatus))] else []) ++
  [endObject]

def handleProgress : Response :=
  match Json.finish (Json.run env.realloc (writeProgress app)) with
  | .ok text => sendJson 200 text text.length
  | .error _ => sendJson 500 (ascii "\x7b\x7d") 2

def handleCancel : Outcome ρ := ⟨sendJson 200 (literalJson "status" "ok") 16, app.requestCancel, none⟩

def handleReport : Response :=
  match app.done, app.doneResult with
  | true, some result =>
    match env.buildReport result with
    | .error _ => sendJson 500 (literalJson "error" "failed to build report") 35
    | .ok report => sendJson 200 report report.length
  | _, _ => sendJson 404 (literalJson "error" "no completed scan") 30

inductive Route | page | devices | scan | progress | cancel | report | none
  deriving DecidableEq, Repr

def route : Route :=
  if request.method = ascii "GET" ∧ request.path = ascii "/" then .page
  else if request.method = ascii "GET" ∧ request.path = ascii "/api/devices" then .devices
  else if request.method = ascii "POST" ∧ request.path = ascii "/api/scan" then .scan
  else if request.method = ascii "GET" ∧ request.path = ascii "/api/progress" then .progress
  else if request.method = ascii "POST" ∧ request.path = ascii "/api/cancel" then .cancel
  else if request.method = ascii "GET" ∧ request.path = ascii "/api/report" then .report
  else .none

def handleRequest : Outcome ρ :=
  if !requestIsAuthorized app request then ⟨sendText 403 (ascii "Forbidden") 9, app, none⟩
  else
    match route request with
    | .page =>
      ⟨{ statusCode := 200
         contentType := ascii "text/html; charset=utf-8"
         body := env.indexHtml
         bodyLen := env.indexHtml.length }, app, none⟩
    | .devices => ⟨handleDevices env, app, none⟩
    | .scan => handleScanStart env app request
    | .progress => ⟨handleProgress env app, app, none⟩
    | .cancel => handleCancel app
    | .report => ⟨handleReport env app, app, none⟩
    | .none => ⟨sendText 404 (ascii "Not Found") 9, app, none⟩

end Handlers

end UsbSentinel.Web
