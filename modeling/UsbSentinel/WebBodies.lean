import UsbSentinel.JsonStrict
import UsbSentinel.Report
import UsbSentinel.WebApp

/-! What the web API sends under `application/json`: documents of the writer with their own
length, and literals with a length typed beside them. -/
namespace UsbSentinel.Web
open ByteString UsbSentinel.Http
open Json (Value CLib IsDocument emit emitItems emitMembers unfoldAll)

/-- The body is one document, and no byte behind its text is read. -/
def JsonBody (lib : CLib) (response : Response) : Prop :=
  response.contentType = applicationJson →
    response.bodyLen ≤ response.body.length ∧
      IsDocument lib (response.body.take response.bodyLen)

section Trees

def deviceTree (device : Device) : Value ℤ :=
  .object [(ascii "safe_id", .string (safeIdOf device)),
    (ascii "identity", .string (identityOf device)),
    (ascii "label", .string device.label),
    (ascii "bus_type", .string (busTypeString device.busType)),
    (ascii "vendor", .string device.vendor),
    (ascii "product", .string device.product),
    (ascii "filesystem", .string device.filesystem),
    (ascii "capacity_bytes", .number device.capacityBytes.toNat),
    (ascii "free_bytes", .number device.freeBytes.toNat),
    (ascii "media_present", .bool device.mediaPresent),
    (ascii "scannable", .bool (isScannableUsb device)),
    (ascii "mount_points", .array (device.mountPoints.map .string))]

def devicesTree (devices : List Device) : Value ℤ := .array ((listed devices).map deviceTree)

def progressTree {ρ : Type} (app : App ρ) : Value ℤ :=
  .object ([(ascii "busy", .bool app.busy),
    (ascii "done", .bool app.done),
    (ascii "files_scanned", .number app.progress.filesScanned.toNat),
    (ascii "bytes_scanned", .number app.progress.bytesScanned.toNat)] ++
    if app.done && app.doneStatus ≠ .ok then
      [(ascii "error", .string (statusString app.doneStatus))] else [])

lemma writeDeviceJson_unfold (device : Device) :
    unfoldAll (writeDeviceJson device) = emit (deviceTree device) := by
  simp [writeDeviceJson, deviceTree, Json.Call.unfold, emit, emitMembers,
    Report.unfoldAll_strings]

lemma writeDevices_unfold (devices : List Device) :
    unfoldAll (writeDevices devices) = emit (devicesTree devices) := by
  simp [writeDevices, devicesTree, Json.Call.unfold, emit, Json.unfoldAll_flatMap,
    writeDeviceJson_unfold, Json.emitItems_map]

lemma writeProgress_unfold {ρ : Type} (app : App ρ) :
    unfoldAll (writeProgress app) = emit (progressTree app) := by
  unfold writeProgress progressTree
  split <;> rfl

lemma deviceTree_fits (device : Device) :
    Json.height (deviceTree device) ≤ 3 ∧ Json.AllNumbers Json.IsLong (deviceTree device) := by
  have hmounts := Report.height_strings device.mountPoints
  have hstrings := @Report.allNumbers_strings Json.IsLong device.mountPoints
  have hcapacity := Json.isLong_nat device.capacityBytes.toNat_lt
  have hfree := Json.isLong_nat device.freeBytes.toNat_lt
  constructor
  · simp only [deviceTree, Json.height, Json.heightMembers]
    omega
  · simp only [deviceTree, Json.AllNumbers, Json.AllNumbersMembers, hstrings, hcapacity, hfree,
      and_self]

lemma devicesTree_fits (devices : List Device) :
    Json.height (devicesTree devices) ≤ 4 ∧ Json.AllNumbers Json.IsLong (devicesTree devices) := by
  constructor
  · have hitems : Json.heightItems ((listed devices).map deviceTree) ≤ 3 := by
      apply Json.heightItems_le
      intro v hv
      obtain ⟨device, _, rfl⟩ := List.mem_map.mp hv
      exact (deviceTree_fits device).1
    rw [devicesTree, Json.height]
    omega
  · apply Json.allNumbersItems
    intro v hv
    obtain ⟨device, _, rfl⟩ := List.mem_map.mp hv
    exact (deviceTree_fits device).2

lemma progressTree_fits {ρ : Type} (app : App ρ) :
    Json.height (progressTree app) ≤ 2 ∧ Json.AllNumbers Json.IsLong (progressTree app) := by
  have hfiles := Json.isLong_nat app.progress.filesScanned.toNat_lt
  have hbytes := Json.isLong_nat app.progress.bytesScanned.toNat_lt
  unfold progressTree
  split
  · exact ⟨le_rfl, trivial, trivial, hfiles, hbytes, trivial, trivial⟩
  · exact ⟨le_rfl, trivial, trivial, hfiles, hbytes, trivial⟩

end Trees

section Bodies
variable {lib : CLib}

/-- A text sent with its own length. -/
lemma jsonBody_whole {statusCode : ℕ} {text : Bytes} (h : IsDocument lib text) :
    JsonBody lib (sendJson statusCode text text.length) := by
  intro _
  refine ⟨le_rfl, ?_⟩
  show IsDocument lib (text.take text.length)
  rw [List.take_length]
  exact h

/-- A length past the text. -/
lemma not_jsonBody_over {statusCode n : ℕ} {text : Bytes} (h : text.length < n) :
    ¬ JsonBody lib (sendJson statusCode text n) := by
  intro hbody
  exact absurd (hbody rfl).1 (not_le.mpr h)

lemma jsonBody_other {response : Response} (h : response.contentType ≠ applicationJson) :
    JsonBody lib response :=
  fun hjson => absurd hjson h

lemma object_document (hlib : lib.Scans) (name text : Bytes) :
    IsDocument lib (Json.render (.object [(name, .string text)])) :=
  Json.render_document hlib (Nat.le_of_ble_eq_true rfl) ⟨trivial, trivial⟩

variable {ρ : Type} {env : Env ρ}

lemma handleDevices_body (hlib : lib.Scans) : JsonBody lib (handleDevices env) := by
  have hfailed : IsDocument lib (literalJson "error" "enumeration failed") :=
    object_document hlib (ascii "error") (ascii "enumeration failed")
  have hunwritten : IsDocument lib (literalJson "error" "serialization failed") :=
    object_document hlib (ascii "error") (ascii "serialization failed")
  unfold handleDevices
  cases env.enumerate with
  | error e => exact jsonBody_whole hfailed
  | ok devices =>
    obtain ⟨hheight, hall⟩ := devicesTree_fits devices
    cases hfinish : Json.finish (Json.run env.realloc (writeDevices devices)) with
    | error e =>
      simp only [hfinish]
      exact jsonBody_whole hunwritten
    | ok text =>
      simp only [hfinish]
      exact jsonBody_whole (Json.run_document hlib (writeDevices_unfold devices)
        (hheight.trans (by decide)) hall hfinish).2

lemma handleProgress_body (hlib : lib.Scans) (app : App ρ) :
    JsonBody lib (handleProgress env app) := by
  have hempty : IsDocument lib (ascii "\x7b\x7d") :=
    Json.render_document hlib (v := .object []) (by decide) trivial
  obtain ⟨hheight, hall⟩ := progressTree_fits app
  unfold handleProgress
  cases hfinish : Json.finish (Json.run env.realloc (writeProgress app)) with
  | error e => exact jsonBody_whole hempty
  | ok text =>
    exact jsonBody_whole (Json.run_document hlib (writeProgress_unfold app)
      (hheight.trans (by decide)) hall hfinish).2

/-- The starts that are refused because the device is not mounted. -/
def Unmounted (env : Env ρ) (app : App ρ) (request : Request) : Prop :=
  app.busy = false ∧ ∃ safeId device,
    queryGet (ascii "device") 256 request.query = some safeId ∧
      findDeviceBySafeId env safeId = some device ∧ deviceHasValidMountPoint device = false

/-- There is a report, and it can be built. -/
def Reportable (env : Env ρ) (app : App ρ) : Prop :=
  app.done = true ∧ ∃ result text, app.doneResult = some result ∧ env.buildReport result = .ok text

/-- The requests whose answer is a literal with a length typed too long. -/
def Overcounted (env : Env ρ) (app : App ρ) (request : Request) : Prop :=
  requestIsAuthorized app request = true ∧
    match route request with
    | .cancel => True
    | .scan => ¬ Unmounted env app request
    | .report => ¬ Reportable env app
    | _ => False

lemma handleScanStart_body_iff (hlib : lib.Scans) (app : App ρ) (request : Request) :
    JsonBody lib (handleScanStart env app request).response ↔ Unmounted env app request := by
  have hmessage : IsDocument lib noMountMsg :=
    object_document hlib (ascii "error")
      (ascii "No mount point found for this device. Cannot scan.")
  unfold handleScanStart
  cases hquery : queryGet (ascii "device") 256 request.query with
  | none =>
    refine iff_of_false (not_jsonBody_over (by decide)) ?_
    rintro ⟨_, safeId, device, hsome, _⟩
    rw [hquery] at hsome
    cases hsome
  | some safeId =>
    cases hbusy : app.busy with
    | true =>
      refine iff_of_false (not_jsonBody_over (by decide)) ?_
      rintro ⟨hidle, _⟩
      rw [hbusy] at hidle
      cases hidle
    | false =>
      cases hfound : findDeviceBySafeId env safeId with
      | none =>
        simp only [hfound]
        refine iff_of_false (not_jsonBody_over (by decide)) ?_
        rintro ⟨_, other, device, hsome, hdevice, _⟩
        rw [hquery] at hsome
        obtain rfl := Option.some.inj hsome
        rw [hfound] at hdevice
        cases hdevice
      | some device =>
        simp only [hfound]
        cases hmount : deviceHasValidMountPoint device with
        | false =>
          exact iff_of_true (jsonBody_whole hmessage)
            ⟨hbusy, safeId, device, hquery, hfound, hmount⟩
        | true =>
          have hmounted : ¬ Unmounted env app request := by
            rintro ⟨_, other, found, hsome, hdevice, hunmounted⟩
            rw [hquery] at hsome
            obtain rfl := Option.some.inj hsome
            rw [hfound] at hdevice
            obtain rfl := Option.some.inj hdevice
            rw [hmount] at hunmounted
            cases hunmounted
          cases env.calloc with
          | false => exact iff_of_false (not_jsonBody_over (by decide)) hmounted
          | true =>
            cases env.pthreadCreate with
            | false => exact iff_of_false (not_jsonBody_over (by decide)) hmounted
            | true => exact iff_of_false (not_jsonBody_over (by decide)) hmounted

lemma handleReport_body_iff {app : App ρ}
    (hdocument : ∀ result text, env.buildReport result = .ok text → IsDocument lib text) :
    JsonBody lib (handleReport env app) ↔ Reportable env app := by
  unfold handleReport
  cases hdone : app.done with
  | false =>
    refine iff_of_false (not_jsonBody_over (by decide)) ?_
    rintro ⟨htrue, _⟩
    rw [hdone] at htrue
    cases htrue
  | true =>
    cases hresult : app.doneResult with
    | none =>
      refine iff_of_false (not_jsonBody_over (by decide)) ?_
      rintro ⟨_, result, text, hsome, _⟩
      rw [hresult] at hsome
      cases hsome
    | some result =>
      cases hbuilt : env.buildReport result with
      | error e =>
        simp only [hbuilt]
        refine iff_of_false (not_jsonBody_over (by decide)) ?_
        rintro ⟨_, other, text, hsome, hok⟩
        rw [hresult] at hsome
        obtain rfl := Option.some.inj hsome
        rw [hbuilt] at hok
        cases hok
      | ok text =>
        simp only [hbuilt]
        exact iff_of_true (jsonBody_whole (hdocument result text hbuilt))
          ⟨hdone, result, text, hresult, hbuilt⟩

end Bodies

/-- The body is as it should be unless the answer is one of the overcounted literals. -/
theorem handleRequest_body_iff {lib : CLib} (hlib : lib.Scans) {env : Env Report.Result}
    {malloc : ℕ → Bool} (hbuild : env.buildReport = Report.buildJson env.realloc malloc)
    (app : App Report.Result) (request : Request) :
    JsonBody lib (handleRequest env app request).response ↔ ¬ Overcounted env app request := by
  have htext : ascii "text/plain" ≠ applicationJson := by decide +kernel
  have hhtml : ascii "text/html; charset=utf-8" ≠ applicationJson := by decide +kernel
  unfold handleRequest Overcounted
  cases requestIsAuthorized app request with
  | false =>
    exact iff_of_true (jsonBody_other htext) (by simp)
  | true =>
    cases hroute : route request with
    | page => exact iff_of_true (jsonBody_other hhtml) (by simp)
    | devices => exact iff_of_true (handleDevices_body hlib) (by simp)
    | progress => exact iff_of_true (handleProgress_body hlib app) (by simp)
    | none => exact iff_of_true (jsonBody_other htext) (by simp)
    | cancel =>
      exact iff_of_false (not_jsonBody_over (by decide +kernel)) (by simp)
    | scan => simpa using handleScanStart_body_iff hlib app request
    | report =>
      have hdocument : ∀ result text, env.buildReport result = .ok text → IsDocument lib text := by
        intro result text h
        rw [hbuild] at h
        exact (Report.buildJson_document hlib h).2
      have hreport : JsonBody lib (handleReport env app) ↔ Reportable env app :=
        handleReport_body_iff hdocument
      simpa using hreport

/-- A request to cancel, with the token in its header. -/
def cancelRequest : Request where
  method := ascii "POST"
  path := ascii "/api/cancel"
  headers := [{ name := ascii "Host", value := ascii "localhost:8080" },
    { name := ascii "X-USBSentinel-Token", value := ascii "00ff" }]

def roomyEnv : Env Report.Result where
  enumerate := .ok []
  realloc := fun _ => true
  calloc := true
  pthreadCreate := true
  buildReport := Report.buildJson (fun _ => true) (fun _ => true)
  indexHtml := []

/-- Sixteen bytes are sent of a literal of fifteen. -/
theorem cancel_body_over :
    ¬ JsonBody Json.scanLib
      (handleRequest roomyEnv (App.create (ascii "00ff") 8080) cancelRequest).response := by
  intro h
  have hlength := (h (by decide +kernel)).1
  exact absurd hlength (by decide +kernel)

theorem cancel_body :
    JsonBody Json.scanLib
        (handleRequest roomyEnv (App.create (ascii "00ff") 8080) cancelRequest).response ↔
      ¬ Overcounted roomyEnv (App.create (ascii "00ff") 8080) cancelRequest :=
  @handleRequest_body_iff _ Json.scanLib_scans roomyEnv (fun _ => true) rfl _ _

end UsbSentinel.Web
