import UsbSentinel.HttpResponse
import UsbSentinel.Report
import UsbSentinel.ScanReport

/-! The report on its way from the volume to the browser: what the scan found, what its worker
left behind, and the message that carries it. -/
namespace UsbSentinel.Web
open ByteString HttpMessage UsbSentinel.Http
open Report (Result reportTree checkTree summaryTree checksWith findingsCount)
open Scanner (Scan scannerScan Unchanging reportOf tallyVolume checks_reported)

/-- How far the lists of a check have grown does not show. -/
lemma checkTree_reported (check : CheckResult) : checkTree check.reported = checkTree check := rfl

lemma summaryTree_reported (checks : List CheckResult) :
    summaryTree (checks.map CheckResult.reported) = summaryTree checks := by
  have hwith : ∀ status, checksWith status (checks.map CheckResult.reported) =
      checksWith status checks := by
    intro status
    rw [checksWith, checksWith, List.countP_map]
    rfl
  have hcount : findingsCount (checks.map CheckResult.reported) = findingsCount checks := by
    rw [findingsCount, findingsCount, List.map_map]
    rfl
  simp only [summaryTree, hwith, hcount]

lemma reportTree_reported {result : Result} {checks : List CheckResult}
    (h : result.checks.items.map CheckResult.reported = checks) :
    reportTree result = reportTree { result with checks := { items := checks } } := by
  subst h
  have hchecks : checkTree ∘ CheckResult.reported = checkTree := funext checkTree_reported
  simp only [reportTree, summaryTree_reported, List.map_map, hchecks]

section Served
variable {env : Env Result} {malloc : ℕ → Bool} {result : Result} {before : App Result}
  (hbuild : env.buildReport = Report.buildJson env.realloc malloc)
  (hfits : Json.Fits env.realloc (Json.render (reportTree result)).length)
  (hmalloc : malloc ((Json.render (reportTree result)).length + 1) = true)
include hbuild hfits hmalloc

/-- What the worker has handed over is what is reported. -/
lemma handleReport_done :
    handleReport env (before.scanDone .ok (some result)) =
      sendJson 200 (Json.render (reportTree result))
        (Json.render (reportTree result)).length := by
  have hbuilt : env.buildReport result = .ok (Json.render (reportTree result)) := by
    rw [hbuild]
    exact Report.buildJson_ok hfits hmalloc
  simp only [handleReport, App.scanDone, hbuilt]

/-- From the volume to the browser: once the worker of a completed scan has handed over its
result, whatever segments an allowed request for the report comes in, and however few bytes each
send takes, a client that reads to the end reads the JSON text of the report that a plain reading
of the volume gives. -/
theorem report_served {scan : Scan} {v : Volume} (hv : Unchanging scan v)
    (hslots : scan.host.slotsMemory = true) (hfirst : scan.host.checkMemory 0 = true)
    (hfifth : scan.host.checkMemory 4 = true) {signatures : SignatureState}
    (hcompleted : (scannerScan scan signatures).1.status = .completed)
    (hresult : result.toScanResult = (scannerScan scan signatures).1) {client : Client}
    {request : Request} {body : Bytes} (hsent : answer client.sent = .handled request body)
    (hallowed : requestIsAuthorized before request = true) (hroute : route request = .report)
    {peer : Peer} (hpeer : peer.Stays) (beyond : ℕ → UInt8) :
    ∃ message : Message,
      decode (serveConnection env (before.scanDone .ok (some result)) client peer beyond) =
        some message ∧
      message.code = 200 ∧
      fieldNamed (ascii "Content-Type") message.fields = some applicationJson ∧
      message.body = Json.render (reportTree { result with
        checks := { items := reportOf scan signatures (tallyVolume scan v) } }) := by
  have hchecks : result.checks.items.map CheckResult.reported =
      reportOf scan signatures (tallyVolume scan v) := by
    rw [hresult]
    exact checks_reported hv hslots hfirst hfifth hcompleted
  have hsize := hfits.length.trans (show 2 ^ 63 < 2 ^ 64 by decide)
  have hkept : requestIsAuthorized (before.scanDone .ok (some result)) request = true := hallowed
  have hresponse : responseTo env (before.scanDone .ok (some result)) (ending client) =
      some (handleReport env (before.scanDone .ok (some result))) := by
    rw [responseTo_handled env _ hsent, handleRequest, hkept, hroute]
    rfl
  rw [serveConnection, hresponse, ← reportTree_reported hchecks]
  simp only
  rw [handleReport_done hbuild hfits hmalloc]
  exact decode_sendJson hpeer beyond hsize

end Served

open Scanner (lockedScan lockedVolume locked_unchanging completed_of_uncancelled)

def lockedResult : Result :=
  { (scannerScan lockedScan {}).1 with
    scanId := ascii "00ff"
    startedAt := ascii "2026-01-01T00:00:00Z"
    finishedAt := ascii "2026-01-01T00:00:01Z"
    device := lockedScan.device
    capabilities := {} }

def lockedEnv : Env Result where
  enumerate := .ok []
  realloc _ := true
  calloc := true
  pthreadCreate := true
  buildReport := Report.buildJson (fun _ => true) fun _ => true
  indexHtml := []

/-- The page asks for the report. -/
def reportClient : Client :=
  ⟨ascii "GET /api/report?token=00ff HTTP/1.1\r\nHost: 127.0.0.1:8080\r\n\r\n", fun _ => 0⟩

def reportRequest : Request where
  method := ascii "GET"
  path := ascii "/api/report"
  query := ascii "token=00ff"
  headers := [⟨ascii "Host", ascii "127.0.0.1:8080"⟩]

/-- What the server takes the request for, and the length of the report. -/
lemma report_facts : answer reportClient.sent = .handled reportRequest [] ∧
    (Json.render (reportTree lockedResult)).length < 2 ^ 63 := by
  decide +kernel

theorem locked_served : ∃ message : Message,
    decode (serveConnection lockedEnv
      ((App.create (ascii "00ff") 8080).scanDone .ok (some lockedResult)) reportClient
      (fun _ => some 2) fun _ => 0) = some message ∧
    message.body = Json.render (reportTree { lockedResult with
      checks := { items := reportOf lockedScan {} (tallyVolume lockedScan lockedVolume) } }) := by
  have hallowed : requestIsAuthorized (App.create (ascii "00ff") 8080 : App Result)
      reportRequest = true := by decide
  have hstays : Peer.Stays fun _ => some 2 := fun _ h => by cases h
  have hmalloc : (fun _ => true) ((Json.render (reportTree lockedResult)).length + 1) = true := rfl
  have hbuild : lockedEnv.buildReport = Report.buildJson lockedEnv.realloc fun _ => true := rfl
  obtain ⟨message, hdecode, _, _, hbody⟩ := report_served hbuild
    ⟨report_facts.2, fun _ _ => rfl⟩ hmalloc locked_unchanging rfl rfl rfl
    (completed_of_uncancelled locked_unchanging rfl (fun _ => rfl) {}) rfl report_facts.1
    hallowed (by decide) hstays fun _ => 0
  exact ⟨message, hdecode, hbody⟩

end UsbSentinel.Web
