import UsbSentinel.WebApp

/-! Starting a scan from the browser: what a refused request leaves behind. -/
namespace UsbSentinel.Web
open ByteString UsbSentinel.Http

variable {ρ : Type}

/-- The fields that a report and its progress are answered from. -/
structure Unchanged (app app' : App ρ) : Prop where
  busy : app'.busy = app.busy
  done : app'.done = app.done
  doneStatus : app'.doneStatus = app.doneStatus
  doneResult : app'.doneResult = app.doneResult
  progress : app'.progress = app.progress

lemma Unchanged.refl (app : App ρ) : Unchanged app app := ⟨rfl, rfl, rfl, rfl, rfl⟩

/-- The report is served as before. -/
lemma Unchanged.handleReport {app app' : App ρ} (h : Unchanged app app') (env : Env ρ) :
    handleReport env app' = handleReport env app := by
  unfold Web.handleReport
  rw [h.done, h.doneResult]

/-- A start that is not accepted changes none of them, and the next report is the same. -/
def RefusalChangesNothing (env : Env ρ) (app : App ρ) (request : Request) : Prop :=
  route request = .scan → (handleRequest env app request).response.statusCode ≠ 202 →
    Unchanged app (handleRequest env app request).app ∧
      ∀ later : Env ρ,
        handleReport later (handleRequest env app request).app = handleReport later app

/-- The state of an application that never scanned. -/
def Fresh (app : App ρ) : Prop :=
  app.done = false ∧ app.doneStatus = .ok ∧ app.doneResult = none ∧ app.progress = {}

lemma unchanged_release {app : App ρ} (hidle : app.busy = false) :
    Unchanged app app.claim.release ↔ Fresh app := by
  constructor
  · intro h
    exact ⟨h.done.symm, h.doneStatus.symm, h.doneResult.symm, h.progress.symm⟩
  · rintro ⟨hdone, hstatus, hresult, hprogress⟩
    exact ⟨hidle.symm, hdone.symm, hstatus.symm, hresult.symm, hprogress.symm⟩

/-- The request gets as far as the thread. -/
def ReachesThread (env : Env ρ) (app : App ρ) (request : Request) : Prop :=
  app.busy = false ∧ env.calloc = true ∧
    ∃ safeId device, queryGet (ascii "device") 256 request.query = some safeId ∧
      findDeviceBySafeId env safeId = some device ∧ deviceHasValidMountPoint device = true

/-- A start that does not reach the thread is refused and leaves the state as it was. -/
lemma handleScanStart_early {env : Env ρ} {app : App ρ} {request : Request}
    (h : ¬ ReachesThread env app request) : (handleScanStart env app request).app = app := by
  unfold handleScanStart
  cases hquery : queryGet (ascii "device") 256 request.query with
  | none => rfl
  | some safeId =>
    cases hbusy : app.busy with
    | true => rfl
    | false =>
      cases hfound : findDeviceBySafeId env safeId with
      | none => simp [hfound]
      | some device =>
        cases hmount : deviceHasValidMountPoint device with
        | false => simp [hfound, hmount]
        | true =>
          cases hcalloc : env.calloc with
          | false => simp [hfound, hmount]
          | true => exact absurd ⟨hbusy, hcalloc, safeId, device, hquery, hfound, hmount⟩ h

lemma handleScanStart_thread {env : Env ρ} {app : App ρ} {request : Request}
    (h : ReachesThread env app request) :
    (env.pthreadCreate = true →
        (handleScanStart env app request).response.statusCode = 202 ∧
          (handleScanStart env app request).app = app.claim) ∧
      (env.pthreadCreate = false →
        (handleScanStart env app request).response.statusCode ≠ 202 ∧
          (handleScanStart env app request).app = app.claim.release) := by
  obtain ⟨hbusy, hcalloc, safeId, device, hquery, hfound, hmount⟩ := h
  unfold handleScanStart
  constructor
  · intro hthread
    simp [hquery, hbusy, hfound, hmount, hcalloc, hthread, sendJson]
  · intro hthread
    simp [hquery, hbusy, hfound, hmount, hcalloc, hthread, sendJson]

lemma handleRequest_scan {env : Env ρ} {app : App ρ} {request : Request}
    (hroute : route request = .scan) :
    handleRequest env app request =
      if requestIsAuthorized app request then handleScanStart env app request
      else ⟨sendText 403 (ascii "Forbidden") 9, app, none⟩ := by
  unfold handleRequest
  rw [hroute]
  cases requestIsAuthorized app request <;> rfl

/-- An authorised request that gets as far as the thread, when there is none. -/
def ThreadRefused (env : Env ρ) (app : App ρ) (request : Request) : Prop :=
  route request = .scan ∧ requestIsAuthorized app request = true ∧
    ReachesThread env app request ∧ env.pthreadCreate = false

theorem refusal_changesNothing_iff (env : Env ρ) (app : App ρ) (request : Request) :
    RefusalChangesNothing env app request ↔ (ThreadRefused env app request → Fresh app) := by
  constructor
  · rintro h ⟨hroute, hauthorized, hreaches, hthread⟩
    obtain ⟨hstatus, happ⟩ := (handleScanStart_thread hreaches).2 hthread
    have hhandled : handleRequest env app request = handleScanStart env app request := by
      rw [handleRequest_scan hroute, if_pos hauthorized]
    have hsame := (h hroute (by rw [hhandled]; exact hstatus)).1
    rw [hhandled, happ] at hsame
    exact (unchanged_release hreaches.1).mp hsame
  · intro h hroute hstatus
    have hsame : Unchanged app (handleRequest env app request).app := by
      rw [handleRequest_scan hroute] at hstatus ⊢
      by_cases hauthorized : requestIsAuthorized app request = true
      · rw [if_pos hauthorized] at hstatus ⊢
        by_cases hreaches : ReachesThread env app request
        · cases hthread : env.pthreadCreate with
          | true => exact absurd ((handleScanStart_thread hreaches).1 hthread).1 hstatus
          | false =>
            rw [((handleScanStart_thread hreaches).2 hthread).2]
            exact (unchanged_release hreaches.1).mpr (h ⟨hroute, hauthorized, hreaches, hthread⟩)
        · rw [handleScanStart_early hreaches]
          exact Unchanged.refl app
      · rw [if_neg hauthorized]
        exact Unchanged.refl app
    exact ⟨hsame, hsame.handleReport⟩

/-- An application with a report to serve, and a start that gets no thread. -/
def scannedApp : App ℕ :=
  { (App.create (ascii "00ff") 8080 : App ℕ) with done := true, doneResult := some 1 }

def mountedStick : Device where
  volumePath := ascii "/media/u/A/"
  serial := ascii "S1"
  mountPoints := [ascii "/media/u/A"]
  mediaPresent := true

def threadlessEnv : Env ℕ where
  enumerate := .ok [mountedStick]
  realloc := fun _ => true
  calloc := true
  pthreadCreate := false
  buildReport := fun _ => .ok (ascii "\x7b\x7d")
  indexHtml := []

def stickRequest : Request where
  method := ascii "POST"
  path := ascii "/api/scan"
  query := ascii "token=00ff&device=serial_3AS1"
  headers := [{ name := ascii "Host", value := ascii "127.0.0.1:8080" }]

/-- The report is lost though nothing was started. -/
theorem threadless_losesReport : ¬ RefusalChangesNothing threadlessEnv scannedApp stickRequest := by
  intro h
  have hsame := (h (by decide +kernel) (by decide +kernel)).1.doneResult
  exact absurd hsame (by decide +kernel)

end UsbSentinel.Web
