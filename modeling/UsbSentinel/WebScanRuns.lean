import UsbSentinel.WebScanStart

/-! Runs of the web application: one request handler at a time, interleaved with the scan
workers at the sections that the mutex guards. -/
namespace UsbSentinel.Web
open ByteString Relation UsbSentinel.Http

/-- A finished scan on the heap. No two are ever the same. -/
abbrev Cell := ℕ

/-- How far the request has come that is being handled. -/
inductive Handler
  | idle
  | starting
  | spawning (scan : ℕ)
  | answering
  | reporting (result : Option Cell)
  deriving DecidableEq, Repr

/-- A worker that has yet to call `on_scan_done`; `running` once its thread exists. -/
structure Worker where
  scan : ℕ
  running : Bool := false
  deriving DecidableEq, Repr

/-- `freed` and `cancelled` keep what the program does not: the results that were freed and
the scans during which a cancel was accepted. -/
structure System where
  app : App Cell
  handler : Handler := .idle
  workers : List Worker := []
  nextScan : ℕ := 0
  nextCell : Cell := 0
  freed : List Cell := []
  cancelled : List ℕ := []
  deriving DecidableEq, Repr

namespace System

def freeDoneResult (s : System) : System :=
  { s with app := { s.app with doneResult := none }, freed := s.app.doneResult.toList ++ s.freed }

/-- The section of `handle_scan_start` behind its checks. -/
def claim (s : System) : System :=
  { s.freeDoneResult with
    app := s.freeDoneResult.app.claim
    handler := .spawning s.nextScan
    workers := { scan := s.nextScan } :: s.workers
    nextScan := s.nextScan + 1 }

def created (s : System) (scan : ℕ) : System :=
  { s with
    handler := .answering
    workers := s.workers.map fun w => if w.scan = scan then { w with running := true } else w }

def notCreated (s : System) (scan : ℕ) : System :=
  { s with
    handler := .answering
    app := s.app.release
    workers := s.workers.filter fun w => w.scan ≠ scan }

def cancel (s : System) : System :=
  { s with
    app := s.app.requestCancel
    cancelled := (if s.app.busy then s.workers.map Worker.scan else []) ++ s.cancelled }

def readReport (s : System) : System :=
  { s with handler := .reporting (if s.app.done then s.app.doneResult else none) }

/-- `on_scan_done`, with what `gui_worker_run` hands over: a result exactly when the scan
could be attempted. -/
def finish (s : System) (w : Worker) (status : Status) : System :=
  { s.freeDoneResult with
    app := s.freeDoneResult.app.scanDone status (if status = .ok then some s.nextCell else none)
    workers := s.workers.erase w
    nextCell := s.nextCell + 1 }

end System

/-- What the thread of the request handlers can do. -/
inductive HandlerStep (s : System) : System → Prop
  | start (h : s.handler = .idle) (hidle : s.app.busy = false) :
      HandlerStep s { s with handler := .starting }
  | refused (h : s.handler = .starting) : HandlerStep s { s with handler := .answering }
  | claim (h : s.handler = .starting) : HandlerStep s s.claim
  | created {scan} (h : s.handler = .spawning scan) : HandlerStep s (s.created scan)
  | notCreated {scan} (h : s.handler = .spawning scan) : HandlerStep s (s.notCreated scan)
  | cancel (h : s.handler = .idle) : HandlerStep s { s.cancel with handler := .answering }
  | readReport (h : s.handler = .idle) : HandlerStep s s.readReport
  /-- Every other request, and a start that finds a scan running. -/
  | look (h : s.handler = .idle) : HandlerStep s { s with handler := .answering }
  | answered (h : s.handler = .answering) : HandlerStep s { s with handler := .idle }
  | reported {result} (h : s.handler = .reporting result) :
      HandlerStep s { s with handler := .idle }

/-- What a worker thread can do. -/
inductive WorkerStep (s : System) : System → Prop
  | progress {w} (hw : w ∈ s.workers) (hrunning : w.running = true) (p : Progress) :
      WorkerStep s { s with app := s.app.scanProgress p }
  | finish {w} (hw : w ∈ s.workers) (hrunning : w.running = true) (status : Status) :
      WorkerStep s (s.finish w status)

def Step (s t : System) : Prop := HandlerStep s t ∨ WorkerStep s t

def launched (token : Bytes) (port : ℕ) : System := { app := App.create token port }

/-! ### The invariant -/

/-- The slot is free, or it is taken by one worker. -/
inductive Slot (s : System) : Prop
  | free (hidle : s.app.busy = false) (hnone : s.workers = [])
  | taken (w : Worker) (hbusy : s.app.busy = true) (hone : s.workers = [w])
      (hdone : s.app.done = false) (hresult : s.app.doneResult = none)
      (hcancel : s.app.cancelFlag = true → w.scan ∈ s.cancelled)

/-- What the request that is being handled relies on. -/
def Handler.Relies (s : System) : Handler → Prop
  | .starting => s.app.busy = false
  | .spawning scan => s.workers = [{ scan }]
  | .reporting (some c) => s.app.busy = false ∧ s.app.doneResult = some c
  | _ => True

structure Invariant (s : System) : Prop where
  slot : Slot s
  /-- A worker without a thread is the one being started. -/
  pending : ∀ w ∈ s.workers, w.running = false → s.handler = .spawning w.scan
  relies : s.handler.Relies s
  doneResult : s.app.done = true → s.app.doneStatus = .ok → s.app.doneResult ≠ none
  live : ∀ c, s.app.doneResult = some c → c < s.nextCell ∧ c ∉ s.freed
  past : ∀ c ∈ s.freed, c < s.nextCell

lemma Slot.of_not_busy {s : System} (h : Slot s) (hidle : s.app.busy = false) :
    s.workers = [] := by
  cases h with
  | free _ hnone => exact hnone
  | taken w hbusy => rw [hidle] at hbusy; cases hbusy

lemma Slot.of_mem {s : System} (h : Slot s) {w : Worker} (hw : w ∈ s.workers) :
    s.app.busy = true ∧ s.workers = [w] := by
  cases h with
  | free _ hnone => rw [hnone] at hw; cases hw
  | taken v hbusy hone =>
    rw [hone] at hw
    obtain rfl := List.mem_singleton.mp hw
    exact ⟨hbusy, hone⟩

lemma invariant_launched (token : Bytes) (port : ℕ) :
    Invariant (launched token port) where
  slot := .free rfl rfl
  pending := by intro w hw; cases hw
  relies := trivial
  doneResult := by intro h; cases h
  live := by intro c h; cases h
  past := by intro c h; cases h

/-- No worker is without a thread unless one is being started. -/
lemma Invariant.running {s : System} (h : Invariant s) (hh : ∀ scan, s.handler ≠ .spawning scan)
    {w : Worker} (hw : w ∈ s.workers) : w.running = true := by
  by_contra hno
  exact hh _ (h.pending w hw (by simpa using hno))

/-- A change of the handler alone, when it is not starting a thread. -/
lemma Invariant.handler {s : System} (h : Invariant s) (hh : ∀ scan, s.handler ≠ .spawning scan)
    {handler : Handler} (hrelies : handler.Relies s) : Invariant { s with handler } where
  pending := by
    intro w hw hno
    rw [h.running hh hw] at hno
    cases hno
  slot := by
    cases h.slot with
    | free hidle hnone => exact .free hidle hnone
    | taken w hbusy hone hdone hresult hcancel => exact .taken w hbusy hone hdone hresult hcancel
  relies := by
    cases handler with
    | reporting result => cases result <;> exact hrelies
    | _ => exact hrelies
  doneResult := h.doneResult
  live := h.live
  past := h.past

lemma Invariant.freed_lt {s : System} (h : Invariant s) :
    ∀ c ∈ s.freeDoneResult.freed, c < s.nextCell := by
  intro c hc
  rcases List.mem_append.mp hc with hc | hc
  · exact (h.live c (Option.mem_toList.mp hc)).1
  · exact h.past c hc

lemma Invariant.claim {s : System} (h : Invariant s) (hh : s.handler = .starting) :
    Invariant s.claim := by
  have hrelies := h.relies
  rw [hh] at hrelies
  have hnone : s.workers = [] := h.slot.of_not_busy hrelies
  have hone : s.claim.workers = [{ scan := s.nextScan }] := by
    rw [System.claim, hnone]
  refine ⟨.taken _ rfl hone rfl rfl ?_, ?_, hone, ?_, ?_, h.freed_lt⟩
  · intro hflag
    cases hflag
  · intro w hw _
    rw [hone] at hw
    obtain rfl := List.mem_singleton.mp hw
    rfl
  · intro hdone
    cases hdone
  · intro c hc
    cases hc

lemma Invariant.created {s : System} (h : Invariant s) {scan : ℕ}
    (hh : s.handler = .spawning scan) : Invariant (s.created scan) := by
  have hrelies := h.relies
  rw [hh] at hrelies
  have hworkers : s.workers = [{ scan }] := hrelies
  have hone : (s.created scan).workers = [{ scan, running := true }] := by
    simp [System.created, hworkers]
  refine ⟨?_, ?_, trivial, h.doneResult, h.live, h.past⟩
  · cases h.slot with
    | free _ hnone =>
      rw [hworkers] at hnone
      cases hnone
    | taken w hbusy hw hdone hresult hcancel =>
      rw [hworkers] at hw
      obtain rfl := List.singleton_inj.mp hw
      exact .taken _ hbusy hone hdone hresult hcancel
  · intro w hw hno
    rw [hone] at hw
    obtain rfl := List.mem_singleton.mp hw
    cases hno

lemma Invariant.notCreated {s : System} (h : Invariant s) {scan : ℕ}
    (hh : s.handler = .spawning scan) : Invariant (s.notCreated scan) := by
  have hrelies := h.relies
  rw [hh] at hrelies
  have hworkers : s.workers = [{ scan }] := hrelies
  have hnone : (s.notCreated scan).workers = [] := by
    simp [System.notCreated, hworkers]
  refine ⟨.free rfl hnone, ?_, trivial, h.doneResult, h.live, h.past⟩
  intro w hw
  rw [hnone] at hw
  cases hw

lemma Invariant.cancel {s : System} (h : Invariant s) (hh : s.handler = .idle) :
    Invariant { s.cancel with handler := .answering } := by
  have hsettled : ∀ scan, s.handler ≠ .spawning scan := by simp [hh]
  cases h.slot with
  | free hidle hnone =>
    have hsame : s.cancel = s := by
      simp [System.cancel, App.requestCancel, hidle]
    rw [hsame]
    exact h.handler hsettled trivial
  | taken w hbusy hone hdone hresult hcancel =>
    have happ : s.cancel.app = { s.app with cancelFlag := true } := by
      simp [System.cancel, App.requestCancel, hbusy]
    refine ⟨.taken w ?_ hone ?_ ?_ ?_, ?_, trivial, ?_, ?_, h.past⟩
    · show s.cancel.app.busy = true
      rw [happ]
      exact hbusy
    · show s.cancel.app.done = false
      rw [happ]
      exact hdone
    · show s.cancel.app.doneResult = none
      rw [happ]
      exact hresult
    · intro _
      show w.scan ∈ s.cancel.cancelled
      simp [System.cancel, hbusy, hone]
    · intro v hv hno
      rw [h.running hsettled hv] at hno
      cases hno
    · show s.cancel.app.done = true → _
      rw [happ]
      exact h.doneResult
    · show ∀ c, s.cancel.app.doneResult = some c → _
      rw [happ]
      exact h.live

lemma Invariant.readReport {s : System} (h : Invariant s) (hh : s.handler = .idle) :
    Invariant s.readReport := by
  apply h.handler (by simp [hh])
  cases h.slot with
  | free hidle hnone =>
    cases hdone : s.app.done with
    | false => exact trivial
    | true =>
      cases hresult : s.app.doneResult with
      | none => exact trivial
      | some c => exact ⟨hidle, hresult⟩
  | taken w hbusy hone hdone =>
    rw [hdone]
    exact trivial

lemma Invariant.handlerStep {s t : System} (h : Invariant s) (hstep : HandlerStep s t) :
    Invariant t := by
  cases hstep with
  | start hh hidle => exact h.handler (by simp [hh]) hidle
  | refused hh => exact h.handler (by simp [hh]) trivial
  | claim hh => exact h.claim hh
  | created hh => exact h.created hh
  | notCreated hh => exact h.notCreated hh
  | cancel hh => exact h.cancel hh
  | readReport hh => exact h.readReport hh
  | look hh => exact h.handler (by simp [hh]) trivial
  | answered hh => exact h.handler (by simp [hh]) trivial
  | reported hh => exact h.handler (by simp [hh]) trivial

lemma Invariant.progress {s : System} (h : Invariant s) (p : Progress) :
    Invariant { s with app := s.app.scanProgress p } where
  slot := by
    cases h.slot with
    | free hidle hnone => exact .free hidle hnone
    | taken w hbusy hone hdone hresult hcancel => exact .taken w hbusy hone hdone hresult hcancel
  pending := h.pending
  relies := by
    have hrelies := h.relies
    cases hh : s.handler with
    | reporting result =>
      rw [hh] at hrelies
      cases result <;> exact hrelies
    | _ =>
      rw [hh] at hrelies
      exact hrelies
  doneResult := h.doneResult
  live := h.live
  past := h.past

lemma Invariant.finish {s : System} (h : Invariant s) {w : Worker} (hw : w ∈ s.workers)
    (hrunning : w.running = true) (status : Status) : Invariant (s.finish w status) := by
  obtain ⟨hbusy, hone⟩ := h.slot.of_mem hw
  have hnone : (s.finish w status).workers = [] := by
    simp [System.finish, hone]
  refine ⟨.free rfl hnone, ?_, ?_, ?_, ?_, ?_⟩
  · intro v hv
    rw [hnone] at hv
    cases hv
  · have hrelies := h.relies
    show s.handler.Relies _
    cases hh : s.handler with
    | starting => rfl
    | spawning scan =>
      -- the thread of this worker does not exist yet
      rw [hh] at hrelies
      have hworkers : s.workers = [{ scan }] := hrelies
      rw [hworkers] at hone
      obtain rfl := List.singleton_inj.mp hone
      cases hrunning
    | reporting result =>
      cases result with
      | none => exact trivial
      | some c =>
        -- a result to report means that no scan is running
        rw [hh] at hrelies
        have hidle : s.app.busy = false := hrelies.1
        rw [hbusy] at hidle
        cases hidle
    | _ => exact trivial
  · intro _ hok
    have hstatus : status = .ok := hok
    simp [System.finish, App.scanDone, hstatus]
  · intro c hc
    have hcell : (if status = .ok then some s.nextCell else none) = some c := hc
    split_ifs at hcell
    obtain rfl := Option.some.inj hcell
    refine ⟨Nat.lt_succ_self _, fun hfreed => ?_⟩
    exact lt_irrefl _ (h.freed_lt _ hfreed)
  · intro c hc
    exact Nat.lt_succ_of_lt (h.freed_lt c hc)

lemma Invariant.workerStep {s t : System} (h : Invariant s) (hstep : WorkerStep s t) :
    Invariant t := by
  cases hstep with
  | progress hw hrunning p => exact h.progress p
  | finish hw hrunning status => exact h.finish hw hrunning status

lemma Invariant.step {s t : System} (h : Invariant s) (hstep : Step s t) : Invariant t := by
  cases hstep with
  | inl hstep => exact h.handlerStep hstep
  | inr hstep => exact h.workerStep hstep

lemma invariant_of_run {s t : System} (h : Invariant s) (hrun : ReflTransGen Step s t) :
    Invariant t := by
  induction hrun with
  | refl => exact h
  | tail _ hstep ih => exact ih.step hstep

/-- What holds between two steps, whatever their order. -/
structure Consistent (s : System) : Prop where
  oneWorker : s.workers.length ≤ 1
  busy_iff : s.app.busy = true ↔ s.workers ≠ []
  /-- A worker has its thread, or the request that starts it is still being handled. -/
  busy_started : s.app.busy = true ↔
    (∃ w ∈ s.workers, w.running = true) ∨ ∃ scan, s.handler = .spawning scan
  exclusive : ¬ (s.app.busy = true ∧ s.app.done = true)
  busy_result : s.app.busy = true → s.app.doneResult = none
  done_result : s.app.done = true → s.app.doneStatus = .ok → s.app.doneResult ≠ none
  /-- A worker that sees the flag was cancelled during its own scan. -/
  ownCancel : ∀ w ∈ s.workers, s.app.cancelFlag = true → w.scan ∈ s.cancelled
  /-- What a request read to report is still there. -/
  notFreed : ∀ c, s.handler = .reporting (some c) → c ∉ s.freed

lemma Invariant.busy_started {s : System} (h : Invariant s) : s.app.busy = true ↔
    (∃ w ∈ s.workers, w.running = true) ∨ ∃ scan, s.handler = .spawning scan := by
  constructor
  · intro hbusy
    cases h.slot with
    | free hidle =>
      rw [hidle] at hbusy
      cases hbusy
    | taken w _ hone =>
      have hw : w ∈ s.workers := hone ▸ List.mem_singleton.mpr rfl
      cases hrunning : w.running with
      | true => exact .inl ⟨w, hw, hrunning⟩
      | false => exact .inr ⟨_, h.pending w hw hrunning⟩
  · rintro (⟨w, hw, _⟩ | ⟨scan, hh⟩)
    · exact (h.slot.of_mem hw).1
    · have hrelies := h.relies
      rw [hh] at hrelies
      have hworkers : s.workers = [{ scan }] := hrelies
      exact (h.slot.of_mem (hworkers ▸ List.mem_singleton.mpr rfl)).1

lemma Invariant.consistent {s : System} (h : Invariant s) : Consistent s := by
  have hnotFreed : ∀ c, s.handler = .reporting (some c) → c ∉ s.freed := by
    intro c hh
    have hrelies := h.relies
    rw [hh] at hrelies
    exact (h.live c hrelies.2).2
  cases h.slot with
  | free hidle hnone =>
    refine ⟨by simp [hnone], by simp [hidle, hnone], h.busy_started, ?_, ?_, h.doneResult, ?_,
      hnotFreed⟩
    · rintro ⟨hbusy, _⟩
      rw [hidle] at hbusy
      cases hbusy
    · intro hbusy
      rw [hidle] at hbusy
      cases hbusy
    · intro w hw
      rw [hnone] at hw
      cases hw
  | taken w hbusy hone hdone hresult hcancel =>
    refine ⟨by simp [hone], by simp [hbusy, hone], h.busy_started, ?_, fun _ => hresult,
      h.doneResult, ?_, hnotFreed⟩
    · rintro ⟨_, hd⟩
      rw [hdone] at hd
      cases hd
    · intro v hv
      rw [hone] at hv
      obtain rfl := List.mem_singleton.mp hv
      exact hcancel

theorem run_consistent (token : Bytes) (port : ℕ) {s : System}
    (hrun : ReflTransGen Step (launched token port) s) : Consistent s :=
  (invariant_of_run (invariant_launched token port) hrun).consistent

lemma run_of_handlers {s t : System} (h : ReflTransGen HandlerStep s t) : ReflTransGen Step s t := by
  induction h with
  | refl => exact .refl
  | tail _ hstep ih => exact ih.tail (.inl hstep)

/-- A scan that was started and is still going on. -/
def scanning (token : Bytes) (port : ℕ) : System :=
  { ({ launched token port with handler := .starting } : System).claim.created 0 with
    handler := .idle }

lemma scanning_run (token : Bytes) (port : ℕ) :
    ReflTransGen HandlerStep (launched token port) (scanning token port) := by
  have hstart := HandlerStep.start (s := launched token port) rfl rfl
  have hclaim := HandlerStep.claim (s := { launched token port with handler := .starting }) rfl
  have hcreated := @HandlerStep.created
    ({ launched token port with handler := .starting } : System).claim 0 rfl
  exact (((ReflTransGen.single hstart).tail hclaim).tail hcreated).tail (.answered rfl)

theorem run_consistent_scanning : Consistent (scanning (ascii "00ff") 8080) :=
  run_consistent (ascii "00ff") 8080
    (run_of_handlers (scanning_run (ascii "00ff") 8080))

/-- The handlers, run without an interruption, are made of these steps. -/
theorem handleRequest_run (env : Env Cell) (request : Request) {s : System}
    (hidle : s.handler = .idle) :
    ∃ t, ReflTransGen HandlerStep s t ∧ t.handler = .idle ∧
      t.app = (handleRequest env s.app request).app := by
  have hlook : (handleRequest env s.app request).app = s.app →
      ∃ t, ReflTransGen HandlerStep s t ∧ t.handler = .idle ∧
        t.app = (handleRequest env s.app request).app := by
    intro hsame
    have hanswered := HandlerStep.answered (s := { s with handler := .answering }) rfl
    exact ⟨_, (ReflTransGen.single (.look hidle)).tail hanswered, rfl, hsame.symm⟩
  by_cases hauthorized : requestIsAuthorized s.app request = true
  · cases hroute : route request with
    | scan =>
      have hhandled : handleRequest env s.app request = handleScanStart env s.app request := by
        rw [handleRequest_scan hroute, if_pos hauthorized]
      rw [hhandled] at hlook ⊢
      by_cases hreaches : ReachesThread env s.app request
      · have hstart := HandlerStep.start hidle hreaches.1
        have hclaim := HandlerStep.claim (s := { s with handler := .starting }) rfl
        have htaken := (ReflTransGen.single hstart).tail hclaim
        cases hthread : env.pthreadCreate with
        | true =>
          have hcreated := @HandlerStep.created
            ({ s with handler := .starting } : System).claim s.nextScan rfl
          have hanswered := HandlerStep.answered
            (s := ({ s with handler := .starting } : System).claim.created s.nextScan) rfl
          refine ⟨_, (htaken.tail hcreated).tail hanswered, rfl, ?_⟩
          rw [((handleScanStart_thread hreaches).1 hthread).2]
          rfl
        | false =>
          have hrefused := @HandlerStep.notCreated
            ({ s with handler := .starting } : System).claim s.nextScan rfl
          have hanswered := HandlerStep.answered
            (s := ({ s with handler := .starting } : System).claim.notCreated s.nextScan) rfl
          refine ⟨_, (htaken.tail hrefused).tail hanswered, rfl, ?_⟩
          rw [((handleScanStart_thread hreaches).2 hthread).2]
          rfl
      · exact hlook (handleScanStart_early hreaches)
    | cancel =>
      have hanswered := HandlerStep.answered (s := { s.cancel with handler := .answering }) rfl
      refine ⟨_, (ReflTransGen.single (.cancel hidle)).tail hanswered, rfl, ?_⟩
      simp [handleRequest, hauthorized, hroute, handleCancel, System.cancel]
    | _ => exact hlook (by simp [handleRequest, hauthorized, hroute])
  · exact hlook (by simp [handleRequest, hauthorized])

/-! ### Shutting down -/

/-- The end of `main`: serving, the polls of `gui_web_app_shutdown`, `gui_web_app_free`. -/
inductive Phase
  | serving
  | draining (waitedMs : ℕ)
  | drained
  | freed
  deriving DecidableEq, Repr

structure Process where
  system : System
  phase : Phase := .serving
  deriving DecidableEq, Repr

def maxWaitMs : ℕ := 5000
def pollMs : ℕ := 50

/-- A detached worker goes on in every phase. -/
inductive ProcessStep (p : Process) : Process → Prop
  | handle {t} (h : p.phase = .serving) (hstep : HandlerStep p.system t) :
      ProcessStep p { p with system := t }
  | work {t} (hstep : WorkerStep p.system t) : ProcessStep p { p with system := t }
  | shutdown (h : p.phase = .serving) (hidle : p.system.handler = .idle) :
      ProcessStep p ⟨p.system.cancel, .draining 0⟩
  | wait {waitedMs} (h : p.phase = .draining waitedMs) (hbusy : p.system.app.busy = true)
      (hroom : waitedMs < maxWaitMs) : ProcessStep p { p with phase := .draining (waitedMs + pollMs) }
  | leave {waitedMs} (h : p.phase = .draining waitedMs)
      (hleave : p.system.app.busy = false ∨ maxWaitMs ≤ waitedMs) :
      ProcessStep p { p with phase := .drained }
  | free (h : p.phase = .drained) : ProcessStep p ⟨p.system.freeDoneResult, .freed⟩

def launchedProcess (token : Bytes) (port : ℕ) : Process := { system := launched token port }

/-- No worker is left to call back once the application is freed. -/
def SafelyFreed (p : Process) : Prop := p.phase = .freed → p.system.workers = []

/-- The step ends the polls though the scan is not done. -/
def GivesUp (p q : Process) : Prop :=
  (∃ waitedMs, p.phase = .draining waitedMs) ∧ q.phase = .drained ∧ p.system.app.busy = true

def TimelyStep (p q : Process) : Prop := ProcessStep p q ∧ ¬ GivesUp p q

/-- Up to the polls' end the state is that of a run; behind it no worker is left. -/
def Drained (p : Process) : Prop :=
  match p.phase with
  | .serving | .draining _ => Invariant p.system
  | .drained | .freed => p.system.workers = []

lemma WorkerStep.workers_ne_nil {s t : System} (h : WorkerStep s t) : s.workers ≠ [] := by
  cases h with
  | progress hw => exact List.ne_nil_of_mem hw
  | finish hw => exact List.ne_nil_of_mem hw

lemma Invariant.shutdown {s : System} (h : Invariant s) (hidle : s.handler = .idle) :
    Invariant s.cancel := by
  have hsame : ({ s.cancel with handler := .idle } : System) = s.cancel := by
    rw [← hidle]
    rfl
  rw [← hsame]
  exact @Invariant.handler _ (h.cancel hidle) (by simp) .idle trivial

lemma Drained.step {p q : Process} (h : Drained p) (hstep : TimelyStep p q) : Drained q := by
  obtain ⟨hstep, htimely⟩ := hstep
  cases hstep with
  | handle hphase hstep =>
    unfold Drained at h ⊢
    simp only [hphase] at h ⊢
    exact h.handlerStep hstep
  | work hstep =>
    unfold Drained at h ⊢
    cases hphase : p.phase with
    | drained | freed =>
      simp only [hphase] at h
      exact absurd h hstep.workers_ne_nil
    | _ =>
      simp only [hphase] at h ⊢
      exact h.workerStep hstep
  | shutdown hphase hidle =>
    unfold Drained at h
    simp only [hphase] at h
    exact h.shutdown hidle
  | wait hphase =>
    unfold Drained at h
    simp only [hphase] at h
    exact h
  | @leave waitedMs hphase hleave =>
    unfold Drained at h
    simp only [hphase] at h
    cases hbusy : p.system.app.busy with
    | false => exact h.slot.of_not_busy hbusy
    | true => exact absurd ⟨⟨waitedMs, hphase⟩, rfl, hbusy⟩ htimely
  | free hphase =>
    unfold Drained at h
    simp only [hphase] at h
    exact h

lemma drained_of_run {p q : Process} (h : Drained p) (hrun : ReflTransGen TimelyStep p q) :
    Drained q := by
  induction hrun with
  | refl => exact h
  | tail _ hstep ih => exact ih.step hstep

/-- As long as the state is not freed, it is that of a run, whatever the timing. -/
lemma process_invariant {token : Bytes} {port : ℕ} {p : Process}
    (hrun : ReflTransGen ProcessStep (launchedProcess token port) p) :
    p.phase ≠ .freed → Invariant p.system := by
  induction hrun with
  | refl => exact fun _ => invariant_launched token port
  | @tail p q _ hstep ih =>
    intro hlive
    cases hstep with
    | handle hphase hstep => exact (ih (by rw [hphase]; simp)).handlerStep hstep
    | work hstep => exact (ih hlive).workerStep hstep
    | shutdown hphase hidle => exact (ih (by rw [hphase]; simp)).shutdown hidle
    | wait hphase => exact ih (by rw [hphase]; simp)
    | leave hphase => exact ih (by rw [hphase]; simp)
    | free hphase => exact absurd rfl hlive

/-- If the polls are never given up while a scan is running, nothing is freed under a worker;
wherever they are, it can be. -/
theorem free_underNoWorker (token : Bytes) (port : ℕ) :
    (∀ p, ReflTransGen TimelyStep (launchedProcess token port) p → SafelyFreed p) ∧
      ∀ p q, ReflTransGen ProcessStep (launchedProcess token port) p → ProcessStep p q →
        GivesUp p q → ∃ r, ProcessStep q r ∧ ¬ SafelyFreed r := by
  constructor
  · intro p hrun hfreed
    have hstart : Drained (launchedProcess token port) := invariant_launched token port
    have hdrained := drained_of_run hstart hrun
    unfold Drained at hdrained
    simp only [hfreed] at hdrained
    exact hdrained
  · rintro p q hrun hstep ⟨⟨waitedMs, hphase⟩, hend, hbusy⟩
    have hinvariant := process_invariant hrun (by rw [hphase]; simp)
    have hworkers : p.system.workers ≠ [] := by
      cases hinvariant.slot with
      | free hidle => rw [hidle] at hbusy; cases hbusy
      | taken w _ hone => simp [hone]
    cases hstep with
    | leave =>
      refine ⟨_, .free rfl, ?_⟩
      intro hsafe
      exact hworkers (hsafe rfl)
    | handle hother | shutdown hother | free hother =>
      rw [hphase] at hother
      cases hother
    | work =>
      rw [hphase] at hend
      cases hend
    | wait => cases hend

lemma waits_run (s : System) (hbusy : s.app.busy = true) {n : ℕ} (hn : n ≤ 100) :
    ReflTransGen ProcessStep ⟨s, .draining 0⟩ ⟨s, .draining (n * pollMs)⟩ := by
  induction n with
  | zero => exact .refl
  | succ n ih =>
    have hroom : n * pollMs < maxWaitMs := by
      unfold pollMs maxWaitMs
      omega
    have hwait := ProcessStep.wait (p := ⟨s, .draining (n * pollMs)⟩) rfl hbusy hroom
    rw [Nat.succ_mul]
    exact (ih (by omega)).tail hwait

lemma process_of_handlers {s t : System} (h : ReflTransGen HandlerStep s t) :
    ReflTransGen ProcessStep { system := s } { system := t } := by
  induction h with
  | refl => exact .refl
  | tail _ hstep ih => exact ih.tail (.handle rfl hstep)

/-- A scan that is stuck for the whole of the wait. -/
theorem freed_underWorker : ∃ p,
    ReflTransGen ProcessStep (launchedProcess (ascii "00ff") 8080) p ∧ ¬ SafelyFreed p := by
  have hserved := process_of_handlers (scanning_run (ascii "00ff") 8080)
  have hshutdown := ProcessStep.shutdown (p := { system := scanning (ascii "00ff") 8080 }) rfl rfl
  have hwaited := waits_run (scanning (ascii "00ff") 8080).cancel rfl (le_refl 100)
  have hleave := ProcessStep.leave
    (p := ⟨(scanning (ascii "00ff") 8080).cancel, .draining (100 * pollMs)⟩) rfl (.inr (le_refl _))
  refine ⟨_, (((hserved.tail hshutdown).trans hwaited).tail hleave).tail (.free rfl), ?_⟩
  intro hsafe
  have hnone := hsafe rfl
  cases hnone

end UsbSentinel.Web
