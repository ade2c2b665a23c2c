import UsbSentinel.Status

/-! The in-memory scan result: findings, checks, and the lists that hold them. -/
namespace UsbSentinel
open ByteString

inductive Severity | info | warning | high
  deriving DecidableEq, Repr

def Severity.rank : Severity → ℕ
  | .info => 0
  | .warning => 1
  | .high => 2

inductive CheckStatus | ran | skipped | failed
  deriving DecidableEq, Repr

inductive ScanStatus | completed | aborted
  deriving DecidableEq, Repr

def findingMessageMax : ℕ := 256
def findingPathMax : ℕ := 1024
def checkIdMax : ℕ := 64
def skipReasonMax : ℕ := 128
def checkMessageMax : ℕ := 256

structure Finding where
  severity : Severity
  message : Bytes
  path : Bytes
  deriving DecidableEq, Repr

/-- A growable array; its capacity doubles. -/
structure GrowList (α : Type) where
  items : List α := []
  capacity : ℕ := 0
  deriving DecidableEq, Repr

/-- A failed push leaves the list as it was. -/
def GrowList.push {α : Type} (first : ℕ) (grow : ℕ → Bool) (list : GrowList α) (x : α) :
    Status × GrowList α :=
  if list.items.length = list.capacity then
    let next := if list.capacity = 0 then first else list.capacity * 2
    if grow next then (.ok, ⟨list.items ++ [x], next⟩) else (.noMemory, list)
  else (.ok, { list with items := list.items ++ [x] })

lemma GrowList.push_items {α : Type} {first : ℕ} {grow : ℕ → Bool} (hgrow : ∀ n, grow n = true)
    (list : GrowList α) (x : α) : (list.push first grow x).2.items = list.items ++ [x] := by
  unfold GrowList.push
  split
  · rw [if_pos (hgrow _)]
  · rfl

lemma GrowList.push_cases {α : Type} (first : ℕ) (grow : ℕ → Bool) (list : GrowList α) (x : α) :
    (list.push first grow x).2.items = list.items ++ [x] ∨
      (list.push first grow x).2.items = list.items := by
  unfold GrowList.push
  by_cases hfull : list.items.length = list.capacity
  · rw [if_pos hfull]
    generalize (if list.capacity = 0 then first else list.capacity * 2) = next
    cases hgrow : grow next with
    | true => exact .inl (by simp [hgrow])
    | false => exact .inr (by simp [hgrow])
  · rw [if_neg hfull]
    exact .inl rfl

lemma GrowList.mem_push {α : Type} {first : ℕ} {grow : ℕ → Bool} {list : GrowList α} {x y : α}
    (h : y ∈ (list.push first grow x).2.items) : y ∈ list.items ∨ y = x := by
  rcases list.push_cases first grow x with hitems | hitems
  · rw [hitems] at h
    exact (List.mem_append.mp h).imp_right List.mem_singleton.mp
  · rw [hitems] at h
    exact .inl h

structure CheckResult where
  id : Bytes
  status : CheckStatus := .ran
  skipReason : Bytes := []
  message : Bytes := []
  findings : GrowList Finding := {}
  policySuppressed : UInt64 := 0
  policyLowered : UInt64 := 0
  deriving DecidableEq, Repr

def CheckResult.init (id : Bytes) : CheckResult := { id := cut checkIdMax id }

/-- The message and the counters set before are kept. -/
def CheckResult.setSkipped (result : CheckResult) (reason : Bytes) : CheckResult :=
  { result with findings := {}, status := .skipped, skipReason := cut skipReasonMax reason }

def CheckResult.setFailed (result : CheckResult) (message : Bytes) : CheckResult :=
  { result with findings := {}, status := .failed, message := cut checkMessageMax message }

/-- Pushing a finding; a list that cannot grow loses it. -/
def CheckResult.addFinding (grow : ℕ → Bool) (result : CheckResult) (severity : Severity)
    (path message : Bytes) : CheckResult :=
  let finding : Finding :=
    { severity, path := cut findingPathMax path, message := cut findingMessageMax message }
  { result with findings := (result.findings.push 4 grow finding).2 }

structure ScanResult where
  status : ScanStatus
  checks : GrowList CheckResult
  pathsSkipped : ℕ
  pathsExcluded : ℕ
  deriving DecidableEq, Repr

namespace CheckResult

@[simp] theorem init_status (id : Bytes) : (init id).status = .ran := rfl

@[simp] theorem setSkipped_id (r : CheckResult) (reason : Bytes) :
    (r.setSkipped reason).id = r.id := rfl

@[simp] theorem setSkipped_status (r : CheckResult) (reason : Bytes) :
    (r.setSkipped reason).status = .skipped := rfl

@[simp] theorem setSkipped_findings (r : CheckResult) (reason : Bytes) :
    (r.setSkipped reason).findings = {} := rfl

@[simp] theorem setFailed_id (r : CheckResult) (message : Bytes) :
    (r.setFailed message).id = r.id := rfl

@[simp] theorem setFailed_status (r : CheckResult) (message : Bytes) :
    (r.setFailed message).status = .failed := rfl

@[simp] theorem addFinding_id (grow : ℕ → Bool) (r : CheckResult) (severity : Severity)
    (path message : Bytes) : (r.addFinding grow severity path message).id = r.id := rfl

@[simp] theorem addFinding_status (grow : ℕ → Bool) (r : CheckResult) (severity : Severity)
    (path message : Bytes) : (r.addFinding grow severity path message).status = r.status := rfl

/-- With memory the finding is stored behind the others. -/
lemma addFinding_items {grow : ℕ → Bool} (hgrow : ∀ n, grow n = true) (r : CheckResult)
    (severity : Severity) (path message : Bytes) :
    (r.addFinding grow severity path message).findings.items = r.findings.items ++
      [⟨severity, cut findingMessageMax message, cut findingPathMax path⟩] :=
  GrowList.push_items hgrow _ _

end CheckResult

end UsbSentinel
