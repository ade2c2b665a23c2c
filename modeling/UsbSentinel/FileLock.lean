import Mathlib.Data.List.Basic

/-! Locks as `flock` gives them. A lock belongs to an open file; a child that inherits the open
file shares it, and it is free when the last process has closed the file. -/
namespace FileLock

/-- The open file that has the lock, and the processes that have that file open. -/
structure Lock (F P : Type) where
  owner : Option F := none
  holders : List P := []
  deriving DecidableEq, Repr

variable {F P : Type} {fileOf : P → F} {l : Lock F P}

/-- An exclusive lock without waiting, on a file that only `p` has open. -/
def Lock.acquire (l : Lock F P) (f : F) (p : P) : Option (Lock F P) :=
  if l.holders = [] then some { owner := some f, holders := [p] } else none

lemma Lock.acquire_some {l' : Lock F P} {f : F} {p : P} :
    l.acquire f p = some l' ↔ l.holders = [] ∧ l' = { owner := some f, holders := [p] } := by
  unfold Lock.acquire
  split_ifs with h
  · rw [Option.some.injEq, eq_comm, iff_and_self]
    exact fun _ => h
  · simp [h]

/-- Every process that has the lock got it with the file that owns it. -/
def Shared (fileOf : P → F) (l : Lock F P) : Prop := ∀ p ∈ l.holders, l.owner = some (fileOf p)

/-- No two files have the lock. -/
lemma Shared.unique (h : Shared fileOf l) {p q : P} (hp : p ∈ l.holders) (hq : q ∈ l.holders) :
    fileOf p = fileOf q :=
  Option.some.inj ((h p hp).symm.trans (h q hq))

lemma Shared.acquire {l' : Lock F P} {p : P} (hl : l.acquire (fileOf p) p = some l') :
    Shared fileOf l' := by
  obtain ⟨_, rfl⟩ := Lock.acquire_some.mp hl
  intro q hq
  obtain rfl := List.mem_singleton.mp hq
  rfl

variable [DecidableEq P]

/-- `p` starts `q`, which inherits what `p` has open. -/
def Lock.fork (l : Lock F P) (p q : P) : Lock F P :=
  if p ∈ l.holders then { l with holders := q :: l.holders } else l

/-- `p` has nothing open any more. -/
def Lock.close (l : Lock F P) (p : P) : Lock F P :=
  { l with holders := l.holders.filter (· ≠ p) }

lemma Lock.mem_fork {p q r : P} :
    r ∈ (l.fork p q).holders ↔ r ∈ l.holders ∨ (p ∈ l.holders ∧ r = q) := by
  unfold Lock.fork
  split_ifs with h
  · rw [List.mem_cons, or_comm]
    simp [h]
  · simp [h]

lemma Lock.mem_close {p r : P} : r ∈ (l.close p).holders ↔ r ∈ l.holders ∧ r ≠ p := by
  simp [Lock.close]

lemma Shared.fork (h : Shared fileOf l) {p q : P} (hfile : fileOf q = fileOf p) :
    Shared fileOf (l.fork p q) := by
  have howner : (l.fork p q).owner = l.owner := by
    unfold Lock.fork
    split_ifs
    · rfl
    · rfl
  intro r hr
  rw [howner]
  rcases Lock.mem_fork.mp hr with hr | ⟨hp, rfl⟩
  · exact h r hr
  · rw [hfile]
    exact h p hp

lemma Shared.close (h : Shared fileOf l) (p : P) : Shared fileOf (l.close p) :=
  fun q hq => h q (Lock.mem_close.mp hq).1

end FileLock
