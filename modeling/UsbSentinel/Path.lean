import UsbSentinel.Status

/-! Separator handling. Both hosts are modelled: Windows splits on either slash
but builds with a backslash, POSIX knows the forward slash only. -/
namespace UsbSentinel.Path
open ByteString

inductive Host | posix | win32
  deriving DecidableEq, Repr

def slash : UInt8 := 47
def backslash : UInt8 := 92

def Host.sep : Host → UInt8
  | .posix => slash
  | .win32 => backslash

def isSeparator : Host → UInt8 → Bool
  | .posix, c => c = slash
  | .win32, c => c = backslash || c = slash

theorem isSeparator_sep (host : Host) : isSeparator host host.sep = true := by
  cases host <;> rfl

/-- `base` and `leaf` with one separator between them, before any bound applies. -/
def joined (host : Host) (base leaf : Bytes) : Bytes :=
  if base.getLast?.any (isSeparator host) then base ++ leaf
  else base ++ host.sep :: leaf

/-- The result is refused, not truncated, when it does not fit `cap` bytes. -/
def pathJoin (host : Host) (cap : ℕ) (base leaf : Bytes) : Except Status Bytes :=
  if cap = 0 then .error .invalidArg
  else if (joined host base leaf).length ≥ cap then .error .noMemory
  else .ok (joined host base leaf)

theorem pathJoin_eq_ok {host : Host} {cap : ℕ} {base leaf out : Bytes} :
    pathJoin host cap base leaf = .ok out ↔
      out = joined host base leaf ∧ (joined host base leaf).length < cap := by
  unfold pathJoin
  split_ifs with h0 hlen
  · simp [h0]
  · simp only [false_iff]
    omega
  · simp only [Except.ok.injEq]
    constructor
    · exact fun h => ⟨h.symm, by omega⟩
    · exact fun h => h.1.symm

/-- The part of a joined path that the leaf is appended to. -/
def stem (host : Host) (base : Bytes) : Bytes :=
  if base.getLast?.any (isSeparator host) then base else base ++ [host.sep]

theorem joined_eq_stem_append (host : Host) (base leaf : Bytes) :
    joined host base leaf = stem host base ++ leaf := by
  unfold joined stem
  split_ifs <;> simp

theorem le_joined_of_error {host : Host} {cap : ℕ} {base leaf : Bytes} {e : Status}
    (h : pathJoin host cap base leaf = .error e) : cap ≤ (joined host base leaf).length := by
  by_contra hshort
  rw [pathJoin_eq_ok.mpr ⟨rfl, Nat.lt_of_not_le hshort⟩] at h
  cases h

theorem stem_ends_with_separator (host : Host) (base : Bytes) :
    ∃ p s, stem host base = p ++ [s] ∧ isSeparator host s = true := by
  unfold stem
  split_ifs with h
  · cases hb : base.getLast? with
    | none => simp [hb] at h
    | some s =>
      obtain ⟨p, rfl⟩ := List.getLast?_eq_some_iff.mp hb
      exact ⟨p, s, rfl, by simpa [hb] using h⟩
  · exact ⟨base, host.sep, rfl, isSeparator_sep host⟩

theorem joined_length (host : Host) (base leaf : Bytes) :
    (joined host base leaf).length = (stem host base).length + leaf.length := by
  rw [joined_eq_stem_append, List.length_append]

end UsbSentinel.Path
