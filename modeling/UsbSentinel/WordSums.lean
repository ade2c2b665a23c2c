import Mathlib

/-! Running sums of machine words: they never fall exactly as long as the true sum fits a
word. -/
namespace WordSums

/-- The sums after each word, from `acc` on. -/
def running (acc : UInt64) : List UInt64 → List UInt64
  | [] => []
  | s :: rest => (acc + s) :: running (acc + s) rest

def final (acc : UInt64) (words : List UInt64) : UInt64 := words.foldl (· + ·) acc

/-- The sum without a bound. -/
def total (words : List UInt64) : ℕ := (words.map UInt64.toNat).sum

lemma final_append (acc : UInt64) (words : List UInt64) (s : UInt64) :
    final acc (words ++ [s]) = final acc words + s := by
  simp [final]

lemma running_append (acc : UInt64) (words : List UInt64) (s : UInt64) :
    running acc (words ++ [s]) = running acc words ++ [final acc words + s] := by
  induction words generalizing acc with
  | nil => rfl
  | cons w words ih =>
    rw [List.cons_append, running, ih]
    rfl

/-- Where the sum passes the end of the word it falls. -/
lemma add_falls_iff (acc s : UInt64) : acc ≤ acc + s ↔ acc.toNat + s.toNat < 2 ^ 64 := by
  rw [UInt64.le_iff_toNat_le, UInt64.toNat_add]
  have hacc := acc.toNat_lt
  have hs := s.toNat_lt
  constructor
  · intro h
    by_contra hover
    have hmod : (acc.toNat + s.toNat) % 2 ^ 64 = acc.toNat + s.toNat - 2 ^ 64 := by
      rw [Nat.mod_eq_sub_mod (by omega), Nat.mod_eq_of_lt (by omega)]
    omega
  · intro h
    rw [Nat.mod_eq_of_lt h]
    omega

theorem running_forward_iff (acc : UInt64) (words : List UInt64) :
    (acc :: running acc words).IsChain (· ≤ ·) ↔ acc.toNat + total words < 2 ^ 64 := by
  induction words generalizing acc with
  | nil =>
    have hacc := acc.toNat_lt
    exact iff_of_true (List.isChain_singleton acc) (by simpa [total] using hacc)
  | cons s words ih =>
    rw [running, List.isChain_cons_cons, ih, add_falls_iff]
    have htotal : total (s :: words) = s.toNat + total words := by simp [total]
    rw [htotal, UInt64.toNat_add]
    constructor
    · rintro ⟨hfits, hrest⟩
      rw [Nat.mod_eq_of_lt hfits] at hrest
      omega
    · intro h
      have hfits : acc.toNat + s.toNat < 2 ^ 64 := by omega
      rw [Nat.mod_eq_of_lt hfits]
      exact ⟨hfits, by omega⟩

/-- From nothing the first sum is no fall. -/
theorem running_zero_forward_iff (words : List UInt64) :
    (running 0 words).IsChain (· ≤ ·) ↔ total words < 2 ^ 64 := by
  have h := running_forward_iff 0 words
  rw [UInt64.toNat_zero, Nat.zero_add] at h
  rw [← h]
  cases words with
  | nil => exact iff_of_true List.isChain_nil (List.isChain_singleton _)
  | cons s words =>
    rw [running, List.isChain_cons_cons]
    exact ⟨fun hrest => ⟨UInt64.zero_le, hrest⟩, fun hboth => hboth.2⟩

end WordSums
