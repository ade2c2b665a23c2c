import Mathlib

/-! Lists cut into blocks of one size. What is left behind the last whole block is dropped. -/
namespace Blocks

variable {α : Type} {n : ℕ}

def blocks (n : ℕ) (xs : List α) : List (List α) :=
  (List.range (xs.length / n)).map fun i => (xs.drop (n * i)).take n

lemma blocks_short {xs : List α} (h : xs.length < n) : blocks n xs = [] := by
  rw [blocks, Nat.div_eq_of_lt h]
  rfl

lemma blocks_cons (hn : 0 < n) {xs : List α} (h : n ≤ xs.length) :
    blocks n xs = xs.take n :: blocks n (xs.drop n) := by
  have hcount : xs.length / n = (xs.drop n).length / n + 1 := by
    have hsum : xs.length = xs.length - n + n := by omega
    rw [List.length_drop]
    conv_lhs => rw [hsum, Nat.add_div_right _ hn]
  rw [blocks, hcount, List.range_succ_eq_map, List.map_cons, List.map_map, Nat.mul_zero,
    List.drop_zero]
  refine congrArg _ (List.map_congr_left fun i _ => ?_)
  rw [Function.comp_apply, List.drop_drop, Nat.mul_succ, Nat.add_comm]

theorem blocks_append (hn : 0 < n) {xs : List α} (hxs : n ∣ xs.length) (ys : List α) :
    blocks n (xs ++ ys) = blocks n xs ++ blocks n ys := by
  obtain ⟨k, hk⟩ := hxs
  induction k generalizing xs with
  | zero =>
    obtain rfl := List.eq_nil_of_length_eq_zero hk
    rw [blocks_short (show ([] : List α).length < n from hn)]
    rfl
  | succ k ih =>
    have hle : n ≤ xs.length := by rw [hk]; exact Nat.le_mul_of_pos_right n (Nat.succ_pos k)
    have hrest : (xs.drop n).length = n * k := by
      rw [List.length_drop, hk, Nat.mul_succ, Nat.add_sub_cancel]
    rw [blocks_cons hn hle, blocks_cons hn (by rw [List.length_append]; omega),
      List.take_append_of_le_length hle, List.drop_append_of_le_length hle, ih hrest,
      List.cons_append]

lemma blocks_one (hn : 0 < n) {xs : List α} (h : xs.length = n) : blocks n xs = [xs] := by
  rw [blocks_cons hn h.ge, List.take_of_length_le h.le, List.drop_of_length_le h.le,
    blocks_short (show ([] : List α).length < n from hn)]

end Blocks
