import Mathlib

/-! A set kept in an array of fixed capacity: what no longer fits is left out. -/

structure BoundedSet (α : Type) (capacity : ℕ) where
  items : List α
  nodup : items.Nodup
  bounded : items.length ≤ capacity

namespace BoundedSet
variable {α : Type} {capacity : ℕ} [DecidableEq α]

def empty : BoundedSet α capacity := ⟨[], List.nodup_nil, Nat.zero_le _⟩

def contains (s : BoundedSet α capacity) (x : α) : Bool := x ∈ s.items

def add (s : BoundedSet α capacity) (x : α) : BoundedSet α capacity :=
  if hfits : x ∉ s.items ∧ s.items.length < capacity then
    { items := s.items ++ [x]
      nodup := List.nodup_append.mpr ⟨s.nodup, List.nodup_singleton x, by
        intro y hy z hz
        rw [List.mem_singleton.mp hz]
        rintro rfl
        exact hfits.1 hy⟩
      bounded := by
        rw [List.length_append, List.length_singleton]
        exact hfits.2 }
  else s

/-- Keeps the elements that satisfy `p`, in their order. -/
def keep (s : BoundedSet α capacity) (p : α → Bool) : BoundedSet α capacity where
  items := s.items.filter p
  nodup := s.nodup.filter p
  bounded := (List.length_filter_le p s.items).trans s.bounded

omit [DecidableEq α] in
@[simp] lemma mem_keep {s : BoundedSet α capacity} {p : α → Bool} {x : α} :
    x ∈ (s.keep p).items ↔ x ∈ s.items ∧ p x = true := List.mem_filter

lemma mem_add_of_ne {s : BoundedSet α capacity} {x y : α} (hne : x ≠ y) :
    x ∈ (s.add y).items ↔ x ∈ s.items := by
  unfold add
  split_ifs
  · simp [hne]
  · rfl

lemma mem_add_self {s : BoundedSet α capacity} {x : α} (hroom : s.items.length < capacity) :
    x ∈ (s.add x).items := by
  unfold add
  by_cases hmem : x ∈ s.items
  · rw [dif_neg fun h => h.1 hmem]
    exact hmem
  · rw [dif_pos ⟨hmem, hroom⟩]
    exact List.mem_append_right _ (List.mem_singleton_self x)

end BoundedSet
