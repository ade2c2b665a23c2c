import Mathlib

/-! Tokens taken off a text one after the other, each up to the next separator: what is left
after each, and which tokens a text of known pieces gives. -/
namespace Strtok

variable {α : Type} [DecidableEq α]

/-- One call: separators in front are skipped, and the token ends before the next one. -/
def strtokR (sep : α) (text : List α) : Option (List α × List α) :=
  let start := text.dropWhile (· = sep)
  if start = [] then none
  else some (start.takeWhile (· ≠ sep), (start.dropWhile (· ≠ sep)).tail)

def tokenLoop (sep : α) : ℕ → List α → List (List α)
  | 0, _ => []
  | calls + 1, text =>
    match strtokR sep text with
    | none => []
    | some (token, rest) => token :: tokenLoop sep calls rest

/-- What the calls return one after the other, up to the first that returns nothing. -/
def tokens (sep : α) (text : List α) : List (List α) := tokenLoop sep text.length text

variable {sep : α}

lemma pieces_dropWhile (text : List α) :
    ((text.dropWhile (· = sep)).splitOn sep).filter (· ≠ []) =
      (text.splitOn sep).filter (· ≠ []) := by
  induction text with
  | nil => rfl
  | cons c text ih =>
    by_cases hc : c = sep
    · rw [List.dropWhile_cons_of_pos (by simpa using hc), ih, List.splitOn_cons_eq_if_modifyHead,
        if_pos (beq_iff_eq.mpr hc), List.filter_cons_of_neg (by simp)]
    · rw [List.dropWhile_cons_of_neg (by simpa using hc)]

/-- The first piece of a text, and the pieces behind its separator. -/
lemma splitOn_first (sep : α) (text : List α) :
    text.takeWhile (· ≠ sep) = text ∧ text.splitOn sep = [text.takeWhile (· ≠ sep)] ∨
      ∃ rest, text = text.takeWhile (· ≠ sep) ++ sep :: rest ∧
        text.splitOn sep = text.takeWhile (· ≠ sep) :: rest.splitOn sep := by
  have hplain : sep ∉ text.takeWhile (· ≠ sep) := fun hmem => by
    simpa using List.mem_takeWhile_imp hmem
  have hsplit := @List.takeWhile_append_dropWhile _ (· ≠ sep) text
  cases hrest : text.dropWhile (· ≠ sep) with
  | nil =>
    rw [hrest, List.append_nil] at hsplit
    rw [hsplit] at hplain
    exact .inl ⟨hsplit, hsplit.symm ▸ List.splitOn_eq_singleton hplain⟩
  | cons c rest =>
    have hmark : c = sep := by
      have hfirst := List.head?_dropWhile_not (· ≠ sep) text
      rw [hrest] at hfirst
      simpa using hfirst
    rw [hrest, hmark] at hsplit
    refine .inr ⟨rest, hsplit.symm, ?_⟩
    conv_lhs => rw [← hsplit]
    exact List.splitOn_append_cons_self_of_not_mem hplain rest

/-- The loop finds the pieces between the separators that are not empty. -/
lemma tokenLoop_pieces {calls : ℕ} {text : List α} (hcalls : text.length ≤ calls) :
    tokenLoop sep calls text = (text.splitOn sep).filter (· ≠ []) := by
  induction calls generalizing text with
  | zero =>
    obtain rfl := List.eq_nil_of_length_eq_zero (Nat.le_zero.mp hcalls)
    simp [tokenLoop]
  | succ calls ih =>
    rw [tokenLoop, strtokR, ← pieces_dropWhile text]
    have hshort := (List.dropWhile_suffix (l := text) (· = sep)).length_le
    have hfirst := List.head?_dropWhile_not (· = sep) text
    generalize text.dropWhile (· = sep) = start at hshort hfirst
    by_cases hnone : start = []
    · subst hnone
      simp
    · have hword : start.takeWhile (· ≠ sep) ≠ [] := by
        obtain ⟨c, body, rfl⟩ := List.exists_cons_of_ne_nil hnone
        have hc : c ≠ sep := by simpa using hfirst
        rw [List.takeWhile_cons_of_pos (by simpa using hc)]
        exact List.cons_ne_nil _ _
      have hsplit := @List.takeWhile_append_dropWhile _ (· ≠ sep) start
      simp only [if_neg hnone]
      rcases splitOn_first sep start with ⟨hwhole, hpieces⟩ | ⟨rest, hrest, hpieces⟩
      · have hend : start.dropWhile (· ≠ sep) = [] := by
          rw [hwhole] at hsplit
          simpa using hsplit
        rw [hpieces, hend, List.tail_nil, ih (Nat.zero_le _),
          List.filter_cons_of_pos (by simpa using hword)]
        simp
      · have hend : start.dropWhile (· ≠ sep) = sep :: rest :=
          List.append_cancel_left (hsplit.trans hrest)
        have hlength := congrArg List.length hrest
        rw [List.length_append, List.length_cons] at hlength
        rw [hpieces, hend, List.tail_cons, ih (by omega),
          List.filter_cons_of_pos (by simpa using hword)]

theorem tokens_splitOn (text : List α) :
    tokens sep text = (text.splitOn sep).filter (· ≠ []) := tokenLoop_pieces le_rfl

/-- The pieces of a text that it is put together from, each with a separator behind it. -/
theorem tokens_terminated {pieces : List (List α)} (hpieces : ∀ piece ∈ pieces, sep ∉ piece)
    {last : List α} (hlast : sep ∉ last) :
    tokens sep (pieces.flatMap (· ++ [sep]) ++ last) = (pieces ++ [last]).filter (· ≠ []) := by
  rw [tokens_splitOn]
  congr 1
  induction pieces with
  | nil => simpa using List.splitOn_eq_singleton hlast
  | cons piece pieces ih =>
    have hpiece := hpieces piece (List.mem_cons_self ..)
    rw [List.flatMap_cons, List.append_assoc, List.append_assoc, List.singleton_append,
      List.splitOn_append_cons_self_of_not_mem hpiece,
      ih fun p hp => hpieces p (List.mem_cons_of_mem _ hp)]
    rfl

end Strtok
