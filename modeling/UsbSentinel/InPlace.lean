import Mathlib

/-! Texts rewritten where they stand. Each turn takes an item at the read position and writes one
element at the write position, up to a stop. -/
namespace InPlace

variable {α : Type}

/-- The text, the two positions, and where they were at each write. -/
structure Cursor (α : Type) where
  text : List α
  read : ℕ
  write : ℕ
  positions : List (ℕ × ℕ)

def Cursor.put (s : Cursor α) (c : α) (taken : ℕ) : Cursor α :=
  ⟨s.text.set s.write c, s.read + taken, s.write + 1, s.positions ++ [(s.read, s.write)]⟩

variable [DecidableEq α] {stop : α} {item : List α → α × ℕ}

/-- An item is what is written for it, and how much of the text it takes. A text without a stop
is left where it ends. -/
def rewrite (stop : α) (item : List α → α × ℕ) : ℕ → Cursor α → Cursor α
  | 0, s => s
  | turns + 1, s =>
    match s.text.drop s.read with
    | [] => s
    | c :: rest =>
      if c = stop then s.put stop 0
      else rewrite stop item turns (s.put (item (c :: rest)).1 (item (c :: rest)).2)

/-- The write position stays at or behind the read position. -/
theorem rewrite_behind (hitem : ∀ rest, 0 < (item rest).2) {turns : ℕ} {s : Cursor α}
    (hle : s.write ≤ s.read) (hpositions : ∀ p ∈ s.positions, p.2 ≤ p.1) :
    ∀ p ∈ (rewrite stop item turns s).positions, p.2 ≤ p.1 := by
  induction turns generalizing s with
  | zero => exact hpositions
  | succ turns ih =>
    have hput : ∀ p ∈ s.positions ++ [(s.read, s.write)], p.2 ≤ p.1 := by
      intro p hp
      rcases List.mem_append.mp hp with hold | hnew
      · exact hpositions p hold
      · rw [List.mem_singleton.mp hnew]
        exact hle
    rw [rewrite]
    split
    · exact hpositions
    · rename_i c rest _
      by_cases hstop : c = stop
      · rw [if_pos hstop]
        exact hput
      · have hpos := hitem (c :: rest)
        rw [if_neg hstop]
        refine ih ?_ hput
        change s.write + 1 ≤ s.read + _
        omega

/-- Items that end in front of the stop, whatever lies behind it. -/
structure Items (stop : α) (item : List α → α × ℕ) : Prop where
  advances : ∀ rest, 0 < (item rest).2
  inside : ∀ {name}, name ≠ [] → stop ∉ name → (item name).2 ≤ name.length
  stops : ∀ {name} behind, name ≠ [] → stop ∉ name → item (name ++ stop :: behind) = item name

/-- The function that the items of a text add up to. -/
structure Decodes (item : List α → α × ℕ) (f : List α → List α) : Prop where
  nil : f [] = []
  item : ∀ {name}, name ≠ [] → f name = (item name).1 :: f (name.drop (item name).2)

omit [DecidableEq α] in
/-- Elements that are each written as one item read back as the text. -/
theorem Decodes.flatMap {f : List α → List α} (hf : Decodes item f) {encode : α → List α}
    (hencode : ∀ c, encode c ≠ [])
    (hitem : ∀ c rest, item (encode c ++ rest) = (c, (encode c).length)) (text : List α) :
    f (text.flatMap encode) = text := by
  induction text with
  | nil => exact hf.nil
  | cons c text ih =>
    have hne := List.append_ne_nil_of_left_ne_nil (hencode c) (text.flatMap encode)
    rw [List.flatMap_cons, hf.item hne, hitem, List.drop_left, ih]

omit [DecidableEq α] in
/-- One write, at the front of what is no longer needed. -/
lemma set_front {gap : List α} (hgap : gap ≠ []) (out rest : List α) (c : α) :
    (out ++ (gap ++ rest)).set out.length c = out ++ c :: (gap.tail ++ rest) := by
  cases gap with
  | nil => exact absurd rfl hgap
  | cons g gap =>
    rw [List.set_append_right _ _ le_rfl, Nat.sub_self]
    rfl

/-- What is read is not disturbed by what has been written: the text becomes its decoding, and
what lay behind it stays there. -/
theorem rewrite_text (hitems : Items stop item) {f : List α → List α} (hf : Decodes item f)
    {turns : ℕ} {name : List α} (hturns : name.length < turns) (hname : stop ∉ name)
    (out gap behind : List α) (positions : List (ℕ × ℕ)) :
    ∃ gap', (rewrite stop item turns ⟨out ++ (gap ++ (name ++ stop :: behind)),
      out.length + gap.length, out.length, positions⟩).text =
        out ++ f name ++ stop :: (gap' ++ behind) := by
  induction turns generalizing name out gap positions with
  | zero => omega
  | succ turns ih =>
    have hdrop : (out ++ (gap ++ (name ++ stop :: behind))).drop (out.length + gap.length) =
        name ++ stop :: behind := by
      rw [← List.append_assoc out, ← List.length_append, List.drop_left]
    rw [rewrite, hdrop]
    cases name with
    | nil =>
      have hset := set_front (List.append_ne_nil_of_right_ne_nil gap (List.cons_ne_nil stop [])) out
        behind stop
      rw [List.append_assoc, List.singleton_append] at hset
      refine ⟨(gap ++ [stop]).tail, ?_⟩
      rw [hf.nil, List.append_nil, ← hset]
      exact congrArg Cursor.text (if_pos rfl)
    | cons c name =>
      have hne : c :: name ≠ [] := List.cons_ne_nil c name
      have hc : c ≠ stop := fun heq => hname (heq ▸ List.mem_cons_self)
      have hpos := hitems.advances (c :: name)
      have hinside := hitems.inside hne hname
      have hstops := hitems.stops behind hne hname
      rw [List.cons_append] at hstops ⊢
      dsimp only
      rw [if_neg hc, hstops, ← List.cons_append]
      set value := (item (c :: name)).1 with hvalue
      set taken := (item (c :: name)).2 with htaken
      have hlength : ((c :: name).take taken).length = taken := List.length_take_of_le hinside
      have hgap : gap ++ (c :: name).take taken ≠ [] := by
        intro hnil
        rw [(List.append_eq_nil_iff.mp hnil).2] at hlength
        exact absurd hlength hpos.ne
      have hset := set_front hgap out ((c :: name).drop taken ++ stop :: behind) value
      rw [List.append_assoc gap, ← List.append_assoc (List.take _ _), List.take_append_drop] at hset
      have hshort : ((c :: name).drop taken).length < turns := by
        rw [List.length_drop]
        omega
      have hrest : stop ∉ (c :: name).drop taken := fun hmem => hname (List.mem_of_mem_drop hmem)
      have hread : out.length + gap.length + taken =
          (out ++ [value]).length + (gap ++ (c :: name).take taken).tail.length := by
        rw [List.length_tail, List.length_append, List.length_append, hlength, List.length_singleton]
        omega
      have hput : Cursor.put ⟨out ++ (gap ++ (c :: name ++ stop :: behind)), out.length + gap.length,
          out.length, positions⟩ value taken =
          ⟨out ++ [value] ++ ((gap ++ (c :: name).take taken).tail ++
            ((c :: name).drop taken ++ stop :: behind)),
          (out ++ [value]).length + (gap ++ (c :: name).take taken).tail.length,
          (out ++ [value]).length, positions ++ [(out.length + gap.length, out.length)]⟩ := by
        rw [Cursor.put, hset, hread, List.append_assoc out, List.singleton_append,
          @List.length_append _ out, List.length_singleton]
      obtain ⟨gap', hrun⟩ := ih hshort hrest (out ++ [value]) (gap ++ (c :: name).take taken).tail
        (positions ++ [(out.length + gap.length, out.length)])
      refine ⟨gap', ?_⟩
      rw [hput, hrun, hf.item hne, ← hvalue, ← htaken, List.append_assoc out, List.singleton_append]

end InPlace
