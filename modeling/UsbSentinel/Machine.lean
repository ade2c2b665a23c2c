import Mathlib

/-! Programs over a state that may stop with an error, and the rules of their weakest
preconditions. What a program changed before it stopped stays changed. -/

def Machine (σ ε α : Type) : Type := σ → Except ε α × σ

namespace Machine
variable {σ ε α β : Type}

instance : Monad (Machine σ ε) where
  pure a := fun s => (.ok a, s)
  bind m f := fun s =>
    match m s with
    | (.ok a, t) => f a t
    | (.error e, t) => (.error e, t)

def stop (e : ε) : Machine σ ε α := fun s => (.error e, s)

def state : Machine σ ε σ := fun s => (.ok s, s)

def change (f : σ → σ) : Machine σ ε Unit := fun s => (.ok (), f s)

/-- Run from `s`, the program ends with a result and a state that satisfy `post`. -/
def wp (m : Machine σ ε α) (post : Except ε α → σ → Prop) (s : σ) : Prop :=
  post (m s).1 (m s).2

@[simp] theorem wp_pure (a : α) (post : Except ε α → σ → Prop) (s : σ) :
    wp (pure a) post s ↔ post (.ok a) s := Iff.rfl

@[simp] theorem wp_stop (e : ε) (post : Except ε α → σ → Prop) (s : σ) :
    wp (stop e) post s ↔ post (.error e) s := Iff.rfl

@[simp] theorem wp_state (post : Except ε σ → σ → Prop) (s : σ) :
    wp state post s ↔ post (.ok s) s := Iff.rfl

@[simp] theorem wp_change (f : σ → σ) (post : Except ε Unit → σ → Prop) (s : σ) :
    wp (change f) post s ↔ post (.ok ()) (f s) := Iff.rfl

theorem wp_mono {m : Machine σ ε α} {post post' : Except ε α → σ → Prop} {s : σ}
    (h : wp m post s) (himp : ∀ r t, post r t → post' r t) : wp m post' s :=
  himp _ _ h

/-- The rule of sequence: the second part starts from what the first one leaves, and an error
of the first one is the error of the whole. -/
theorem wp_bind {m : Machine σ ε α} {f : α → Machine σ ε β} {mid : Except ε α → σ → Prop}
    {post : Except ε β → σ → Prop} {s : σ} (hfirst : wp m mid s)
    (hok : ∀ a t, mid (.ok a) t → wp (f a) post t)
    (herror : ∀ e t, mid (.error e) t → post (.error e) t) : wp (m >>= f) post s := by
  unfold wp at hfirst
  change post (match m s with
    | (.ok a, t) => f a t
    | (.error e, t) => (.error e, t)).1 (match m s with
    | (.ok a, t) => f a t
    | (.error e, t) => (.error e, t)).2
  cases hrun : m s with
  | mk r t =>
    rw [hrun] at hfirst
    cases r with
    | ok a => exact hok a t hfirst
    | error e => exact herror e t hfirst

theorem wp_state_bind {f : σ → Machine σ ε β} {post : Except ε β → σ → Prop} {s : σ}
    (h : wp (f s) post s) : wp (state >>= f) post s := h

theorem wp_change_bind {g : σ → σ} {f : Unit → Machine σ ε β} {post : Except ε β → σ → Prop}
    {s : σ} (h : wp (f ()) post (g s)) : wp (change g >>= f) post s := h

theorem wp_ite {c : Prop} [Decidable c] {m n : Machine σ ε α} {post : Except ε α → σ → Prop}
    {s : σ} (hthen : c → wp m post s) (helse : ¬ c → wp n post s) :
    wp (if c then m else n) post s := by
  by_cases hc : c
  · rw [if_pos hc]
    exact hthen hc
  · rw [if_neg hc]
    exact helse hc

/-- The program, and then a change that is made however it ended. -/
def always (m : Machine σ ε α) (f : Except ε α → σ → σ) : Machine σ ε α := fun s =>
  ((m s).1, f (m s).1 (m s).2)

theorem wp_always {m : Machine σ ε α} {f : Except ε α → σ → σ}
    {mid post : Except ε α → σ → Prop} {s : σ} (hm : wp m mid s)
    (hpost : ∀ r t, mid r t → post r (f r t)) : wp (always m f) post s :=
  hpost _ _ hm

/-! Programs with fuel: where one has not run out, the other does the same. -/

def Approx (e : ε) (m n : Machine σ ε α) : Prop := ∀ s, (m s).1 = .error e ∨ m s = n s

namespace Approx
variable {e : ε} {m n : Machine σ ε α}

theorem refl (m : Machine σ ε α) : Approx e m m := fun _ => .inr rfl

theorem stop (n : Machine σ ε α) : Approx e (stop e) n := fun _ => .inl rfl

theorem trans {k : Machine σ ε α} (h : Approx e m n) (h' : Approx e n k) : Approx e m k := by
  intro s
  rcases h s with h | h
  · exact .inl h
  · rw [h]
    exact h' s

theorem bind {f g : α → Machine σ ε β} (h : Approx e m n) (hfg : ∀ a, Approx e (f a) (g a)) :
    Approx e (m >>= f) (n >>= g) := by
  intro s
  change (match m s with
    | (.ok a, t) => f a t
    | (.error e, t) => (.error e, t)).1 = _ ∨ (match m s with
    | (.ok a, t) => f a t
    | (.error e, t) => (.error e, t)) = (match n s with
    | (.ok a, t) => g a t
    | (.error e, t) => (.error e, t))
  rcases h s with h | h
  · rcases hm : m s with ⟨r, t⟩
    rw [hm] at h
    obtain rfl : r = .error e := h
    exact .inl rfl
  · rw [h]
    rcases n s with ⟨_ | a, t⟩
    · exact .inr rfl
    · exact hfg a t

theorem ite {c : Prop} [Decidable c] {m' n' : Machine σ ε α} (h : Approx e m n)
    (h' : Approx e m' n') : Approx e (if c then m else m') (if c then n else n') := by
  by_cases hc : c
  · rw [if_pos hc, if_pos hc]
    exact h
  · rw [if_neg hc, if_neg hc]
    exact h'

theorem always {f : Except ε α → σ → σ} (h : Approx e m n) :
    Approx e (always m f) (always n f) := by
  intro s
  rcases h s with h | h
  · exact .inl h
  · exact .inr (by unfold Machine.always; rw [h])

end Approx

end Machine
