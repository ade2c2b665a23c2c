import UsbSentinel.Device

/-! The store's device key: an identity string escaped into one path component. -/
namespace UsbSentinel.Store
open ByteString

/-- Alphanumerics, '.', '-' and '_' pass through the encoding. -/
def isSafe (b : UInt8) : Bool :=
  (65 ≤ b && b ≤ 90) || (97 ≤ b && b ≤ 122) || (48 ≤ b && b ≤ 57) ||
    b = 46 || b = 45 || b = 95

def underscore : UInt8 := 95

def escapeByte (b : UInt8) : Bytes := if isSafe b then [b] else underscore :: hexPair b

/-- The loop of `safeId`, with what it has written so far. -/
def safeIdLoop (cap : ℕ) : Bytes → Bytes → Except Status Bytes
  | [], out => .ok out
  | b :: rest, out =>
    if out.length + (if isSafe b then 1 else 3) ≥ cap then .error .noMemory
    else safeIdLoop cap rest (out ++ escapeByte b)

def safeId (identity : Bytes) (cap : ℕ) : Except Status Bytes :=
  if cap = 0 then .error .invalidArg
  else
    match safeIdLoop cap identity [] with
    | .error e => .error e
    | .ok [] => .error .invalidArg
    | .ok out => .ok out

def encode (identity : Bytes) : Bytes := identity.flatMap escapeByte

theorem escapeByte_length (b : UInt8) :
    (escapeByte b).length = if isSafe b then 1 else 3 := by
  unfold escapeByte
  split_ifs <;> rfl

@[simp] theorem encode_nil : encode [] = [] := rfl

@[simp] theorem encode_cons (b : UInt8) (rest : Bytes) :
    encode (b :: rest) = escapeByte b ++ encode rest := by
  simp [encode]

theorem safeIdLoop_eq {cap : ℕ} {identity acc : Bytes} (hacc : acc.length < cap) :
    safeIdLoop cap identity acc =
      if (acc ++ encode identity).length < cap then .ok (acc ++ encode identity)
      else .error .noMemory := by
  induction identity generalizing acc with
  | nil => simp [safeIdLoop, hacc]
  | cons b rest ih =>
    simp only [safeIdLoop, ← escapeByte_length b]
    by_cases hroom : acc.length + (escapeByte b).length < cap
    · rw [if_neg (by omega), ih (by rwa [List.length_append])]
      simp [List.append_assoc]
    · rw [if_pos (by omega), if_neg]
      simp only [encode_cons, List.length_append]
      omega

theorem encode_ne_nil {identity : Bytes} (h : identity ≠ []) : encode identity ≠ [] := by
  cases identity with
  | nil => exact absurd rfl h
  | cons b rest =>
    intro he
    have hlen := congrArg List.length he
    simp only [encode_cons, List.length_append, escapeByte_length, List.length_nil] at hlen
    split_ifs at hlen <;> omega

/-- `safeId` succeeds exactly on nonempty identities whose encoding fits, and then
returns the encoding. -/
theorem safeId_eq_ok {identity out : Bytes} {cap : ℕ} :
    safeId identity cap = .ok out ↔
      identity ≠ [] ∧ out = encode identity ∧ (encode identity).length < cap := by
  unfold safeId
  split_ifs with hcap
  · simp [hcap]
  · rw [safeIdLoop_eq (by simpa using Nat.pos_of_ne_zero hcap), List.nil_append]
    by_cases hne : identity = []
    · subst hne
      simp [Nat.pos_of_ne_zero hcap]
    · obtain ⟨c, cs, he⟩ := List.exists_cons_of_ne_nil (encode_ne_nil hne)
      rw [he]
      split_ifs with hlt
      · simp only [Except.ok.injEq, ne_eq, hne, not_false_eq_true, hlt, and_true, true_and, eq_comm]
      · exact iff_of_false (by simp) fun h => hlt h.2.2

set_option maxRecDepth 8000 in
theorem isSafe_of_mem_escapeByte {b c : UInt8} (h : c ∈ escapeByte b) : isSafe c = true := by
  have hhex : ∀ u : UInt8, isSafe (hexUpper (u / 16)) = true ∧
      isSafe (hexUpper (u % 16)) = true := by decide
  unfold escapeByte at h
  split_ifs at h with hs
  · rw [List.mem_singleton.mp h, hs]
  · simp only [hexPair, List.mem_cons, List.not_mem_nil, or_false] at h
    rcases h with rfl | rfl | rfl
    · rfl
    · exact (hhex b).1
    · exact (hhex b).2

theorem isSafe_of_mem_encode {identity : Bytes} {c : UInt8} (h : c ∈ encode identity) :
    isSafe c = true := by
  obtain ⟨b, _, hc⟩ := List.mem_flatMap.mp h
  exact isSafe_of_mem_escapeByte hc

/-- Two identities of which one spells out, as three literal bytes "_XX", a byte that
the other has in its place and that the encoding escapes. -/
inductive Confusable : Bytes → Bytes → Prop
  | nil : Confusable [] []
  | same (b : UInt8) {x y : Bytes} (rest : Confusable x y) : Confusable (b :: x) (b :: y)
  | spelledRight (u : UInt8) {x y : Bytes} (escaped : isSafe u = false)
      (rest : Confusable x y) : Confusable (u :: x) (underscore :: hexPair u ++ y)
  | spelledLeft (u : UInt8) {x y : Bytes} (escaped : isSafe u = false)
      (rest : Confusable x y) : Confusable (underscore :: hexPair u ++ x) (u :: y)

set_option maxRecDepth 8000 in
theorem encode_spelled (u : UInt8) (y : Bytes) :
    encode (underscore :: hexPair u ++ y) = underscore :: hexPair u ++ encode y := by
  have hhex : ∀ v : UInt8, isSafe (hexUpper (v / 16)) = true ∧
      isSafe (hexUpper (v % 16)) = true := by decide
  have hu : isSafe underscore = true := rfl
  simp [hexPair, escapeByte, hu, hhex u]

set_option maxRecDepth 8000 in
theorem encode_eq_hex_cons {x tail : Bytes} {u : UInt8}
    (h : encode x = hexPair u ++ tail) :
    ∃ x', x = hexPair u ++ x' ∧ encode x' = tail := by
  have hhex : ∀ v : UInt8, hexUpper (v / 16) ≠ underscore ∧ hexUpper (v % 16) ≠ underscore := by
    decide
  have step : ∀ {z t : Bytes} {c : UInt8}, c ≠ underscore → encode z = c :: t →
      ∃ z', z = c :: z' ∧ encode z' = t := by
    intro z t c hc hz
    cases z with
    | nil => simp at hz
    | cons d z =>
      rw [encode_cons] at hz
      unfold escapeByte at hz
      split_ifs at hz with hd
      · simp only [List.cons_append, List.nil_append, List.cons.injEq] at hz
        exact ⟨z, by rw [hz.1], hz.2⟩
      · simp only [List.cons_append, List.cons.injEq] at hz
        exact absurd hz.1.symm hc
  obtain ⟨x₁, rfl, h₁⟩ := step (hhex u).1 h
  obtain ⟨x₂, rfl, h₂⟩ := step (hhex u).2 h₁
  exact ⟨x₂, rfl, h₂⟩

theorem Confusable.encode_eq {a b : Bytes} (h : Confusable a b) : encode a = encode b := by
  induction h with
  | nil => rfl
  | same b _ ih => rw [encode_cons, encode_cons, ih]
  | spelledRight u hu _ ih => rw [encode_spelled, encode_cons, ih]; simp [escapeByte, hu]
  | spelledLeft u hu _ ih => rw [encode_spelled, encode_cons, ih]; simp [escapeByte, hu]

theorem confusable_of_encode_eq {a b : Bytes} (h : encode a = encode b) : Confusable a b := by
  induction hn : a.length + b.length using Nat.strong_induction_on generalizing a b with
  | _ n ih =>
    subst hn
    cases a with
    | nil =>
      cases b with
      | nil => exact .nil
      | cons b bs => exact absurd h.symm (encode_ne_nil (by simp))
    | cons a as =>
      cases b with
      | nil => exact absurd h (encode_ne_nil (by simp))
      | cons b bs =>
        rw [encode_cons, encode_cons] at h
        unfold escapeByte at h
        split_ifs at h with ha hb hb
        · simp only [List.cons_append, List.nil_append, List.cons.injEq] at h
          obtain ⟨rfl, h⟩ := h
          exact .same a (ih _ (by simp only [List.length_cons]; omega) h rfl)
        · -- a literal '_' on the left against an escaped byte on the right
          simp only [List.cons_append, List.nil_append, List.cons.injEq] at h
          obtain ⟨rfl, h⟩ := h
          obtain ⟨as', rfl, hrest⟩ := encode_eq_hex_cons h
          exact .spelledLeft b (by simpa using hb) (ih _ (by simp; omega) hrest rfl)
        · simp only [List.cons_append, List.nil_append, List.cons.injEq] at h
          obtain ⟨rfl, h⟩ := h
          obtain ⟨bs', rfl, hrest⟩ := encode_eq_hex_cons h.symm
          exact .spelledRight a (by simpa using ha) (ih _ (by simp; omega) hrest.symm rfl)
        · simp only [List.cons_append, List.cons.injEq, true_and] at h
          have hpair := List.append_inj h (by simp)
          rw [hexPair_injective hpair.1]
          exact .same b (ih _ (by simp only [List.length_cons]; omega) hpair.2 rfl)

def storePathMax : ℕ := 512

/-- Two different identities get different ids exactly when neither spells out an
escape that the other contains. -/
theorem safeId_ne_iff {a b x y : Bytes} (capA capB : ℕ) (_hne : a ≠ b)
    (ha : safeId a capA = .ok x) (hb : safeId b capB = .ok y) :
    x ≠ y ↔ ¬ Confusable a b := by
  obtain ⟨_, rfl, _⟩ := safeId_eq_ok.mp ha
  obtain ⟨_, rfl, _⟩ := safeId_eq_ok.mp hb
  exact not_congr ⟨confusable_of_encode_eq, Confusable.encode_eq⟩

theorem safeId_ne_iff_serials :
    ascii "serial_3AA_2F" ≠ ascii "serial_3AB" ↔
      ¬ Confusable (ascii "serial:A/") (ascii "serial:B") :=
  safeId_ne_iff storePathMax storePathMax (by decide) (by decide +kernel) (by decide +kernel)

/-- Two sticks whose serials differ only in spelling out the escape of '/'. -/
def slashSerial : Device := { volumePath := ascii "/media/a/", serial := ascii "A/" }
def spelledSerial : Device := { volumePath := ascii "/media/b/", serial := ascii "A_2F" }

theorem safeId_collision :
    deviceIdentity slashSerial identityMax = .ok (ascii "serial:A/") ∧
    deviceIdentity spelledSerial identityMax = .ok (ascii "serial:A_2F") ∧
    ascii "serial:A/" ≠ ascii "serial:A_2F" ∧
    safeId (ascii "serial:A/") storePathMax = .ok (ascii "serial_3AA_2F") ∧
    safeId (ascii "serial:A_2F") storePathMax = .ok (ascii "serial_3AA_2F") := by
  decide +kernel

end UsbSentinel.Store
