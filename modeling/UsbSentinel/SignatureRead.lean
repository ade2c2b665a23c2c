import UsbSentinel.Machine
import UsbSentinel.SignatureList

/-! The bounded read of the signature file, read by read: what is asked for, where the reads
begin, and when the bytes read are the first 64 MiB. -/
namespace UsbSentinel.SignatureList
open ByteString

/-- The least of `step`, `2 * step`, `4 * step`, … that is not smaller than `n`. -/
def doubled (step n : ℕ) : ℕ := step * 2 ^ Nat.clog 2 ((n + step - 1) / step)

lemma doubled_le_iff {step n k : ℕ} (hstep : 0 < step) :
    doubled step n ≤ step * 2 ^ k ↔ n ≤ step * 2 ^ k := by
  have hceil : (n + step - 1) / step ≤ 2 ^ k ↔ n ≤ step * 2 ^ k := by
    rw [Nat.div_le_iff_le_mul_add_pred hstep, Nat.add_sub_assoc hstep]
    exact Nat.add_le_add_iff_right
  rw [doubled, Nat.mul_le_mul_left_iff hstep, Nat.pow_le_pow_iff_right (by norm_num),
    Nat.clog_le_iff_le_pow (by norm_num)]
  exact hceil

lemma le_doubled {step n : ℕ} (hstep : 0 < step) : n ≤ doubled step n :=
  (doubled_le_iff hstep).mp le_rfl

lemma doubled_mono {step m n : ℕ} (hstep : 0 < step) (h : m ≤ n) :
    doubled step m ≤ doubled step n :=
  (doubled_le_iff hstep).mpr (h.trans (le_doubled hstep))

/-- Where the value moves past a capacity by no more than that capacity, one doubling is enough
and less is not. -/
lemma doubled_double {step m n : ℕ} (hstep : 0 < step) (hlt : doubled step m < n)
    (hle : n ≤ 2 * doubled step m) : doubled step n = 2 * doubled step m := by
  have hnext : 2 * doubled step m = step * 2 ^ (Nat.clog 2 ((m + step - 1) / step) + 1) := by
    rw [doubled, pow_succ]
    ring
  have hupper : doubled step n ≤ 2 * doubled step m := by
    rw [hnext] at hle ⊢
    exact (doubled_le_iff hstep).mpr hle
  have hexp : Nat.clog 2 ((m + step - 1) / step) < Nat.clog 2 ((n + step - 1) / step) := by
    have hlarger : doubled step m < doubled step n := hlt.trans_le (le_doubled hstep)
    rw [doubled, doubled, Nat.mul_lt_mul_left hstep] at hlarger
    exact (Nat.pow_lt_pow_iff_right (by norm_num)).mp hlarger
  refine le_antisymm hupper ?_
  rw [hnext]
  exact Nat.mul_le_mul_left step (Nat.pow_le_pow_right (by norm_num) hexp)

/-- The capacity the buffer has for a read that begins at `p`. -/
def capacityAt (p : ℕ) : ℕ := min (doubled growStep (p + growStep)) (fileMaxRead + growStep)

/-- The capacity kept for a buffer of `p` bytes from an earlier read, or none yet. -/
def Held (p cap : ℕ) : Prop := p ≤ cap ∧ (cap = 0 ∨ ∃ q ≤ p, cap = capacityAt q)

lemma grown_eq {p cap : ℕ} (h : Held p cap) (hp : p < fileMaxRead) :
    (if p + growStep > cap then
      min (if cap = 0 then growStep else cap * 2) (fileMaxRead + growStep) else cap) =
      capacityAt p := by
  have hstep : 0 < growStep := by decide
  obtain ⟨hle, rfl | ⟨q, hq, rfl⟩⟩ := h
  · obtain rfl : p = 0 := by omega
    rw [if_pos (by simpa using hstep), if_pos rfl]
    decide
  · have hmono : doubled growStep (q + growStep) ≤ doubled growStep (p + growStep) :=
      doubled_mono hstep (by omega)
    have hroom : q + growStep ≤ doubled growStep (q + growStep) := le_doubled hstep
    unfold capacityAt at hle ⊢
    by_cases hgrow : p + growStep > min (doubled growStep (q + growStep)) (fileMaxRead + growStep)
    · have hsmall : doubled growStep (q + growStep) < p + growStep := by omega
      have hdouble := doubled_double hstep hsmall (by omega)
      rw [if_pos hgrow, if_neg (by omega), hdouble]
      omega
    · have hsame : doubled growStep (p + growStep) ≤ doubled growStep (q + growStep) :=
        (doubled_le_iff hstep).mpr (by change p + growStep ≤ doubled growStep (q + growStep); omega)
      rw [if_neg hgrow, le_antisymm hmono hsame]

lemma room_at {p : ℕ} (hp : p < fileMaxRead) : p + growStep ≤ capacityAt p := by
  have hstep : 0 < growStep := by decide
  have := le_doubled (n := p + growStep) hstep
  unfold capacityAt
  omega

/-- Up to the last step before the limit the buffer ends at the limit or before it. -/
lemma capacityAt_le {p : ℕ} (hp : p + growStep ≤ fileMaxRead) : capacityAt p ≤ fileMaxRead := by
  have hstep : 0 < growStep := by decide
  have hpower : fileMaxRead = growStep * 2 ^ 10 := by decide
  have hdoubled : doubled growStep (p + growStep) ≤ fileMaxRead := by
    rw [hpower] at hp ⊢
    exact (doubled_le_iff hstep).mpr hp
  exact (min_le_left _ _).trans hdoubled

/-- A read as the loop asks for it: where in the buffer the bytes go, at most how many, and how
many the buffer has room for in all. -/
structure Request where
  offset : ℕ
  ask : ℕ
  capacity : ℕ

/-- The read asks for something and stays inside the buffer. -/
def Request.InRoom (r : Request) : Prop := 0 < r.ask ∧ r.offset + r.ask ≤ r.capacity

abbrev Loading := Machine (List Request) Status

namespace Traced
open Machine

def ensureRoom (realloc : ℕ → Bool) (len cap : ℕ) : Loading ℕ :=
  if len + growStep > cap then
    let newCap := min (if cap = 0 then growStep else cap * 2) (fileMaxRead + growStep)
    if realloc newCap then pure newCap else stop .noMemory
  else pure cap

def fileRead (file : FileStream) (offset ask capacity : ℕ) : Loading Bytes := do
  change (· ++ [⟨offset, ask, capacity⟩])
  match file.read offset ask with
  | .error e => stop e
  | .ok got => pure got

def readCappedLoop (realloc : ℕ → Bool) (file : FileStream) : ℕ → Bytes → ℕ → Loading Bytes
  | 0, _, _ => stop .internal
  | turns + 1, buf, cap =>
    if buf.length ≥ fileMaxRead then pure buf
    else do
      let cap ← ensureRoom realloc buf.length cap
      let got ← fileRead file buf.length (cap - buf.length) cap
      if got = [] then pure buf else readCappedLoop realloc file turns (buf ++ got) cap

def readWholeFileCapped (realloc : ℕ → Bool) (file : FileStream) : Loading Bytes :=
  readCappedLoop realloc file (file.content.length + 1) [] 0

/-! The twin asks as the loop asks and ends as it ends. -/

lemma readCappedLoop_result (realloc : ℕ → Bool) (file : FileStream) (turns : ℕ) (buf : Bytes)
    (cap : ℕ) (log : List Request) :
    (readCappedLoop realloc file turns buf cap log).1 =
      SignatureList.readCappedLoop realloc file turns buf cap := by
  induction turns generalizing buf cap log with
  | zero => rfl
  | succ turns ih =>
    change wp _ (fun r _ => r = _) log
    rw [readCappedLoop, SignatureList.readCappedLoop]
    refine wp_ite (fun hfull => by rw [if_pos hfull]; rfl) fun hfull => ?_
    rw [if_neg hfull]
    simp only
    generalize hgrown : (if buf.length + growStep > cap then
      min (if cap = 0 then growStep else cap * 2) (fileMaxRead + growStep) else cap) = grown
    have hroom : wp (ensureRoom realloc buf.length cap) (fun r _ =>
        r = if (buf.length + growStep > cap && !realloc grown) = true then .error .noMemory
          else .ok grown) log := by
      unfold ensureRoom
      refine wp_ite (fun hgrow => ?_) fun hkeep => ?_
      · rw [if_pos hgrow] at hgrown
        rw [hgrown]
        refine wp_ite (fun hmem => ?_) fun hmem => ?_
        · rw [wp_pure, if_neg (by simp [hmem])]
        · rw [wp_stop, if_pos (by simp [hgrow, hmem])]
      · rw [if_neg hkeep] at hgrown
        rw [wp_pure, if_neg (by simp [hkeep]), hgrown]
    refine wp_bind hroom (fun newCap mid hcap => ?_) fun e _ he => ?_
    · split_ifs at hcap with hmem
      obtain rfl := Except.ok.inj hcap
      rw [if_neg hmem]
      have hread : wp (fileRead file buf.length (newCap - buf.length) newCap)
          (fun r _ => r = file.read buf.length (newCap - buf.length)) mid := by
        refine wp_change_bind ?_
        cases file.read buf.length (newCap - buf.length) <;> rfl
      refine wp_bind hread (fun got after hgot => ?_) fun e _ he => ?_
      · rw [← hgot]
        cases got with
        | nil => rfl
        | cons c got => exact ih (buf ++ c :: got) newCap after
      · rw [← he]
    · split_ifs at he with hmem
      rw [if_pos hmem, Except.error.inj he]

lemma readWholeFileCapped_result (realloc : ℕ → Bool) (file : FileStream) :
    (readWholeFileCapped realloc file []).1 = SignatureList.readWholeFileCapped realloc file :=
  readCappedLoop_result realloc file _ _ _ _

end Traced

/-- How many bytes a successful read brings that begins at `p`. -/
def delivered (file : FileStream) (p : ℕ) : ℕ :=
  if p < fileMaxRead then
    min (min (capacityAt p - p) (file.chunk p + 1)) (file.content.length - p)
  else 0

def position (file : FileStream) : ℕ → ℕ
  | 0 => 0
  | i + 1 => position file i + delivered file (position file i)

/-- A read that begins less than a step before the limit brings bytes from both sides of it. -/
def Straddles (file : FileStream) : Prop :=
  ∃ i, fileMaxRead < position file i + growStep ∧ position file i < fileMaxRead ∧
    fileMaxRead < position file i +
      min (file.chunk (position file i) + 1) (file.content.length - position file i)

lemma position_le (file : FileStream) (i : ℕ) : position file i ≤ file.content.length := by
  induction i with
  | zero => exact Nat.zero_le _
  | succ i ih =>
    unfold position delivered
    split_ifs <;> omega

lemma position_mono (file : FileStream) : Monotone (position file) :=
  monotone_nat_of_le_succ fun _ => Nat.le_add_right _ _

lemma position_le_limit {file : FileStream} (h : ¬Straddles file) (i : ℕ) :
    position file i ≤ fileMaxRead := by
  induction i with
  | zero => exact Nat.zero_le _
  | succ i ih =>
    unfold position delivered
    by_cases hp : position file i < fileMaxRead
    · rw [if_pos hp]
      by_contra hcon
      refine h ⟨i, ?_, hp, by omega⟩
      by_contra hfar
      have hcap := capacityAt_le (p := position file i) (by omega)
      omega
    · rw [if_neg hp]
      omega

lemma delivered_le (file : FileStream) {p : ℕ} (hp : p < fileMaxRead) :
    p + delivered file p ≤ capacityAt p := by
  have hroom : p ≤ capacityAt p := (Nat.le_add_right p growStep).trans (room_at hp)
  have hbound : delivered file p ≤ capacityAt p - p := by
    rw [delivered, if_pos hp]
    exact (min_le_left _ _).trans (min_le_left _ _)
  calc p + delivered file p ≤ p + (capacityAt p - p) := Nat.add_le_add_left hbound p
    _ = capacityAt p := Nat.add_sub_cancel' hroom

/-- How the reading ends: at the end of the file or past the limit, or for want of memory. -/
def Ended (realloc : ℕ → Bool) (file : FileStream) : Except Status Bytes → Prop
  | .ok out => ∃ j, out = file.content.take (position file j) ∧
      (position file j = file.content.length ∨ fileMaxRead ≤ position file j)
  | .error e => e = .noMemory ∧ ∃ n, realloc n = false

lemma ensureRoom_run (realloc : ℕ → Bool) {p cap : ℕ} (hheld : Held p cap)
    (hp : p < fileMaxRead) (log : List Request) :
    (Traced.ensureRoom realloc p cap).wp (fun r after => after = log ∧
      (r = .ok (capacityAt p) ∨ r = .error .noMemory ∧ ∃ n, realloc n = false)) log := by
  have hgrown := grown_eq hheld hp
  unfold Traced.ensureRoom
  refine Machine.wp_ite (fun hgrow => ?_) fun hkeep => ?_
  · rw [if_pos hgrow] at hgrown
    rw [hgrown]
    refine Machine.wp_ite (fun _ => ⟨rfl, .inl rfl⟩) fun hmem => ⟨rfl, .inr ⟨rfl, capacityAt p, ?_⟩⟩
    exact Bool.not_eq_true _ ▸ hmem
  · rw [if_neg hkeep] at hgrown
    exact ⟨rfl, .inl (congrArg Except.ok hgrown)⟩

/-- The read at the `i`th position fills the buffer up to the next one. -/
lemma fileRead_run {file : FileStream} (hfile : file.failAt = none) {i : ℕ}
    (hp : position file i < fileMaxRead) {log : List Request} (hlog : ∀ r ∈ log, r.InRoom) :
    (Traced.fileRead file (position file i) (capacityAt (position file i) - position file i)
      (capacityAt (position file i))).wp (fun r after => (∀ q ∈ after, q.InRoom) ∧
        ∃ got, r = .ok got ∧
          file.content.take (position file i) ++ got = file.content.take (position file (i + 1)) ∧
          got.length = delivered file (position file i) ∧
          (got = [] → position file i = file.content.length)) log := by
  have hroom := room_at hp
  have hstep : 0 < growStep := by decide
  have hask : 0 < capacityAt (position file i) - position file i := by omega
  have hread := ByteStream.Stream.read_of_sound hfile (position file i)
    (capacityAt (position file i) - position file i)
  refine Machine.wp_change_bind ?_
  rw [hread]
  refine ⟨?_, _, rfl, ?_, ?_, fun hnil => ?_⟩
  · intro q hq
    rcases List.mem_append.mp hq with hq | hq
    · exact hlog q hq
    · obtain rfl := List.mem_singleton.mp hq
      exact ⟨hask, by simp only; omega⟩
  · rw [ByteStream.Stream.read_extends hread]
    simp only [position, delivered, if_pos hp, List.length_take, List.length_drop]
  · simp only [delivered, if_pos hp, List.length_take, List.length_drop]
  · rw [hnil] at hread
    exact le_antisymm (position_le file i) (ByteStream.Stream.read_nil hask hread)

lemma readCappedLoop_run {file : FileStream} (hfile : file.failAt = none) (realloc : ℕ → Bool)
    {turns i cap : ℕ} (hheld : Held (position file i) cap)
    (hturns : file.content.length < turns + position file i) {log : List Request}
    (hlog : ∀ r ∈ log, r.InRoom) :
    (Traced.readCappedLoop realloc file turns (file.content.take (position file i)) cap).wp
      (fun r after => (∀ q ∈ after, q.InRoom) ∧ Ended realloc file r) log := by
  induction turns generalizing i cap log with
  | zero =>
    have := position_le file i
    omega
  | succ turns ih =>
    have hlength : (file.content.take (position file i)).length = position file i := by
      rw [List.length_take, min_eq_left (position_le file i)]
    rw [Traced.readCappedLoop, hlength]
    refine Machine.wp_ite (fun hfull => ⟨hlog, i, rfl, .inr hfull⟩) fun hfull => ?_
    have hp := not_le.mp hfull
    refine Machine.wp_bind (ensureRoom_run realloc hheld hp log) ?_ ?_
    · rintro newCap mid ⟨rfl, hcap | ⟨hcap, -⟩⟩
      · obtain rfl := Except.ok.inj hcap
        refine Machine.wp_bind (fileRead_run hfile hp hlog) ?_ (fun _ _ h => ?_)
        · rintro got after ⟨hafter, got, hgot, htake, hcount, hnil⟩
          obtain rfl := Except.ok.inj hgot
          refine Machine.wp_ite (fun h => ⟨hafter, i, rfl, .inl (hnil h)⟩) fun hne => ?_
          have hpos := List.length_pos_iff.mpr hne
          have hnext : position file (i + 1) = position file i + got.length := by
            rw [hcount, position]
          have hroom : position file (i + 1) ≤ capacityAt (position file i) :=
            delivered_le file hp
          rw [htake]
          exact ih ⟨hroom, .inr ⟨_, by omega, rfl⟩⟩ (by omega) hafter
        · obtain ⟨-, _, h, -⟩ := h
          cases h
      · cases hcap
    · rintro e after ⟨rfl, h | ⟨h, hmem⟩⟩
      · cases h
      · exact ⟨hlog, Except.error.inj h, hmem⟩

/-- The reading as it is meant: it brings the first 64 MiB, or the whole of a smaller file, and
ends otherwise only for want of memory; every read asks for something and stays in the buffer. -/
structure ExactRead (realloc : ℕ → Bool) (file : FileStream) : Prop where
  bytes : ∀ out, readWholeFileCapped realloc file = .ok out → out = file.content.take fileMaxRead
  ends : ∀ e, readWholeFileCapped realloc file = .error e → e = .noMemory ∧ ∃ n, realloc n = false
  requests : ∀ r ∈ (Traced.readWholeFileCapped realloc file []).2, r.InRoom

lemma readWholeFileCapped_run {file : FileStream} (hfile : file.failAt = none)
    (realloc : ℕ → Bool) :
    (∀ r ∈ (Traced.readWholeFileCapped realloc file []).2, r.InRoom) ∧
      Ended realloc file (readWholeFileCapped realloc file) := by
  have h := @readCappedLoop_run file hfile realloc (file.content.length + 1) 0 0
    ⟨le_rfl, .inl rfl⟩ (Nat.lt_succ_self _) [] (by simp)
  rw [← Traced.readWholeFileCapped_result]
  exact h

lemma exact_of_not_straddles {file : FileStream} (hfile : file.failAt = none)
    (h : ¬Straddles file) (realloc : ℕ → Bool) : ExactRead realloc file := by
  obtain ⟨hrequests, hended⟩ := readWholeFileCapped_run hfile realloc
  refine ⟨fun out hout => ?_, fun e he => ?_, hrequests⟩
  · rw [hout] at hended
    obtain ⟨j, rfl, hend⟩ := hended
    have hlimit := position_le_limit h j
    have hsize := position_le file j
    have hmin : min (position file j) file.content.length =
        min fileMaxRead file.content.length := by omega
    rw [List.take_eq_take_iff]
    exact hmin
  · rw [he] at hended
    exact hended

lemma not_exact_of_straddles {file : FileStream} (hfile : file.failAt = none)
    (h : Straddles file) : ¬ExactRead (fun _ => true) file := by
  obtain ⟨i, hnear, hbefore, hpast⟩ := h
  intro hexact
  obtain ⟨-, hended⟩ := readWholeFileCapped_run hfile fun _ => true
  cases hread : readWholeFileCapped (fun _ => true) file with
  | error e =>
    obtain ⟨-, n, hn⟩ := hexact.ends e hread
    exact absurd hn (by simp)
  | ok out =>
    rw [hread] at hended
    obtain ⟨j, hout, hend⟩ := hended
    have hlater : i < j := by
      by_contra hcon
      have hmono := position_mono file (not_lt.mp hcon)
      omega
    have hroom := room_at hbefore
    have hnext : fileMaxRead < position file (i + 1) := by
      rw [position, delivered, if_pos hbefore]
      omega
    have hmono : position file (i + 1) ≤ position file j := position_mono file hlater
    have hsize := position_le file j
    have hlength := congrArg List.length (hexact.bytes out hread)
    rw [hout, List.length_take, List.length_take] at hlength
    omega

/-- Over a file whose reads succeed, however short they are, the read brings what it should and
stays in its buffer exactly when no read straddles the limit. -/
theorem readWholeFileCapped_exact_iff (content : Bytes) (chunk : ℕ → ℕ) :
    (∀ realloc, ExactRead realloc { content, chunk }) ↔ ¬Straddles { content, chunk } :=
  ⟨fun h hstraddles => not_exact_of_straddles rfl hstraddles (h _),
    fun h realloc => exact_of_not_straddles rfl h realloc⟩

/-- A file of 70000000 bytes, read 60000 bytes at a time. -/
def shortReads : FileStream where
  content := List.replicate 70000000 120
  chunk := fun _ => 59999

lemma shortReads_position {i : ℕ} (hi : i ≤ 1118) : position shortReads i = 60000 * i := by
  have hlimit : fileMaxRead = 67108864 := by decide
  have hstep : growStep = 65536 := rfl
  induction i with
  | zero => rfl
  | succ i ih =>
    have hp := ih (by omega)
    have hbefore : 60000 * i < fileMaxRead := by omega
    have hroom := room_at hbefore
    have hlength : shortReads.content.length = 70000000 := List.length_replicate
    have hchunk : shortReads.chunk (60000 * i) = 59999 := rfl
    rw [position, hp, delivered, if_pos hbefore, hlength, hchunk]
    omega

/-- 67140000 bytes come back. -/
theorem readWholeFileCapped_past_limit :
    ¬∀ content chunk realloc, ExactRead realloc { content, chunk } := by
  intro h
  have hlimit : fileMaxRead = 67108864 := by decide
  have hstep : growStep = 65536 := rfl
  have hposition := shortReads_position (le_refl 1118)
  have hlength : shortReads.content.length = 70000000 := List.length_replicate
  have hchunk : shortReads.chunk (60000 * 1118) = 59999 := rfl
  have hstraddles : Straddles shortReads := by
    refine ⟨1118, ?_⟩
    rw [hposition, hlength, hchunk]
    omega
  exact not_exact_of_straddles rfl hstraddles (h _ _ _)

end UsbSentinel.SignatureList
