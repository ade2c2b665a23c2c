import UsbSentinel.ByteString

/-! SHA-256: the compression function as the program computes it, and that of FIPS 180-4. -/
namespace UsbSentinel.Sha256
open ByteString

def roundConstants : List UInt32 :=
  [0x428a2f98, 0x71374491, 0xb5c0fbcf, 0xe9b5dba5, 0x3956c25b, 0x59f111f1, 0x923f82a4, 0xab1c5ed5,
    0xd807aa98, 0x12835b01, 0x243185be, 0x550c7dc3, 0x72be5d74, 0x80deb1fe, 0x9bdc06a7, 0xc19bf174,
    0xe49b69c1, 0xefbe4786, 0x0fc19dc6, 0x240ca1cc, 0x2de92c6f, 0x4a7484aa, 0x5cb0a9dc, 0x76f988da,
    0x983e5152, 0xa831c66d, 0xb00327c8, 0xbf597fc7, 0xc6e00bf3, 0xd5a79147, 0x06ca6351, 0x14292967,
    0x27b70a85, 0x2e1b2138, 0x4d2c6dfc, 0x53380d13, 0x650a7354, 0x766a0abb, 0x81c2c92e, 0x92722c85,
    0xa2bfe8a1, 0xa81a664b, 0xc24b8b70, 0xc76c51a3, 0xd192e819, 0xd6990624, 0xf40e3585, 0x106aa070,
    0x19a4c116, 0x1e376c08, 0x2748774c, 0x34b0bcb5, 0x391c0cb3, 0x4ed8aa4a, 0x5b9cca4f, 0x682e6ff3,
    0x748f82ee, 0x78a5636f, 0x84c87814, 0x8cc70208, 0x90befffa, 0xa4506ceb, 0xbef9a3f7, 0xc67178f2]

def rotr32 (value bits : UInt32) : UInt32 := (value >>> bits) ||| (value <<< (32 - bits))

/-- The words of the state, and the variables of the rounds. -/
structure Words where
  a : UInt32
  b : UInt32
  c : UInt32
  d : UInt32
  e : UInt32
  f : UInt32
  g : UInt32
  h : UInt32
  deriving DecidableEq, Repr

def Words.add (s v : Words) : Words :=
  ⟨s.a + v.a, s.b + v.b, s.c + v.c, s.d + v.d, s.e + v.e, s.f + v.f, s.g + v.g, s.h + v.h⟩

def loadWord (block : Bytes) (i : ℕ) : UInt32 :=
  ((block.getD (i * 4) 0).toUInt32 <<< 24) ||| ((block.getD (i * 4 + 1) 0).toUInt32 <<< 16) |||
    ((block.getD (i * 4 + 2) 0).toUInt32 <<< 8) ||| (block.getD (i * 4 + 3) 0).toUInt32

/-- `w[i]`, after the words below it. -/
def nextWord (w : List UInt32) : UInt32 :=
  let i := w.length
  let s0 := rotr32 (w.getD (i - 15) 0) 7 ^^^ rotr32 (w.getD (i - 15) 0) 18 ^^^
    (w.getD (i - 15) 0 >>> 3)
  let s1 := rotr32 (w.getD (i - 2) 0) 17 ^^^ rotr32 (w.getD (i - 2) 0) 19 ^^^
    (w.getD (i - 2) 0 >>> 10)
  w.getD (i - 16) 0 + s0 + w.getD (i - 7) 0 + s1

def schedule (block : Bytes) : List UInt32 :=
  (List.range 48).foldl (fun w _ => w ++ [nextWord w]) ((List.range 16).map (loadWord block))

def round (w : List UInt32) (v : Words) (i : ℕ) : Words :=
  let s1 := rotr32 v.e 6 ^^^ rotr32 v.e 11 ^^^ rotr32 v.e 25
  let ch := (v.e &&& v.f) ^^^ (~~~v.e &&& v.g)
  let temp1 := v.h + s1 + ch + roundConstants.getD i 0 + w.getD i 0
  let s0 := rotr32 v.a 2 ^^^ rotr32 v.a 13 ^^^ rotr32 v.a 22
  let maj := (v.a &&& v.b) ^^^ (v.a &&& v.c) ^^^ (v.b &&& v.c)
  let temp2 := s0 + maj
  { a := temp1 + temp2, b := v.a, c := v.b, d := v.c, e := v.d + temp1, f := v.e, g := v.f,
    h := v.g }

def compress (state : Words) (block : Bytes) : Words :=
  state.add ((List.range 64).foldl (round (schedule block)) state)

def initialState : Words :=
  ⟨0x6a09e667, 0xbb67ae85, 0x3c6ef372, 0xa54ff53a, 0x510e527f, 0x9b05688c, 0x1f83d9ab, 0x5be0cd19⟩

namespace Fips

def rotr (n : ℕ) (x : UInt32) : UInt32 := ⟨x.toBitVec.rotateRight n⟩
def shr (n : ℕ) (x : UInt32) : UInt32 := ⟨x.toBitVec >>> n⟩

def ch (x y z : UInt32) : UInt32 := (x &&& y) ^^^ (~~~x &&& z)
def maj (x y z : UInt32) : UInt32 := (x &&& y) ^^^ (x &&& z) ^^^ (y &&& z)
def bigSigma0 (x : UInt32) : UInt32 := rotr 2 x ^^^ rotr 13 x ^^^ rotr 22 x
def bigSigma1 (x : UInt32) : UInt32 := rotr 6 x ^^^ rotr 11 x ^^^ rotr 25 x
def sigma0 (x : UInt32) : UInt32 := rotr 7 x ^^^ rotr 18 x ^^^ shr 3 x
def sigma1 (x : UInt32) : UInt32 := rotr 17 x ^^^ rotr 19 x ^^^ shr 10 x

def fromBigEndian (bytes : Bytes) : ℕ := bytes.foldl (fun n c => 256 * n + c.toNat) 0

def bigEndian : ℕ → ℕ → Bytes
  | 0, _ => []
  | count + 1, n => bigEndian count (n / 256) ++ [UInt8.ofNat n]

/-- The t-th word of a block. -/
def messageWord (block : Bytes) (t : ℕ) : UInt32 :=
  UInt32.ofNat (fromBigEndian ((block.drop (4 * t)).take 4))

/-- The message schedule. -/
def scheduleWord (block : Bytes) (t : ℕ) : UInt32 :=
  if t < 16 then messageWord block t
  else sigma1 (scheduleWord block (t - 2)) + scheduleWord block (t - 7) +
    sigma0 (scheduleWord block (t - 15)) + scheduleWord block (t - 16)

def step (block : Bytes) (v : Words) (t : ℕ) : Words :=
  let t1 := v.h + bigSigma1 v.e + ch v.e v.f v.g + roundConstants.getD t 0 + scheduleWord block t
  let t2 := bigSigma0 v.a + maj v.a v.b v.c
  ⟨t1 + t2, v.a, v.b, v.c, v.d + t1, v.e, v.f, v.g⟩

def compress (state : Words) (block : Bytes) : Words :=
  state.add ((List.range 64).foldl (step block) state)

end Fips

/-- The first 64 primes. -/
def primes : List ℕ := (List.range 312).filter Nat.Prime

/-- The first 32 bits of the fractional part of the root of a prime. -/
def IsRootFraction (degree p : ℕ) (word : UInt32) : Prop :=
  ∃ whole < 18, (whole * 2 ^ 32 + word.toNat) ^ degree ≤ p * 2 ^ (32 * degree) ∧
    p * 2 ^ (32 * degree) < (whole * 2 ^ 32 + word.toNat + 1) ^ degree

instance : Decidable (IsRootFraction degree p word) :=
  inferInstanceAs (Decidable (∃ whole < 18, _ ∧ _))

/-- The divisors up to 17 decide on numbers below 324. -/
lemma primes_eq : primes = (List.range 312).filter fun p =>
    2 ≤ p && (List.range 18).all fun m => m < 2 || p ≤ m || p % m != 0 := by
  refine List.filter_congr fun p hp => ?_
  have hlt := List.mem_range.mp hp
  rw [Bool.eq_iff_iff, decide_eq_true_iff]
  simp only [Bool.and_eq_true, decide_eq_true_eq, List.all_eq_true, List.mem_range,
    Bool.or_eq_true, bne_iff_ne, ne_eq]
  constructor
  · intro hprime
    refine ⟨hprime.two_le, fun m _ => ?_⟩
    by_cases hsmall : m < 2 ∨ p ≤ m
    · exact .inl hsmall
    · refine .inr fun hmod => ?_
      have hdiv := (Nat.prime_def_lt'.mp hprime).2 m (by omega) (by omega)
      exact hdiv (Nat.dvd_of_mod_eq_zero hmod)
  · rintro ⟨htwo, hall⟩
    refine Nat.prime_def_le_sqrt.mpr ⟨htwo, fun m hm hsqrt hdvd => ?_⟩
    have hsquare : m * m ≤ p := Nat.le_sqrt.mp hsqrt
    have hm18 : m < 18 := by nlinarith only [hsquare, hlt]
    have hmp : m < p := by nlinarith only [hsquare, hm]
    rcases hall m hm18 with hsmall | hmod
    · omega
    · exact hmod (Nat.mod_eq_zero_of_dvd hdvd)

theorem roundConstants_cubeRoots :
    List.Forall₂ (IsRootFraction 3) primes roundConstants := by
  rw [primes_eq]
  decide

theorem initialState_squareRoots :
    List.Forall₂ (IsRootFraction 2) (primes.take 8) [initialState.a, initialState.b,
      initialState.c, initialState.d, initialState.e, initialState.f, initialState.g,
      initialState.h] := by
  rw [primes_eq]
  decide

lemma shiftAmount {n : ℕ} (hn : n < 32) : ((UInt32.ofNat n).toBitVec % 32).toNat = n := by
  revert n
  decide

lemma shr_eq {n : ℕ} (hn : n < 32) (x : UInt32) : x >>> UInt32.ofNat n = Fips.shr n x := by
  apply UInt32.toBitVec_inj.mp
  rw [Fips.shr, UInt32.toBitVec_shiftRight, BitVec.ushiftRight_eq', shiftAmount hn]

lemma rotr32_rotr {n : ℕ} (hpos : 0 < n) (hn : n < 32) (x : UInt32) :
    rotr32 x (UInt32.ofNat n) = Fips.rotr n x := by
  have hrest : (32 : UInt32) - UInt32.ofNat n = UInt32.ofNat (32 - n) := by
    clear hpos
    revert n
    decide
  apply UInt32.toBitVec_inj.mp
  rw [rotr32, hrest, Fips.rotr, BitVec.rotateRight_def, Nat.mod_eq_of_lt hn, UInt32.toBitVec_or,
    UInt32.toBitVec_shiftRight, UInt32.toBitVec_shiftLeft, BitVec.ushiftRight_eq',
    BitVec.shiftLeft_eq', shiftAmount hn, shiftAmount (by omega)]

lemma or_of_lt {a b : ℕ} (i : ℕ) (hb : b < 2 ^ i) : a * 2 ^ i ||| b = a * 2 ^ i + b := by
  rw [Nat.mul_comm, Nat.two_pow_add_eq_or_of_lt hb]

lemma sigma0_eq (x : UInt32) : rotr32 x 7 ^^^ rotr32 x 18 ^^^ (x >>> 3) = Fips.sigma0 x := by
  rw [Fips.sigma0, ← @rotr32_rotr 7 (by decide) (by decide), ← @rotr32_rotr 18 (by decide) (by decide),
    ← @shr_eq 3 (by decide)]
  rfl

lemma sigma1_eq (x : UInt32) : rotr32 x 17 ^^^ rotr32 x 19 ^^^ (x >>> 10) = Fips.sigma1 x := by
  rw [Fips.sigma1, ← @rotr32_rotr 17 (by decide) (by decide),
    ← @rotr32_rotr 19 (by decide) (by decide), ← @shr_eq 10 (by decide)]
  rfl

lemma bigSigma0_eq (x : UInt32) : rotr32 x 2 ^^^ rotr32 x 13 ^^^ rotr32 x 22 = Fips.bigSigma0 x := by
  rw [Fips.bigSigma0, ← @rotr32_rotr 2 (by decide) (by decide),
    ← @rotr32_rotr 13 (by decide) (by decide), ← @rotr32_rotr 22 (by decide) (by decide)]
  rfl

lemma bigSigma1_eq (x : UInt32) : rotr32 x 6 ^^^ rotr32 x 11 ^^^ rotr32 x 25 = Fips.bigSigma1 x := by
  rw [Fips.bigSigma1, ← @rotr32_rotr 6 (by decide) (by decide),
    ← @rotr32_rotr 11 (by decide) (by decide), ← @rotr32_rotr 25 (by decide) (by decide)]
  rfl

/-- The bytes of a word do not overlap. -/
lemma loadWord_eq {block : Bytes} {t : ℕ} (h : 4 * t + 4 ≤ block.length) :
    loadWord block t = Fips.messageWord block t := by
  obtain ⟨b₀, b₁, b₂, b₃, hbytes⟩ : ∃ b₀ b₁ b₂ b₃, (block.drop (4 * t)).take 4 = [b₀, b₁, b₂, b₃] := by
    have hlength : ((block.drop (4 * t)).take 4).length = 4 := by
      rw [List.length_take, List.length_drop]
      omega
    generalize (block.drop (4 * t)).take 4 = bytes at hlength
    match bytes, hlength with
    | [b₀, b₁, b₂, b₃], _ => exact ⟨b₀, b₁, b₂, b₃, rfl⟩
  have hget : ∀ i < 4, block.getD (t * 4 + i) 0 = [b₀, b₁, b₂, b₃].getD i 0 := by
    intro i hi
    rw [← hbytes, List.getD_eq_getElem?_getD, List.getD_eq_getElem?_getD, List.getElem?_take_of_lt hi,
      List.getElem?_drop, Nat.mul_comm t 4]
  have h₀ := hget 0 (by decide)
  have h₁ := hget 1 (by decide)
  have h₂ := hget 2 (by decide)
  have h₃ := hget 3 (by decide)
  simp only [Nat.add_zero, List.getD_cons_zero, List.getD_cons_succ] at h₀ h₁ h₂ h₃
  rw [loadWord, h₀, h₁, h₂, h₃, Fips.messageWord, hbytes]
  apply UInt32.toNat_inj.mp
  have l₀ := b₀.toNat_lt
  have l₁ := b₁.toNat_lt
  have l₂ := b₂.toNat_lt
  have l₃ := b₃.toNat_lt
  simp only [Fips.fromBigEndian, List.foldl_cons, List.foldl_nil, UInt32.toNat_or,
    UInt32.toNat_shiftLeft, UInt8.toNat_toUInt32, UInt32.toNat_ofNat']
  have s₀ : b₀.toNat <<< (UInt32.toNat 24 % 32) % 2 ^ 32 = b₀.toNat * 2 ^ 24 := by
    rw [show UInt32.toNat 24 % 32 = 24 from rfl, Nat.shiftLeft_eq]
    omega
  have s₁ : b₁.toNat <<< (UInt32.toNat 16 % 32) % 2 ^ 32 = b₁.toNat * 2 ^ 16 := by
    rw [show UInt32.toNat 16 % 32 = 16 from rfl, Nat.shiftLeft_eq]
    omega
  have s₂ : b₂.toNat <<< (UInt32.toNat 8 % 32) % 2 ^ 32 = b₂.toNat * 2 ^ 8 := by
    rw [show UInt32.toNat 8 % 32 = 8 from rfl, Nat.shiftLeft_eq]
    omega
  have o₁ : b₀.toNat * 2 ^ 24 ||| b₁.toNat * 2 ^ 16 = (b₀.toNat * 2 ^ 8 + b₁.toNat) * 2 ^ 16 := by
    rw [or_of_lt 24 (show b₁.toNat * 2 ^ 16 < 2 ^ 24 by omega)]
    ring
  have o₂ : (b₀.toNat * 2 ^ 8 + b₁.toNat) * 2 ^ 16 ||| b₂.toNat * 2 ^ 8 =
      (b₀.toNat * 2 ^ 16 + b₁.toNat * 2 ^ 8 + b₂.toNat) * 2 ^ 8 := by
    rw [or_of_lt 16 (show b₂.toNat * 2 ^ 8 < 2 ^ 16 by omega)]
    ring
  rw [s₀, s₁, s₂, o₁, o₂, or_of_lt 8 l₃]
  omega

lemma scheduleWord_first (block : Bytes) {t : ℕ} (h : t < 16) :
    Fips.scheduleWord block t = Fips.messageWord block t := by
  rw [Fips.scheduleWord, if_pos h]

lemma scheduleWord_next (block : Bytes) (k : ℕ) : Fips.scheduleWord block (16 + k) =
    Fips.sigma1 (Fips.scheduleWord block (16 + k - 2)) + Fips.scheduleWord block (16 + k - 7) +
      Fips.sigma0 (Fips.scheduleWord block (16 + k - 15)) + Fips.scheduleWord block (16 + k - 16) := by
  rw [Fips.scheduleWord, if_neg (by omega)]

lemma nextWord_scheduleWord (block : Bytes) (k : ℕ) :
    nextWord ((List.range (16 + k)).map (Fips.scheduleWord block)) =
      Fips.scheduleWord block (16 + k) := by
  have hget : ∀ back, 0 < back → ((List.range (16 + k)).map (Fips.scheduleWord block)).getD
      (16 + k - back) 0 = Fips.scheduleWord block (16 + k - back) := by
    intro back hback
    rw [List.getD_eq_getElem?_getD, List.getElem?_map, List.getElem?_range (by omega)]
    rfl
  have hshort : ((List.range (16 + k)).map (Fips.scheduleWord block)).length = 16 + k := by
    rw [List.length_map, List.length_range]
  simp only [nextWord, hshort, hget 15 (by decide), hget 2 (by decide), hget 16 (by decide),
    hget 7 (by decide), sigma0_eq, sigma1_eq]
  rw [scheduleWord_next]
  ac_rfl

lemma schedule_eq {block : Bytes} (h : block.length = 64) :
    schedule block = (List.range 64).map (Fips.scheduleWord block) := by
  have hfirst : (List.range 16).map (loadWord block) =
      (List.range 16).map (Fips.scheduleWord block) := by
    refine List.map_congr_left fun t ht => ?_
    have hlt := List.mem_range.mp ht
    rw [scheduleWord_first block hlt, loadWord_eq (by omega)]
  have hloop : ∀ k, (List.range k).foldl (fun w _ => w ++ [nextWord w])
      ((List.range 16).map (loadWord block)) =
      (List.range (16 + k)).map (Fips.scheduleWord block) := by
    intro k
    induction k with
    | zero => exact hfirst
    | succ k ih =>
      rw [@List.range_succ k, List.foldl_append, ih, List.foldl_cons, List.foldl_nil,
        nextWord_scheduleWord, ← Nat.add_assoc, @List.range_succ (16 + k), List.map_append]
      rfl
  exact hloop 48

lemma round_step {block : Bytes} (h : block.length = 64) (v : Words) {t : ℕ} (ht : t < 64) :
    round (schedule block) v t = Fips.step block v t := by
  have hget : (schedule block).getD t 0 = Fips.scheduleWord block t := by
    rw [schedule_eq h, List.getD_eq_getElem?_getD, List.getElem?_map, List.getElem?_range ht]
    rfl
  simp only [round, hget, bigSigma0_eq, bigSigma1_eq]
  rfl

/-- On a whole block the program's function is the standard's. -/
theorem compress_fips (state : Words) {block : Bytes} (h : block.length = 64) :
    compress state block = Fips.compress state block := by
  rw [compress, Fips.compress]
  refine congrArg _ (List.foldl_ext _ _ _ fun v t ht => ?_)
  exact round_step h v (List.mem_range.mp ht)

end UsbSentinel.Sha256
