import UsbSentinel.Blocks
import UsbSentinel.Sha256

/-! Hashing a text piece by piece: whatever the pieces, the digest is that of the whole text,
padded and cut into blocks. -/
namespace UsbSentinel.Sha256
open ByteString Blocks

/-! ### The program -/

/-- The context of a hash, with the indices at which its buffer was used. -/
structure Ctx where
  state : Words
  bitCount : UInt64
  buffer : Bytes
  buffered : ℕ
  touched : List ℕ

def init : Ctx := ⟨initialState, 0, List.replicate 64 0, 0, List.range 64⟩

namespace Ctx

/-- `memcpy(buffer + start, bytes, length)`. -/
def store (ctx : Ctx) (start : ℕ) (bytes : Bytes) : Ctx :=
  { ctx with
    buffer := ctx.buffer.take start ++ bytes ++ ctx.buffer.drop (start + bytes.length)
    touched := ctx.touched ++ List.range' start bytes.length }

/-- Bytes laid behind those in the buffer. -/
def append (ctx : Ctx) (bytes : Bytes) : Ctx :=
  { ctx.store ctx.buffered bytes with buffered := ctx.buffered + bytes.length }

def compressBuffer (ctx : Ctx) : Ctx :=
  { ctx with
    state := compress ctx.state ctx.buffer
    touched := ctx.touched ++ List.range 64 }

def flush (ctx : Ctx) : Ctx := { ctx.compressBuffer with buffered := 0 }

/-- Completing the block in the buffer, and what is left of the data. -/
def topUp (ctx : Ctx) (data : Bytes) : Ctx × Bytes :=
  if 0 < ctx.buffered then
    let need := 64 - ctx.buffered
    let take := if data.length < need then data.length else need
    let filled := ctx.append (data.take take)
    (if filled.buffered = 64 then filled.flush else filled, data.drop take)
  else (ctx, data)

end Ctx

/-- The blocks straight from the data. -/
def wholeBlocks : ℕ → Words → Bytes → Words × Bytes
  | 0, state, data => (state, data)
  | turns + 1, state, data =>
    if 64 ≤ data.length then wholeBlocks turns (compress state (data.take 64)) (data.drop 64)
    else (state, data)

/-- The whole blocks of what is left, and the remainder kept. -/
def Ctx.takeBlocks (ctx : Ctx) (data : Bytes) : Ctx :=
  let (state, rest) := wholeBlocks data.length ctx.state data
  let hashed := { ctx with state }
  if 0 < rest.length then { hashed.store 0 rest with buffered := rest.length } else hashed

def update (ctx : Ctx) (data : Bytes) : Ctx :=
  let counted := { ctx with bitCount := ctx.bitCount + UInt64.ofNat data.length * 8 }
  (counted.topUp data).1.takeBlocks (counted.topUp data).2

def lengthBytes (bitCount : UInt64) : Bytes :=
  (List.range 8).map fun i => ((bitCount >>> UInt64.ofNat (56 - 8 * i)) &&& 0xFF).toUInt8

def wordBytes (word : UInt32) : Bytes :=
  [((word >>> 24) &&& 0xFF).toUInt8, ((word >>> 16) &&& 0xFF).toUInt8,
    ((word >>> 8) &&& 0xFF).toUInt8, (word &&& 0xFF).toUInt8]

def Words.toList (w : Words) : List UInt32 := [w.a, w.b, w.c, w.d, w.e, w.f, w.g, w.h]

/-- The mark behind the text. Where the length does not fit behind it, the block is filled up. -/
def Ctx.mark (ctx : Ctx) : Ctx :=
  let marked := ctx.append [0x80]
  if marked.buffered > 56 then
    (marked.store marked.buffered (List.replicate (64 - marked.buffered) 0)).flush
  else marked

def pad (ctx : Ctx) : Ctx :=
  let zeroed := ctx.mark.store ctx.mark.buffered (List.replicate (56 - ctx.mark.buffered) 0)
  (zeroed.store 56 (lengthBytes ctx.bitCount)).compressBuffer

/-- The digest, and the context, which is wiped. -/
def final (ctx : Ctx) : Bytes × Ctx :=
  ((pad ctx).state.toList.flatMap wordBytes,
    ⟨⟨0, 0, 0, 0, 0, 0, 0, 0⟩, 0, List.replicate 64 0, 0, (pad ctx).touched ++ List.range 64⟩)

/-- The known digest of "abc". -/
example : (final (update (update init (ascii "a")) (ascii "bc"))).1 =
    [0xba, 0x78, 0x16, 0xbf, 0x8f, 0x01, 0xcf, 0xea, 0x41, 0x41, 0x40, 0xde, 0x5d, 0xae, 0x22, 0x23,
      0xb0, 0x03, 0x61, 0xa3, 0x96, 0x17, 0x7a, 0x9c, 0xb4, 0x10, 0xff, 0x61, 0xf2, 0x00, 0x15,
      0xad] := by
  decide +kernel

/-! ### The standard -/

namespace Fips

/-- Zero bytes between the mark and the length. -/
def zeroBytes (length : ℕ) : ℕ := (119 - length % 64) % 64

def padded (message : Bytes) : Bytes :=
  message ++ 0x80 :: List.replicate (zeroBytes message.length) 0 ++ bigEndian 8 (8 * message.length)

def digest (message : Bytes) : Bytes :=
  ((blocks 64 (padded message)).foldl compress initialState).toList.flatMap
    fun word => bigEndian 4 word.toNat

end Fips

/-! ### Bytes of a number -/

lemma ofNat_mod (n : ℕ) : UInt8.ofNat (n % 256) = UInt8.ofNat n := by
  apply UInt8.toNat_inj.mp
  rw [UInt8.toNat_ofNat', UInt8.toNat_ofNat', Nat.mod_mod]

lemma wordByte (word shift : UInt32) : ((word >>> shift) &&& 0xFF).toUInt8 =
    UInt8.ofNat (word.toNat / 2 ^ (shift.toNat % 32)) := by
  have hmask : ((word >>> shift) &&& 0xFF).toNat = word.toNat / 2 ^ (shift.toNat % 32) % 256 := by
    rw [UInt32.toNat_and, UInt32.toNat_shiftRight, Nat.shiftRight_eq_div_pow]
    exact Nat.and_two_pow_sub_one_eq_mod _ 8
  rw [← ofNat_mod, ← hmask]
  rfl

lemma lengthByte (bitCount shift : UInt64) : ((bitCount >>> shift) &&& 0xFF).toUInt8 =
    UInt8.ofNat (bitCount.toNat / 2 ^ (shift.toNat % 64)) := by
  have hmask : ((bitCount >>> shift) &&& 0xFF).toNat =
      bitCount.toNat / 2 ^ (shift.toNat % 64) % 256 := by
    rw [UInt64.toNat_and, UInt64.toNat_shiftRight, Nat.shiftRight_eq_div_pow]
    exact Nat.and_two_pow_sub_one_eq_mod _ 8
  rw [← ofNat_mod, ← hmask]
  rfl

/-- One byte for each power of 256. -/
lemma bigEndian_powers (count n : ℕ) :
    Fips.bigEndian count n = (List.range count).map fun i => UInt8.ofNat (n / 256 ^ (count - 1 - i)) := by
  induction count generalizing n with
  | zero => rfl
  | succ count ih =>
    rw [Fips.bigEndian, ih, List.range_succ, List.map_append]
    refine congrArg₂ _ (List.map_congr_left fun i hi => ?_) (by simp)
    have hlt := List.mem_range.mp hi
    have hexp : count + 1 - 1 - i = count - 1 - i + 1 := by omega
    rw [hexp, Nat.pow_succ', Nat.div_div_eq_div_mul]

lemma wordBytes_bigEndian (word : UInt32) : wordBytes word = Fips.bigEndian 4 word.toNat := by
  have hlast := wordByte word 0
  rw [show word >>> 0 = word by simp] at hlast
  rw [bigEndian_powers, wordBytes, wordByte, wordByte, wordByte, hlast]
  rfl

lemma lengthBytes_bigEndian (bitCount : UInt64) :
    lengthBytes bitCount = Fips.bigEndian 8 bitCount.toNat := by
  rw [bigEndian_powers, lengthBytes]
  refine List.map_congr_left fun i hi => ?_
  have hlt := List.mem_range.mp hi
  have hpower : 2 ^ ((UInt64.ofNat (56 - 8 * i)).toNat % 64) = 256 ^ (8 - 1 - i) := by
    clear hi
    revert i
    decide
  rw [lengthByte, hpower]

/-! ### What the context holds -/

/-- The chaining value after whole blocks. -/
def hashed (whole : Bytes) : Words := (blocks 64 whole).foldl Fips.compress initialState

lemma hashed_block {whole block : Bytes} (hwhole : 64 ∣ whole.length) (hblock : block.length = 64) :
    compress (hashed whole) block = hashed (whole ++ block) := by
  rw [hashed, hashed, blocks_append (by decide) hwhole, blocks_one (by decide) hblock,
    List.foldl_append, List.foldl_cons, List.foldl_nil, compress_fips _ hblock]

/-- What is in the buffer. -/
def Ctx.part (ctx : Ctx) : Bytes := ctx.buffer.take ctx.buffered

/-- The whole blocks are in the state, and no index has left the buffer. -/
structure Carries (whole : Bytes) (ctx : Ctx) : Prop where
  aligned : 64 ∣ whole.length
  state : ctx.state = hashed whole
  buffer : ctx.buffer.length = 64
  touched : ∀ i ∈ ctx.touched, i < 64

/-- The context between two calls: what is not in the state is in the buffer. -/
structure Absorbed (message : Bytes) (ctx : Ctx) : Prop where
  carries : ∃ whole, Carries whole ctx ∧ message = whole ++ ctx.part
  buffered : ctx.buffered < 64
  bitCount : ctx.bitCount = UInt64.ofNat message.length * 8

lemma init_absorbed : Absorbed [] init := by
  refine ⟨⟨[], ⟨by decide, rfl, rfl, ?_⟩, rfl⟩, by decide, rfl⟩
  intro i hi
  exact List.mem_range.mp hi

/-! ### Steps on the buffer -/

variable {ctx : Ctx} {whole message bytes : Bytes} {start : ℕ}

/-- What was in front of the stored bytes stays there. -/
lemma store_take (hbuffer : ctx.buffer.length = 64) (hfits : start + bytes.length ≤ 64) :
    (ctx.store start bytes).buffer.take (start + bytes.length) = ctx.buffer.take start ++ bytes := by
  refine List.take_left' ?_
  rw [List.length_append, List.length_take]
  omega

lemma Carries.store (h : Carries whole ctx) (hfits : start + bytes.length ≤ 64) :
    Carries whole (ctx.store start bytes) := by
  refine ⟨h.aligned, h.state, ?_, ?_⟩
  · have hbuffer := h.buffer
    simp only [Ctx.store, List.length_append, List.length_take, List.length_drop, hbuffer]
    omega
  · intro i hi
    rcases List.mem_append.mp hi with hold | hnew
    · exact h.touched i hold
    · have hrange := List.mem_range'_1.mp hnew
      omega

lemma Carries.rebuffered (h : Carries whole ctx) (buffered : ℕ) :
    Carries whole { ctx with buffered } := by
  obtain ⟨state, bitCount, buffer, _, touched⟩ := ctx
  exact ⟨h.aligned, h.state, h.buffer, h.touched⟩

lemma Carries.append (h : Carries whole ctx) (hfits : ctx.buffered + bytes.length ≤ 64) :
    Carries whole (ctx.append bytes) ∧ (ctx.append bytes).part = ctx.part ++ bytes := by
  have hstore := h.store hfits
  exact ⟨hstore.rebuffered _, store_take h.buffer hfits⟩

lemma Carries.compressBuffer (h : Carries whole ctx) :
    Carries (whole ++ ctx.buffer) ctx.compressBuffer := by
  have hstate : ctx.compressBuffer.state = hashed (whole ++ ctx.buffer) := by
    rw [← hashed_block h.aligned h.buffer, ← h.state, Ctx.compressBuffer]
  obtain ⟨state, bitCount, buffer, buffered, touched⟩ := ctx
  refine ⟨?_, hstate, h.buffer, ?_⟩
  · rw [List.length_append, h.buffer]
    exact Nat.dvd_add h.aligned (Nat.dvd_refl 64)
  · intro i hi
    rcases List.mem_append.mp hi with hold | hnew
    · exact h.touched i hold
    · exact List.mem_range.mp hnew

lemma Carries.flush (h : Carries whole ctx) : Carries (whole ++ ctx.buffer) ctx.flush := by
  rw [Ctx.flush]
  exact h.compressBuffer.rebuffered 0

/-- A full buffer is all part of the message. -/
lemma Carries.full (h : Carries whole ctx) (hfull : ctx.buffered = 64) : ctx.part = ctx.buffer := by
  rw [Ctx.part, hfull, List.take_of_length_le h.buffer.le]

lemma flush_part (ctx : Ctx) : ctx.flush.part = [] := List.take_zero

/-! ### One call -/

lemma topUp_bitCount (ctx : Ctx) (data : Bytes) : (ctx.topUp data).1.bitCount = ctx.bitCount := by
  obtain ⟨state, bitCount, buffer, buffered, touched⟩ := ctx
  unfold Ctx.topUp
  dsimp only
  split_ifs <;> rfl

/-- The buffer is emptied, or all of the data is in it. -/
lemma topUp_carries (h : Carries whole ctx) (hlt : ctx.buffered < 64) (data : Bytes) :
    ∃ more, Carries more (ctx.topUp data).1 ∧
      whole ++ ctx.part ++ data = more ++ (ctx.topUp data).1.part ++ (ctx.topUp data).2 ∧
      ((ctx.topUp data).1.buffered = 0 ∨
        (ctx.topUp data).1.buffered < 64 ∧ (ctx.topUp data).2 = []) := by
  rw [Ctx.topUp]
  by_cases hpos : 0 < ctx.buffered
  · rw [if_pos hpos]
    dsimp only
    set take := if data.length < 64 - ctx.buffered then data.length else 64 - ctx.buffered with htake
    have hlength : (data.take take).length = take := by
      refine List.length_take_of_le ?_
      rw [htake]
      split_ifs <;> omega
    have hfits : ctx.buffered + (data.take take).length ≤ 64 := by
      rw [hlength, htake]
      split_ifs <;> omega
    obtain ⟨happend, hpart⟩ := h.append hfits
    have hsum : (ctx.append (data.take take)).buffered = ctx.buffered + take := by
      rw [Ctx.append, hlength]
    have htext : whole ++ ctx.part ++ data =
        whole ++ (ctx.append (data.take take)).part ++ data.drop take := by
      rw [hpart, List.append_assoc, List.append_assoc, List.append_assoc, List.take_append_drop]
    by_cases hfull : (ctx.append (data.take take)).buffered = 64
    · rw [if_pos hfull]
      refine ⟨_, happend.flush, ?_, Or.inl rfl⟩
      rw [htext, flush_part, List.append_nil, happend.full hfull]
    · have hall : take = data.length := by
        rw [hsum] at hfull
        rw [htake] at hfull ⊢
        split_ifs at hfull ⊢ <;> omega
      rw [if_neg hfull]
      refine ⟨whole, happend, htext, Or.inr ⟨?_, ?_⟩⟩
      · omega
      · rw [hall, List.drop_length]
  · rw [if_neg hpos]
    exact ⟨whole, h, rfl, Or.inl (Nat.eq_zero_of_not_pos hpos)⟩

lemma wholeBlocks_hashed {turns : ℕ} {whole data : Bytes} (hturns : data.length ≤ turns)
    (hwhole : 64 ∣ whole.length) :
    ∃ front rest, data = front ++ rest ∧ 64 ∣ front.length ∧ rest.length < 64 ∧
      wholeBlocks turns (hashed whole) data = (hashed (whole ++ front), rest) := by
  induction turns generalizing whole data with
  | zero =>
    obtain rfl := List.eq_nil_of_length_eq_zero (Nat.le_zero.mp hturns)
    exact ⟨[], [], rfl, by decide, by decide, by rw [List.append_nil]; rfl⟩
  | succ turns ih =>
    rw [wholeBlocks]
    by_cases hfull : 64 ≤ data.length
    · have hblock : (data.take 64).length = 64 := by
        rw [List.length_take]
        omega
      have hmore : 64 ∣ (whole ++ data.take 64).length := by
        rw [List.length_append, hblock]
        exact Nat.dvd_add hwhole (Nat.dvd_refl 64)
      obtain ⟨front, rest, hdata, hfront, hrest, hloop⟩ :=
        @ih _ (data.drop 64) (by rw [List.length_drop]; omega) hmore
      refine ⟨data.take 64 ++ front, rest, ?_, ?_, hrest, ?_⟩
      · rw [List.append_assoc, ← hdata, List.take_append_drop]
      · rw [List.length_append, hblock]
        exact Nat.dvd_add (Nat.dvd_refl 64) hfront
      · rw [if_pos hfull, hashed_block hwhole hblock, hloop, List.append_assoc]
    · rw [if_neg hfull]
      exact ⟨[], data, rfl, by decide, by omega, by rw [List.append_nil]⟩

/-- Bytes laid in an empty buffer. -/
lemma Carries.keep (h : Carries whole ctx) (hrest : bytes.length < 64) :
    Carries whole { ctx.store 0 bytes with buffered := bytes.length } ∧
      Ctx.part { ctx.store 0 bytes with buffered := bytes.length } = bytes := by
  refine ⟨(h.store (by omega)).rebuffered _, ?_⟩
  have htake := @store_take ctx bytes 0 h.buffer (by omega)
  rwa [Nat.zero_add, List.take_zero, List.nil_append] at htake

lemma Carries.withState (h : Carries whole ctx) {front : Bytes} (hfront : 64 ∣ front.length) :
    Carries (whole ++ front) { ctx with state := hashed (whole ++ front) } := by
  obtain ⟨_, bitCount, buffer, buffered, touched⟩ := ctx
  refine ⟨?_, rfl, h.buffer, h.touched⟩
  rw [List.length_append]
  exact Nat.dvd_add h.aligned hfront

lemma takeBlocks_carries (h : Carries whole ctx) {left : Bytes}
    (hleft : ctx.buffered = 0 ∨ ctx.buffered < 64 ∧ left = []) :
    ∃ more, Carries more (ctx.takeBlocks left) ∧
      whole ++ ctx.part ++ left = more ++ (ctx.takeBlocks left).part ∧
      (ctx.takeBlocks left).buffered < 64 ∧ (ctx.takeBlocks left).bitCount = ctx.bitCount := by
  obtain ⟨front, rest, hsplit, hfront, hrest, hloop⟩ :=
    wholeBlocks_hashed (Nat.le_refl left.length) h.aligned
  have hmoved := h.withState hfront
  rw [Ctx.takeBlocks, h.state, hloop]
  dsimp only
  by_cases hkeep : 0 < rest.length
  · obtain ⟨hkept, hpart⟩ := hmoved.keep hrest
    rw [if_pos hkeep]
    refine ⟨whole ++ front, hkept, ?_, hrest, rfl⟩
    rcases hleft with hempty | ⟨_, hnil⟩
    · rw [hpart, Ctx.part, hempty, List.take_zero, List.append_nil, hsplit, List.append_assoc]
    · rw [hnil] at hsplit
      rw [(List.append_eq_nil_iff.mp hsplit.symm).2] at hkeep
      exact absurd hkeep (Nat.lt_irrefl 0)
  · obtain rfl := List.eq_nil_of_length_eq_zero (Nat.eq_zero_of_not_pos hkeep)
    rw [if_neg hkeep]
    refine ⟨whole ++ front, hmoved, ?_, ?_, rfl⟩
    · rcases hleft with hempty | ⟨_, hnil⟩
      · rw [Ctx.part, Ctx.part, hempty, List.take_zero, List.append_nil, List.append_nil, hsplit,
          List.append_nil]
      · rw [hnil] at hsplit
        rw [(List.append_eq_nil_iff.mp hsplit.symm).1, hnil, List.append_nil, List.append_nil]
        rfl
    · rcases hleft with hempty | ⟨hlt, _⟩
      · exact hempty.trans_lt (by decide)
      · exact hlt

/-- One call of the streaming interface. -/
theorem update_absorbed (h : Absorbed message ctx) (data : Bytes) :
    Absorbed (message ++ data) (update ctx data) := by
  obtain ⟨whole, hcarries, hmessage⟩ := h.carries
  have hbit := h.bitCount
  have hlt := h.buffered
  obtain ⟨state, bitCount, buffer, buffered, touched⟩ := ctx
  rw [update]
  dsimp only
  set counted : Ctx := ⟨state, bitCount + UInt64.ofNat data.length * 8, buffer, buffered, touched⟩
    with hcounted
  have hstart : Carries whole counted :=
    ⟨hcarries.aligned, hcarries.state, hcarries.buffer, hcarries.touched⟩
  have hcount : (counted.topUp data).1.bitCount = UInt64.ofNat (message ++ data).length * 8 := by
    rw [topUp_bitCount, List.length_append, UInt64.ofNat_add, UInt64.add_mul, ← hbit]
  obtain ⟨more, htopped, htext, hleft⟩ := topUp_carries hstart hlt data
  obtain ⟨final, hfinal, hrest, hbuffered, hsame⟩ := takeBlocks_carries htopped hleft
  refine ⟨⟨final, hfinal, ?_⟩, hbuffered, hsame.trans hcount⟩
  rw [← hrest, ← htext, hmessage]
  rfl

/-- Any number of calls. -/
theorem foldl_absorbed (h : Absorbed message ctx) (chunks : List Bytes) :
    Absorbed (message ++ chunks.flatten) (chunks.foldl update ctx) := by
  induction chunks generalizing message ctx with
  | nil =>
    rw [List.flatten_nil, List.append_nil]
    exact h
  | cons data chunks ih =>
    rw [List.flatten_cons, ← List.append_assoc]
    exact ih (update_absorbed h data)

/-! ### The last call -/

lemma part_length (h : Carries whole ctx) (hlt : ctx.buffered < 64) :
    ctx.part.length = ctx.buffered := by
  rw [Ctx.part, List.length_take, h.buffer, Nat.min_eq_left hlt.le]

/-- Room for the length, in this block or in the next. -/
lemma mark_carries (h : Carries whole ctx) (hlt : ctx.buffered < 64) :
    ∃ more zeros, Carries more ctx.mark ∧ ctx.mark.buffered ≤ 56 ∧
      whole ++ ctx.part ++ 0x80 :: List.replicate zeros 0 = more ++ ctx.mark.part ∧
      zeros + (56 - ctx.mark.buffered) = Fips.zeroBytes ctx.buffered := by
  obtain ⟨hmarked, hpart⟩ := h.append (show ctx.buffered + [(0x80 : UInt8)].length ≤ 64 by
    rw [List.length_singleton]; omega)
  have hcount : (ctx.append [0x80]).buffered = ctx.buffered + 1 := rfl
  unfold Ctx.mark
  dsimp only
  by_cases hfull : (ctx.append [0x80]).buffered > 56
  · have hzeros : (List.replicate (64 - (ctx.append [0x80]).buffered) (0 : UInt8)).length =
        64 - (ctx.append [0x80]).buffered := List.length_replicate
    have hfits : (ctx.append [0x80]).buffered +
        (List.replicate (64 - (ctx.append [0x80]).buffered) (0 : UInt8)).length ≤ 64 := by
      rw [hzeros]
      omega
    have hstored := hmarked.store hfits
    have hblock := store_take hmarked.buffer hfits
    rw [hzeros, Nat.add_sub_cancel' (by omega), List.take_of_length_le hstored.buffer.le] at hblock
    rw [if_pos hfull]
    refine ⟨_, 64 - (ctx.append [0x80]).buffered, hstored.flush, Nat.zero_le _, ?_, ?_⟩
    · rw [flush_part, List.append_nil, hblock, ← Ctx.part, hpart]
      simp only [List.append_assoc, List.singleton_append]
    · rw [Fips.zeroBytes, hcount]
      change 64 - (ctx.buffered + 1) + (56 - 0) = _
      omega
  · rw [if_neg hfull]
    refine ⟨whole, 0, hmarked, by omega, ?_, ?_⟩
    · rw [hpart, List.replicate_zero, List.append_assoc]
    · rw [Fips.zeroBytes, hcount]
      omega

lemma pad_state (h : Absorbed message ctx) (hlength : message.length < 2 ^ 61) :
    (pad ctx).state = hashed (Fips.padded message) ∧ ∀ i ∈ (pad ctx).touched, i < 64 := by
  obtain ⟨whole, hcarries, hmessage⟩ := h.carries
  obtain ⟨more, zeros, hroom, hle, htext, hzeros⟩ := mark_carries hcarries h.buffered
  have hfill : ctx.mark.buffered +
      (List.replicate (56 - ctx.mark.buffered) (0 : UInt8)).length = 56 := by
    rw [List.length_replicate]
    omega
  have hcount : (lengthBytes ctx.bitCount).length = 8 := rfl
  have hzeroed := hroom.store (hfill.trans_le (by decide))
  have hfront := store_take hroom.buffer (hfill.trans_le (by decide))
  have hlast := hzeroed.store (show 56 + (lengthBytes ctx.bitCount).length ≤ 64 by rw [hcount])
  have hblock := store_take hzeroed.buffer
    (show 56 + (lengthBytes ctx.bitCount).length ≤ 64 by rw [hcount])
  rw [hfill] at hfront
  rw [hcount, List.take_of_length_le hlast.buffer.le, hfront, ← Ctx.part] at hblock
  have hrest : message.length % 64 = ctx.buffered := by
    obtain ⟨count, hwhole⟩ := hcarries.aligned
    rw [hmessage, List.length_append, part_length hcarries h.buffered, hwhole, Nat.mul_add_mod,
      Nat.mod_eq_of_lt h.buffered]
  have hbits : (UInt64.ofNat message.length * 8).toNat = 8 * message.length := by
    rw [UInt64.toNat_mul, UInt64.toNat_ofNat']
    change message.length % 2 ^ 64 * 8 % 2 ^ 64 = _
    omega
  have hpadded : more ++ (ctx.mark.part ++ List.replicate (56 - ctx.mark.buffered) 0 ++
      lengthBytes ctx.bitCount) = Fips.padded message := by
    have hsame : zeros + (56 - ctx.mark.buffered) = Fips.zeroBytes message.length := by
      rw [hzeros, Fips.zeroBytes, Fips.zeroBytes, hrest, Nat.mod_eq_of_lt h.buffered]
    rw [Fips.padded, lengthBytes_bigEndian, h.bitCount, hbits, ← hsame, ← List.replicate_append_replicate,
      ← List.append_assoc more, ← List.append_assoc more, ← htext, hmessage]
    simp only [List.append_assoc, List.cons_append]
  have hdone := hlast.compressBuffer
  rw [hblock, hpadded] at hdone
  exact ⟨hdone.state, hdone.touched⟩

/-- However the message is cut into calls, the digest is that of the standard, and no call has
used an index outside the buffer. -/
theorem stream_digest (chunks : List Bytes) (hlength : chunks.flatten.length < 2 ^ 61) :
    (final (chunks.foldl update init)).1 = Fips.digest chunks.flatten ∧
      (∀ calls, ((chunks.take calls).foldl update init).buffered < 64) ∧
      ∀ i ∈ (final (chunks.foldl update init)).2.touched, i < 64 := by
  have habsorbed := foldl_absorbed init_absorbed chunks
  rw [List.nil_append] at habsorbed
  obtain ⟨hstate, htouched⟩ := pad_state habsorbed hlength
  refine ⟨?_, fun calls => (foldl_absorbed init_absorbed (chunks.take calls)).buffered, ?_⟩
  · have hbytes : wordBytes = fun word => Fips.bigEndian 4 word.toNat :=
      funext wordBytes_bigEndian
    rw [final, hstate, hbytes]
    rfl
  · intro i hi
    rcases List.mem_append.mp hi with hpad | hwipe
    · exact htouched i hpad
    · exact List.mem_range.mp hwipe

theorem stream_digest_pieces :
    (final ([ascii "a", ascii "b", [], ascii "c"].foldl update init)).1 =
      Fips.digest (ascii "abc") ∧
      (∀ calls, (([ascii "a", ascii "b", [], ascii "c"].take calls).foldl update init).buffered < 64) ∧
      ∀ i ∈ (final ([ascii "a", ascii "b", [], ascii "c"].foldl update init)).2.touched, i < 64 :=
  stream_digest [ascii "a", ascii "b", [], ascii "c"] (by decide +kernel)

end UsbSentinel.Sha256
