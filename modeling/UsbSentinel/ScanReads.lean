import UsbSentinel.ScanHost

/-! What a loop of reads gets from a file that reads without an error: everything it asks
for, however the reads are cut. -/
namespace UsbSentinel
open ByteString

/-- `limit` is where the loop ends: it asks for nothing more there, or the file ends there. -/
lemma readLoop_sound {file : FileStream} (hfile : file.failAt = none) (ask : ℕ → ℕ) {limit : ℕ}
    (hlimit : limit ≤ file.content.length) (hask : ∀ n < limit, 0 < ask n)
    (hkeeps : limit = file.content.length ∨ ∀ n < limit, n + ask n ≤ limit)
    (hend : limit = file.content.length ∨ ask limit = 0) {turns n : ℕ} (hn : n ≤ limit)
    (hturns : limit - n < turns) :
    readLoop file ask turns (file.content.take n) = (file.content.take limit, none) := by
  induction turns generalizing n with
  | zero => omega
  | succ turns ih =>
    have hlen : (file.content.take n).length = n := by
      rw [List.length_take]
      omega
    unfold readLoop
    rw [hlen]
    have hread := ByteStream.Stream.read_of_sound hfile n (ask n)
    by_cases hlast : n = limit
    · subst hlast
      by_cases hzero : ask n = 0
      · rw [if_pos hzero]
      · have hwhole : n = file.content.length := by
          rcases hend with h | h
          · exact h
          · exact absurd h hzero
        have hnil : (file.content.drop n).take (min (ask n) (file.chunk n + 1)) = [] := by
          rw [List.drop_of_length_le hwhole.ge, List.take_nil]
        rw [if_neg hzero, hread, hnil]
    · have hpos : 0 < ask n := hask n (by omega)
      rw [if_neg (by omega), hread]
      generalize hgot : (file.content.drop n).take (min (ask n) (file.chunk n + 1)) = got
      have hlength := congrArg List.length hgot
      rw [List.length_take, List.length_drop] at hlength
      cases got with
      | nil =>
        rw [List.length_nil] at hlength
        omega
      | cons c rest =>
        have hgot' : file.read n (ask n) = .ok (c :: rest) := by rw [hread, hgot]
        simp only
        rw [ByteStream.Stream.read_extends hgot']
        simp only [List.length_cons] at hlength ⊢
        apply ih
        · rcases hkeeps with h | h
          · omega
          · have := h n (by omega)
            omega
        · omega

theorem readChunks_sound {file : FileStream} (hfile : file.failAt = none) {chunk : ℕ}
    (hchunk : 0 < chunk) : readChunks chunk file = (file.content, none) := by
  have h := readLoop_sound hfile (fun _ => chunk) le_rfl (fun _ _ => hchunk) (.inl rfl)
    (.inl rfl) (Nat.zero_le _) (Nat.lt_succ_of_le (Nat.sub_le _ _))
  rwa [List.take_length] at h

theorem readCapped_sound {file : FileStream} (hfile : file.failAt = none) (cap : ℕ) :
    readCapped cap file = (file.content.take cap, none) := by
  have hmin : file.content.take (min cap file.content.length) = file.content.take cap := by
    rw [← List.take_take, List.take_length]
  rw [← hmin]
  have hlimit : min cap file.content.length = file.content.length ∨
      min cap file.content.length = cap := by omega
  refine readLoop_sound hfile (fun n => cap - n) (n := 0) (min_le_right _ _) ?_ ?_ ?_
    (Nat.zero_le _) (by omega)
  · intro n hn
    omega
  · rcases hlimit with h | h
    · exact .inl h
    · refine .inr fun n hn => ?_
      omega
  · rcases hlimit with h | h
    · exact .inl h
    · exact .inr (by omega)

end UsbSentinel
