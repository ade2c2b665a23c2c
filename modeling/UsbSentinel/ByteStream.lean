import UsbSentinel.ByteString

/-! Reading a byte source in chunks whose sizes the caller only bounds from above. -/
namespace ByteStream
open ByteString

/-- An open file: what it holds, how much one read at an offset may return, and the
offset from which reads fail, if any. -/
structure Stream (ε : Type) where
  content : Bytes
  chunk : ℕ → ℕ := fun _ => 4096
  failAt : Option (ℕ × ε) := none

variable {ε : Type}

/-- An empty result is the end of the file (or `ask = 0`). -/
def Stream.read (s : Stream ε) (off ask : ℕ) : Except ε Bytes :=
  match s.failAt with
  | some (n, e) =>
    if n ≤ off then .error e else .ok ((s.content.drop off).take (min ask (s.chunk off + 1)))
  | none => .ok ((s.content.drop off).take (min ask (s.chunk off + 1)))

theorem Stream.read_eq_ok {s : Stream ε} {off ask : ℕ} {got : Bytes}
    (h : s.read off ask = .ok got) :
    got = (s.content.drop off).take (min ask (s.chunk off + 1)) := by
  unfold Stream.read at h
  split at h
  · split_ifs at h
    exact (Except.ok.inj h).symm
  · exact (Except.ok.inj h).symm

theorem Stream.read_of_sound {s : Stream ε} (hs : s.failAt = none) (off ask : ℕ) :
    s.read off ask = .ok ((s.content.drop off).take (min ask (s.chunk off + 1))) := by
  simp [Stream.read, hs]

/-- Appending a read to the prefix read so far gives a longer prefix. -/
theorem Stream.read_extends {s : Stream ε} {n ask : ℕ} {got : Bytes}
    (h : s.read n ask = .ok got) :
    s.content.take n ++ got = s.content.take (n + got.length) := by
  obtain rfl := Stream.read_eq_ok h
  rw [List.take_add]
  simp

/-- A read that asks for something and gets nothing has reached the end. -/
theorem Stream.read_nil {s : Stream ε} {n ask : ℕ} (hask : 0 < ask)
    (h : s.read n ask = .ok []) : s.content.length ≤ n := by
  have hgot := Stream.read_eq_ok h
  have hlen := congrArg List.length hgot
  simp only [List.length_nil, List.length_take, List.length_drop] at hlen
  omega

theorem Stream.read_length_le {s : Stream ε} {n ask : ℕ} {got : Bytes}
    (h : s.read n ask = .ok got) : got.length ≤ ask := by
  obtain rfl := Stream.read_eq_ok h
  simp only [List.length_take, List.length_drop]
  omega

end ByteStream
