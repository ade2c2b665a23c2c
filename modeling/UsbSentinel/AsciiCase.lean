import UsbSentinel.ByteString

/-! Comparison of C strings without regard to ASCII case. -/
namespace ByteString

def lowerAscii (c : UInt8) : UInt8 := if 65 ≤ c ∧ c ≤ 90 then c + 32 else c

def equalsCi (a b : Bytes) : Bool := a.map lowerAscii = b.map lowerAscii

/-- An empty needle is never found. -/
def containsCi (haystack needle : Bytes) : Bool :=
  needle ≠ [] && (List.range (haystack.length + 1 - needle.length)).any fun i =>
    equalsCi ((haystack.drop i).take needle.length) needle

/-- The word stands in the text, in either case. -/
def Mentions (text word : Bytes) : Prop :=
  ∃ before letters after, text = before ++ letters ++ after ∧ equalsCi letters word = true

lemma containsCi_iff (haystack needle : Bytes) :
    containsCi haystack needle = true ↔
      needle ≠ [] ∧ Mentions haystack needle := by
  have hlength : ∀ letters, equalsCi letters needle = true → letters.length = needle.length := by
    intro letters h
    have heq := congrArg List.length (of_decide_eq_true h)
    simpa using heq
  unfold containsCi
  rw [Bool.and_eq_true, decide_eq_true_eq, List.any_eq_true]
  refine and_congr_right fun hne => ⟨?_, ?_⟩
  · rintro ⟨i, _, heq⟩
    refine ⟨haystack.take i, (haystack.drop i).take needle.length,
      (haystack.drop i).drop needle.length, ?_, heq⟩
    rw [List.append_assoc, List.take_append_drop, List.take_append_drop]
  · rintro ⟨before, letters, after, rfl, heq⟩
    have hletters := hlength letters heq
    refine ⟨before.length, ?_, ?_⟩
    · rw [List.mem_range]
      simp only [List.length_append]
      omega
    · rw [List.append_assoc, List.drop_left, ← hletters, List.take_left]
      exact heq

end ByteString
