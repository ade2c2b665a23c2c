import UsbSentinel.JsonRoundtrip
import UsbSentinel.Utf8

/-! Text in UTF-8 goes through the writer in UTF-8: ASCII is escaped to ASCII, and longer
sequences are copied. -/
namespace UsbSentinel.Json
open ByteString Utf8

mutual

/-- Every string and every key of the tree satisfies `p`. -/
def AllStrings {ν : Type} (p : Bytes → Prop) : Value ν → Prop
  | .string s => p s
  | .array items => AllStringsItems p items
  | .object members => AllStringsMembers p members
  | _ => True

def AllStringsItems {ν : Type} (p : Bytes → Prop) : List (Value ν) → Prop
  | [] => True
  | v :: rest => AllStrings p v ∧ AllStringsItems p rest

def AllStringsMembers {ν : Type} (p : Bytes → Prop) : List (Bytes × Value ν) → Prop
  | [] => True
  | (k, v) :: rest => p k ∧ AllStrings p v ∧ AllStringsMembers p rest

end

lemma allStringsItems {ν : Type} {p : Bytes → Prop} {items : List (Value ν)}
    (h : ∀ v ∈ items, AllStrings p v) : AllStringsItems p items := by
  induction items with
  | nil => trivial
  | cons v rest ih =>
    exact ⟨h v (List.mem_cons_self ..), ih fun u hu => h u (List.mem_cons_of_mem _ hu)⟩

lemma allStringsMembers {ν : Type} {p : Bytes → Prop} {members : List (Bytes × Value ν)}
    (h : ∀ m ∈ members, p m.1 ∧ AllStrings p m.2) : AllStringsMembers p members := by
  induction members with
  | nil => trivial
  | cons m rest ih =>
    have hm := h m (List.mem_cons_self ..)
    exact ⟨hm.1, hm.2, ih fun u hu => h u (List.mem_cons_of_mem _ hu)⟩

lemma decimal_ascii (n : ℕ) : Ascii (decimal n) := by
  intro c hc
  have hdigit := decimal_isDigit hc
  simp only [isDigit, Bool.and_eq_true, decide_eq_true_eq] at hdigit
  exact UInt8.le_trans hdigit.2 (by decide)

lemma decimalInt_ascii (n : ℤ) : Ascii (decimalInt n) := by
  have hminus : Ascii [45] := by decide
  unfold decimalInt
  split_ifs
  · exact hminus.append (decimal_ascii _)
  · exact decimal_ascii _

set_option maxRecDepth 8000 in
lemma escapeByte_ascii : ∀ b : UInt8, b ≤ 0x7F → Ascii (escapeByte b) := by
  decide

set_option maxRecDepth 8000 in
lemma escapeByte_high : ∀ b : UInt8, 0x80 ≤ b → escapeByte b = [b] := by
  decide

lemma escaped_valid {s : Bytes} (h : Valid s) : Valid (s.flatMap escapeByte) := by
  induction h with
  | nil => exact .nil
  | @cons c rest first _ ih =>
    rw [List.flatMap_append]
    refine Valid.append ?_ ih
    obtain ⟨a, rfl, ha⟩ | hhigh := first.ascii_or_high
    · rw [List.flatMap_singleton]
      exact valid_of_ascii (escapeByte_ascii a ha)
    · have hcopied : c.flatMap escapeByte = c.flatMap fun b => [b] :=
        List.flatMap_congr fun b hb => escapeByte_high b (hhigh b hb)
      rw [hcopied, List.flatMap_singleton']
      exact first.valid

lemma quoted_valid {s : Bytes} (h : Valid s) : Valid (quoted s) := by
  have hquote : Ascii [quote] := by decide
  unfold quoted
  rw [List.cons_append, valid_cons_ascii (by decide)]
  exact (escaped_valid h).append (valid_of_ascii hquote)

lemma comma_valid (comma : Bool) : Valid (if comma then ascii "," else []) := by
  apply valid_of_ascii
  revert comma
  decide

mutual

theorem render_valid : ∀ {v : Value ℤ}, AllStrings Valid v → Valid (render v)
  | .null, _ => valid_of_ascii (by decide)
  | .bool true, _ => valid_of_ascii (by decide)
  | .bool false, _ => valid_of_ascii (by decide)
  | .number n, _ => valid_of_ascii (decimalInt_ascii n)
  | .string _, h => quoted_valid h
  | .array _, h => by
    have hopen : Valid (ascii "[") := valid_of_ascii (by decide)
    have hclose : Valid (ascii "]") := valid_of_ascii (by decide)
    exact (hopen.append (renderItems_valid h)).append hclose
  | .object _, h => by
    have hopen : Valid (ascii "\x7b") := valid_of_ascii (by decide)
    have hclose : Valid (ascii "\x7d") := valid_of_ascii (by decide)
    exact (hopen.append (renderMembers_valid h)).append hclose

theorem renderItems_valid : ∀ {items : List (Value ℤ)} {comma : Bool},
    AllStringsItems Valid items → Valid (renderItems comma items)
  | [], _, _ => .nil
  | _ :: _, comma, h =>
    ((comma_valid comma).append (render_valid h.1)).append (renderItems_valid h.2)

theorem renderMembers_valid : ∀ {members : List (Bytes × Value ℤ)} {comma : Bool},
    AllStringsMembers Valid members → Valid (renderMembers comma members)
  | [], _, _ => .nil
  | (_, _) :: _, comma, h => by
    have hcolon : Valid (ascii ":") := valid_of_ascii (by decide)
    have hkey := (comma_valid comma).append (quoted_valid h.1)
    exact ((hkey.append hcolon).append (render_valid h.2.1)).append (renderMembers_valid h.2.2)

end

end UsbSentinel.Json
