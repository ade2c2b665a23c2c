import UsbSentinel.JsonEmit
import UsbSentinel.JsonStrict

/-! Documents written call by call: the member calls unfold into a key and a value, and a run
that unfolds into the calls of a tree finishes with the text of that tree. -/
namespace UsbSentinel.Json
open ByteString JsonGrammar

/-- The calls a convenience call is made of. -/
def Call.unfold : Call → List Call
  | .string value => [.string (some (value.getD []))]
  | .uint value => [.int value]
  | .memberString name value => [.key name, .string (some (value.getD []))]
  | .memberInt name value => [.key name, .int value]
  | .memberUint name value => [.key name, .int value]
  | .memberBool name value => [.key name, .boolValue value]
  | c => [c]

def unfoldAll (calls : List Call) : List Call := calls.flatMap Call.unfold

@[simp] lemma unfoldAll_nil : unfoldAll [] = [] := rfl

@[simp] lemma unfoldAll_cons (c : Call) (calls : List Call) :
    unfoldAll (c :: calls) = c.unfold ++ unfoldAll calls := rfl

@[simp] lemma unfoldAll_append (a b : List Call) :
    unfoldAll (a ++ b) = unfoldAll a ++ unfoldAll b := List.flatMap_append

lemma unfoldAll_flatMap {α : Type} (f : α → List Call) (items : List α) :
    unfoldAll (items.flatMap f) = items.flatMap fun x => unfoldAll (f x) :=
  List.flatMap_assoc

section Writing
variable {realloc : ℕ → Bool}

lemma uint_eq_int (w : Writer) (n : ℕ) : uint realloc w n = int realloc w n := by
  have hdecimal : decimalInt (n : ℤ) = decimal n := by simp [decimalInt]
  unfold uint int
  rw [hdecimal]

lemma apply_unfold (w : Writer) (c : Call) :
    c.unfold.foldl (Call.apply realloc) w = c.apply realloc w := by
  cases c with
  | uint n => exact (uint_eq_int w n).symm
  | memberUint name n => exact (uint_eq_int (key realloc w name) n).symm
  | _ => rfl

lemma run_unfoldAll (calls : List Call) : run realloc (unfoldAll calls) = run realloc calls := by
  unfold run
  generalize ({} : Writer) = w
  induction calls generalizing w with
  | nil => rfl
  | cons c calls ih => rw [unfoldAll_cons, List.foldl_append, apply_unfold, List.foldl_cons, ih]

lemma finish_emit_eq {v : Value ℤ} {text : Bytes}
    (h : finish (run realloc (emit v)) = .ok text) : text = render v := by
  obtain ⟨hsound, _, rfl⟩ := finish_eq_ok h
  exact (emit_wrote v (Nat.zero_le _) hsound).2.2.buf

end Writing

lemma emitItems_map {α : Type} (f : α → Value ℤ) (items : List α) :
    emitItems (items.map f) = items.flatMap fun x => emit (f x) := by
  induction items with
  | nil => rfl
  | cons x items ih => rw [List.map_cons, emitItems, ih, List.flatMap_cons]

lemma emitMembers_append (a b : List (Bytes × Value ℤ)) :
    emitMembers (a ++ b) = emitMembers a ++ emitMembers b := by
  induction a with
  | nil => rfl
  | cons m a ih =>
    obtain ⟨k, v⟩ := m
    rw [List.cons_append, emitMembers, emitMembers, ih, List.cons_append, List.append_assoc]

/-- What `%lld` and `%llu` print. -/
def IsLong (n : ℤ) : Prop := n.natAbs < 10 ^ 20

lemma decimalInt_number {n : ℤ} (h : IsLong n) : short.number (decimalInt n) := by
  have hlen := decimal_length h
  unfold decimalInt
  split_ifs
  · refine ⟨⟨[45], decimal n.natAbs, [], [], .inr rfl, decimal_whole _, .inl rfl, .inl rfl,
      by simp⟩, ?_⟩
    rw [List.length_cons]
    omega
  · exact ⟨⟨[], decimal n.natAbs, [], [], .inl rfl, decimal_whole _, .inl rfl, .inl rfl,
      by simp⟩, by omega⟩

lemma renderItems_separated {item : Bytes → Prop} {items : List (Value ℤ)} (hne : items ≠ [])
    (hitem : ∀ v ∈ items, item (render v)) : Separated item (renderItems false items) := by
  induction items with
  | nil => exact absurd rfl hne
  | cons v rest ih =>
    have hv : item (render v) := hitem v (by simp)
    cases rest with
    | nil => simpa [renderItems] using Separated.last hv
    | cons u rest =>
      have hrest := ih (by simp) fun w hw => hitem w (List.mem_cons_of_mem v hw)
      rw [renderItems, renderItems_true]
      simpa using Separated.cons hv hrest

lemma renderMembers_separated {item : Bytes → Prop} {members : List (Bytes × Value ℤ)}
    (hne : members ≠ [])
    (hitem : ∀ m ∈ members, item (quoted m.1 ++ ascii ":" ++ render m.2)) :
    Separated item (renderMembers false members) := by
  induction members with
  | nil => exact absurd rfl hne
  | cons m rest ih =>
    obtain ⟨k, v⟩ := m
    have hm : item (quoted k ++ ascii ":" ++ render v) := hitem (k, v) (by simp)
    cases rest with
    | nil => simpa [renderMembers] using Separated.last hm
    | cons u rest =>
      have hrest := ih (by simp) fun w hw => hitem w (List.mem_cons_of_mem (k, v) hw)
      rw [renderMembers, renderMembers_true]
      simpa using Separated.cons hm hrest

/-- Within its height the text of a tree is a value, however the strings look. -/
lemma render_value {levels : ℕ} {v : Value ℤ} (hheight : height v ≤ levels)
    (hall : AllNumbers IsLong v) : JsonGrammar.Value short levels (render v) := by
  induction levels generalizing v with
  | zero =>
    cases v <;> simp [height] at hheight
  | succ levels ih =>
    cases v with
    | null => exact .null
    | bool b =>
      cases b with
      | false => exact .false
      | true => exact .true
    | number n => exact .number (decimalInt_number hall)
    | string s => exact .string (quoted_string s)
    | array items =>
      rw [height] at hheight
      have htext : render (.array items) = 91 :: (renderItems false items ++ [93]) := by
        simp [render, show ascii "[" = [91] from rfl, show ascii "]" = [93] from rfl]
      rw [htext]
      by_cases hne : items = []
      · rw [hne]
        exact .emptyArray .nil
      · refine .array (renderItems_separated hne fun v hv => .bare (ih ?_ ?_))
        · have hle := height_le_heightItems hv
          omega
        · exact AllNumbersItems.of_mem hall hv
    | object members =>
      rw [height] at hheight
      have htext : render (.object members) = 123 :: (renderMembers false members ++ [125]) := by
        simp [render, show ascii "\x7b" = [123] from rfl, show ascii "\x7d" = [125] from rfl]
      rw [htext]
      by_cases hne : members = []
      · rw [hne]
        exact .emptyObject .nil
      · refine .object (renderMembers_separated hne fun m hm => ?_)
        refine ⟨quoted m.1, render m.2, .bare (quoted_string m.1), .bare (ih ?_ ?_), ?_⟩
        · have hle := height_le_heightMembers hm
          omega
        · exact AllNumbersMembers.of_mem hall hm
        · simp [show ascii ":" = [58] from rfl]

lemma heightItems_le {items : List (Value ℤ)} {k : ℕ} (h : ∀ v ∈ items, height v ≤ k) :
    heightItems items ≤ k := by
  induction items with
  | nil => exact Nat.zero_le k
  | cons v rest ih =>
    exact max_le (h v (by simp)) (ih fun u hu => h u (List.mem_cons_of_mem v hu))

lemma heightMembers_le {members : List (Bytes × Value ℤ)} {k : ℕ}
    (h : ∀ m ∈ members, height m.2 ≤ k) : heightMembers members ≤ k := by
  induction members with
  | nil => exact Nat.zero_le k
  | cons m rest ih =>
    exact max_le (h m (by simp)) (ih fun u hu => h u (List.mem_cons_of_mem m hu))

mutual

lemma nesting_le_height : ∀ v : Value ℤ, nesting v ≤ height v
  | .null | .bool _ | .number _ | .string _ => Nat.zero_le _
  | .array items => Nat.add_le_add_left (nestingItems_le_height items) 1
  | .object members => Nat.add_le_add_left (nestingMembers_le_height members) 1

lemma nestingItems_le_height : ∀ items : List (Value ℤ), nestingItems items ≤ heightItems items
  | [] => le_rfl
  | v :: rest => max_le_max (nesting_le_height v) (nestingItems_le_height rest)

lemma nestingMembers_le_height : ∀ members : List (Bytes × Value ℤ),
    nestingMembers members ≤ heightMembers members
  | [] => le_rfl
  | (_, v) :: rest => max_le_max (nesting_le_height v) (nestingMembers_le_height rest)

end

lemma allNumbersItems {p : ℤ → Prop} {items : List (Value ℤ)}
    (h : ∀ v ∈ items, AllNumbers p v) : AllNumbersItems p items := by
  induction items with
  | nil => trivial
  | cons v rest ih => exact ⟨h v (by simp), ih fun u hu => h u (List.mem_cons_of_mem v hu)⟩

lemma allNumbersMembers {p : ℤ → Prop} {members : List (Bytes × Value ℤ)}
    (h : ∀ m ∈ members, AllNumbers p m.2) : AllNumbersMembers p members := by
  induction members with
  | nil => trivial
  | cons m rest ih => exact ⟨h m (by simp), ih fun u hu => h u (List.mem_cons_of_mem m hu)⟩

lemma isLong_nat {n : ℕ} (h : n < 2 ^ 64) : IsLong n := by
  unfold IsLong
  rw [Int.natAbs_natCast]
  omega

lemma short_standard : short.Sub standard := ⟨fun _ h => h, fun _ h => h.1⟩

/-- One well-formed document that the reader accepts. -/
def IsDocument (lib : CLib) (text : Bytes) : Prop := IsValue text ∧ ∃ v, parse lib text = .ok v

theorem render_document {lib : CLib} (hlib : lib.Scans) {v : Value ℤ}
    (hheight : height v ≤ parseMaxDepth) (hall : AllNumbers IsLong v) :
    IsDocument lib (render v) := by
  have hvalue := render_value hheight hall
  refine ⟨⟨parseMaxDepth, hvalue.mono short_standard le_rfl⟩, ?_⟩
  exact (parse_iff hlib _).mpr (.bare (hvalue.mono short_lax le_rfl))

/-- A run that unfolds into the calls of a tree, when it finishes. -/
theorem run_document {lib : CLib} (hlib : lib.Scans) {realloc : ℕ → Bool} {calls : List Call}
    {v : Value ℤ} (hcalls : unfoldAll calls = emit v) (hheight : height v ≤ parseMaxDepth)
    (hall : AllNumbers IsLong v) {text : Bytes} (h : finish (run realloc calls) = .ok text) :
    text = render v ∧ IsDocument lib text := by
  rw [← run_unfoldAll, hcalls] at h
  obtain rfl := finish_emit_eq h
  exact ⟨rfl, render_document hlib hheight hall⟩

end UsbSentinel.Json
