import UsbSentinel.JsonReader
import UsbSentinel.JsonWriter

/-! What the writer writes for a tree is what the reader reads back: strings byte by
byte, integers as far as `strtod` is exact, containers by induction on the levels left. -/
namespace UsbSentinel.Json
open ByteString

mutual

/-- The text of a tree; the flag of a container's rest says whether a comma is due. -/
def render : Value ℤ → Bytes
  | .null => ascii "null"
  | .bool b => if b then ascii "true" else ascii "false"
  | .number n => decimalInt n
  | .string s => quoted s
  | .array items => ascii "[" ++ renderItems false items ++ ascii "]"
  | .object members => ascii "\x7b" ++ renderMembers false members ++ ascii "\x7d"

def renderItems : Bool → List (Value ℤ) → Bytes
  | _, [] => []
  | comma, v :: rest => (if comma then ascii "," else []) ++ render v ++ renderItems true rest

def renderMembers : Bool → List (Bytes × Value ℤ) → Bytes
  | _, [] => []
  | comma, (k, v) :: rest =>
    (if comma then ascii "," else []) ++ quoted k ++ ascii ":" ++ render v ++
      renderMembers true rest

end

mutual

/-- Levels a tree needs: one for a scalar or an empty container. -/
def height {ν : Type} : Value ν → ℕ
  | .array items => 1 + heightItems items
  | .object members => 1 + heightMembers members
  | _ => 1

def heightItems {ν : Type} : List (Value ν) → ℕ
  | [] => 0
  | v :: rest => max (height v) (heightItems rest)

def heightMembers {ν : Type} : List (Bytes × Value ν) → ℕ
  | [] => 0
  | (_, v) :: rest => max (height v) (heightMembers rest)

end

mutual

def mapNumber {μ ν : Type} (f : μ → ν) : Value μ → Value ν
  | .null => .null
  | .bool b => .bool b
  | .number n => .number (f n)
  | .string s => .string s
  | .array items => .array (mapItems f items)
  | .object members => .object (mapMembers f members)

def mapItems {μ ν : Type} (f : μ → ν) : List (Value μ) → List (Value ν)
  | [] => []
  | v :: rest => mapNumber f v :: mapItems f rest

def mapMembers {μ ν : Type} (f : μ → ν) : List (Bytes × Value μ) → List (Bytes × Value ν)
  | [] => []
  | (k, v) :: rest => (k, mapNumber f v) :: mapMembers f rest

end

mutual

/-- Every number of the tree satisfies `p`. -/
def AllNumbers {ν : Type} (p : ν → Prop) : Value ν → Prop
  | .number n => p n
  | .array items => AllNumbersItems p items
  | .object members => AllNumbersMembers p members
  | _ => True

def AllNumbersItems {ν : Type} (p : ν → Prop) : List (Value ν) → Prop
  | [] => True
  | v :: rest => AllNumbers p v ∧ AllNumbersItems p rest

def AllNumbersMembers {ν : Type} (p : ν → Prop) : List (Bytes × Value ν) → Prop
  | [] => True
  | (_, v) :: rest => AllNumbers p v ∧ AllNumbersMembers p rest

end

set_option maxRecDepth 8000 in
lemma hexDigit_hexLower : ∀ b : UInt8,
    hexDigit (hexLower (b / 16)) = some (b.toNat / 16) ∧
      hexDigit (hexLower (b % 16)) = some (b.toNat % 16) := by
  decide

set_option maxRecDepth 8000 in
lemma encodeUnit_byte : ∀ b : UInt8, b < 0x80 →
    encodeUnit (((0 * 16 + 0) * 16 + b.toNat / 16) * 16 + b.toNat % 16) = [b] := by
  decide

/-- One escaped byte is read back as that byte. -/
lemma stringLoop_escapeByte (b : UInt8) (rest out : Bytes) :
    stringLoop (escapeByte b ++ rest) out = stringLoop rest (out ++ [b]) := by
  have hslash : (backslash = 34) = False ∧ (backslash = 92) = True := by decide
  have hshort : ∀ {e c : UInt8}, e ≠ 117 → simpleEscape e = some c →
      stringLoop (backslash :: e :: rest) out = stringLoop rest (out ++ [c]) := by
    intro e c he hc
    rw [stringLoop.eq_def]
    simp only [hslash.1, hslash.2, if_false, if_true, he, hc]
  unfold escapeByte
  split_ifs with hq hb h8 h12 h10 h13 h9 hlow
  · subst hq; exact hshort (by decide) rfl
  · subst hb; exact hshort (by decide) rfl
  · subst h8; exact hshort (by decide) rfl
  · subst h12; exact hshort (by decide) rfl
  · subst h10; exact hshort (by decide) rfl
  · subst h13; exact hshort (by decide) rfl
  · subst h9; exact hshort (by decide) rfl
  · have hlong : ascii "\\u00" ++ [hexLower (b / 16), hexLower (b % 16)] ++ rest =
        backslash :: 117 :: 48 :: 48 :: hexLower (b / 16) :: hexLower (b % 16) :: rest := rfl
    have hzero : hexDigit 48 = some 0 := rfl
    have hunit := encodeUnit_byte b (by grind)
    rw [hlong, stringLoop.eq_def]
    simp only [hslash.1, hslash.2, if_false, if_true, hzero, (hexDigit_hexLower b).1,
      (hexDigit_hexLower b).2, hunit]
  · rw [List.singleton_append, stringLoop.eq_def]
    exact (if_neg hq).trans (if_neg hb)

theorem parseStringLiteral_quoted (value rest : Bytes) :
    parseStringLiteral (quoted value ++ rest) = .ok (value, rest) := by
  have hloop : ∀ (value out : Bytes),
      stringLoop (value.flatMap escapeByte ++ quote :: rest) out = .ok (out ++ value, rest) := by
    intro value
    induction value with
    | nil =>
      intro out
      rw [List.flatMap_nil, List.nil_append, List.append_nil, stringLoop.eq_def]
      exact if_pos rfl
    | cons b value ih =>
      intro out
      rw [List.flatMap_cons, List.append_assoc, stringLoop_escapeByte, ih]
      simp
  have hopen : quoted value ++ rest = quote :: (value.flatMap escapeByte ++ quote :: rest) := by
    simp [quoted]
  rw [hopen, parseStringLiteral, if_pos (show quote = 34 from rfl), hloop, List.nil_append]

/-- The text behind a value: nothing a number could go on with. -/
def Stops (rest : Bytes) : Prop :=
  ∀ c, rest.head? = some c → isDigit c = false ∧ c ≠ 46 ∧ c ≠ 101 ∧ c ≠ 69

lemma decimal_isDigit {n : ℕ} {c : UInt8} (h : c ∈ decimal n) : isDigit c = true := by
  obtain ⟨hlow, hhigh⟩ := decimal_digit h
  simp [isDigit, hlow, hhigh]

lemma digits_append {ds rest : Bytes} (hds : ∀ c ∈ ds, isDigit c = true) (hrest : Stops rest) :
    digits (ds ++ rest) = (ds, rest) := by
  have hstop : rest.takeWhile isDigit = [] ∧ rest.dropWhile isDigit = rest := by
    cases rest with
    | nil => exact ⟨rfl, rfl⟩
    | cons c rest => simp [(hrest c rfl).1]
  rw [digits, List.takeWhile_append_of_pos hds, List.dropWhile_append_of_pos hds, hstop.1,
    hstop.2, List.append_nil]

lemma minus_decimal_append (n : ℕ) (rest : Bytes) :
    minus (decimal n ++ rest) = ([], decimal n ++ rest) := by
  obtain ⟨c, cs, hc⟩ := List.exists_cons_of_ne_nil (decimal_ne_nil n)
  have hmem : c ∈ decimal n := hc ▸ List.mem_cons_self
  have hne : c ≠ 45 := by
    rintro rfl
    exact absurd (decimal_isDigit hmem) (by decide)
  simp [hc, minus, hne]

lemma minus_decimal (n : ℕ) : minus (decimal n) = ([], decimal n) := by
  simpa using minus_decimal_append n []

/-- The token of an integer is its text. -/
theorem numberToken_decimalInt (n : ℤ) {rest : Bytes} (hrest : Stops rest) :
    numberToken (decimalInt n ++ rest) = (decimalInt n, rest) := by
  have hfrac : fraction rest = ([], rest) ∧ exponent rest = ([], rest) := by
    cases rest with
    | nil => exact ⟨rfl, rfl⟩
    | cons c rest =>
      obtain ⟨_, h46, h101, h69⟩ := hrest c rfl
      simp [fraction, exponent, h46, h101, h69]
  have hwhole : digits (decimal n.natAbs ++ rest) = (decimal n.natAbs, rest) :=
    digits_append (fun _ hc => decimal_isDigit hc) hrest
  unfold numberToken decimalInt
  by_cases hneg : n < 0
  · simp [hneg, minus, hwhole, hfrac]
  · simp [hneg, minus_decimal_append, hwhole, hfrac]

lemma skipWs_cons {c : UInt8} {rest : Bytes} (h : isSpace c = false) :
    skipWs (c :: rest) = c :: rest := by
  simp [skipWs, h]

lemma renderItems_true (v : Value ℤ) (rest : List (Value ℤ)) :
    renderItems true (v :: rest) = 44 :: renderItems false (v :: rest) := by
  simp [renderItems, show ascii "," = [44] from rfl]

lemma renderMembers_true (m : Bytes × Value ℤ) (rest : List (Bytes × Value ℤ)) :
    renderMembers true (m :: rest) = 44 :: renderMembers false (m :: rest) := by
  obtain ⟨k, v⟩ := m
  simp [renderMembers, show ascii "," = [44] from rfl]

lemma decimalInt_head (n : ℤ) :
    ∃ c rest, decimalInt n = c :: rest ∧ (c = 45 ∨ isDigit c = true) := by
  unfold decimalInt
  split_ifs
  · exact ⟨_, _, rfl, .inl rfl⟩
  · obtain ⟨c, cs, hc⟩ := List.exists_cons_of_ne_nil (decimal_ne_nil n.natAbs)
    have hmem : c ∈ decimal n.natAbs := hc ▸ List.mem_cons_self
    exact ⟨c, cs, hc, .inr (decimal_isDigit hmem)⟩

set_option maxRecDepth 8000 in
/-- A value starts with neither a space nor a closing bracket. -/
lemma render_head (v : Value ℤ) :
    ∃ c rest, render v = c :: rest ∧ isSpace c = false ∧ c ≠ 93 := by
  cases v with
  | null => exact ⟨_, _, rfl, by decide, by decide⟩
  | bool b => cases b <;> exact ⟨_, _, rfl, by decide, by decide⟩
  | string s => exact ⟨_, _, rfl, by decide, by decide⟩
  | array items => exact ⟨_, _, rfl, by decide, by decide⟩
  | object members => exact ⟨_, _, rfl, by decide, by decide⟩
  | number n =>
    have hstart : ∀ c : UInt8, c = 45 ∨ isDigit c = true → isSpace c = false ∧ c ≠ 93 := by
      decide
    obtain ⟨c, cs, hc, hor⟩ := decimalInt_head n
    exact ⟨c, cs, hc, hstart c hor⟩

lemma skipWs_render (v : Value ℤ) (rest : Bytes) :
    skipWs (render v ++ rest) = render v ++ rest := by
  obtain ⟨c, cs, hc, hspace, _⟩ := render_head v
  rw [hc, List.cons_append, skipWs_cons hspace]

lemma stops_cons {c : UInt8} {rest : Bytes} (h : c = 44 ∨ c = 93 ∨ c = 125) :
    Stops (c :: rest) := by
  intro d hd
  obtain rfl : c = d := by simpa using hd
  rcases h with rfl | rfl | rfl <;> decide

section Reading
variable (lib : CLib)

/-- `strtod`, `modf` and the conversion agree with the integers that a double represents
exactly. -/
def CLib.Exact : Prop :=
  ∀ n : ℤ, n.natAbs ≤ 2 ^ 53 →
    (lib.strtod (decimalInt n)).2 = (decimalInt n).length ∧
      lib.integral (lib.strtod (decimalInt n)).1 = true ∧
      lib.toInt (lib.strtod (decimalInt n)).1 = n

/-- The tree read back: each integer through its text. -/
def readBack : Value ℤ → Value lib.Double := mapNumber fun n => (lib.strtod (decimalInt n)).1

lemma parseNumber_decimalInt {lib : CLib} (hlib : lib.Exact) {n : ℤ} (hn : n.natAbs ≤ 2 ^ 53)
    {rest : Bytes} (hrest : Stops rest) :
    parseNumber lib (decimalInt n ++ rest) = .ok ((lib.strtod (decimalInt n)).1, rest) := by
  have hdigits : (decimal n.natAbs).length ≤ 20 := decimal_length (by omega)
  have hpos := List.length_pos_iff.mpr (decimal_ne_nil n.natAbs)
  have hlen : 0 < (decimalInt n).length ∧ (decimalInt n).length ≤ 21 := by
    unfold decimalInt
    split_ifs
    · rw [List.length_cons]
      omega
    · omega
  simp only [parseNumber, numberToken_decimalInt n hrest, numberMax, (hlib n hn).1]
  rw [if_neg (by omega), if_neg (by simp)]

/-- A value parser that reads `v` back whatever follows. -/
def ReadsBack (value : Bytes → Except Status (Value lib.Double × Bytes)) (v : Value ℤ) : Prop :=
  ∀ rest, Stops rest → value (render v ++ rest) = .ok (readBack lib v, rest)

variable {lib} {value : Bytes → Except Status (Value lib.Double × Bytes)}

lemma parseItems_render {items : List (Value ℤ)} (hne : items ≠ [])
    (hvalue : ∀ v ∈ items, ReadsBack lib value v) {fuel : ℕ} (hfuel : items.length ≤ fuel)
    (acc : List (Value lib.Double)) (tail : Bytes) :
    parseItems lib value fuel acc (renderItems false items ++ 93 :: tail) =
      .ok (acc ++ mapItems (fun n => (lib.strtod (decimalInt n)).1) items, tail) := by
  induction items generalizing fuel acc with
  | nil => exact absurd rfl hne
  | cons v items ih =>
    cases fuel with
    | zero => simp at hfuel
    | succ fuel =>
      have htext : renderItems false (v :: items) ++ 93 :: tail =
          render v ++ (renderItems true items ++ 93 :: tail) := by
        simp [renderItems]
      have hread := hvalue v (by simp)
      rw [htext, parseItems, skipWs_render]
      cases items with
      | nil =>
        have hstop : Stops (renderItems true [] ++ 93 :: tail) := stops_cons (by simp)
        rw [hread _ hstop]
        simp only [renderItems, List.nil_append, skipWs_cons (show isSpace 93 = false by decide)]
        simp [mapItems, readBack]
      | cons w items =>
        rw [renderItems_true, List.cons_append]
        have hstop : Stops (44 :: (renderItems false (w :: items) ++ 93 :: tail)) :=
          stops_cons (by simp)
        rw [hread _ hstop]
        simp only [skipWs_cons (show isSpace 44 = false by decide), if_true]
        rw [ih (by simp) (fun u hu => hvalue u (by simp [hu])) (by simpa using hfuel)]
        simp [mapItems, readBack]

lemma parseMembers_render {members : List (Bytes × Value ℤ)} (hne : members ≠ [])
    (hvalue : ∀ m ∈ members, ReadsBack lib value m.2) {fuel : ℕ} (hfuel : members.length ≤ fuel)
    (acc : List (Bytes × Value lib.Double)) (tail : Bytes) :
    parseMembers lib value fuel acc (renderMembers false members ++ 125 :: tail) =
      .ok (acc ++ mapMembers (fun n => (lib.strtod (decimalInt n)).1) members, tail) := by
  induction members generalizing fuel acc with
  | nil => exact absurd rfl hne
  | cons m members ih =>
    obtain ⟨k, v⟩ := m
    cases fuel with
    | zero => simp at hfuel
    | succ fuel =>
      have htext : renderMembers false ((k, v) :: members) ++ 125 :: tail =
          quoted k ++ 58 :: (render v ++ (renderMembers true members ++ 125 :: tail)) := by
        simp [renderMembers, show ascii ":" = [58] from rfl]
      have hquote : ∀ rest, skipWs (quoted k ++ rest) = quoted k ++ rest := fun rest =>
        skipWs_cons (show isSpace quote = false by decide)
      have hread := hvalue (k, v) (by simp)
      rw [htext, parseMembers, hquote, parseStringLiteral_quoted]
      simp only [skipWs_cons (show isSpace 58 = false by decide), skipWs_render]
      rw [if_neg (by simp)]
      cases members with
      | nil =>
        have hstop : Stops (renderMembers true [] ++ 125 :: tail) := stops_cons (by simp)
        rw [hread _ hstop]
        simp only [renderMembers, List.nil_append,
          skipWs_cons (show isSpace 125 = false by decide)]
        simp [mapMembers, readBack]
      | cons m members =>
        rw [renderMembers_true, List.cons_append]
        have hstop : Stops (44 :: (renderMembers false (m :: members) ++ 125 :: tail)) :=
          stops_cons (by simp)
        rw [hread _ hstop]
        simp only [skipWs_cons (show isSpace 44 = false by decide), if_true]
        rw [ih (by simp) (fun u hu => hvalue u (by simp [hu])) (by simpa using hfuel)]
        simp [mapMembers, readBack]

lemma length_le_renderItems (comma : Bool) (items : List (Value ℤ)) :
    items.length ≤ (renderItems comma items).length := by
  induction items generalizing comma with
  | nil => simp
  | cons v items ih =>
    obtain ⟨c, cs, hc, _⟩ := render_head v
    have := ih true
    simp only [renderItems, List.length_append, List.length_cons, hc]
    omega

lemma length_le_renderMembers (comma : Bool) (members : List (Bytes × Value ℤ)) :
    members.length ≤ (renderMembers comma members).length := by
  induction members generalizing comma with
  | nil => simp
  | cons m members ih =>
    obtain ⟨k, v⟩ := m
    have := ih true
    simp only [renderMembers, quoted, List.length_append, List.length_cons]
    omega

lemma height_le_heightItems {ν : Type} {v : Value ν} {items : List (Value ν)} (h : v ∈ items) :
    height v ≤ heightItems items := by
  induction items with
  | nil => simp at h
  | cons w items ih =>
    rw [heightItems]
    rcases List.mem_cons.mp h with rfl | h
    · exact le_max_left _ _
    · exact (ih h).trans (le_max_right _ _)

lemma height_le_heightMembers {ν : Type} {m : Bytes × Value ν} {members : List (Bytes × Value ν)}
    (h : m ∈ members) : height m.2 ≤ heightMembers members := by
  induction members with
  | nil => simp at h
  | cons w members ih =>
    rw [heightMembers]
    rcases List.mem_cons.mp h with rfl | h
    · exact le_max_left _ _
    · exact (ih h).trans (le_max_right _ _)

lemma AllNumbersItems.of_mem {ν : Type} {p : ν → Prop} {v : Value ν} {items : List (Value ν)}
    (hall : AllNumbersItems p items) (h : v ∈ items) : AllNumbers p v := by
  induction items with
  | nil => simp at h
  | cons w items ih =>
    rcases List.mem_cons.mp h with rfl | h
    · exact hall.1
    · exact ih hall.2 h

lemma AllNumbersMembers.of_mem {ν : Type} {p : ν → Prop} {m : Bytes × Value ν}
    {members : List (Bytes × Value ν)} (hall : AllNumbersMembers p members) (h : m ∈ members) :
    AllNumbers p m.2 := by
  induction members with
  | nil => simp at h
  | cons w members ih =>
    rcases List.mem_cons.mp h with rfl | h
    · exact hall.1
    · exact ih hall.2 h

set_option maxRecDepth 8000 in
/-- A rendered tree is read back wherever its height fits the levels left. -/
theorem parseValue_render (hlib : lib.Exact) {levels : ℕ} {v : Value ℤ}
    (hheight : height v ≤ levels) (hall : AllNumbers (fun n => n.natAbs ≤ 2 ^ 53) v) :
    ReadsBack lib (parseValue lib levels) v := by
  induction levels generalizing v with
  | zero => cases v <;> simp [height] at hheight
  | succ levels ih =>
    intro rest hrest
    rw [parseValue, skipWs_render]
    cases v with
    | null =>
      have htext : render .null ++ rest = 110 :: 117 :: 108 :: 108 :: rest := rfl
      rw [htext]
      simp [matchLiteral, show ascii "null" = [110, 117, 108, 108] from rfl, readBack, mapNumber]
    | bool b =>
      cases b with
      | false =>
        have htext : render (.bool false) ++ rest = 102 :: 97 :: 108 :: 115 :: 101 :: rest := rfl
        rw [htext]
        simp [matchLiteral, show ascii "false" = [102, 97, 108, 115, 101] from rfl, readBack,
          mapNumber]
      | true =>
        have htext : render (.bool true) ++ rest = 116 :: 114 :: 117 :: 101 :: rest := rfl
        rw [htext]
        simp [matchLiteral, show ascii "true" = [116, 114, 117, 101] from rfl, readBack, mapNumber]
    | number n =>
      obtain ⟨c, cs, hc, hstart⟩ := decimalInt_head n
      have hother : ∀ c : UInt8, c = 45 ∨ isDigit c = true →
          c ≠ 123 ∧ c ≠ 91 ∧ c ≠ 34 ∧ c ≠ 116 ∧ c ≠ 102 ∧ c ≠ 110 := by decide
      obtain ⟨h₁, h₂, h₃, h₄, h₅, h₆⟩ := hother c hstart
      have hnumber := parseNumber_decimalInt hlib hall hrest
      rw [hc, List.cons_append] at hnumber
      simp only [render, hc, List.cons_append]
      rw [if_neg h₁, if_neg h₂, if_neg h₃, if_neg h₄, if_neg h₅, if_neg h₆, if_pos hstart, hnumber]
      simp [readBack, mapNumber, hc]
    | string s =>
      have htext : render (.string s) ++ rest = quote :: (s.flatMap escapeByte ++ [quote] ++ rest) := by
        simp [render, quoted]
      have hliteral := parseStringLiteral_quoted s rest
      have hquoted : quoted s ++ rest = quote :: (s.flatMap escapeByte ++ [quote] ++ rest) := by
        simp [quoted]
      rw [hquoted] at hliteral
      rw [htext]
      simp only
      rw [if_neg (by decide), if_neg (by decide), if_pos (by decide), hliteral]
      simp [readBack, mapNumber]
    | array items =>
      have htext : render (.array items) ++ rest = 91 :: (renderItems false items ++ 93 :: rest) := by
        simp [render, show ascii "[" = [91] from rfl, show ascii "]" = [93] from rfl]
      rw [htext]
      simp only
      rw [if_neg (by decide), if_pos trivial, parseArray]
      cases items with
      | nil =>
        simp only [renderItems, List.nil_append, skipWs_cons (show isSpace 93 = false by decide)]
        simp [readBack, mapNumber, mapItems]
      | cons w items =>
        have hfuel := length_le_renderItems false (w :: items)
        obtain ⟨c, cs, hc, hspace, hclose⟩ := render_head w
        have hskip : skipWs (renderItems false (w :: items) ++ 93 :: rest) =
            renderItems false (w :: items) ++ 93 :: rest := by
          simp [renderItems, hc, skipWs_cons hspace]
        have hopen : (renderItems false (w :: items) ++ 93 :: rest).head? ≠ some 93 := by
          simp [renderItems, hc, hclose]
        have hitems : ∀ u ∈ w :: items, ReadsBack lib (fun inp => parseValue lib levels inp) u := by
          intro u hu
          have hu' := height_le_heightItems hu
          rw [height] at hheight
          exact ih (by omega) (hall.of_mem hu)
        simp only [hskip]
        rw [if_neg hopen, parseItems_render (by simp) hitems (by
          rw [List.length_append]
          omega)]
        simp [readBack, mapNumber]
    | object members =>
      have htext : render (.object members) ++ rest =
          123 :: (renderMembers false members ++ 125 :: rest) := by
        simp [render, show ascii "\x7b" = [123] from rfl, show ascii "\x7d" = [125] from rfl]
      rw [htext]
      simp only
      rw [if_pos trivial, parseObject]
      cases members with
      | nil =>
        simp only [renderMembers, List.nil_append, skipWs_cons (show isSpace 125 = false by decide)]
        simp [readBack, mapNumber, mapMembers]
      | cons m members =>
        have hfuel := length_le_renderMembers false (m :: members)
        have hquote : ∃ cs, renderMembers false (m :: members) = quote :: cs :=
          ⟨_, rfl⟩
        obtain ⟨cs, hcs⟩ := hquote
        have hskip : skipWs (renderMembers false (m :: members) ++ 125 :: rest) =
            renderMembers false (m :: members) ++ 125 :: rest := by
          rw [hcs]
          exact skipWs_cons (by decide)
        have hopen : (renderMembers false (m :: members) ++ 125 :: rest).head? ≠ some 125 := by
          rw [hcs]
          simp [quote]
        have hvalues : ∀ u ∈ m :: members,
            ReadsBack lib (fun inp => parseValue lib levels inp) u.2 := by
          intro u hu
          have hu' := height_le_heightMembers hu
          rw [height] at hheight
          exact ih (by omega) (hall.of_mem hu)
        simp only [hskip]
        rw [if_neg hopen, parseMembers_render (by simp) hvalues (by
          rw [List.length_append]
          omega)]
        simp [readBack, mapNumber]

/-- A rendered tree no higher than the depth limit is read back whole. -/
theorem parse_render (hlib : lib.Exact) {v : Value ℤ} (hheight : height v ≤ parseMaxDepth)
    (hall : AllNumbers (fun n => n.natAbs ≤ 2 ^ 53) v) :
    parse lib (render v) = .ok (readBack lib v) := by
  have hread := parseValue_render hlib hheight hall [] fun c hc => by simp at hc
  rw [List.append_nil] at hread
  simp [parse, hread, skipWs]

end Reading

/-- A number library for whole numbers only: sign and digits, read exactly. -/
def wholeLib : CLib where
  Double := ℤ
  strtod text :=
    let sign := minus text
    let whole := (digits sign.2).1
    let magnitude : ℕ := whole.foldl (fun acc c => 10 * acc + (c.toNat - 48)) 0
    (if sign.1 = [] then magnitude else -magnitude, sign.1.length + whole.length)
  integral _ := true
  toInt n := n

theorem wholeLib_exact : wholeLib.Exact := by
  intro n _
  have hstop : Stops [] := fun c hc => by simp at hc
  have hdigits : digits (decimal n.natAbs) = (decimal n.natAbs, []) := by
    simpa using digits_append (fun c (hc : c ∈ decimal n.natAbs) => decimal_isDigit hc) hstop
  refine ⟨?_, rfl, ?_⟩
  · simp only [wholeLib, decimalInt]
    split_ifs with hneg
    · simp [minus, hdigits]
      omega
    · simp [minus_decimal, hdigits]
  · simp only [wholeLib, decimalInt]
    split_ifs with hneg h h
    · simp [minus] at h
    · simp [minus, hdigits, foldl_decimal, abs_of_neg hneg]
    · simp [minus_decimal, hdigits, foldl_decimal, abs_of_nonneg (not_lt.mp hneg)]
    · simp [minus_decimal] at h

end UsbSentinel.Json
