import UsbSentinel.ByteString

/-! HTTP/1.1 response messages, and a reader for them that is told nothing but the bytes: a
status line, header fields, a blank line, and as much body as `Content-Length` announces. -/
namespace HttpMessage
open ByteString

structure Message where
  code : ℕ
  reason : Bytes
  fields : List (Bytes × Bytes)
  body : Bytes
  deriving DecidableEq, Repr

def crlf : Bytes := [13, 10]

def encodeField (f : Bytes × Bytes) : Bytes := f.1 ++ ascii ": " ++ f.2 ++ crlf

def encodeHead (m : Message) : Bytes :=
  ascii "HTTP/1.1 " ++ decimal m.code ++ ascii " " ++ m.reason ++ crlf ++
    m.fields.flatMap encodeField ++ crlf

def encode (m : Message) : Bytes := encodeHead m ++ m.body

/-- The text up to the first line end, and what follows it. -/
def breakLine : Bytes → Option (Bytes × Bytes)
  | [] => none
  | c :: rest =>
    if crlf <+: c :: rest then some ([], rest.drop 1)
    else (breakLine rest).map fun p => (c :: p.1, p.2)

def isDigit (c : UInt8) : Bool := 48 ≤ c && c ≤ 57

def readNat (text : Bytes) : Option ℕ :=
  if text ≠ [] ∧ text.all isDigit then
    some (text.foldl (fun n c => 10 * n + (c.toNat - 48)) 0)
  else none

def readStatus (line : Bytes) : Option (ℕ × Bytes) :=
  if ascii "HTTP/1.1 " <+: line then
    let rest := line.drop 9
    (readNat (rest.takeWhile (· ≠ 32))).map fun code =>
      (code, (rest.dropWhile (· ≠ 32)).drop 1)
  else none

/-- Blanks in front of the value do not belong to it. -/
def readField (line : Bytes) : Option (Bytes × Bytes) :=
  if 58 ∈ line then
    some (line.takeWhile (· ≠ 58), ((line.dropWhile (· ≠ 58)).drop 1).dropWhile (· = 32))
  else none

/-- The fields up to the blank line, and what follows it. -/
def readFields : ℕ → Bytes → Option (List (Bytes × Bytes) × Bytes)
  | 0, _ => none
  | turns + 1, text =>
    match breakLine text with
    | none => none
    | some ([], rest) => some ([], rest)
    | some (line, rest) => do
      let f ← readField line
      let r ← readFields turns rest
      pure (f :: r.1, r.2)

def fieldNamed (name : Bytes) (fields : List (Bytes × Bytes)) : Option Bytes :=
  (fields.find? fun f => f.1 = name).map Prod.snd

/-- One message and nothing behind it. -/
def decode (text : Bytes) : Option Message := do
  let (line, rest) ← breakLine text
  let (code, reason) ← readStatus line
  let (fields, body) ← readFields (rest.length + 1) rest
  let length ← (fieldNamed (ascii "Content-Length") fields).bind readNat
  if body.length = length then some ⟨code, reason, fields, body⟩ else none

/-- A message that can be told from its bytes. -/
structure WellFormed (m : Message) : Prop where
  reason : (13 : UInt8) ∉ m.reason
  names : ∀ f ∈ m.fields, f.1 ≠ [] ∧ (13 : UInt8) ∉ f.1 ∧ (58 : UInt8) ∉ f.1
  values : ∀ f ∈ m.fields, (13 : UInt8) ∉ f.2 ∧ f.2.head? ≠ some 32
  length : fieldNamed (ascii "Content-Length") m.fields = some (decimal m.body.length)

lemma breakLine_line {line : Bytes} (h : (13 : UInt8) ∉ line) (rest : Bytes) :
    breakLine (line ++ crlf ++ rest) = some (line, rest) := by
  induction line with
  | nil =>
    exact if_pos (List.prefix_append crlf rest)
  | cons c line ih =>
    have hc : (13 : UInt8) ≠ c := List.ne_of_not_mem_cons h
    have hstart : ¬ crlf <+: c :: (line ++ crlf ++ rest) := by
      intro hp
      exact hc (List.cons_prefix_cons.mp hp).1
    rw [List.cons_append, List.cons_append, breakLine, if_neg hstart,
      ih (List.not_mem_of_not_mem_cons h)]
    rfl

lemma isDigit_decimal {n : ℕ} {c : UInt8} (h : c ∈ decimal n) : isDigit c = true := by
  obtain ⟨hlow, hhigh⟩ := decimal_digit h
  simp [isDigit, hlow, hhigh]

lemma readNat_decimal (n : ℕ) : readNat (decimal n) = some n := by
  have hall : (decimal n).all isDigit = true := List.all_eq_true.mpr fun c => isDigit_decimal
  rw [readNat, if_pos ⟨decimal_ne_nil n, hall⟩, foldl_decimal]

lemma decimal_not_mem {n : ℕ} {c : UInt8} (hc : isDigit c = false) : c ∉ decimal n := by
  intro h
  rw [isDigit_decimal h] at hc
  cases hc

lemma takeWhile_to {mark : UInt8} {front : Bytes} (h : mark ∉ front) (back : Bytes) :
    (front ++ mark :: back).takeWhile (· ≠ mark) = front ∧
      (front ++ mark :: back).dropWhile (· ≠ mark) = mark :: back := by
  have hfront : ∀ c ∈ front, decide (c ≠ mark) = true := by
    intro c hc
    exact decide_eq_true fun he => h (he ▸ hc)
  constructor
  · rw [List.takeWhile_append_of_pos hfront, List.takeWhile_cons_of_neg (by simp), List.append_nil]
  · rw [List.dropWhile_append_of_pos hfront, List.dropWhile_cons_of_neg (by simp)]

lemma readStatus_line (code : ℕ) (reason : Bytes) :
    readStatus (ascii "HTTP/1.1 " ++ decimal code ++ ascii " " ++ reason) = some (code, reason) := by
  have hline : ascii "HTTP/1.1 " ++ decimal code ++ ascii " " ++ reason =
      ascii "HTTP/1.1 " ++ (decimal code ++ 32 :: reason) := by
    simp only [List.append_assoc]
    rfl
  have hsplit := takeWhile_to (decimal_not_mem (n := code) (c := 32) (by decide)) reason
  have hdrop : (ascii "HTTP/1.1 " ++ (decimal code ++ 32 :: reason)).drop 9 =
      decimal code ++ 32 :: reason := List.drop_left' (ascii_length _)
  rw [hline, readStatus, if_pos (List.prefix_append _ _)]
  simp only [hdrop, hsplit.1, hsplit.2, readNat_decimal, Option.map_some, List.drop_one,
    List.tail_cons]

lemma readField_line {f : Bytes × Bytes} (hname : (58 : UInt8) ∉ f.1)
    (hvalue : f.2.head? ≠ some 32) : readField (f.1 ++ ascii ": " ++ f.2) = some f := by
  have hline : f.1 ++ ascii ": " ++ f.2 = f.1 ++ 58 :: 32 :: f.2 := by
    rw [List.append_assoc]
    rfl
  have hsplit := takeWhile_to hname (32 :: f.2)
  have hblanks : (32 :: f.2).dropWhile (· = 32) = f.2 := by
    rw [List.dropWhile_cons_of_pos (by simp)]
    obtain ⟨name, value⟩ := f
    cases value with
    | nil => rfl
    | cons c value =>
      have hc : c ≠ 32 := fun he => hvalue (by rw [he]; rfl)
      exact List.dropWhile_cons_of_neg (by simp [hc])
  rw [hline, readField, if_pos (by simp), hsplit.1, hsplit.2]
  simp only [List.drop_one, List.tail_cons, hblanks]

lemma readFields_fields {fields : List (Bytes × Bytes)} {turns : ℕ}
    (hnames : ∀ f ∈ fields, f.1 ≠ [] ∧ (13 : UInt8) ∉ f.1 ∧ (58 : UInt8) ∉ f.1)
    (hvalues : ∀ f ∈ fields, (13 : UInt8) ∉ f.2 ∧ f.2.head? ≠ some 32)
    (hturns : fields.length < turns) (body : Bytes) :
    readFields turns (fields.flatMap encodeField ++ crlf ++ body) = some (fields, body) := by
  induction fields generalizing turns with
  | nil =>
    obtain ⟨turns, rfl⟩ : ∃ n, turns = n + 1 := ⟨turns - 1, by simp at hturns; omega⟩
    have hblank := @breakLine_line [] (by simp) body
    rw [List.flatMap_nil, readFields, hblank]
  | cons f fields ih =>
    obtain ⟨turns, rfl⟩ : ∃ n, turns = n + 1 := ⟨turns - 1, by simp at hturns; omega⟩
    obtain ⟨hne, hcr, hcolon⟩ := hnames f (List.mem_cons_self ..)
    obtain ⟨hvcr, hblank⟩ := hvalues f (List.mem_cons_self ..)
    have hclean : (13 : UInt8) ∉ f.1 ++ ascii ": " ++ f.2 := by
      have hcolonBlank : (13 : UInt8) ∉ ascii ": " := by decide
      simp only [List.mem_append, not_or]
      exact ⟨⟨hcr, hcolonBlank⟩, hvcr⟩
    have htext : (f :: fields).flatMap encodeField ++ crlf ++ body =
        (f.1 ++ ascii ": " ++ f.2) ++ crlf ++ (fields.flatMap encodeField ++ crlf ++ body) := by
      rw [List.flatMap_cons, encodeField]
      simp only [List.append_assoc]
    have hshort : fields.length < turns := by
      simp only [List.length_cons] at hturns
      omega
    have hrest := ih (fun g hg => hnames g (List.mem_cons_of_mem _ hg))
      (fun g hg => hvalues g (List.mem_cons_of_mem _ hg)) hshort
    obtain ⟨c, line, hline⟩ : ∃ c line, f.1 ++ ascii ": " ++ f.2 = c :: line := by
      obtain ⟨c, name, hname⟩ := List.exists_cons_of_ne_nil hne
      exact ⟨c, name ++ ascii ": " ++ f.2, by rw [hname]; rfl⟩
    have hbreak := breakLine_line hclean (fields.flatMap encodeField ++ crlf ++ body)
    have hfield := readField_line hcolon hblank
    rw [hline] at hbreak hfield
    rw [htext, hline, readFields, hbreak]
    simp only [hfield, hrest]
    rfl

/-- A message is read back from its bytes, and these have no other reading. -/
theorem decode_encode {m : Message} (h : WellFormed m) : decode (encode m) = some m := by
  have hstart : encode m = (ascii "HTTP/1.1 " ++ decimal m.code ++ ascii " " ++ m.reason) ++ crlf ++
      (m.fields.flatMap encodeField ++ crlf ++ m.body) := by
    unfold encode encodeHead
    simp only [List.append_assoc]
  have hclean : (13 : UInt8) ∉ ascii "HTTP/1.1 " ++ decimal m.code ++ ascii " " ++ m.reason := by
    have hversion : (13 : UInt8) ∉ ascii "HTTP/1.1 " := by decide
    have hblank : (13 : UInt8) ∉ ascii " " := by decide
    simp only [List.mem_append, not_or]
    exact ⟨⟨⟨hversion, decimal_not_mem (by decide)⟩, hblank⟩, h.reason⟩
  have hcount : m.fields.length <
      (m.fields.flatMap encodeField ++ crlf ++ m.body).length + 1 := by
    have hle : m.fields.length ≤ (m.fields.flatMap encodeField).length := by
      rw [List.length_flatMap]
      refine (List.length_le_sum_of_one_le _ fun n hn => ?_).trans_eq' ?_
      · obtain ⟨f, _, rfl⟩ := List.mem_map.mp hn
        simp only [encodeField, crlf, List.length_append, List.length_cons, List.length_nil]
        omega
      · rw [List.length_map]
    simp only [List.length_append]
    omega
  unfold decode
  rw [hstart, breakLine_line hclean]
  simp only [Option.bind_eq_bind, Option.bind_some, readStatus_line,
    readFields_fields h.names h.values hcount, h.length, readNat_decimal, if_true]

end HttpMessage
