import UsbSentinel.WebApp

/-! The header lines of a request: the lines that the head is made of, the lines that the
parser puts into its slots, and when these are the same. -/
namespace UsbSentinel.Http
open ByteString UsbSentinel.Web

/-! ### Lines -/

/-- The lines of a text, split at every CR LF. -/
def crlfLines : Bytes → List Bytes
  | [] => [[]]
  | [c] => [[c]]
  | c :: d :: rest =>
    if c = 13 ∧ d = 10 then [] :: crlfLines rest
    else (crlfLines (d :: rest)).modifyHead (c :: ·)

/-- Lines with their offsets; two bytes stand between a line and the next. -/
def placed : ℕ → List Bytes → List (ℕ × Bytes)
  | _, [] => []
  | start, line :: lines => (start, line) :: placed (start + line.length + 2) lines

def hasColon (line : ℕ × Bytes) : Bool := 58 ∈ line.2

lemma hasColon_iff {line : ℕ × Bytes} : hasColon line = true ↔ 58 ∈ line.2 := decide_eq_true_iff

lemma crlfLines_cases (text : Bytes) : ∃ line lines, crlfLines text = line :: lines ∧
    (lines = [] ∧ text = line ∨
      ∃ rest, text = line ++ 13 :: 10 :: rest ∧ lines = crlfLines rest) := by
  fun_induction crlfLines text with
  | case1 => exact ⟨[], [], rfl, .inl ⟨rfl, rfl⟩⟩
  | case2 c => exact ⟨[c], [], rfl, .inl ⟨rfl, rfl⟩⟩
  | case3 c d rest h =>
    obtain ⟨rfl, rfl⟩ := h
    exact ⟨[], _, rfl, .inr ⟨rest, rfl, rfl⟩⟩
  | case4 c d rest h ih =>
    obtain ⟨line, lines, heq, hcases⟩ := ih
    refine ⟨c :: line, lines, by rw [heq]; rfl, ?_⟩
    rcases hcases with ⟨hnil, htext⟩ | ⟨rest', htext, hlines⟩
    · exact .inl ⟨hnil, by rw [htext]⟩
    · exact .inr ⟨rest', by rw [htext]; rfl, hlines⟩

lemma placed_snd (start : ℕ) (lines : List Bytes) :
    (placed start lines).map Prod.snd = lines := by
  induction lines generalizing start with
  | nil => rfl
  | cons line lines ih => rw [placed, List.map_cons, ih]

lemma le_of_mem_placed {start : ℕ} {lines : List Bytes} {p : ℕ × Bytes}
    (h : p ∈ placed start lines) : start ≤ p.1 := by
  induction lines generalizing start with
  | nil => cases h
  | cons line lines ih =>
    rcases List.mem_cons.mp h with rfl | h
    · exact le_rfl
    · exact (by omega : start ≤ start + line.length + 2).trans (ih h)

lemma filter_placed_eq_nil {start : ℕ} {lines : List Bytes} :
    (placed start lines).filter hasColon = [] ↔ ∀ line ∈ lines, 58 ∉ line := by
  induction lines generalizing start with
  | nil => simp [placed]
  | cons line lines ih =>
    rw [placed, List.forall_mem_cons, ← @ih (start + line.length + 2)]
    by_cases hcolon : 58 ∈ line
    · rw [List.filter_cons_of_pos (hasColon_iff.mpr hcolon)]
      exact ⟨nofun, fun h => absurd hcolon h.1⟩
    · rw [List.filter_cons_of_neg (mt hasColon_iff.mp hcolon)]
      exact ⟨fun h => ⟨hcolon, h⟩, fun h => h.2⟩

lemma takeWhile_before (line rest : Bytes) :
    (line ++ 13 :: rest).takeWhile (· ≠ 13) = line.takeWhile (· ≠ 13) := by
  induction line with
  | nil => rfl
  | cons c line ih =>
    rw [List.cons_append, List.takeWhile_cons, List.takeWhile_cons, ih]

/-- Up to the first CR of its first line a text is that line. -/
lemma takeWhile_first {text line : Bytes} {lines : List Bytes} (h : crlfLines text = line :: lines) :
    text.takeWhile (· ≠ 13) = line.takeWhile (· ≠ 13) := by
  obtain ⟨line', lines', heq, hcases⟩ := crlfLines_cases text
  obtain ⟨rfl, rfl⟩ := List.cons.inj (heq.symm.trans h)
  rcases hcases with ⟨-, rfl⟩ | ⟨rest, rfl, -⟩
  · rfl
  · exact takeWhile_before line' (10 :: rest)

lemma takeWhile_no_cr {line : Bytes} (h : 13 ∉ line) : line.takeWhile (· ≠ 13) = line := by
  rw [List.takeWhile_eq_self_iff]
  intro c hc
  simpa using fun he : c = 13 => h (he ▸ hc)

lemma takeWhile_whole_no_cr {line : Bytes} (h : line.takeWhile (· ≠ 13) = line) : 13 ∉ line := by
  intro hcr
  rw [← h] at hcr
  simpa using List.mem_takeWhile_imp hcr

/-- What follows the first line, when that has no CR of its own. -/
lemma drop_first {text line : Bytes} {lines : List Bytes} (h : crlfLines text = line :: lines) :
    lines = [] ∧ text.drop (line.length + 2) = [] ∨
      lines = crlfLines (text.drop (line.length + 2)) ∧
        (text.drop (line.length + 2)).length < text.length := by
  obtain ⟨line', lines', heq, hcases⟩ := crlfLines_cases text
  obtain ⟨rfl, rfl⟩ := List.cons.inj (heq.symm.trans h)
  rcases hcases with ⟨hnil, rfl⟩ | ⟨rest, rfl, hlines⟩
  · exact .inl ⟨hnil, List.drop_eq_nil_of_le (by omega)⟩
  · have hdrop : (line' ++ 13 :: 10 :: rest).drop (line'.length + 2) = rest := by
      rw [← List.drop_drop, List.drop_left]
      rfl
    rw [hdrop]
    refine .inr ⟨hlines, ?_⟩
    simp only [List.length_append, List.length_cons]
    omega

lemma mem_of_take_eq {α : Type} {n : ℕ} {a : α} {l m : List α}
    (h : (a :: l).take (n + 1) = m.take (n + 1)) : a ∈ m := by
  refine List.mem_of_mem_take (i := n + 1) ?_
  rw [← h]
  exact List.mem_cons_self

/-! ### The slots -/

/-- The parser finds no line here: the text is at its end, or at a CR. -/
def Stops (text : Bytes) : Prop := text.takeWhile (· ≠ 13) = []

/-- Of these lines the first `slots` have a colon and no CR; or no line with a colon is left
where the parser finds none. -/
def Clear : ℕ → List Bytes → Prop
  | 0, _ => True
  | _ + 1, [] => True
  | slots + 1, line :: lines =>
    (Stops line ∧ ∀ l ∈ line :: lines, 58 ∉ l) ∨
      (¬Stops line ∧ 58 ∈ line ∧ 13 ∉ line ∧ Clear slots lines)

instance (text : Bytes) : Decidable (Stops text) :=
  inferInstanceAs (Decidable (text.takeWhile (· ≠ 13) = []))

instance Clear.decidable : ∀ slots lines, Decidable (Clear slots lines)
  | 0, _ => .isTrue trivial
  | _ + 1, [] => .isTrue trivial
  | slots + 1, line :: lines =>
    have := Clear.decidable slots lines
    inferInstanceAs (Decidable ((Stops line ∧ ∀ l ∈ line :: lines, 58 ∉ l) ∨
      (¬Stops line ∧ 58 ∈ line ∧ 13 ∉ line ∧ Clear slots lines)))

lemma headerLines_stop {turns : ℕ} {text : Bytes} (h : Stops text) : headerLines turns text = [] := by
  cases turns with
  | zero => rfl
  | succ turns =>
    unfold Stops at h
    simp only [headerLines, h, if_true]

lemma headerLines_first {turns : ℕ} {text : Bytes} (hlength : text.length ≤ turns)
    (h : ¬Stops text) : ∃ turns', turns = turns' + 1 ∧
      headerLines turns text = text.takeWhile (· ≠ 13) ::
        headerLines turns' (text.drop ((text.takeWhile (· ≠ 13)).length + 2)) := by
  cases turns with
  | zero =>
    obtain rfl := List.eq_nil_of_length_eq_zero (Nat.le_zero.mp hlength)
    exact absurd rfl h
  | succ turns =>
    unfold Stops at h
    exact ⟨turns, rfl, by simp only [headerLines, h, if_false]⟩

/-- The first lines that the parser finds are the first ones with a colon, at their places,
exactly when the lines are clear. -/
theorem slots_iff (slots : ℕ) {turns start : ℕ} {text : Bytes} (hlength : text.length ≤ turns) :
    (placed start (headerLines turns text)).take slots =
      ((placed start (crlfLines text)).filter hasColon).take slots ↔
      Clear slots (crlfLines text) := by
  induction slots generalizing turns start text with
  | zero => exact ⟨fun _ => trivial, fun _ => by rw [List.take_zero, List.take_zero]⟩
  | succ slots ih =>
    obtain ⟨line, lines, heq, -⟩ := crlfLines_cases text
    have hfirst := takeWhile_first heq
    have hstops : Stops text ↔ Stops line := by
      unfold Stops
      rw [hfirst]
    rw [heq, Clear]
    by_cases hstop : Stops line
    · have hnone : ¬(¬Stops line ∧ 58 ∈ line ∧ 13 ∉ line ∧ Clear slots lines) := fun h => h.1 hstop
      rw [headerLines_stop (hstops.mpr hstop), ← @filter_placed_eq_nil start (line :: lines),
        or_iff_left hnone, and_iff_right hstop, placed, List.take_nil, eq_comm,
        List.take_eq_nil_iff, or_iff_right (Nat.succ_ne_zero slots)]
    · obtain ⟨turns, rfl, hlines⟩ := headerLines_first hlength (hstops.not.mpr hstop)
      have hleft : ¬(Stops line ∧ ∀ l ∈ line :: lines, 58 ∉ l) := fun h => hstop h.1
      rw [hlines, hfirst, or_iff_right hleft, and_iff_right hstop, placed]
      by_cases hgood : 58 ∈ line ∧ 13 ∉ line
      · obtain ⟨hcolon, hcr⟩ := hgood
        have hkept : hasColon (start, line) = true := hasColon_iff.mpr hcolon
        rw [takeWhile_no_cr hcr, placed, List.filter_cons_of_pos hkept, List.take_succ_cons,
          List.take_succ_cons, List.cons.injEq, and_iff_right rfl, and_iff_right hcolon, and_iff_right hcr]
        rcases drop_first heq with ⟨rfl, hdrop⟩ | ⟨hrest, hshorter⟩
        · rw [hdrop, headerLines_stop (show Stops [] from rfl), placed, List.filter_nil]
          cases slots <;> exact ⟨fun _ => trivial, fun _ => rfl⟩
        · rw [hrest]
          exact ih (by omega)
      · refine ⟨fun h => ?_, fun h => absurd ⟨h.1, h.2.1⟩ hgood⟩
        -- the parser's line would have to be a line of the head, at the same place
        obtain ⟨hplaced, hcolon⟩ := List.mem_filter.mp (mem_of_take_eq h)
        rw [placed] at hplaced
        rcases List.mem_cons.mp hplaced with hsame | hlater
        · have hwhole := (Prod.mk.inj hsame).2
          refine absurd ⟨?_, fun hcr => ?_⟩ hgood
          · rw [← hwhole]
            exact hasColon_iff.mp hcolon
          · rw [← hwhole] at hcr
            simpa using List.mem_takeWhile_imp hcr
        · have hle := le_of_mem_placed hlater
          simp only at hle
          omega

/-! ### The head -/

def slotLines (buf : Bytes) (headLen : ℕ) : List (ℕ × Bytes) :=
  let start := (buf.takeWhile (· ≠ 13)).length + 2
  (placed start (headerLines headLen ((buf.take headLen).drop start))).take maxHeaders

/-- Of the lines behind the request line the first ones with a colon. -/
def realLines (head : Bytes) : List (ℕ × Bytes) :=
  match crlfLines head with
  | [] => []
  | line :: lines => ((placed (line.length + 2) lines).filter hasColon).take maxHeaders

/-- The first line holds a CR and the parser finds nothing behind it, where there is also no
line with a colon; or it holds none and the lines behind it are clear. -/
def LinesClear (head : Bytes) : List Bytes → Prop
  | [] => False
  | line :: lines =>
    if 13 ∈ line then
      Stops (head.drop ((line.takeWhile (· ≠ 13)).length + 2)) ∧ ∀ l ∈ lines, 58 ∉ l
    else Clear maxHeaders lines

instance LinesClear.decidable (head : Bytes) : ∀ lines, Decidable (LinesClear head lines)
  | [] => .isFalse id
  | line :: lines => inferInstanceAs (Decidable (if 13 ∈ line then
      Stops (head.drop ((line.takeWhile (· ≠ 13)).length + 2)) ∧ ∀ l ∈ lines, 58 ∉ l
    else Clear maxHeaders lines))

/-- The first line is the request line. -/
def HeadClear (head : Bytes) : Prop := LinesClear head (crlfLines head)

instance (head : Bytes) : Decidable (HeadClear head) :=
  LinesClear.decidable head (crlfLines head)

lemma blank_at_headEnd {buf : Bytes} {headLen : ℕ} (h : headEnd buf = some headLen) :
    blankLine <+: buf.drop headLen := by
  induction buf generalizing headLen with
  | nil => cases h
  | cons c rest ih =>
    unfold headEnd at h
    split_ifs at h with hblank
    · obtain rfl := Option.some.inj h
      exact hblank
    · obtain ⟨n, hn, rfl⟩ := Option.map_eq_some_iff.mp h
      exact ih hn

lemma requestParse_ok {buf : Bytes} {request : Request} {headLen : ℕ}
    (h : requestParse buf = .ok (request, headLen + 4)) :
    headEnd buf = some headLen ∧
      ∃ parsed, parseRequestLine (buf.takeWhile (· ≠ 13)) = .ok parsed ∧
        request = { parsed with
          headers := (slotLines buf headLen).map fun l => parseHeaderLine l.2 } := by
  unfold requestParse at h
  split at h
  · cases h
  · next n hend =>
    simp only at h
    split at h
    · cases h
    · next parsed hparsed =>
      obtain ⟨rfl, hlen⟩ := Prod.mk.inj (Except.ok.inj h)
      obtain rfl : n = headLen := by omega
      refine ⟨hend, parsed, hparsed, ?_⟩
      unfold slotLines
      rw [← List.map_take, ← placed_snd ((buf.takeWhile (· ≠ 13)).length + 2)
        (headerLines n _), ← List.map_take, List.map_map]
      rfl

/-- The parser's request line is the first line of the head, up to a CR in it. -/
lemma takeWhile_head {buf line : Bytes} {lines : List Bytes} {headLen : ℕ}
    (h : headEnd buf = some headLen) (heq : crlfLines (buf.take headLen) = line :: lines) :
    buf.takeWhile (· ≠ 13) = line.takeWhile (· ≠ 13) := by
  obtain ⟨rest, hrest⟩ := blank_at_headEnd h
  have hbuf : buf = buf.take headLen ++ 13 :: 10 :: 13 :: 10 :: rest := by
    rw [show (13 : UInt8) :: 10 :: 13 :: 10 :: rest = buf.drop headLen from hrest,
      List.take_append_drop]
  rw [hbuf, takeWhile_before, takeWhile_first heq]

lemma slotLines_iff {buf : Bytes} {headLen : ℕ} (h : headEnd buf = some headLen) :
    slotLines buf headLen = realLines (buf.take headLen) ↔ HeadClear (buf.take headLen) := by
  obtain ⟨line, lines, heq, -⟩ := crlfLines_cases (buf.take headLen)
  have hline := takeWhile_head h heq
  have hlength : (buf.take headLen).length ≤ headLen := List.length_take_le _ _
  unfold slotLines realLines HeadClear LinesClear
  simp only [heq, hline]
  by_cases hcr : 13 ∈ line
  · rw [if_pos hcr]
    have hshort : (line.takeWhile (· ≠ 13)).length < line.length := by
      by_contra hlong
      refine absurd hcr (takeWhile_whole_no_cr (List.takeWhile_sublist _ |>.eq_of_length_le ?_))
      omega
    set start := (line.takeWhile (· ≠ 13)).length + 2 with hstart
    by_cases hstop : Stops ((buf.take headLen).drop start)
    · rw [headerLines_stop hstop, and_iff_right hstop, ← @filter_placed_eq_nil (line.length + 2),
        placed, List.take_nil, eq_comm, List.take_eq_nil_iff, or_iff_right (by decide)]
    · refine ⟨fun h => ?_, fun h => absurd h.1 hstop⟩
      have hdropped : ((buf.take headLen).drop start).length ≤ headLen := by
        rw [List.length_drop]
        omega
      obtain ⟨turns, -, hlines⟩ := headerLines_first hdropped hstop
      rw [hlines, placed] at h
      have hle := le_of_mem_placed (List.mem_of_mem_filter (mem_of_take_eq (n := 15) h))
      simp only at hle
      omega
  · rw [if_neg hcr, takeWhile_no_cr hcr]
    rcases drop_first heq with ⟨rfl, hdrop⟩ | ⟨hlines, hshorter⟩
    · rw [hdrop, headerLines_stop (show Stops [] from rfl)]
      exact ⟨fun _ => trivial, fun _ => rfl⟩
    · rw [hlines]
      exact slots_iff maxHeaders (by omega)

/-! ### The headers -/

def keptName (line : Bytes) : Bytes := cut headerNameMax (line.takeWhile (· ≠ 58))

/-- Without leading blanks. -/
def keptValue (line : Bytes) : Bytes :=
  cut headerValueMax (((line.dropWhile (· ≠ 58)).drop 1).dropWhile fun c => c = 32 || c = 9)

def realHeader (line : Bytes) : Header := { name := keptName line, value := keptValue line }

lemma parseHeaderLine_eq_iff {line : Bytes} (h : 58 ∈ line) :
    parseHeaderLine line = realHeader line ↔ 0 ∉ keptName line ∧ 0 ∉ keptValue line := by
  have hparse : parseHeaderLine line =
      { name := cstr (keptName line), value := cstr (keptValue line) } := by
    unfold parseHeaderLine
    rw [if_pos h]
    rfl
  rw [hparse, realHeader, Header.mk.injEq, cstr_eq_self_iff, cstr_eq_self_iff]

lemma hasColon_of_real {head : Bytes} {l : ℕ × Bytes} (h : l ∈ realLines head) : 58 ∈ l.2 := by
  unfold realLines at h
  split at h
  · cases h
  · exact hasColon_iff.mp (List.mem_filter.mp (List.mem_of_mem_take h)).2

/-- The headers are those of the first 16 header lines with a colon, each taken from its own
line, and a request that may pass has its Host among these lines, and its token there or in
the query. -/
structure RealHeaders (buf : Bytes) (headLen : ℕ) (request : Request) : Prop where
  own : slotLines buf headLen = realLines (buf.take headLen)
  headers : request.headers = (realLines (buf.take headLen)).map fun l => realHeader l.2
  host : ∀ (ρ : Type) (app : App ρ), requestIsAuthorized app request →
    ∃ l ∈ realLines (buf.take headLen), equalsCi (keptName l.2) (ascii "Host") ∧
      (keptValue l.2 = app.expectedHost ∨ keptValue l.2 = app.expectedHostLocalhost)
  token : ∀ (ρ : Type) (app : App ρ), requestIsAuthorized app request →
    (∃ l ∈ realLines (buf.take headLen),
      equalsCi (keptName l.2) (ascii "X-USBSentinel-Token") ∧ keptValue l.2 = app.token) ∨
    queryGet (ascii "token") 128 request.query = some app.token

/-- No header name or value that is kept holds a NUL. -/
def NoNul (head : Bytes) : Prop :=
  ∀ l ∈ realLines head, 0 ∉ keptName l.2 ∧ 0 ∉ keptValue l.2

instance (head : Bytes) : Decidable (NoNul head) :=
  inferInstanceAs (Decidable (∀ l ∈ realLines head, 0 ∉ keptName l.2 ∧ 0 ∉ keptValue l.2))

lemma requestHeader_line {request : Request} {name value : Bytes} {lines : List (ℕ × Bytes)}
    (hheaders : request.headers = lines.map fun l => realHeader l.2)
    (h : requestHeader request name = some value) :
    ∃ l ∈ lines, equalsCi (keptName l.2) name ∧ keptValue l.2 = value := by
  obtain ⟨header, hfind, hvalue⟩ := Option.map_eq_some_iff.mp h
  have hname := List.find?_some hfind
  have hmem := List.mem_of_find?_eq_some hfind
  rw [hheaders] at hmem
  obtain ⟨l, hl, rfl⟩ := List.mem_map.mp hmem
  exact ⟨l, hl, hname, hvalue⟩

lemma authorized_parts {ρ : Type} {app : App ρ} {request : Request}
    (h : requestIsAuthorized app request = true) :
    (∃ host, requestHeader request (ascii "Host") = some host ∧
      (host = app.expectedHost ∨ host = app.expectedHostLocalhost)) ∧
    (requestHeader request (ascii "X-USBSentinel-Token") = some app.token ∨
      queryGet (ascii "token") 128 request.query = some app.token) := by
  unfold requestIsAuthorized at h
  split at h
  · cases h
  · next host hhost =>
    split_ifs at h with hwrong htoken
    · exact ⟨⟨host, hhost, by tauto⟩, .inl htoken⟩
    · exact ⟨⟨host, hhost, by tauto⟩, .inr (of_decide_eq_true h)⟩

theorem requestParse_realHeaders_iff {buf : Bytes} {request : Request} {headLen : ℕ}
    (h : requestParse buf = .ok (request, headLen + 4)) :
    RealHeaders buf headLen request ↔
      HeadClear (buf.take headLen) ∧ NoNul (buf.take headLen) := by
  obtain ⟨hend, parsed, -, hrequest⟩ := requestParse_ok h
  have hheaders := congrArg Request.headers hrequest
  constructor
  · intro hreal
    refine ⟨(slotLines_iff hend).mp hreal.own, fun l hl => ?_⟩
    have hsame := hreal.headers
    rw [hheaders, hreal.own] at hsame
    exact (parseHeaderLine_eq_iff (hasColon_of_real hl)).mp (List.map_inj_left.mp hsame l hl)
  · rintro ⟨hclear, hnul⟩
    have hown := (slotLines_iff hend).mpr hclear
    have hreal : request.headers =
        (realLines (buf.take headLen)).map fun l => realHeader l.2 := by
      rw [hheaders, hown]
      refine List.map_congr_left fun l hl => ?_
      exact (parseHeaderLine_eq_iff (hasColon_of_real hl)).mpr (hnul l hl)
    refine ⟨hown, hreal, fun ρ app hauth => ?_, fun ρ app hauth => ?_⟩
    · obtain ⟨⟨host, hhost, hvalue⟩, -⟩ := authorized_parts hauth
      obtain ⟨l, hl, hname, rfl⟩ := requestHeader_line hreal hhost
      exact ⟨l, hl, hname, hvalue⟩
    · rcases (authorized_parts hauth).2 with htoken | hquery
      · exact .inl (requestHeader_line hreal htoken)
      · exact .inr hquery

def plainBuf : Bytes :=
  ascii "GET / HTTP/1.1\r\nHost: 127.0.0.1:1\r\nX-USBSentinel-Token: t\r\n\r\n"

def plainRequest : Request where
  method := ascii "GET"
  path := ascii "/"
  headers := [⟨ascii "Host", ascii "127.0.0.1:1"⟩, ⟨ascii "X-USBSentinel-Token", ascii "t"⟩]

theorem plain_realHeaders : RealHeaders plainBuf 57 plainRequest :=
  (requestParse_realHeaders_iff (by decide +kernel)).mpr ⟨by decide +kernel, by decide +kernel⟩

/-- One header line without a colon, and one with a CR of its own. -/
def strayBuf : Bytes :=
  ascii "GET /?token=t HTTP/1.1\r\nplain\r\nX: a\rZHost: 127.0.0.1:1\r\n\r\n"

def strayRequest : Request where
  method := ascii "GET"
  path := ascii "/"
  query := ascii "token=t"
  headers := [{}, ⟨ascii "X", ascii "a"⟩, ⟨ascii "Host", ascii "127.0.0.1:1"⟩]

theorem stray_host : requestParse strayBuf = .ok (strayRequest, 58) ∧
    realLines (strayBuf.take 54) = [(31, ascii "X: a\rZHost: 127.0.0.1:1")] ∧
    requestIsAuthorized (@App.create Unit (ascii "t") 1) strayRequest = true ∧
    ¬RealHeaders strayBuf 54 strayRequest := by
  have hlines : realLines (strayBuf.take 54) = [(31, ascii "X: a\rZHost: 127.0.0.1:1")] := by
    decide +kernel
  refine ⟨by decide +kernel, hlines, by decide +kernel, fun h => ?_⟩
  have hheaders := h.headers
  rw [hlines] at hheaders
  exact absurd (congrArg List.length hheaders) (by decide)

end UsbSentinel.Http
