import UsbSentinel.HashListed
import UsbSentinel.WebPicked
import UsbSentinel.WebToken

/-! The launch: a random token, the URL that carries it, and the browser's first request. Only the
server that printed the URL answers it with the page. -/
namespace UsbSentinel.Http
open ByteString HttpMessage

/-! ### Heads made of lines -/

/-- Lines with line ends between them. -/
def headText : List Bytes → Bytes
  | [] => []
  | [line] => line
  | line :: next :: rest => line ++ crlf ++ headText (next :: rest)

/-- Lines that end where they seem to. -/
def PlainLines (lines : List Bytes) : Prop := ∀ line ∈ lines, line ≠ [] ∧ (13 : UInt8) ∉ line

lemma headEnd_line {line : Bytes} (h : (13 : UInt8) ∉ line) (text : Bytes) :
    headEnd (line ++ text) = (headEnd text).map (· + line.length) := by
  induction line with
  | nil => simp
  | cons c line ih =>
    have hc : ¬ blankLine <+: c :: (line ++ text) := by
      intro hp
      exact List.ne_of_not_mem_cons h (List.cons_prefix_cons.mp hp).1
    rw [List.cons_append, headEnd_cons, if_neg hc, ih (List.not_mem_of_not_mem_cons h),
      Option.map_map]
    rfl

lemma headEnd_crlf {c : UInt8} (hc : c ≠ 13) (text : Bytes) :
    headEnd (crlf ++ c :: text) = (headEnd (c :: text)).map (· + 2) := by
  have hfirst : ¬ blankLine <+: 13 :: 10 :: c :: text := by
    intro hp
    have hthird := (List.cons_prefix_cons.mp (List.cons_prefix_cons.mp hp).2).2
    exact hc (List.cons_prefix_cons.mp hthird).1.symm
  have hsecond : ¬ blankLine <+: 10 :: c :: text := by
    intro hp
    exact absurd (List.cons_prefix_cons.mp hp).1 (by decide)
  rw [crlf, List.cons_append, List.cons_append, List.nil_append, headEnd_cons, if_neg hfirst,
    headEnd_cons, if_neg hsecond, Option.map_map]
  rfl

lemma headEnd_headText {line : Bytes} {lines : List Bytes} (h : PlainLines (line :: lines))
    (body : Bytes) :
    headEnd (headText (line :: lines) ++ crlf ++ crlf ++ body) =
      some (headText (line :: lines)).length := by
  induction lines generalizing line with
  | nil =>
    have hblank : headEnd (crlf ++ crlf ++ body) = some 0 := if_pos (List.prefix_append _ _)
    rw [headText, List.append_assoc, List.append_assoc,
      headEnd_line (h line (List.mem_cons_self ..)).2, ← List.append_assoc, hblank]
    simp
  | cons next rest ih =>
    have hrest : PlainLines (next :: rest) := fun l hl => h l (List.mem_cons_of_mem _ hl)
    obtain ⟨hne, hcr⟩ := hrest next (List.mem_cons_self ..)
    obtain ⟨c, tail, hnext⟩ := List.exists_cons_of_ne_nil hne
    have hc : c ≠ 13 := fun he => hcr (by rw [hnext, he]; exact List.mem_cons_self ..)
    obtain ⟨more, hmore⟩ : ∃ more, headText (next :: rest) ++ crlf ++ crlf ++ body = c :: more := by
      cases rest with
      | nil => exact ⟨tail ++ crlf ++ crlf ++ body, by rw [headText, hnext]; rfl⟩
      | cons third rest =>
        exact ⟨tail ++ crlf ++ headText (third :: rest) ++ crlf ++ crlf ++ body, by
          rw [headText, hnext]; rfl⟩
    have htext : headText (line :: next :: rest) ++ crlf ++ crlf ++ body =
        line ++ (crlf ++ (headText (next :: rest) ++ crlf ++ crlf ++ body)) := by
      rw [headText]
      simp only [List.append_assoc]
    rw [htext, headEnd_line (h line (List.mem_cons_self ..)).2, hmore, headEnd_crlf hc, ← hmore,
      ih hrest]
    simp only [Option.map_some, headText, List.length_append]
    congr 1
    rw [show crlf.length = 2 from rfl]
    omega

lemma headerLines_headText {lines : List Bytes} (h : PlainLines lines) {turns : ℕ}
    (hturns : (headText lines).length ≤ turns) : headerLines turns (headText lines) = lines := by
  induction lines generalizing turns with
  | nil => exact headerLines_stop (show Stops [] from rfl)
  | cons line rest ih =>
    obtain ⟨hne, hcr⟩ := h line (List.mem_cons_self ..)
    have hpos := List.length_pos_of_ne_nil hne
    have hrest : PlainLines rest := fun l hl => h l (List.mem_cons_of_mem _ hl)
    obtain ⟨turns, rfl⟩ : ∃ n, turns = n + 1 := by
      refine ⟨turns - 1, ?_⟩
      have hle : line.length ≤ (headText (line :: rest)).length := by
        cases rest with
        | nil => rw [headText]
        | cons next rest =>
          rw [headText]
          simp only [List.length_append]
          omega
      omega
    cases rest with
    | nil =>
      have hline : (headText [line]).takeWhile (· ≠ 13) = line := takeWhile_no_cr hcr
      have hover : (headText [line]).drop (line.length + 2) = [] :=
        List.drop_eq_nil_of_le (by rw [headText]; omega)
      simp only [headerLines, hline, if_neg hne, hover]
      rw [headerLines_stop (show Stops [] from rfl)]
    | cons next rest =>
      have htext : headText (line :: next :: rest) =
          line ++ 13 :: 10 :: headText (next :: rest) := by
        rw [headText, List.append_assoc]
        rfl
      have hline : (headText (line :: next :: rest)).takeWhile (· ≠ 13) = line := by
        rw [htext, takeWhile_before, takeWhile_no_cr hcr]
      have hdrop : (headText (line :: next :: rest)).drop (line.length + 2) =
          headText (next :: rest) := by
        rw [htext, ← List.drop_drop, List.drop_left]
        rfl
      have hshort : (headText (next :: rest)).length ≤ turns := by
        rw [htext] at hturns
        simp only [List.length_append, List.length_cons] at hturns
        omega
      simp only [headerLines, hline, if_neg hne, hdrop]
      rw [ih hrest hshort]

/-- A head of plain lines is parsed line by line. -/
lemma requestParse_headText {line : Bytes} {lines : List Bytes} {request : Request}
    (h : PlainLines (line :: lines)) (hline : parseRequestLine line = .ok request) (body : Bytes) :
    requestParse (headText (line :: lines) ++ crlf ++ crlf ++ body) =
      .ok ({ request with headers := (lines.map parseHeaderLine).take maxHeaders },
        (headText (line :: lines)).length + 4) := by
  have hcr := (h line (List.mem_cons_self ..)).2
  have hrest : PlainLines lines := fun l hl => h l (List.mem_cons_of_mem _ hl)
  have htake : (headText (line :: lines) ++ crlf ++ crlf ++ body).take
      (headText (line :: lines)).length = headText (line :: lines) := by
    rw [List.append_assoc, List.append_assoc, List.take_left]
  have hdrop : (headText (line :: lines)).drop (line.length + 2) = headText lines := by
    cases lines with
    | nil => exact List.drop_eq_nil_of_le (by rw [headText]; omega)
    | cons next rest =>
      rw [headText, List.append_assoc, ← List.drop_drop, List.drop_left]
      rfl
  have hfirst : (headText (line :: lines) ++ crlf ++ crlf ++ body).takeWhile (· ≠ 13) = line := by
    obtain ⟨more, hmore⟩ : ∃ more, headText (line :: lines) ++ crlf ++ crlf ++ body =
        line ++ 13 :: more := by
      cases lines with
      | nil => exact ⟨10 :: crlf ++ body, by rw [headText]; simp [crlf]⟩
      | cons next rest =>
        exact ⟨10 :: headText (next :: rest) ++ crlf ++ crlf ++ body, by
          rw [headText]; simp [crlf]⟩
    rw [hmore, takeWhile_before, takeWhile_no_cr hcr]
  unfold requestParse
  simp only [headEnd_headText h, hfirst, hline, htake, hdrop]
  rw [headerLines_headText hrest]
  rw [← hdrop, List.length_drop]
  omega

/-! ### A request for the page -/

/-- The first line of a request for the page. -/
def pageLine (query : Bytes) : Bytes := ascii "GET /?" ++ query ++ ascii " HTTP/1.1"

lemma pageLine_plain {query : Bytes} (hquery : ∀ c ∈ query, isQueryByte c = true) :
    ∀ c ∈ pageLine query, c ≠ 0 ∧ c ≠ 13 := by
  have hfixed : ∀ c ∈ ascii "GET /?" ++ ascii " HTTP/1.1", c ≠ 0 ∧ c ≠ 13 := by
    decide +kernel
  intro c hc
  rcases List.mem_append.mp hc with hc | hc
  · rcases List.mem_append.mp hc with hc | hc
    · exact hfixed c (List.mem_append_left _ hc)
    · exact (isQueryByte_plain c (hquery c hc)).2.2
  · exact hfixed c (List.mem_append_right _ hc)

lemma parseRequestLine_page {query : Bytes} (hquery : ∀ c ∈ query, isQueryByte c = true)
    (hlength : query.length < queryMax) :
    parseRequestLine (pageLine query) =
      .ok { method := ascii "GET", path := ascii "/", query } := by
  have hcstr : cstr (pageLine query) = pageLine query :=
    cstr_eq_self fun h => (pageLine_plain hquery 0 h).1 rfl
  have htarget : ∀ c ∈ ascii "/?" ++ query, isWhite c = false := by
    have hfixed : ∀ c ∈ ascii "/?", isWhite c = false := by decide +kernel
    intro c hc
    rcases List.mem_append.mp hc with hc | hc
    · exact hfixed c hc
    · exact (isQueryByte_plain c (hquery c hc)).1
  have hsplit : pageLine query =
      ascii "GET" ++ 32 :: (ascii "/?" ++ query ++ 32 :: ascii "HTTP/1.1") := by
    simp [pageLine, ascii]
  have hshort : (ascii "/?" ++ query).length ≤ 511 := by
    rw [List.length_append, show (ascii "/?").length = 2 from rfl]
    unfold queryMax at hlength
    omega
  have hfits : (pageLine query).length < requestLineMax := by
    rw [hsplit]
    simp only [List.length_append, List.length_cons, show (ascii "GET").length = 3 from rfl,
      show (ascii "/?").length = 2 from rfl, show (ascii "HTTP/1.1").length = 8 from rfl]
    unfold queryMax at hlength
    unfold requestLineMax methodMax pathMax queryMax
    omega
  have hmethod : scanWord 7 (pageLine query) =
      some (ascii "GET", 32 :: (ascii "/?" ++ query ++ 32 :: ascii "HTTP/1.1")) := by
    rw [hsplit, scanWord_word (by decide) (by simp [ascii]) (by decide +kernel)]
    rfl
  have hscan := @scanWord_word 511 (ascii "/?" ++ query) (ascii "HTTP/1.1") (by decide)
    (by simp [ascii]) htarget
  rw [List.take_of_length_le hshort, List.drop_eq_nil_of_le hshort, List.nil_append] at hscan
  have hversion : (scanWord 31 (32 :: ascii "HTTP/1.1")).isSome = true := by decide
  obtain ⟨version, hversion⟩ := Option.isSome_iff_exists.mp hversion
  have hpath : (ascii "/?" ++ query).takeWhile (· ≠ 63) = ascii "/" := rfl
  have hbehind : ((ascii "/?" ++ query).dropWhile (· ≠ 63)).drop 1 = query := rfl
  unfold parseRequestLine
  rw [if_neg (by omega), hcstr, hmethod]
  simp only
  rw [scanWord_blank (by decide), hscan]
  simp only [hversion, hpath, hbehind]
  rw [cut_eq_self (b := query) hlength]
  rfl

/-- A name and a value that stay what they are in a line of a head. -/
structure PlainField (field : Bytes × Bytes) : Prop where
  name : field.1 ≠ [] ∧ (58 : UInt8) ∉ field.1 ∧ (13 : UInt8) ∉ field.1 ∧ (0 : UInt8) ∉ field.1
  value : (13 : UInt8) ∉ field.2 ∧ (0 : UInt8) ∉ field.2

def fieldLine (field : Bytes × Bytes) : Bytes := field.1 ++ ascii ": " ++ field.2

lemma PlainField.line {field : Bytes × Bytes} (h : PlainField field) :
    fieldLine field ≠ [] ∧ (13 : UInt8) ∉ fieldLine field ∧ (0 : UInt8) ∉ fieldLine field := by
  have hmark : (13 : UInt8) ∉ ascii ": " ∧ (0 : UInt8) ∉ ascii ": " := by decide
  refine ⟨by simp [fieldLine, h.name.1], ?_, ?_⟩
  · simp [fieldLine, h.name.2.2.1, hmark.1, h.value.1]
  · simp [fieldLine, h.name.2.2.2, hmark.2, h.value.2]

lemma parseHeaderLine_field {field : Bytes × Bytes} (h : PlainField field) :
    parseHeaderLine (fieldLine field) =
      { name := cut headerNameMax field.1
        value := cut headerValueMax (field.2.dropWhile fun c => c = 32 || c = 9) } := by
  have hsplit : fieldLine field = field.1 ++ 58 :: 32 :: field.2 := by
    simp [fieldLine, ascii]
  have hname : (fieldLine field).takeWhile (· ≠ 58) = field.1 := by
    rw [hsplit]
    exact (takeWhile_to h.name.2.1 _).1
  have hdrop : ((fieldLine field).dropWhile (· ≠ 58)).drop 1 = 32 :: field.2 := by
    rw [hsplit, (takeWhile_to h.name.2.1 _).2]
    rfl
  have hcolon : (58 : UInt8) ∈ fieldLine field := by
    rw [hsplit]
    simp
  have hno : ∀ {text part : Bytes}, (0 : UInt8) ∉ text → part <:+: text → cstr part = part :=
    fun hnul hpart => cstr_eq_self fun hmem => hnul (hpart.subset hmem)
  unfold parseHeaderLine
  simp only [if_pos hcolon, hname, hdrop]
  rw [hno h.name.2.2.2 (cut_isInfix _ _)]
  rw [List.dropWhile_cons_of_pos (by decide)]
  rw [hno h.value.2 ((cut_isInfix _ _).trans (List.dropWhile_suffix _).isInfix)]

/-- A short name is found only where it stands in full. -/
lemma parseHeaderLine_other {field : Bytes × Bytes} (h : PlainField field) {name : Bytes}
    (hname : name.length + 1 < headerNameMax) (hother : equalsCi field.1 name = false) :
    equalsCi (parseHeaderLine (fieldLine field)).name name = false := by
  rw [parseHeaderLine_field h]
  by_cases hfits : field.1.length < headerNameMax
  · rw [cut_eq_self hfits]
    exact hother
  · have hlong : (cut headerNameMax field.1).length ≠ name.length := by
      rw [cut_length]
      omega
    unfold equalsCi
    rw [decide_eq_false_iff_not]
    intro hsame
    exact hlong (by simpa using congrArg List.length hsame)

end UsbSentinel.Http

namespace UsbSentinel.Web
open ByteString HttpMessage UsbSentinel.Http

variable {ρ : Type}

/-! ### The launch -/

/-- `generate_token`, on the random bytes it is given. -/
def generateToken (raw : Bytes) : Bytes := lowerHex raw

/-- The URL that `main` prints and hands to the browser. -/
def launchUrl (port : ℕ) (token : Bytes) : Bytes :=
  cut 256 (ascii "http://127.0.0.1:" ++ decimal port ++ ascii "/?token=" ++ token)

/-- What is behind the scheme of a URL, up to its path. -/
def authorityOf (url : Bytes) : Bytes := (url.drop 7).takeWhile (· ≠ 47)

def targetOf (url : Bytes) : Bytes := (url.drop 7).dropWhile (· ≠ 47)

/-- What a browser that is given the URL sends, with whatever else it has to say in fields. -/
def browserRequest (url : Bytes) (fields : List (Bytes × Bytes)) : Bytes :=
  headText ((ascii "GET " ++ targetOf url ++ ascii " HTTP/1.1") ::
    fieldLine (ascii "Host", authorityOf url) :: fields.map fieldLine) ++ crlf ++ crlf

/-- Fields that a request for a page has: no body is announced, no token is sent. -/
def PageFields (fields : List (Bytes × Bytes)) : Prop :=
  ∀ field ∈ fields, PlainField field ∧ equalsCi field.1 (ascii "Content-Length") = false ∧
    equalsCi field.1 (ascii "X-USBSentinel-Token") = false

lemma generateToken_length (raw : Bytes) : (generateToken raw).length = 2 * raw.length := by
  simp [generateToken, lowerHex, List.length_flatMap, Nat.mul_comm]

lemma hexLower_safe {n : UInt8} (h : n.toNat < 16) : Store.isSafe (hexLower n) = true := by
  have hdigits : ∀ c ∈ ascii "0123456789abcdef", Store.isSafe c = true := by decide +kernel
  have hin : n.toNat < (ascii "0123456789abcdef").length := h
  rw [hexLower, List.getD_eq_getElem _ _ hin]
  exact hdigits _ (List.getElem_mem hin)

lemma generateToken_safe (raw : Bytes) : ∀ c ∈ generateToken raw, Store.isSafe c = true := by
  have hhalves : ∀ b : UInt8, ((b >>> 4) &&& 0x0F).toNat < 16 ∧ (b &&& 0x0F).toNat < 16 := by
    decide +kernel
  intro c hc
  obtain ⟨b, _, hc⟩ := List.mem_flatMap.mp hc
  simp only [List.mem_cons, List.not_mem_nil, or_false] at hc
  rcases hc with rfl | rfl
  · exact hexLower_safe (hhalves b).1
  · exact hexLower_safe (hhalves b).2

/-! ### What the browser sends -/

def hostOf (port : ℕ) : Bytes := ascii "127.0.0.1:" ++ decimal port

lemma hostOf_plain (port : ℕ) : ∀ c ∈ hostOf port, c ≠ 47 ∧ c ≠ 13 ∧ c ≠ 0 ∧ c ≠ 32 ∧ c ≠ 9 := by
  have hfixed : ∀ c ∈ ascii "127.0.0.1:", c ≠ 47 ∧ c ≠ 13 ∧ c ≠ 0 ∧ c ≠ 32 ∧ c ≠ 9 := by
    decide +kernel
  have hdigit : ∀ c : UInt8, 48 ≤ c ∧ c ≤ 57 → c ≠ 47 ∧ c ≠ 13 ∧ c ≠ 0 ∧ c ≠ 32 ∧ c ≠ 9 := by
    decide +kernel
  intro c hc
  rcases List.mem_append.mp hc with hc | hc
  · exact hfixed c hc
  · exact hdigit c (decimal_digit hc)

lemma hostOf_length {port : ℕ} (hport : port < 65536) : (hostOf port).length ≤ 15 := by
  have hdigits : (decimal port).length ≤ 5 := by
    rw [decimal, List.length_map]
    exact Nat.toDigits_length 10 port 5 (by omega) (by omega)
  rw [hostOf, List.length_append, show (ascii "127.0.0.1:").length = 10 from rfl]
  omega

/-- The buffer holds the whole URL. -/
lemma launchUrl_whole {port : ℕ} (hport : port < 65536) {token : Bytes}
    (htoken : token.length < 128) :
    launchUrl port token = ascii "http://" ++ (hostOf port ++ (ascii "/?token=" ++ token)) := by
  have hhost := hostOf_length hport
  have hparts : ascii "http://127.0.0.1:" ++ decimal port ++ ascii "/?token=" ++ token =
      ascii "http://" ++ (hostOf port ++ (ascii "/?token=" ++ token)) := by
    simp [hostOf, ascii]
  unfold launchUrl
  rw [hparts]
  apply cut_eq_self
  simp only [List.length_append, show (ascii "http://").length = 7 from rfl,
    show (ascii "/?token=").length = 8 from rfl]
  omega

lemma launchUrl_parts {port : ℕ} (hport : port < 65536) {token : Bytes}
    (htoken : token.length < 128) :
    authorityOf (launchUrl port token) = hostOf port ∧
      targetOf (launchUrl port token) = ascii "/?token=" ++ token := by
  have hdrop : (launchUrl port token).drop 7 = hostOf port ++ 47 :: (ascii "?token=" ++ token) := by
    rw [launchUrl_whole hport htoken, List.drop_append_of_le_length (by simp [ascii])]
    rfl
  have hmark : (47 : UInt8) ∉ hostOf port := fun h => (hostOf_plain port 47 h).1 rfl
  unfold authorityOf targetOf
  rw [hdrop]
  refine ⟨(takeWhile_to hmark _).1, ?_⟩
  rw [(takeWhile_to hmark _).2]
  rfl

lemma hostField_plain (port : ℕ) : PlainField (ascii "Host", hostOf port) where
  name := by
    have hfixed : ascii "Host" ≠ [] ∧ (58 : UInt8) ∉ ascii "Host" ∧ (13 : UInt8) ∉ ascii "Host" ∧
        (0 : UInt8) ∉ ascii "Host" := by decide
    exact hfixed
  value := ⟨fun h => (hostOf_plain port 13 h).2.1 rfl, fun h => (hostOf_plain port 0 h).2.2.1 rfl⟩

/-- The query of the launch URL. -/
def tokenQuery (token : Bytes) : Bytes := ascii "token=" ++ token

lemma tokenQuery_plain {token : Bytes} (h : ∀ c ∈ token, Store.isSafe c = true) :
    ∀ c ∈ tokenQuery token, isQueryByte c = true := by
  have hfixed : ∀ c ∈ ascii "token=", isQueryByte c = true := by decide +kernel
  intro c hc
  rcases List.mem_append.mp hc with hc | hc
  · exact hfixed c hc
  · exact (safe_ne c (h c hc)).1

lemma queryGet_token {token : Bytes} (h : ∀ c ∈ token, Store.isSafe c = true)
    (hlength : token.length < 128) :
    queryGet (ascii "token") 128 (tokenQuery token) = some token := by
  have hplain : (38 : UInt8) ∉ ascii "token" ++ 61 :: token := by
    have hfixed : (38 : UInt8) ∉ ascii "token" ++ [61] := by decide
    intro hmem
    rw [List.append_cons] at hmem
    rcases List.mem_append.mp hmem with hmem | hmem
    · exact hfixed hmem
    · exact (safe_ne 38 (h 38 hmem)).2 rfl
  have hsplit : tokenQuery token = ascii "token" ++ 61 :: token := by
    simp [tokenQuery, ascii]
  rw [hsplit, queryGet_last hplain, cut_eq_self hlength]

/-- The lines behind the first one. -/
def browserLines (port : ℕ) (fields : List (Bytes × Bytes)) : List Bytes :=
  fieldLine (ascii "Host", hostOf port) :: fields.map fieldLine

lemma browserRequest_launch {port : ℕ} (hport : port < 65536) {token : Bytes}
    (htoken : token.length < 128) (fields : List (Bytes × Bytes)) :
    browserRequest (launchUrl port token) fields =
      headText (pageLine (tokenQuery token) :: browserLines port fields) ++ crlf ++ crlf := by
  obtain ⟨hhost, htarget⟩ := launchUrl_parts hport htoken
  have hline : ascii "GET " ++ (ascii "/?token=" ++ token) ++ ascii " HTTP/1.1" =
      pageLine (tokenQuery token) := by
    simp [pageLine, tokenQuery, ascii]
  rw [browserRequest, hhost, htarget, hline]
  rfl

lemma browserLines_plain {port : ℕ} {fields : List (Bytes × Bytes)} (h : PageFields fields) :
    ∀ line ∈ browserLines port fields, line ≠ [] ∧ (13 : UInt8) ∉ line ∧ (0 : UInt8) ∉ line := by
  intro line hline
  rcases List.mem_cons.mp hline with rfl | hline
  · exact (hostField_plain port).line
  · obtain ⟨field, hfield, rfl⟩ := List.mem_map.mp hline
    exact (h field hfield).1.line

lemma headText_no {c : UInt8} (hc : c ∉ crlf) {lines : List Bytes} (h : ∀ line ∈ lines, c ∉ line) :
    c ∉ headText lines := by
  induction lines with
  | nil => exact List.not_mem_nil
  | cons line rest ih =>
    have hrest := ih fun l hl => h l (List.mem_cons_of_mem _ hl)
    have hline := h line (List.mem_cons_self ..)
    cases rest with
    | nil => exact hline
    | cons next rest =>
      rw [headText]
      simp [hline, hc, hrest]

/-- What the server reads of the browser's request. -/
def pageRequest (port : ℕ) (token : Bytes) (fields : List (Bytes × Bytes)) : Request where
  method := ascii "GET"
  path := ascii "/"
  query := tokenQuery token
  headers := ((browserLines port fields).map parseHeaderLine).take maxHeaders

lemma pageRequest_host {port : ℕ} (hport : port < 65536) (token : Bytes)
    (fields : List (Bytes × Bytes)) :
    requestHeader (pageRequest port token fields) (ascii "Host") = some (hostOf port) := by
  have hhost := hostOf_length hport
  have hstart : (hostOf port).dropWhile (fun c => c = 32 || c = 9) = hostOf port := by
    rw [List.dropWhile_eq_self_iff]
    intro hpos
    have hplain := hostOf_plain port _ (List.getElem_mem hpos)
    simp [hplain.2.2.2.1, hplain.2.2.2.2]
  have hvalue : cut headerValueMax (hostOf port) = hostOf port := by
    apply cut_eq_self
    unfold headerValueMax
    omega
  have hheader : parseHeaderLine (fieldLine (ascii "Host", hostOf port)) =
      { name := ascii "Host", value := hostOf port } := by
    rw [parseHeaderLine_field (hostField_plain port), hstart, hvalue]
    rfl
  have hfirst : (pageRequest port token fields).headers =
      { name := ascii "Host", value := hostOf port } ::
        ((fields.map fieldLine).map parseHeaderLine).take 15 := by
    simp only [pageRequest, browserLines, List.map_cons, hheader]
    rfl
  rw [requestHeader, hfirst, List.find?_cons_of_pos (by simp [equalsCi])]
  rfl

/-- A name that no field has is not found. -/
lemma pageRequest_other {port : ℕ} {token : Bytes} {fields : List (Bytes × Bytes)} {name : Bytes}
    (hlength : name.length + 1 < headerNameMax) (hhost : equalsCi (ascii "Host") name = false)
    (h : ∀ field ∈ fields, PlainField field ∧ equalsCi field.1 name = false) :
    requestHeader (pageRequest port token fields) name = none := by
  unfold requestHeader
  rw [Option.map_eq_none_iff, List.find?_eq_none]
  intro header hheader
  obtain ⟨line, hline, rfl⟩ := List.mem_map.mp (List.mem_of_mem_take hheader)
  rw [Bool.not_eq_true]
  rcases List.mem_cons.mp hline with rfl | hline
  · exact parseHeaderLine_other (hostField_plain port) hlength hhost
  · obtain ⟨field, hfield, rfl⟩ := List.mem_map.mp hline
    exact parseHeaderLine_other (h field hfield).1 hlength (h field hfield).2

/-- The browser's request is read as it is meant. -/
lemma answer_browser {port : ℕ} (hport : port < 65536) {token : Bytes}
    (hsafe : ∀ c ∈ token, Store.isSafe c = true) (htoken : token.length < 128)
    {fields : List (Bytes × Bytes)} (h : PageFields fields)
    (hsize : (browserRequest (launchUrl port token) fields).length < requestBufCap) :
    answer (browserRequest (launchUrl port token) fields) =
      .handled (pageRequest port token fields) [] := by
  have hquery := tokenQuery_plain hsafe
  have hshort : (tokenQuery token).length < queryMax := by
    rw [tokenQuery, List.length_append, show (ascii "token=").length = 6 from rfl]
    unfold queryMax
    omega
  have hpage := pageLine_plain hquery
  have hlines := @browserLines_plain port _ h
  have hplain : PlainLines (pageLine (tokenQuery token) :: browserLines port fields) := by
    intro line hline
    rcases List.mem_cons.mp hline with rfl | hline
    · exact ⟨by simp [pageLine, ascii], fun hmem => (hpage 13 hmem).2 rfl⟩
    · exact ⟨(hlines line hline).1, (hlines line hline).2.1⟩
  rw [browserRequest_launch hport htoken] at hsize ⊢
  set head := headText (pageLine (tokenQuery token) :: browserLines port fields) with hhead
  have hnul : (0 : UInt8) ∉ head ++ crlf ++ crlf := by
    have hline : (0 : UInt8) ∉ head := by
      refine headText_no (by decide) fun line hline => ?_
      rcases List.mem_cons.mp hline with rfl | hline
      · exact fun hmem => (hpage 0 hmem).1 rfl
      · exact (hlines line hline).2.2
    have hmark : (0 : UInt8) ∉ crlf := by decide
    simp [hline, hmark]
  have hend : headEnd (head ++ crlf ++ crlf) = some head.length := by
    have hwhole := headEnd_headText hplain []
    rwa [List.append_nil] at hwhole
  have hparse : requestParse (head ++ crlf ++ crlf) =
      .ok (pageRequest port token fields, head.length + 4) := by
    have hwhole := requestParse_headText hplain (parseRequestLine_page hquery hshort) []
    rwa [List.append_nil] at hwhole
  have htake : (head ++ crlf ++ crlf).take (requestBufCap - 1) = head ++ crlf ++ crlf :=
    List.take_of_length_le (by omega)
  have hnone : requestHeader (pageRequest port token fields) (ascii "Content-Length") = none :=
    pageRequest_other (by decide) (by decide) fun field hfield =>
      ⟨(h field hfield).1, (h field hfield).2.1⟩
  have hlength : (head ++ crlf ++ crlf).length = head.length + 4 := by
    simp [crlf]
  unfold answer conclude
  rw [htake, cstr_eq_self hnul, hend, hparse]
  simp only [requestContentLength, hnone, Option.isSome_some, if_true, Nat.add_zero]
  rw [if_neg (by omega), if_neg (by omega), List.take_zero]

/-- The application of the server with that port and token, whatever it has done so far. -/
structure App.IsAt (app : App ρ) (port : ℕ) (token : Bytes) : Prop where
  itsToken : app.token = (App.create token port : App ρ).token
  itsHost : app.expectedHost = (App.create token port : App ρ).expectedHost
  itsLocalhost : app.expectedHostLocalhost = (App.create token port : App ρ).expectedHostLocalhost

lemma App.create_isAt (port : ℕ) (token : Bytes) : (App.create token port : App ρ).IsAt port token :=
  ⟨rfl, rfl, rfl⟩

lemma App.IsAt.requestCancel {app : App ρ} {port : ℕ} {token : Bytes} (h : app.IsAt port token) :
    app.requestCancel.IsAt port token := by
  unfold App.requestCancel
  split_ifs
  · exact ⟨h.itsToken, h.itsHost, h.itsLocalhost⟩
  · exact h

/-- No request changes where the application is. -/
lemma App.IsAt.handled {app : App ρ} {port : ℕ} {token : Bytes} (h : app.IsAt port token)
    (env : Env ρ) (request : Request) : (handleRequest env app request).app.IsAt port token := by
  have hclaim : app.claim.IsAt port token := ⟨h.itsToken, h.itsHost, h.itsLocalhost⟩
  have hrelease : app.claim.release.IsAt port token := ⟨h.itsToken, h.itsHost, h.itsLocalhost⟩
  unfold handleRequest
  split_ifs
  · exact h
  · cases route request with
    | scan =>
      unfold handleScanStart
      cases queryGet (ascii "device") 256 request.query with
      | none => exact h
      | some safeId =>
        cases hbusy : app.busy with
        | true => exact h
        | false =>
          cases hfound : findDeviceBySafeId env safeId with
          | none => simpa [hfound] using h
          | some device =>
            simp only [hfound, Bool.false_eq_true, if_false]
            split_ifs
            · exact h
            · exact h
            · exact hrelease
            · exact hclaim
    | cancel => exact h.requestCancel
    | _ => exact h

/-- Of the servers at a port, the one whose token it has accepts the browser's request. -/
lemma authorized_launch {port : ℕ} (hport : port < 65536) {token raw : Bytes}
    (hsafe : ∀ c ∈ token, Store.isSafe c = true) (htoken : token.length < 128)
    (hraw : raw.length = 16) {fields : List (Bytes × Bytes)} (hfields : PageFields fields)
    {app : App ρ} (happ : app.IsAt port (generateToken raw)) :
    requestIsAuthorized app (pageRequest port token fields) =
      decide (token = generateToken raw) := by
  have hkept : app.token = generateToken raw := by
    rw [happ.itsToken]
    apply cut_eq_self
    rw [generateToken_length]
    omega
  have hexpected : app.expectedHost = hostOf port := by
    have hhost := hostOf_length hport
    rw [happ.itsHost]
    apply cut_eq_self
    rw [← hostOf]
    omega
  have hnone : requestHeader (pageRequest port token fields) (ascii "X-USBSentinel-Token") = none :=
    pageRequest_other (by decide) (by decide) fun field hfield =>
      ⟨(hfields field hfield).1, (hfields field hfield).2.2⟩
  have hquery : queryGet (ascii "token") 128 (pageRequest port token fields).query = some token :=
    queryGet_token hsafe htoken
  unfold requestIsAuthorized
  rw [pageRequest_host hport]
  simp [hnone, hquery, hkept, hexpected]

/-- The page, as the server sends it. -/
def pageResponse (env : Env ρ) : Response where
  statusCode := 200
  contentType := ascii "text/html; charset=utf-8"
  body := env.indexHtml
  bodyLen := env.indexHtml.length

/-- A launch URL shows the page of the server whose token it has, whatever the server has done so
far, whatever else the browser says and however its request is segmented. -/
lemma responseTo_launch (env : Env ρ) {port : ℕ} (hport : port < 65536) {token raw : Bytes}
    (hsafe : ∀ c ∈ token, Store.isSafe c = true) (htoken : token.length < 128)
    (hraw : raw.length = 16) {fields : List (Bytes × Bytes)} (hfields : PageFields fields)
    {app : App ρ} (happ : app.IsAt port (generateToken raw)) (segment : ℕ → ℕ)
    (hsize : (browserRequest (launchUrl port token) fields).length < requestBufCap) :
    responseTo env app (ending ⟨browserRequest (launchUrl port token) fields, segment⟩) =
      some (if token = generateToken raw then pageResponse env
        else sendText 403 (ascii "Forbidden") 9) := by
  rw [ending_eq, answer_browser hport hsafe htoken hfields hsize]
  simp only [responseTo, handleRequest, authorized_launch hport hsafe htoken hraw hfields happ]
  by_cases hsame : token = generateToken raw
  · simp only [hsame, decide_true, Bool.not_true, Bool.false_eq_true, if_false, if_true]
    rfl
  · simp only [hsame, decide_false, Bool.not_false, if_true, if_false]

end UsbSentinel.Web
