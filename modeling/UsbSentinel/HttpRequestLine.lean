import UsbSentinel.HttpHeaders

/-! The request line of a request: its tokens, and when the fields that the parser fills are
whole tokens. -/
namespace UsbSentinel.Http
open ByteString

/-- The words between the white space of a line. -/
def tokens (line : Bytes) : List Bytes := (line.splitOnP isWhite).filter (· ≠ [])

lemma tokens_blank {c : UInt8} (h : isWhite c = true) (line : Bytes) :
    tokens (c :: line) = tokens line := by
  unfold tokens
  rw [List.splitOnP_cons_eq_if_modifyHead, if_pos h, List.filter_cons_of_neg (by decide)]

lemma tokens_dropWhile (line : Bytes) : tokens (line.dropWhile isWhite) = tokens line := by
  induction line with
  | nil => rfl
  | cons c line ih =>
    by_cases hc : isWhite c = true
    · rw [List.dropWhile_cons_of_pos hc, tokens_blank hc, ih]
    · rw [List.dropWhile_cons_of_neg hc]

/-- From a word on: the word, and the tokens behind it. -/
lemma tokens_word {text : Bytes} (h : text.takeWhile (!isWhite ·) ≠ []) :
    tokens text = text.takeWhile (!isWhite ·) :: tokens (text.dropWhile (!isWhite ·)) := by
  have hword : ∀ c ∈ text.takeWhile (!isWhite ·), isWhite c = false := by
    intro c hc
    simpa using List.mem_takeWhile_imp hc
  conv_lhs => rw [← @List.takeWhile_append_dropWhile _ (!isWhite ·) text]
  cases hrest : text.dropWhile (!isWhite ·) with
  | nil =>
    unfold tokens
    rw [List.append_nil, List.splitOnP_eq_singleton hword]
    rw [List.filter_cons_of_pos (by simpa using h)]
    rfl
  | cons c rest =>
    have hc : isWhite c = true := by
      have hfirst := List.head?_dropWhile_not (!isWhite ·) text
      rw [hrest] at hfirst
      simpa using hfirst
    rw [tokens_blank hc]
    unfold tokens
    rw [List.splitOnP_append_cons_of_forall_mem hword c hc, List.filter_cons_of_pos (by simpa using h)]

lemma scanWord_some {width : ℕ} {text word rest : Bytes}
    (h : scanWord width text = some (word, rest)) :
    word = ((text.dropWhile isWhite).takeWhile (!isWhite ·)).take width ∧ word ≠ [] ∧
      rest = (text.dropWhile isWhite).drop word.length := by
  unfold scanWord at h
  simp only at h
  split_ifs at h with hword
  obtain ⟨rfl, rfl⟩ := Prod.mk.inj (Option.some.inj h)
  exact ⟨rfl, hword, rfl⟩

lemma start_of_scanned {width : ℕ} {text word rest : Bytes}
    (h : scanWord width text = some (word, rest)) :
    (text.dropWhile isWhite).takeWhile (!isWhite ·) ≠ [] := by
  obtain ⟨hword, hne, -⟩ := scanWord_some h
  intro hnil
  rw [hnil, List.take_nil] at hword
  exact hne hword

/-- The tokens of a line that goes on behind what is read. -/
lemma tokens_scanned {width : ℕ} {text word rest : Bytes}
    (h : scanWord width text = some (word, rest)) (more : Bytes) :
    tokens (text ++ more) =
      ((text.dropWhile isWhite ++ more).takeWhile (!isWhite ·)) ::
        tokens ((text.dropWhile isWhite ++ more).dropWhile (!isWhite ·)) := by
  have hstart := start_of_scanned h
  have hne : text.dropWhile isWhite ≠ [] := fun hnil => by rw [hnil] at hstart; exact hstart rfl
  have hdrop : (text ++ more).dropWhile isWhite = text.dropWhile isWhite ++ more := by
    rw [List.dropWhile_append, if_neg (by simpa using hne)]
  rw [← tokens_dropWhile, hdrop]
  refine tokens_word ?_
  rw [List.takeWhile_append]
  split_ifs
  · exact List.append_ne_nil_of_left_ne_nil hne _
  · exact hstart

/-- A conversion whose width its token fits, and that leaves something, reads the token. -/
lemma scanned_whole {width : ℕ} {text word rest more token : Bytes} {later : List Bytes}
    (h : scanWord width text = some (word, rest)) (hrest : rest ≠ [])
    (htokens : tokens (text ++ more) = token :: later) (hfits : token.length ≤ width) :
    word = token ∧ tokens (rest ++ more) = later := by
  obtain ⟨hword, -, hdropped⟩ := scanWord_some h
  rw [tokens_scanned h more] at htokens
  obtain ⟨htoken, hlater⟩ := List.cons.inj htokens
  set start := text.dropWhile isWhite
  have hfront : start.takeWhile (!isWhite ·) <+: token := by
    rw [← htoken, List.takeWhile_append]
    split_ifs
    · exact (List.takeWhile_prefix _).trans (List.prefix_append _ _)
    · exact List.prefix_rfl
  have hwhole : word = start.takeWhile (!isWhite ·) := by
    rw [hword, List.take_of_length_le (hfront.length_le.trans hfits)]
  have hbehind : rest = start.dropWhile (!isWhite ·) := by
    have hsplit := @List.takeWhile_append_dropWhile _ (!isWhite ·) start
    rw [hdropped, hwhole]
    exact (congrArg (List.drop _) hsplit).symm.trans List.drop_left
  have hshort : (start.takeWhile (!isWhite ·)).length ≠ start.length := by
    intro hall
    rw [hdropped, hwhole, hall, List.drop_length] at hrest
    exact hrest rfl
  refine ⟨?_, ?_⟩
  · rw [hwhole, ← htoken, List.takeWhile_append, if_neg hshort]
  · rw [hbehind, ← hlater, List.dropWhile_append, if_neg]
    rw [← hbehind]
    simpa using hrest

lemma parseRequestLine_ok {line : Bytes} {request : Request}
    (h : parseRequestLine line = .ok request) :
    ∃ method rest target rest' version rest'',
      scanWord 7 (cstr line) = some (method, rest) ∧
      scanWord 511 rest = some (target, rest') ∧
      scanWord 31 rest' = some (version, rest'') ∧
      request = {
        method := cut methodMax method
        path := cut pathMax (target.takeWhile (· ≠ 63))
        query := cut queryMax ((target.dropWhile (· ≠ 63)).drop 1) } := by
  unfold parseRequestLine at h
  split_ifs at h
  split at h
  · cases h
  · next method rest hmethod =>
    split at h
    · cases h
    · next target rest' htarget =>
      split at h
      · cases h
      · next _ scanned hversion =>
        obtain ⟨version, rest''⟩ := scanned
        exact ⟨method, rest, target, rest', version, rest'', hmethod, htarget, hversion,
          (Except.ok.inj h).symm⟩

/-- The line has three tokens, and the fields are the first one, and the second one before
and behind its first question mark. -/
def ReadsWhole (line : Bytes) (request : Request) : Prop :=
  ∃ method target version rest, tokens line = method :: target :: version :: rest ∧
    request.method = method ∧ request.path = target.takeWhile (· ≠ 63) ∧
    request.query = (target.dropWhile (· ≠ 63)).drop 1

/-- The first two tokens fit the fields they are for. -/
def TokensFit (line : Bytes) : Prop :=
  ∃ method target rest, tokens line = method :: target :: rest ∧
    method.length < methodMax ∧ (target.takeWhile (· ≠ 63)).length < pathMax ∧
    ((target.dropWhile (· ≠ 63)).drop 1).length < queryMax

def requestLine (head : Bytes) : Bytes := (crlfLines head).headD []

lemma scanWord_nil (width : ℕ) : scanWord width [] = none := by
  unfold scanWord
  simp

/-- The parser reads a line no further than to its first CR or NUL. -/
lemma readsWhole_of_fit {line read more : Bytes} {request : Request} (hline : line = cstr read ++ more)
    (hparse : parseRequestLine read = .ok request) (hfit : TokensFit line) :
    ReadsWhole line request := by
  obtain ⟨method, target, later, htokens, hmethod, hpath, hquery⟩ := hfit
  obtain ⟨word, rest, word', rest', version, rest'', hscan, hscan', hscan'', rfl⟩ :=
    parseRequestLine_ok hparse
  have hrest : rest ≠ [] := fun hnil => by
    rw [hnil, scanWord_nil] at hscan'
    cases hscan'
  have hrest' : rest' ≠ [] := fun hnil => by
    rw [hnil, scanWord_nil] at hscan''
    cases hscan''
  have htarget : target.length ≤ 511 := by
    have hsplit := congrArg List.length (@List.takeWhile_append_dropWhile _ (· ≠ 63) target)
    rw [List.length_append] at hsplit
    rw [List.length_drop] at hquery
    unfold pathMax at hpath
    unfold queryMax at hquery
    omega
  rw [hline] at htokens
  obtain ⟨rfl, hlater⟩ := scanned_whole hscan hrest htokens (Nat.le_of_lt_succ hmethod)
  obtain ⟨rfl, rfl⟩ := scanned_whole hscan' hrest' hlater htarget
  rw [tokens_scanned hscan''] at htokens
  rw [hline]
  exact ⟨word, word', _, _, htokens, cut_eq_self hmethod, cut_eq_self hpath, cut_eq_self hquery⟩

lemma fit_of_readsWhole {line read : Bytes} {request : Request}
    (hparse : parseRequestLine read = .ok request) (hwhole : ReadsWhole line request) :
    TokensFit line := by
  obtain ⟨method, target, version, later, htokens, hmethod, hpath, hquery⟩ := hwhole
  obtain ⟨word, rest, word', rest', version', rest'', -, -, -, rfl⟩ := parseRequestLine_ok hparse
  have hcut : ∀ cap : ℕ, 0 < cap → ∀ b : Bytes, (cut cap b).length < cap := by
    intro cap hcap b
    rw [cut_length]
    omega
  refine ⟨method, target, _, htokens, ?_, ?_, ?_⟩
  · rw [← hmethod]
    exact hcut methodMax (by decide) _
  · rw [← hpath]
    exact hcut pathMax (by decide) _
  · rw [← hquery]
    exact hcut queryMax (by decide) _

theorem requestParse_readsWhole_iff {buf : Bytes} {request : Request} {headLen : ℕ}
    (h : requestParse buf = .ok (request, headLen + 4)) :
    ReadsWhole (requestLine (buf.take headLen)) request ↔
      TokensFit (requestLine (buf.take headLen)) := by
  obtain ⟨hend, parsed, hparsed, rfl⟩ := requestParse_ok h
  obtain ⟨line, lines, heq, -⟩ := crlfLines_cases (buf.take headLen)
  have hread := takeWhile_head hend heq
  have hline : requestLine (buf.take headLen) = line := by
    unfold requestLine
    rw [heq]
    rfl
  rw [hline]
  change ReadsWhole line parsed ↔ TokensFit line
  have hmore : line = cstr (buf.takeWhile (· ≠ 13)) ++
      ((buf.takeWhile (· ≠ 13)).dropWhile (· ≠ 0) ++ line.dropWhile (· ≠ 13)) := by
    unfold cstr
    rw [← List.append_assoc, List.takeWhile_append_dropWhile, hread,
      List.takeWhile_append_dropWhile]
  constructor
  · exact fit_of_readsWhole hparsed
  · exact readsWhole_of_fit hmore hparsed

theorem plain_readsWhole : ReadsWhole (requestLine (plainBuf.take 57)) plainRequest :=
  (requestParse_readsWhole_iff (by decide +kernel)).mpr
    ⟨ascii "GET", ascii "/", [ascii "HTTP/1.1"], by decide +kernel⟩

/-- Two tokens, the first one longer than its field. -/
def longBuf : Bytes := ascii "GETTTTTTT /x\r\n\r\n"

/-- The second token has gone where the version belongs. -/
theorem long_split : requestParse longBuf =
      .ok (⟨ascii "GETTTTT", ascii "TT", [], []⟩, 16) ∧
    tokens (requestLine (longBuf.take 12)) = [ascii "GETTTTTTT", ascii "/x"] ∧
    ¬ReadsWhole (requestLine (longBuf.take 12)) ⟨ascii "GETTTTT", ascii "TT", [], []⟩ := by
  have htokens : tokens (requestLine (longBuf.take 12)) = [ascii "GETTTTTTT", ascii "/x"] := by
    decide +kernel
  refine ⟨by decide +kernel, htokens, ?_⟩
  rintro ⟨method, target, version, rest, hthree, -⟩
  rw [htokens] at hthree
  cases hthree

end UsbSentinel.Http
