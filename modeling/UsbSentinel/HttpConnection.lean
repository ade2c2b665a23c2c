import UsbSentinel.HttpHeaders
import UsbSentinel.Machine
import UsbSentinel.SignatureLine

/-! One connection of the server, receive by receive: how it ends depends on the bytes that
the client sends and not on the segments that they arrive in. -/
namespace UsbSentinel.Http
open ByteString Machine

def requestBufCap : ℕ := 65536

/-- `strtoll(text, &end, 10)`: the value, and how many bytes it used. -/
def strtoll (text : Bytes) : ℤ × ℕ :=
  let body := text.dropWhile isWhite
  let sign := body.head?.any fun c => c = 43 || c = 45
  let digits := if sign then body.tail else body
  let number := digits.takeWhile SignatureList.isDecimal
  let value : ℤ := SignatureList.decimalValue number
  if number = [] then (0, 0)
  else
    (if body.head? = some 45 then max (-value) (-2 ^ 63) else min value (2 ^ 63 - 1),
      text.length - digits.length + number.length)

def requestContentLength (request : Request) : Except Status ℕ :=
  match requestHeader request (ascii "Content-Length") with
  | none => .ok 0
  | some value =>
    let (parsed, used) := strtoll value
    if used = 0 ∨ used ≠ value.length ∨ parsed < 0 then .error .io else .ok parsed.toNat

/-! ### The connection -/

/-- What a client sends before it closes or breaks the connection, and how many bytes, less
one, arrive at once from an offset on. -/
structure Client where
  sent : Bytes
  segment : ℕ → ℕ

def Client.stream (client : Client) : ByteStream.Stream Status where
  content := client.sent
  chunk := client.segment

inductive Ending
  | closed
  | answered (response : Web.Response)
  | handled (request : Request) (body : Bytes)
  deriving DecidableEq, Repr

/-- What is done with the buffer: a `recv` behind the first `offset` bytes for at most `ask`,
the NUL behind `total` bytes, the body at `offset` of a buffer that holds `total` bytes. -/
inductive Use
  | recv (offset ask : ℕ)
  | terminate (total : ℕ)
  | body (offset length total : ℕ)

def Use.InRoom : Use → Prop
  | recv offset ask => 0 < ask ∧ offset + ask < requestBufCap
  | terminate total => total < requestBufCap
  | body offset length total => offset + length ≤ total ∧ total < requestBufCap

abbrev Connection := Machine (List Use) Ending

def note (u : Use) : Connection Unit := change (· ++ [u])

/-- The buffer after one more `recv`, which ends the connection when it brings nothing. -/
def receive (client : Client) (buf : Bytes) : Connection Bytes := do
  let ask := requestBufCap - 1 - buf.length
  note (.recv buf.length ask)
  match client.stream.read buf.length ask with
  | .error _ => stop .closed
  | .ok [] => stop .closed
  | .ok got => do
    note (.terminate (buf.length + got.length))
    pure (buf ++ got)

/-- The first loop. `strstr` sees the buffer up to its first NUL. -/
def readHead (client : Client) : ℕ → Bytes → Connection Bytes
  | 0, _ => stop .closed
  | turns + 1, buf =>
    if buf.length ≥ requestBufCap - 1 then
      stop (.answered (Web.sendText 413 (ascii "Request too large") 17))
    else do
      let buf ← receive client buf
      if 13 ∈ buf ∧ (headEnd (cstr buf)).isSome then pure buf else readHead client turns buf

/-- The second loop. -/
def readBody (client : Client) (needed : ℕ) : ℕ → Bytes → Connection Bytes
  | 0, _ => stop .closed
  | turns + 1, buf =>
    if buf.length < needed then do
      let buf ← receive client buf
      readBody client needed turns buf
    else pure buf

/-- Every `recv` that brings something brings the loops closer to the end of the buffer. -/
def handleOneConnection (client : Client) : Connection Ending := do
  let buf ← readHead client requestBufCap []
  match requestParse buf with
  | .error _ => stop (.answered (Web.sendText 400 (ascii "Bad Request") 11))
  | .ok (request, headLen) =>
    match requestContentLength request with
    | .error _ => stop (.answered (Web.sendText 400 (ascii "Bad Content-Length") 19))
    | .ok contentLength =>
      let needed := (headLen + contentLength) % 2 ^ 64
      if needed ≥ requestBufCap then
        stop (.answered (Web.sendText 413 (ascii "Payload Too Large") 17))
      else do
        let buf ← readBody client needed requestBufCap buf
        if contentLength > 0 then do
          note (.body headLen contentLength buf.length)
          pure (.handled request ((buf.drop headLen).take contentLength))
        else pure (.handled request [])

def ending (client : Client) : Ending :=
  match (handleOneConnection client []).1 with
  | .ok e => e
  | .error e => e

def uses (client : Client) : List Use := (handleOneConnection client []).2

/-! ### Without segments -/

/-- How a connection ends on which a request head is sent. -/
def conclude (sent : Bytes) : Ending :=
  match requestParse (sent.take (requestBufCap - 1)) with
  | .error _ => .answered (Web.sendText 400 (ascii "Bad Request") 11)
  | .ok (request, headLen) =>
    match requestContentLength request with
    | .error _ => .answered (Web.sendText 400 (ascii "Bad Content-Length") 19)
    | .ok contentLength =>
      if headLen + contentLength ≥ requestBufCap then
        .answered (Web.sendText 413 (ascii "Payload Too Large") 17)
      else if sent.length < headLen + contentLength then .closed
      else .handled request ((sent.drop headLen).take contentLength)

/-- How a connection ends on which these bytes are sent. -/
def answer (sent : Bytes) : Ending :=
  if (headEnd (cstr (sent.take (requestBufCap - 1)))).isSome then conclude sent
  else if sent.length < requestBufCap - 1 then .closed
  else .answered (Web.sendText 413 (ascii "Request too large") 17)

lemma headEnd_cons (c : UInt8) (rest : Bytes) : headEnd (c :: rest) =
    if blankLine <+: c :: rest then some 0 else (headEnd rest).map (· + 1) := rfl

lemma headEnd_bound {a : Bytes} {n : ℕ} (h : headEnd a = some n) : n + 4 ≤ a.length := by
  have hle := (blank_at_headEnd h).length_le
  rw [List.length_drop] at hle
  change 4 ≤ _ at hle
  omega

lemma headEnd_append {a : Bytes} {n : ℕ} (h : headEnd a = some n) (b : Bytes) :
    headEnd (a ++ b) = some n := by
  induction a generalizing n with
  | nil => cases h
  | cons c a ih =>
    have hbound := headEnd_bound h
    have hsame : blankLine <+: c :: (a ++ b) ↔ blankLine <+: c :: a := by
      refine ⟨fun hp => ?_, fun hp => hp.trans (List.prefix_append (c :: a) b)⟩
      exact List.prefix_of_prefix_length_le hp (List.prefix_append (c :: a) b) (by
        change 4 ≤ _
        omega)
    rw [headEnd_cons] at h
    rw [List.cons_append, headEnd_cons]
    by_cases hblank : blankLine <+: c :: a
    · rw [if_pos hblank] at h
      rw [if_pos (hsame.mpr hblank), h]
    · rw [if_neg hblank] at h
      obtain ⟨m, hm, rfl⟩ := Option.map_eq_some_iff.mp h
      rw [if_neg (mt hsame.mp hblank), ih hm]
      rfl

/-- Behind the head of a request nothing is parsed. -/
lemma requestParse_append {a : Bytes} {n : ℕ} (h : headEnd a = some n) (b : Bytes) :
    requestParse (a ++ b) = requestParse a := by
  have hbound := headEnd_bound h
  have htake : (a ++ b).take n = a.take n := List.take_append_of_le_length (by omega)
  have hline : (a ++ b).takeWhile (· ≠ 13) = a.takeWhile (· ≠ 13) := by
    obtain ⟨rest, hrest⟩ := blank_at_headEnd h
    rw [← List.take_append_drop n a, ← hrest, List.append_assoc]
    exact (takeWhile_before _ _).trans (takeWhile_before _ _).symm
  unfold requestParse
  simp only [h, headEnd_append h b, htake, hline]

/-- The first blank line that `strstr` sees is the first one. -/
lemma headEnd_of_cstr {b : Bytes} {n : ℕ} (h : headEnd (cstr b) = some n) :
    headEnd b = some n := by
  obtain ⟨rest, hrest⟩ := cstr_prefix b
  rw [← hrest]
  exact headEnd_append h rest

/-- More bytes do not move the blank line that `strstr` sees. -/
lemma headEnd_cstr_append {a : Bytes} {n : ℕ} (h : headEnd (cstr a) = some n) (b : Bytes) :
    headEnd (cstr (a ++ b)) = some n := by
  obtain ⟨rest, hrest⟩ := cstr_append_prefix a b
  rw [← hrest]
  exact headEnd_append h rest

/-! ### The loops -/

/-- A piece of what is sent that the buffer can hold. -/
def Holds (client : Client) (n : ℕ) (buf : Bytes) : Prop :=
  buf = client.sent.take n ∧ n ≤ client.sent.length ∧ n < requestBufCap

lemma Holds.length {client : Client} {n : ℕ} {buf : Bytes} (h : Holds client n buf) :
    buf.length = n := by
  rw [h.1, List.length_take, min_eq_left h.2.1]

def InRoom (log : List Use) : Prop := ∀ u ∈ log, u.InRoom

lemma InRoom.snoc {log : List Use} {u : Use} (hlog : InRoom log) (hu : u.InRoom) :
    InRoom (log ++ [u]) := by
  intro v hv
  rcases List.mem_append.mp hv with hv | hv
  · exact hlog v hv
  · rw [List.mem_singleton.mp hv]
    exact hu

lemma receive_run {client : Client} {n : ℕ} {buf : Bytes} (hbuf : Holds client n buf)
    (hroom : n < requestBufCap - 1) {log : List Use} (hlog : InRoom log) :
    wp (receive client buf) (fun r after => InRoom after ∧
      ((r = .error .closed ∧ n = client.sent.length) ∨
        ∃ m more, n < m ∧ r = .ok more ∧ Holds client m more)) log := by
  have hlength := hbuf.length
  obtain ⟨htake, hle, hcap⟩ := hbuf
  have hask : 0 < requestBufCap - 1 - buf.length := by omega
  have hread := ByteStream.Stream.read_of_sound (s := client.stream) rfl buf.length
    (requestBufCap - 1 - buf.length)
  unfold receive
  refine wp_change_bind ?_
  have hlog' := hlog.snoc (u := .recv buf.length (requestBufCap - 1 - buf.length))
    ⟨hask, by omega⟩
  cases hgot : client.stream.read buf.length (requestBufCap - 1 - buf.length) with
  | error e =>
    rw [hgot] at hread
    cases hread
  | ok got =>
    have hshort := ByteStream.Stream.read_length_le hgot
    have hextends := ByteStream.Stream.read_extends hgot
    rw [hlength, show client.stream.content = client.sent from rfl, ← htake] at hextends
    cases got with
    | nil =>
      have hend := ByteStream.Stream.read_nil hask hgot
      change client.sent.length ≤ _ at hend
      exact ⟨hlog', .inl ⟨rfl, by omega⟩⟩
    | cons c got =>
      refine wp_change_bind ⟨hlog'.snoc ?_, .inr ⟨n + (c :: got).length, _, ?_, rfl, ?_⟩⟩
      · change _ < requestBufCap
        omega
      · simp only [List.length_cons]
        omega
      · have hmore := congrArg List.length hextends
        rw [List.length_append, List.length_take, hlength] at hmore
        exact ⟨hextends, by omega, by omega⟩

/-- Where the first loop ends: with a blank line in the buffer, or without one in anything
that it can hold. -/
def HeadRead (client : Client) : Except Ending Bytes → Prop
  | .ok buf => (headEnd (cstr buf)).isSome ∧ ∃ n, Holds client n buf
  | .error e => headEnd (cstr (client.sent.take (requestBufCap - 1))) = none ∧
      e = if client.sent.length < requestBufCap - 1 then .closed
        else .answered (Web.sendText 413 (ascii "Request too large") 17)

lemma readHead_run {client : Client} {turns n : ℕ} {buf : Bytes} (hbuf : Holds client n buf)
    (hnone : headEnd (cstr buf) = none) (hturns : requestBufCap ≤ turns + n) {log : List Use}
    (hlog : InRoom log) :
    wp (readHead client turns buf) (fun r after => InRoom after ∧ HeadRead client r) log := by
  induction turns generalizing n buf log with
  | zero =>
    have := hbuf.2.2
    omega
  | succ turns ih =>
    have hlength := hbuf.length
    unfold readHead
    refine wp_ite (fun hfull => ?_) fun hroom => ?_
    · have hn : n = requestBufCap - 1 := by
        have := hbuf.2.2
        omega
      refine ⟨hlog, ?_, ?_⟩
      · rw [← hn, ← hbuf.1]
        exact hnone
      · rw [if_neg (by have := hbuf.2.1; omega)]
    · refine wp_bind (receive_run hbuf (by omega) hlog) ?_ ?_
      · rintro more after ⟨hafter, ⟨hclosed, -⟩ | ⟨m, more', hm, hmore, hholds⟩⟩
        · cases hclosed
        · obtain rfl := Except.ok.inj hmore
          refine wp_ite (fun hfound => ⟨hafter, hfound.2, m, hholds⟩) fun hmissing => ?_
          have hnot : headEnd (cstr more) = none := by
            cases hend : headEnd (cstr more) with
            | none => rfl
            | some k =>
              refine absurd ⟨?_, by rw [hend]; rfl⟩ hmissing
              obtain ⟨rest, hrest⟩ := blank_at_headEnd (headEnd_of_cstr hend)
              have hmem : 13 ∈ more.drop k := by
                rw [← hrest]
                exact List.mem_cons_self
              exact List.mem_of_mem_drop hmem
          exact ih hholds hnot (by omega) hafter
      · rintro e after ⟨hafter, ⟨hclosed, hn⟩ | ⟨m, more', -, hmore, -⟩⟩
        · obtain rfl := Except.error.inj hclosed
          refine ⟨hafter, ?_, ?_⟩
          · rw [List.take_of_length_le (by omega), ← List.take_length (l := client.sent), ← hn,
              ← hbuf.1]
            exact hnone
          · rw [if_pos (by omega)]
        · cases hmore

/-- The second loop ends with the bytes it waits for, or where there are not so many. -/
lemma readBody_run {client : Client} {needed turns n : ℕ} {buf : Bytes}
    (hbuf : Holds client n buf) (hneeded : needed < requestBufCap)
    (hturns : requestBufCap ≤ turns + n) {log : List Use} (hlog : InRoom log) :
    wp (readBody client needed turns buf) (fun r after => InRoom after ∧
      ((r = .error .closed ∧ client.sent.length < needed) ∨
        ∃ m more, needed ≤ m ∧ r = .ok more ∧ Holds client m more)) log := by
  induction turns generalizing n buf log with
  | zero =>
    have := hbuf.2.2
    omega
  | succ turns ih =>
    have hlength := hbuf.length
    unfold readBody
    refine wp_ite (fun hless => ?_) fun hmet => ?_
    · refine wp_bind (receive_run hbuf (by omega) hlog) ?_ ?_
      · rintro more after ⟨hafter, ⟨hclosed, -⟩ | ⟨m, more', hm, hmore, hholds⟩⟩
        · cases hclosed
        · obtain rfl := Except.ok.inj hmore
          exact ih hholds (by omega) hafter
      · rintro e after ⟨hafter, ⟨hclosed, hn⟩ | ⟨m, more', -, hmore, -⟩⟩
        · exact ⟨hafter, .inl ⟨hclosed, by omega⟩⟩
        · cases hmore
    · exact ⟨hlog, .inr ⟨n, buf, by omega, rfl, hbuf⟩⟩

/-! ### The whole connection -/

lemma requestContentLength_lt {request : Request} {n : ℕ}
    (h : requestContentLength request = .ok n) : n < 2 ^ 63 := by
  have hbound : ∀ text, (strtoll text).1 < 2 ^ 63 := by
    intro text
    unfold strtoll
    simp only
    split_ifs <;> simp only <;> omega
  unfold requestContentLength at h
  split at h
  · obtain rfl := Except.ok.inj h
    decide
  · next value hvalue =>
    have := hbound value
    simp only at h
    split_ifs at h
    obtain rfl := Except.ok.inj h
    omega

lemma requestParse_headLen {buf : Bytes} {request : Request} {headLen : ℕ}
    (h : requestParse buf = .ok (request, headLen)) :
    ∃ n, headEnd buf = some n ∧ headLen = n + 4 := by
  unfold requestParse at h
  split at h
  · cases h
  · next n hend =>
    simp only at h
    split at h
    · cases h
    · exact ⟨n, hend, (Prod.mk.inj (Except.ok.inj h)).2.symm⟩

/-- The head that is found is the head of all that is sent. -/
lemma Holds.head {client : Client} {n k : ℕ} {buf : Bytes} (hbuf : Holds client n buf)
    (hk : headEnd (cstr buf) = some k) :
    answer client.sent = conclude client.sent ∧
      requestParse (client.sent.take (requestBufCap - 1)) = requestParse buf := by
  obtain ⟨htake, hle, hcap⟩ := hbuf
  have hsplit : client.sent.take (requestBufCap - 1) =
      buf ++ (client.sent.take (requestBufCap - 1)).drop n := by
    conv_lhs => rw [← List.take_append_drop n (client.sent.take (requestBufCap - 1))]
    rw [List.take_take, min_eq_left (by omega), ← htake]
  have hhead : (headEnd (cstr (client.sent.take (requestBufCap - 1)))).isSome := by
    rw [hsplit, headEnd_cstr_append hk]
    rfl
  have hparse : requestParse (client.sent.take (requestBufCap - 1)) = requestParse buf := by
    rw [hsplit, requestParse_append (headEnd_of_cstr hk)]
  exact ⟨if_pos hhead, hparse⟩

/-- Behind the head: the body is handed over, or the client sends no more. -/
lemma body_run {client : Client} {request : Request} {headLen contentLength n : ℕ} {buf : Bytes}
    (hbuf : Holds client n buf) (hroom : headLen + contentLength < requestBufCap)
    {log : List Use} (hlog : InRoom log) {e : Ending}
    (he : e = if client.sent.length < headLen + contentLength then .closed
      else .handled request ((client.sent.drop headLen).take contentLength)) :
    wp (do
        let buf ← readBody client (headLen + contentLength) requestBufCap buf
        if contentLength > 0 then do
          note (.body headLen contentLength buf.length)
          pure (.handled request ((buf.drop headLen).take contentLength))
        else pure (.handled request []))
      (fun r after => InRoom after ∧ (r = .ok e ∨ r = .error e)) log := by
  refine wp_bind (readBody_run hbuf hroom (Nat.le_add_right _ _) hlog) ?_ ?_
  · rintro more after ⟨hafter, ⟨hclosed, -⟩ | ⟨m, more', hm, hmore, hholds⟩⟩
    · cases hclosed
    · obtain rfl := Except.ok.inj hmore
      have hwhole := hholds.length
      obtain ⟨htake, hle, hcap⟩ := hholds
      rw [if_neg (by omega)] at he
      have hbody : (more.drop headLen).take contentLength =
          (client.sent.drop headLen).take contentLength := by
        rw [htake, List.drop_take, List.take_take, min_eq_left (by omega)]
      refine wp_ite (fun _ => ?_) fun hnone => ?_
      · refine wp_change_bind ⟨hafter.snoc ⟨by omega, by omega⟩, .inl ?_⟩
        rw [hbody, he]
        rfl
      · obtain rfl : contentLength = 0 := by omega
        rw [List.take_zero] at he
        exact ⟨hafter, .inl (congrArg Except.ok he.symm)⟩
  · rintro error after ⟨hafter, ⟨hclosed, hshort⟩ | ⟨m, more, -, hmore, -⟩⟩
    · obtain rfl := Except.error.inj hclosed
      rw [if_pos hshort] at he
      exact ⟨hafter, .inr (congrArg Except.error he.symm)⟩
    · cases hmore

/-- However the bytes arrive, the connection ends as they say, and every use of the buffer
stays in it. -/
lemma handleOneConnection_run (client : Client) :
    wp (handleOneConnection client) (fun r after => InRoom after ∧
      (r = .ok (answer client.sent) ∨ r = .error (answer client.sent))) [] := by
  have hstart : Holds client 0 [] := ⟨rfl, Nat.zero_le _, by decide⟩
  unfold handleOneConnection
  refine wp_bind (readHead_run hstart rfl le_rfl (fun u hu => by cases hu)) ?_ ?_
  · rintro buf after ⟨hafter, hfound, n, hbuf⟩
    obtain ⟨k, hk⟩ := Option.isSome_iff_exists.mp hfound
    have hend := headEnd_of_cstr hk
    have hbound := headEnd_bound hend
    have hlength := hbuf.length
    have hcap := hbuf.2.2
    obtain ⟨hanswer, hparse⟩ := hbuf.head hk
    rw [hanswer, conclude, hparse]
    cases hrequest : requestParse buf with
    | error e => exact ⟨hafter, .inr rfl⟩
    | ok parsed =>
      obtain ⟨request, headLen⟩ := parsed
      obtain ⟨k', hk', rfl⟩ := requestParse_headLen hrequest
      obtain rfl := Option.some.inj (hend.symm.trans hk')
      simp only
      cases hcontent : requestContentLength request with
      | error e => exact ⟨hafter, .inr rfl⟩
      | ok contentLength =>
        have hlt := requestContentLength_lt hcontent
        have hsum : (k + 4 + contentLength) % 2 ^ 64 = k + 4 + contentLength := by
          have hmax : requestBufCap = 65536 := rfl
          exact Nat.mod_eq_of_lt (by omega)
        simp only [hsum]
        by_cases hlarge : k + 4 + contentLength ≥ requestBufCap
        · rw [if_pos hlarge, if_pos hlarge]
          exact ⟨hafter, .inr rfl⟩
        · rw [if_neg hlarge, if_neg hlarge]
          exact body_run hbuf (not_le.mp hlarge) hafter rfl
  · rintro e after ⟨hafter, hnone, rfl⟩
    refine ⟨hafter, .inr ?_⟩
    unfold answer
    rw [hnone]
    rfl

lemma ending_eq (client : Client) : ending client = answer client.sent := by
  unfold ending
  rcases (handleOneConnection_run client).2 with h | h <;> rw [h]

/-- The connection ends as the bytes say, and so the same way for every way that they are cut into
segments, and the reads, the NULs behind them and the body of the request stay in the buffer and
in what it has received. -/
theorem handleOneConnection_segments (sent : Bytes) (segment segment' : ℕ → ℕ) :
    ending ⟨sent, segment⟩ = answer sent ∧ ending ⟨sent, segment⟩ = ending ⟨sent, segment'⟩ ∧
      ∀ u ∈ uses ⟨sent, segment⟩, u.InRoom :=
  ⟨ending_eq _, (ending_eq _).trans (ending_eq ⟨sent, segment'⟩).symm,
    (handleOneConnection_run _).1⟩

/-- A body that arrives in parts gets to the handler, without the bytes behind it. -/
example (segment : ℕ → ℕ) :
    ending ⟨ascii "POST /a?b HTTP/1.1\r\nContent-Length: 3\r\n\r\nabcd", segment⟩ =
      .handled { method := ascii "POST", path := ascii "/a", query := ascii "b",
                 headers := [{ name := ascii "Content-Length", value := ascii "3" }] }
        (ascii "abc") := by
  have hanswer : answer (ascii "POST /a?b HTTP/1.1\r\nContent-Length: 3\r\n\r\nabcd") =
      .handled { method := ascii "POST", path := ascii "/a", query := ascii "b",
                 headers := [{ name := ascii "Content-Length", value := ascii "3" }] }
        (ascii "abc") := by decide +kernel
  exact (ending_eq _).trans hanswer

end UsbSentinel.Http
