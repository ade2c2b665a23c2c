import UsbSentinel.HttpRequestLine
import UsbSentinel.HttpResponse

/-! Access to the web application. What a request is granted anything by is a piece of the bytes
that the client sent, so a client that does not send the launch token gets nothing and changes
nothing. -/
namespace UsbSentinel.Http
open ByteString

lemma isInfix_intercalate {sep pair : Bytes} {pairs : List Bytes} (h : pair ∈ pairs) :
    pair <:+: sep.intercalate pairs := by
  induction pairs with
  | nil => cases h
  | cons first rest ih =>
    cases rest with
    | nil =>
      obtain rfl := List.mem_singleton.mp h
      simp [List.intercalate]
    | cons second rest =>
      have hjoined : sep.intercalate (first :: second :: rest) =
          first ++ sep ++ sep.intercalate (second :: rest) := by
        simp [List.intercalate]
      rw [hjoined]
      rcases List.mem_cons.mp h with rfl | h
      · exact ⟨[], sep ++ sep.intercalate (second :: rest), by simp⟩
      · exact (ih h).trans (List.suffix_append _ _).isInfix

lemma isInfix_splitOn {mark : UInt8} {text pair : Bytes} (h : pair ∈ text.splitOn mark) :
    pair <:+: text := by
  have hjoined := @isInfix_intercalate [mark] _ _ h
  rwa [List.intercalate_splitOn] at hjoined

lemma cstr_isInfix (text : Bytes) : cstr text <:+: text := by
  have hfront := cstr_prefix text
  exact hfront.isInfix

lemma cut_isInfix (cap : ℕ) (text : Bytes) : cut cap text <:+: text :=
  (List.take_prefix _ _).isInfix

lemma scanWord_isInfix {width : ℕ} {text word rest : Bytes}
    (h : scanWord width text = some (word, rest)) : word <:+: text ∧ rest <:+ text := by
  obtain ⟨rfl, _, rfl⟩ := scanWord_some h
  have hstart := List.dropWhile_suffix (l := text) isWhite
  refine ⟨?_, (List.drop_suffix _ _).trans hstart⟩
  exact ((List.take_prefix _ _).trans (List.takeWhile_prefix _)).isInfix.trans hstart.isInfix

lemma parseRequestLine_query {line : Bytes} {request : Request}
    (h : parseRequestLine line = .ok request) : request.query <:+: line := by
  obtain ⟨method, rest, target, rest', version, rest'', hmethod, htarget, _, rfl⟩ :=
    parseRequestLine_ok h
  have htail := (scanWord_isInfix hmethod).2
  have hpiece := (scanWord_isInfix htarget).1
  have hquery : cut queryMax ((target.dropWhile (· ≠ 63)).drop 1) <:+: target :=
    (cut_isInfix _ _).trans ((List.drop_suffix _ _).trans (List.dropWhile_suffix _)).isInfix
  have hshown := cstr_isInfix line
  exact ((hquery.trans hpiece).trans htail.isInfix).trans hshown

lemma headerLines_isInfix {turns : ℕ} {text line : Bytes} (h : line ∈ headerLines turns text) :
    line <:+: text := by
  induction turns generalizing text with
  | zero => cases h
  | succ turns ih =>
    simp only [headerLines] at h
    split_ifs at h with hnil
    · cases h
    · rcases List.mem_cons.mp h with rfl | h
      · exact (List.takeWhile_prefix _).isInfix
      · exact (ih h).trans (List.drop_suffix _ _).isInfix

lemma parseHeaderLine_value (line : Bytes) : (parseHeaderLine line).value <:+: line := by
  unfold parseHeaderLine
  split_ifs
  · refine (cstr_isInfix _).trans ((cut_isInfix _ _).trans ?_)
    exact ((List.dropWhile_suffix _).trans ((List.drop_suffix _ _).trans
      (List.dropWhile_suffix _))).isInfix
  · exact List.nil_infix

/-- The query and the header values of a request are pieces of the buffer. -/
lemma requestParse_pieces {buf : Bytes} {request : Request} {headLen : ℕ}
    (h : requestParse buf = .ok (request, headLen)) :
    request.query <:+: buf ∧ ∀ header ∈ request.headers, header.value <:+: buf := by
  unfold requestParse at h
  split at h
  · cases h
  · next n _ =>
    simp only at h
    split at h
    · cases h
    · next parsed hline =>
      obtain ⟨rfl, _⟩ := Prod.mk.inj (Except.ok.inj h)
      have hquery := parseRequestLine_query hline
      refine ⟨hquery.trans (List.takeWhile_prefix _).isInfix, ?_⟩
      intro header hheader
      obtain ⟨line, hmem, rfl⟩ := List.mem_map.mp (List.mem_of_mem_take hheader)
      have hpiece := (parseHeaderLine_value line).trans (headerLines_isInfix hmem)
      exact hpiece.trans ((List.drop_suffix _ _).isInfix.trans (List.take_prefix _ _).isInfix)

lemma queryGet_isInfix {key query value : Bytes} {cap : ℕ}
    (h : queryGet key cap query = some value) : value <:+: query := by
  obtain ⟨pair, hpair, hvalue⟩ := List.exists_of_findSome?_eq_some h
  split_ifs at hvalue
  obtain rfl := Option.some.inj hvalue
  exact ((cut_isInfix _ _).trans (List.drop_suffix _ _).isInfix).trans (isInfix_splitOn hpair)

lemma requestHeader_isInfix {request : Request} {name value text : Bytes}
    (hall : ∀ header ∈ request.headers, header.value <:+: text)
    (h : requestHeader request name = some value) : value <:+: text := by
  obtain ⟨header, hfind, rfl⟩ := Option.map_eq_some_iff.mp h
  exact hall header (List.mem_of_find?_eq_some hfind)

end UsbSentinel.Http

namespace UsbSentinel.Web
open ByteString UsbSentinel.Http

variable {ρ : Type} (env : Env ρ) (app : App ρ)

/-- What a connection does to the application, and the scan it starts. -/
def effectOf : Ending → App ρ × Option Device
  | .handled request _ =>
    ((handleRequest env app request).app, (handleRequest env app request).started)
  | _ => (app, none)

/-- The texts the server has for whoever is not let in. -/
def refusals : List Response :=
  [sendText 400 (ascii "Bad Request") 11, sendText 400 (ascii "Bad Content-Length") 19,
    sendText 413 (ascii "Request too large") 17, sendText 413 (ascii "Payload Too Large") 17,
    sendText 403 (ascii "Forbidden") 9]

lemma authorized_pieces {request : Request} {buf : Bytes} {headLen : ℕ}
    (hparse : requestParse buf = .ok (request, headLen))
    (hauthorized : requestIsAuthorized app request = true) :
    app.token <:+: buf ∧ (app.expectedHost <:+: buf ∨ app.expectedHostLocalhost <:+: buf) := by
  obtain ⟨hquery, hheaders⟩ := requestParse_pieces hparse
  obtain ⟨⟨host, hhost, hexpected⟩, htoken⟩ := authorized_parts hauthorized
  have hpiece := requestHeader_isInfix hheaders hhost
  constructor
  · rcases htoken with htoken | htoken
    · exact requestHeader_isInfix hheaders htoken
    · exact (queryGet_isInfix htoken).trans hquery
  · rcases hexpected with rfl | rfl
    · exact .inl hpiece
    · exact .inr hpiece

/-- A connection that comes to a request has sent it. -/
lemma answer_handled {sent body : Bytes} {request : Request}
    (h : answer sent = .handled request body) :
    ∃ headLen, requestParse (sent.take (requestBufCap - 1)) = .ok (request, headLen) := by
  unfold answer conclude at h
  split_ifs at h
  split at h
  · cases h
  · next parsed headLen hparse =>
    split at h
    · cases h
    · split_ifs at h
      obtain ⟨rfl, _⟩ := Ending.handled.inj h
      exact ⟨headLen, hparse⟩

lemma answer_refusal {sent : Bytes} {response : Response}
    (h : answer sent = .answered response) : response ∈ refusals := by
  unfold answer conclude at h
  split_ifs at h
  · split at h
    · obtain rfl := Ending.answered.inj h
      simp [refusals]
    · split at h
      · obtain rfl := Ending.answered.inj h
        simp [refusals]
      · split_ifs at h
        obtain rfl := Ending.answered.inj h
        simp [refusals]
  · obtain rfl := Ending.answered.inj h
    simp [refusals]

/-- Whatever bytes a client sends, unless the launch token and one of the two host names are among
them, the server closes the connection or sends one of its refusals, and neither the state of the
application nor the set of scans has changed. -/
theorem untokened_refused (client : Client)
    (h : ¬ (app.token <:+: client.sent ∧ (app.expectedHost <:+: client.sent ∨
      app.expectedHostLocalhost <:+: client.sent))) :
    (∀ response ∈ responseTo env app (ending client), response ∈ refusals) ∧
      effectOf env app (ending client) = (app, none) := by
  rw [ending_eq]
  cases hanswer : answer client.sent with
  | closed =>
    refine ⟨fun response hresponse => ?_, rfl⟩
    cases hresponse
  | answered response =>
    refine ⟨fun response' hresponse => ?_, rfl⟩
    obtain rfl := Option.some.inj hresponse
    exact answer_refusal hanswer
  | handled request body =>
    obtain ⟨headLen, hparse⟩ := answer_handled hanswer
    have hrefused : requestIsAuthorized app request = false := by
      by_contra hauthorized
      have hpieces := authorized_pieces app hparse (by simpa using hauthorized)
      have hfront := (List.take_prefix (requestBufCap - 1) client.sent).isInfix
      exact h ⟨hpieces.1.trans hfront,
        hpieces.2.imp (fun hhost => hhost.trans hfront) fun hhost => hhost.trans hfront⟩
    have hhandled : handleRequest env app request =
        ⟨sendText 403 (ascii "Forbidden") 9, app, none⟩ := by
      rw [handleRequest, hrefused]
      rfl
    refine ⟨fun response hresponse => ?_, ?_⟩
    · obtain rfl := Option.some.inj hresponse
      rw [hhandled]
      simp [refusals]
    · rw [effectOf, hhandled]

/-- A request with a guessed token. -/
def guessedRequest : Client where
  sent := ascii "GET /?token=00fe HTTP/1.1\r\nHost: 127.0.0.1:8080\r\n\r\n"
  segment _ := 9

theorem guessed_refused :
    effectOf halfEnv (App.create (ascii "00ff") 8080) (ending guessedRequest) =
      (App.create (ascii "00ff") 8080, none) :=
  (untokened_refused halfEnv (App.create (ascii "00ff") 8080) guessedRequest (by decide)).2

end UsbSentinel.Web
