import UsbSentinel.HttpConnection
import UsbSentinel.HttpMessage

/-! What goes back over a connection: header and body in as many sends as it takes. A client that
reads HTTP gets the response whole, or a front of it when it goes away. -/
namespace UsbSentinel.Http
open ByteString HttpMessage UsbSentinel.Web

def statusText : ℕ → Bytes
  | 200 => ascii "OK"
  | 202 => ascii "Accepted"
  | 400 => ascii "Bad Request"
  | 403 => ascii "Forbidden"
  | 404 => ascii "Not Found"
  | 405 => ascii "Method Not Allowed"
  | 409 => ascii "Conflict"
  | 413 => ascii "Payload Too Large"
  | 500 => ascii "Internal Server Error"
  | _ => ascii "Error"

def responseHeaderMax : ℕ := 1024

/-- What the header is printed as, before it is known to fit. -/
def responseHeader (statusCode : ℕ) (contentType : Bytes) (bodyLen : ℕ) (extraHeaders : Bytes) :
    Bytes :=
  ascii "HTTP/1.1 " ++ decimal statusCode ++ ascii " " ++ statusText statusCode ++ crlf ++
    (ascii "Content-Type: " ++ contentType ++ crlf) ++
    (ascii "Content-Length: " ++ decimal bodyLen ++ crlf) ++
    (ascii "Connection: close" ++ crlf) ++ extraHeaders ++ crlf

/-- What the calls of `send` on a connection do, in turn: one takes at most so many bytes and one
more, or it fails. -/
abbrev Peer := ℕ → Option ℕ

/-- The calls made so far and the bytes they took. Every call that does not fail takes a byte,
so the length of the data bounds the turns. -/
def sendAll (peer : Peer) : ℕ → Bytes → ℕ × Bytes → ℕ × Bytes
  | 0, _, st => st
  | turns + 1, data, (calls, sent) =>
    if data = [] then (calls, sent)
    else
      match peer calls with
      | none => (calls + 1, sent)
      | some k => sendAll peer turns (data.drop (k + 1)) (calls + 1, sent ++ data.take (k + 1))

/-- The bytes sent as the body; `beyond` is what the memory holds behind its terminator. -/
def bodyBytes (beyond : ℕ → UInt8) (response : Response) : Bytes :=
  (List.range response.bodyLen).map fun i => (response.body ++ [0]).getD i (beyond i)

/-- `http_send_response`, on a connection that has taken nothing yet. -/
def sendResponse (peer : Peer) (beyond : ℕ → UInt8) (response : Response)
    (extraHeaders : Bytes) : Bytes :=
  let header := responseHeader response.statusCode response.contentType response.bodyLen extraHeaders
  let st :=
    if header.length < responseHeaderMax then sendAll peer header.length header (0, []) else (0, [])
  let body := bodyBytes beyond response
  let st := if response.bodyLen > 0 then sendAll peer body.length body st else st
  st.2

/-- The response to what a connection came to, if there is one. -/
def responseTo {ρ : Type} (env : Env ρ) (app : App ρ) : Ending → Option Response
  | .closed => none
  | .answered response => some response
  | .handled request _ => some (handleRequest env app request).response

/-- The bytes that go back over one connection. -/
def serveConnection {ρ : Type} (env : Env ρ) (app : App ρ) (client : Client) (peer : Peer)
    (beyond : ℕ → UInt8) : Bytes :=
  match responseTo env app (ending client) with
  | none => []
  | some response => sendResponse peer beyond response []

/-- Calls that all succeed. -/
def Peer.Stays (peer : Peer) : Prop := ∀ n, peer n ≠ none

/-- A peer that is gone stays gone. -/
def Peer.GoneForGood (peer : Peer) : Prop := ∀ n, peer n = none → peer (n + 1) = none

lemma sendAll_stays {peer : Peer} (h : peer.Stays) {turns : ℕ} {data : Bytes}
    (hturns : data.length ≤ turns) (calls : ℕ) (sent : Bytes) :
    (sendAll peer turns data (calls, sent)).2 = sent ++ data := by
  induction turns generalizing data calls sent with
  | zero =>
    obtain rfl := List.length_eq_zero_iff.mp (Nat.le_zero.mp hturns)
    rw [sendAll, List.append_nil]
  | succ turns ih =>
    rw [sendAll]
    by_cases hdata : data = []
    · rw [if_pos hdata, hdata, List.append_nil]
    rw [if_neg hdata]
    obtain ⟨k, hk⟩ := Option.ne_none_iff_exists'.mp (h calls)
    have hpos := List.length_pos_of_ne_nil hdata
    simp only [hk]
    rw [ih (by rw [List.length_drop]; omega), List.append_assoc, List.take_append_drop]

/-- A front of the data is sent, and all of it unless the peer went away. -/
lemma sendAll_front {peer : Peer} (h : peer.GoneForGood) {turns : ℕ} {data : Bytes}
    (hturns : data.length ≤ turns) (calls : ℕ) (sent : Bytes) :
    ∃ n, (sendAll peer turns data (calls, sent)).2 = sent ++ data.take n ∧
      (data.length ≤ n ∨ peer (sendAll peer turns data (calls, sent)).1 = none) := by
  induction turns generalizing data calls sent with
  | zero =>
    obtain rfl := List.length_eq_zero_iff.mp (Nat.le_zero.mp hturns)
    exact ⟨0, by rw [sendAll, List.take_zero, List.append_nil], .inl le_rfl⟩
  | succ turns ih =>
    rw [sendAll]
    by_cases hdata : data = []
    · rw [if_pos hdata, hdata]
      exact ⟨0, by rw [List.take_zero, List.append_nil], .inl le_rfl⟩
    rw [if_neg hdata]
    have hpos := List.length_pos_of_ne_nil hdata
    cases hk : peer calls with
    | none => exact ⟨0, by rw [List.take_zero, List.append_nil], .inr (h calls hk)⟩
    | some k =>
      simp only
      have hleft : (data.drop (k + 1)).length ≤ turns := by
        rw [List.length_drop]
        omega
      obtain ⟨n, hsent, hend⟩ := ih hleft (calls + 1) (sent ++ data.take (k + 1))
      refine ⟨k + 1 + n, ?_, hend.imp_left fun hle => ?_⟩
      · rw [hsent, List.append_assoc, ← List.take_add]
      · rw [List.length_drop] at hle
        omega

lemma sendAll_gone {peer : Peer} {calls : ℕ} (h : peer calls = none) (turns : ℕ)
    (data sent : Bytes) : (sendAll peer turns data (calls, sent)).2 = sent := by
  cases turns with
  | zero => rfl
  | succ turns =>
    rw [sendAll]
    split_ifs
    · rfl
    · rw [h]

/-- The message a client is meant to get. -/
def messageOf (beyond : ℕ → UInt8) (response : Response) : Message where
  code := response.statusCode
  reason := statusText response.statusCode
  fields := [(ascii "Content-Type", response.contentType),
    (ascii "Content-Length", decimal response.bodyLen), (ascii "Connection", ascii "close")]
  body := bodyBytes beyond response

def statusCodes : List ℕ := [200, 202, 400, 403, 404, 409, 413, 500]

def contentTypes : List Bytes :=
  [applicationJson, ascii "text/plain", ascii "text/html; charset=utf-8"]

/-- A response of the kinds the server gives. -/
structure Known (response : Response) : Prop where
  status : response.statusCode ∈ statusCodes
  content : response.contentType ∈ contentTypes

lemma bodyBytes_length (beyond : ℕ → UInt8) (response : Response) :
    (bodyBytes beyond response).length = response.bodyLen := by
  rw [bodyBytes, List.length_map, List.length_range]

/-- Where the length is that of the text, the text is what is sent. -/
lemma bodyBytes_whole (beyond : ℕ → UInt8) {response : Response}
    (h : response.bodyLen ≤ response.body.length) :
    bodyBytes beyond response = response.body.take response.bodyLen := by
  apply List.ext_getElem
  · rw [bodyBytes_length, List.length_take, Nat.min_eq_left h]
  · intro i hi _
    rw [bodyBytes_length] at hi
    have hin : i < (response.body ++ [0]).length := by
      rw [List.length_append, List.length_singleton]
      omega
    simp only [bodyBytes, List.getElem_map, List.getElem_range, List.getD_eq_getElem _ _ hin,
      List.getElem_take]
    exact List.getElem_append_left (by omega)

lemma responseHeader_encode (beyond : ℕ → UInt8) (response : Response) :
    responseHeader response.statusCode response.contentType response.bodyLen [] ++
      bodyBytes beyond response = encode (messageOf beyond response) := by
  have hfield : ∀ name value : Bytes,
      encodeField (name, value) = name ++ ascii ": " ++ value ++ crlf := fun _ _ => rfl
  have htype : ascii "Content-Type: " = ascii "Content-Type" ++ ascii ": " := by decide
  have hlength : ascii "Content-Length: " = ascii "Content-Length" ++ ascii ": " := by decide
  have hclose : ascii "Connection: close" = ascii "Connection" ++ ascii ": " ++ ascii "close" := by
    decide
  rw [responseHeader, htype, hlength, hclose, encode, encodeHead, messageOf]
  simp only [List.flatMap_cons, List.flatMap_nil, hfield, List.append_assoc, List.append_nil]

lemma messageOf_wellFormed (beyond : ℕ → UInt8) {response : Response} (h : Known response) :
    WellFormed (messageOf beyond response) where
  reason := by
    have hall : ∀ code ∈ statusCodes, (13 : UInt8) ∉ statusText code := by decide
    exact hall _ h.status
  names f hf := by
    have hall : ∀ name ∈ [ascii "Content-Type", ascii "Content-Length", ascii "Connection"],
        name ≠ [] ∧ (13 : UInt8) ∉ name ∧ (58 : UInt8) ∉ name := by decide
    simp only [messageOf, List.mem_cons, List.not_mem_nil, or_false] at hf
    rcases hf with rfl | rfl | rfl
    · exact hall _ (by simp)
    · exact hall _ (by simp)
    · exact hall _ (by simp)
  values f hf := by
    have hall : ∀ value ∈ ascii "close" :: contentTypes,
        (13 : UInt8) ∉ value ∧ value.head? ≠ some 32 := by decide
    simp only [messageOf, List.mem_cons, List.not_mem_nil, or_false] at hf
    rcases hf with rfl | rfl | rfl
    · exact hall _ (List.mem_cons_of_mem _ h.content)
    · refine ⟨decimal_not_mem (by decide), fun hhead => ?_⟩
      exact decimal_not_mem (n := response.bodyLen) (c := 32) (by decide)
        (List.mem_of_head? hhead)
    · exact hall _ (List.mem_cons_self ..)
  length := by
    have hfirst : ascii "Content-Type" ≠ ascii "Content-Length" := by decide
    simp only [messageOf, fieldNamed, bodyBytes_length]
    rw [List.find?_cons_of_neg (by simpa using hfirst), List.find?_cons_of_pos (by simp)]
    rfl

/-- The header always fits its buffer. -/
lemma responseHeader_fits {response : Response} (h : Known response)
    (hsize : response.bodyLen < 2 ^ 64) :
    (responseHeader response.statusCode response.contentType response.bodyLen []).length <
      responseHeaderMax := by
  have hcode : ∀ code ∈ statusCodes,
      (decimal code).length = 3 ∧ (statusText code).length ≤ 21 := by decide
  have hcontent : ∀ value ∈ contentTypes, value.length ≤ 24 := by decide
  have hdigits := decimal_length (n := response.bodyLen) (by omega)
  obtain ⟨hthree, htext⟩ := hcode _ h.status
  have htype := hcontent _ h.content
  have hliterals : (ascii "HTTP/1.1 ").length = 9 ∧ (ascii " ").length = 1 ∧
      (ascii "Content-Type: ").length = 14 ∧ (ascii "Content-Length: ").length = 16 ∧
      (ascii "Connection: close").length = 17 ∧ crlf.length = 2 := by decide
  obtain ⟨h1, h2, h3, h4, h5, h6⟩ := hliterals
  simp only [responseHeader, List.length_append, List.length_nil, h1, h2, h3, h4, h5, h6, hthree,
    responseHeaderMax]
  omega

lemma sendResponse_stays {peer : Peer} (hpeer : peer.Stays) (beyond : ℕ → UInt8)
    {response : Response} (h : Known response) (hsize : response.bodyLen < 2 ^ 64) :
    sendResponse peer beyond response [] = encode (messageOf beyond response) := by
  have hfits := responseHeader_fits h hsize
  have hlength := bodyBytes_length beyond response
  rw [← responseHeader_encode]
  unfold sendResponse
  simp only [if_pos hfits]
  generalize responseHeader response.statusCode response.contentType response.bodyLen [] = header
  generalize hst : sendAll peer _ _ (0, []) = st
  have hsent : st.2 = header := by
    rw [← hst, sendAll_stays hpeer le_rfl, List.nil_append]
  obtain ⟨calls, sent⟩ := st
  simp only at hsent
  by_cases hbody : response.bodyLen > 0
  · rw [if_pos hbody, sendAll_stays hpeer le_rfl, hsent]
  · have hnil : bodyBytes beyond response = [] := List.eq_nil_of_length_eq_zero (by omega)
    rw [if_neg hbody, hnil, List.append_nil, hsent]

/-- A client that reads to the end reads the message it is meant to get. -/
lemma decode_sendResponse {peer : Peer} (hpeer : peer.Stays) (beyond : ℕ → UInt8)
    {response : Response} (h : Known response) (hsize : response.bodyLen < 2 ^ 64) :
    decode (sendResponse peer beyond response []) = some (messageOf beyond response) := by
  rw [sendResponse_stays hpeer beyond h hsize]
  exact decode_encode (messageOf_wellFormed beyond h)

lemma sendResponse_front {peer : Peer} (hpeer : peer.GoneForGood) (beyond : ℕ → UInt8)
    {response : Response} (h : Known response) (hsize : response.bodyLen < 2 ^ 64) :
    sendResponse peer beyond response [] <+: encode (messageOf beyond response) := by
  have hfits := responseHeader_fits h hsize
  rw [← responseHeader_encode]
  unfold sendResponse
  simp only [if_pos hfits]
  generalize responseHeader response.statusCode response.contentType response.bodyLen [] = header
  obtain ⟨n, hsent, hend⟩ := sendAll_front hpeer (le_refl header.length) 0 []
  generalize sendAll peer _ _ (0, []) = st at hsent hend ⊢
  obtain ⟨calls, sent⟩ := st
  simp only [List.nil_append] at hsent hend
  subst hsent
  have hheader : header.take n <+: header ++ bodyBytes beyond response :=
    (List.take_prefix _ _).trans (List.prefix_append _ _)
  by_cases hbody : response.bodyLen > 0
  · rw [if_pos hbody]
    rcases hend with hwhole | hgone
    · obtain ⟨m, hmore, _⟩ := sendAll_front hpeer (le_refl (bodyBytes beyond response).length)
        calls (header.take n)
      rw [hmore, List.take_of_length_le hwhole]
      exact (List.prefix_append_right_inj _).mpr (List.take_prefix _ _)
    · rw [sendAll_gone hgone]
      exact hheader
  · rw [if_neg hbody]
    exact hheader

lemma sendText_known {statusCode : ℕ} (h : statusCode ∈ statusCodes) (body : Bytes) (bodyLen : ℕ) :
    Known (sendText statusCode body bodyLen) :=
  ⟨h, by simp [sendText, contentTypes]⟩

lemma sendJson_known {statusCode : ℕ} (h : statusCode ∈ statusCodes) (body : Bytes) (bodyLen : ℕ) :
    Known (sendJson statusCode body bodyLen) :=
  ⟨h, List.mem_cons_self ..⟩

section Handlers
variable {ρ : Type} (env : Env ρ) (app : App ρ)

lemma handleDevices_known : Known (handleDevices env) := by
  unfold handleDevices
  split
  · exact sendJson_known (by decide) _ _
  · split
    · exact sendJson_known (by decide) _ _
    · exact sendJson_known (by decide) _ _

lemma handleScanStart_known (request : Request) :
    Known (handleScanStart env app request).response := by
  unfold handleScanStart
  cases queryGet (ascii "device") 256 request.query with
  | none => exact sendJson_known (by decide) _ _
  | some safeId =>
    by_cases hbusy : app.busy = true
    · simp only [hbusy, if_true]
      exact sendJson_known (by decide) _ _
    simp only [hbusy, Bool.false_eq_true, if_false]
    cases findDeviceBySafeId env safeId with
    | none => exact sendJson_known (by decide) _ _
    | some device =>
      simp only
      split_ifs <;> exact sendJson_known (by decide) _ _

lemma handleProgress_known : Known (handleProgress env app) := by
  unfold handleProgress
  split
  · exact sendJson_known (by decide) _ _
  · exact sendJson_known (by decide) _ _

lemma handleReport_known : Known (handleReport env app) := by
  unfold handleReport
  split
  · split
    · exact sendJson_known (by decide) _ _
    · exact sendJson_known (by decide) _ _
  · exact sendJson_known (by decide) _ _

/-- Every route answers with a status and a type the client knows. -/
lemma handleRequest_known (request : Request) : Known (handleRequest env app request).response := by
  unfold handleRequest
  split_ifs
  · exact sendText_known (by decide) _ _
  · cases route request with
    | page => exact ⟨by simp [statusCodes], by simp [contentTypes]⟩
    | devices => exact handleDevices_known env
    | scan => exact handleScanStart_known env app request
    | progress => exact handleProgress_known env app
    | cancel => exact sendJson_known (by decide) _ _
    | report => exact handleReport_known env app
    | none => exact sendText_known (by decide) _ _

lemma answer_known {sent : Bytes} {response : Response} (h : answer sent = .answered response) :
    Known response := by
  unfold answer conclude at h
  split_ifs at h with hhead hshort
  · split at h
    · obtain rfl := Ending.answered.inj h
      exact sendText_known (by decide) _ _
    · split at h
      · obtain rfl := Ending.answered.inj h
        exact sendText_known (by decide) _ _
      · split_ifs at h
        obtain rfl := Ending.answered.inj h
        exact sendText_known (by decide) _ _
  · obtain rfl := Ending.answered.inj h
    exact sendText_known (by decide) _ _

lemma responseTo_known {client : Client} {response : Response}
    (h : responseTo env app (ending client) = some response) : Known response := by
  rw [ending_eq] at h
  cases hanswer : answer client.sent with
  | closed =>
    rw [hanswer] at h
    cases h
  | answered r =>
    rw [hanswer] at h
    obtain rfl := Option.some.inj h
    exact answer_known hanswer
  | handled request body =>
    rw [hanswer] at h
    obtain rfl := Option.some.inj h
    exact handleRequest_known env app request

lemma responseTo_handled {client : Client} {request : Request} {body : Bytes}
    (hsent : answer client.sent = .handled request body) :
    responseTo env app (ending client) = some (handleRequest env app request).response := by
  rw [ending_eq, hsent, responseTo]

/-- Whatever a client sends, in whatever segments, and however few bytes each send takes: a
client that reads to the end of the connection reads the one response the server means, of a known
status and type and with a body as long as announced; one that goes away has a front of it. -/
theorem served_framed (client : Client) (peer : Peer) (beyond : ℕ → UInt8) {response : Response}
    (hresponse : responseTo env app (ending client) = some response)
    (hsize : response.bodyLen < 2 ^ 64) :
    Known response ∧
      (peer.Stays → decode (serveConnection env app client peer beyond) =
        some (messageOf beyond response)) ∧
      (peer.GoneForGood → serveConnection env app client peer beyond <+:
        encode (messageOf beyond response)) := by
  have hknown := responseTo_known env app hresponse
  have hserved : serveConnection env app client peer beyond =
      sendResponse peer beyond response [] := by
    rw [serveConnection, hresponse]
  rw [hserved]
  exact ⟨hknown, fun hpeer => decode_sendResponse hpeer beyond hknown hsize,
    fun hpeer => sendResponse_front hpeer beyond hknown hsize⟩

/-- A client that reads to the end reads the text that was meant for it. -/
lemma decode_sendJson {peer : Peer} (hpeer : peer.Stays) (beyond : ℕ → UInt8) {text : Bytes}
    (hsize : text.length < 2 ^ 64) :
    ∃ message, decode (sendResponse peer beyond (sendJson 200 text text.length) []) =
        some message ∧
      message.code = 200 ∧
      fieldNamed (ascii "Content-Type") message.fields = some applicationJson ∧
      message.body = text := by
  have hknown : Known (sendJson 200 text text.length) := sendJson_known (by decide) _ _
  have hbody : bodyBytes beyond (sendJson 200 text text.length) = text := by
    rw [bodyBytes_whole beyond (le_refl text.length)]
    exact List.take_length
  exact ⟨messageOf beyond (sendJson 200 text text.length),
    decode_sendResponse hpeer beyond hknown hsize, rfl, rfl, hbody⟩

end Handlers

/-- A request without a version, sent byte by byte. -/
def halfRequest : Client := ⟨ascii "GET /\r\n\r\n", fun _ => 0⟩

def halfEnv : Env ℕ where
  enumerate := .ok []
  realloc _ := true
  calloc := true
  pthreadCreate := true
  buildReport _ := .error .internal
  indexHtml := []

theorem halfRequest_framed :
    decode (serveConnection halfEnv (App.create (ascii "00ff") 8080) halfRequest (fun _ => some 2)
      fun _ => 0) =
        some (messageOf (fun _ => 0) (sendText 400 (ascii "Bad Request") 11)) := by
  have hanswer : answer halfRequest.sent = .answered (sendText 400 (ascii "Bad Request") 11) := by
    decide
  refine (served_framed halfEnv _ halfRequest _ _ ?_ (by decide)).2.1 fun _ h => by cases h
  rw [ending_eq, hanswer]
  rfl

end UsbSentinel.Http
