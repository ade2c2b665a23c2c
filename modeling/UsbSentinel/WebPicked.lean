import UsbSentinel.WebApp

/-! From the entry that is picked in the browser to the device that is scanned: the request
line, the query, and the search for the safe id. -/
namespace UsbSentinel.Http
open ByteString

/-! ### Reading the request line -/

lemma scanWord_blank {width : ℕ} {c : UInt8} (hc : isWhite c = true) (text : Bytes) :
    scanWord width (c :: text) = scanWord width text := by
  unfold scanWord
  rw [List.dropWhile_cons_of_pos hc]

lemma scanWord_word {width : ℕ} {word rest : Bytes} (hwidth : 0 < width) (hne : word ≠ [])
    (hword : ∀ c ∈ word, isWhite c = false) :
    scanWord width (word ++ 32 :: rest) =
      some (word.take width, word.drop width ++ 32 :: rest) := by
  obtain ⟨c, cs, rfl⟩ := List.exists_cons_of_ne_nil hne
  have hstart : (c :: cs ++ 32 :: rest).dropWhile isWhite = c :: cs ++ 32 :: rest := by
    rw [List.cons_append, List.dropWhile_cons_of_neg (by simp [hword c])]
  have htake : (c :: cs ++ 32 :: rest).takeWhile (fun c => !isWhite c) = c :: cs := by
    rw [List.takeWhile_append_of_pos (by
      intro d hd
      simp [hword d hd])]
    rw [List.takeWhile_cons_of_neg (by decide), List.append_nil]
  unfold scanWord
  simp only [hstart, htake]
  have htaken : (c :: cs).take width ≠ [] := by
    obtain ⟨n, rfl⟩ := Nat.exists_eq_succ_of_ne_zero (Nat.ne_of_gt hwidth)
    simp
  rw [if_neg htaken, List.length_take]
  congr 2
  by_cases hlen : width ≤ (c :: cs).length
  · rw [Nat.min_eq_left hlen, List.drop_append_of_le_length hlen]
  · have hle : (c :: cs).length ≤ width := by omega
    rw [Nat.min_eq_right hle, List.drop_append_of_le_length le_rfl, List.drop_length,
      List.drop_eq_nil_of_le hle]

lemma scanWord_isSome {width : ℕ} {text : Bytes} (hwidth : 0 < width)
    (h : ∃ c ∈ text, isWhite c = false) : (scanWord width text).isSome = true := by
  induction text with
  | nil => simp at h
  | cons c text ih =>
    by_cases hc : isWhite c = true
    · rw [scanWord_blank hc]
      obtain ⟨d, hd, hwhite⟩ := h
      rcases List.mem_cons.mp hd with rfl | hd
      · rw [hc] at hwhite
        cases hwhite
      · exact ih ⟨d, hd, hwhite⟩
    · obtain ⟨n, rfl⟩ := Nat.exists_eq_succ_of_ne_zero (Nat.ne_of_gt hwidth)
      unfold scanWord
      rw [List.dropWhile_cons_of_neg hc]
      simp [hc]

/-- A byte of a value that needs no escape in a URL, or of the marks between values. -/
def isQueryByte (c : UInt8) : Bool := Store.isSafe c || c = 61 || c = 38

lemma isQueryByte_plain : ∀ c : UInt8, isQueryByte c = true →
    isWhite c = false ∧ c ≠ 63 ∧ c ≠ 0 ∧ c ≠ 13 := by
  unfold isQueryByte isWhite Store.isSafe
  decide +kernel

/-- The first line of a request for the route. -/
def startLine (query : Bytes) : Bytes := ascii "POST /api/scan?" ++ query ++ ascii " HTTP/1.1"

lemma startLine_plain {query : Bytes} (hquery : ∀ c ∈ query, isQueryByte c = true) :
    ∀ c ∈ startLine query, c ≠ 0 ∧ c ≠ 13 := by
  intro c hc
  unfold startLine at hc
  rcases List.mem_append.mp hc with hc | hc
  · rcases List.mem_append.mp hc with hc | hc
    · have hfixed : ∀ c ∈ ascii "POST /api/scan?", c ≠ 0 ∧ c ≠ 13 := by
        rw [ascii_ofList]
        decide +kernel
      exact hfixed c hc
    · exact (isQueryByte_plain c (hquery c hc)).2.2
  · have hfixed : ∀ c ∈ ascii " HTTP/1.1", c ≠ 0 ∧ c ≠ 13 := by
      rw [ascii_ofList]
      decide +kernel
    exact hfixed c hc

/-- The query is kept up to the size of its field. -/
lemma parseRequestLine_start {query : Bytes} (hquery : ∀ c ∈ query, isQueryByte c = true)
    (hfits : (startLine query).length < requestLineMax) :
    parseRequestLine (startLine query) =
      .ok { method := ascii "POST", path := ascii "/api/scan", query := query.take 255 } := by
  have hcstr : cstr (startLine query) = startLine query :=
    cstr_eq_self fun h => (startLine_plain hquery 0 h).1 rfl
  have hpath : ∀ c ∈ ascii "/api/scan?" ++ query, isWhite c = false := by
    intro c hc
    rcases List.mem_append.mp hc with hc | hc
    · have hfixed : ∀ c ∈ ascii "/api/scan?", isWhite c = false := by
        rw [ascii_ofList]
        decide +kernel
      exact hfixed c hc
    · exact (isQueryByte_plain c (hquery c hc)).1
  have hsplit : startLine query =
      ascii "POST" ++ 32 :: (ascii "/api/scan?" ++ query ++ 32 :: ascii "HTTP/1.1") := by
    simp [startLine, ascii]
  have hmethod : scanWord 7 (startLine query) =
      some (ascii "POST", 32 :: (ascii "/api/scan?" ++ query ++ 32 :: ascii "HTTP/1.1")) := by
    rw [hsplit, scanWord_word (by decide) (by decide) (by decide +kernel)]
    rfl
  have hfull := @scanWord_word 511 (ascii "/api/scan?" ++ query) (ascii "HTTP/1.1") (by decide)
    (by simp [ascii]) hpath
  have hversion : (scanWord 31 ((ascii "/api/scan?" ++ query).drop 511 ++
      32 :: ascii "HTTP/1.1")).isSome = true :=
    scanWord_isSome (by decide) ⟨72, by simp [ascii], by decide⟩
  obtain ⟨version, hversion⟩ := Option.isSome_iff_exists.mp hversion
  have htake : (ascii "/api/scan?" ++ query).take 511 = ascii "/api/scan?" ++ query.take 501 := by
    rw [List.take_append]
    rfl
  unfold parseRequestLine
  rw [if_neg (by omega), hcstr, hmethod]
  simp only
  rw [scanWord_blank (by decide), hfull]
  simp only [hversion, htake]
  have hbefore : (ascii "/api/scan?" ++ query.take 501).takeWhile (· ≠ 63) =
      ascii "/api/scan" := rfl
  have hafter : ((ascii "/api/scan?" ++ query.take 501).dropWhile (· ≠ 63)).drop 1 =
      query.take 501 := rfl
  rw [hbefore, hafter]
  simp only [cut, queryMax, List.take_take]
  rfl

/-! ### Reading a query -/

lemma queryGet_last {key value : Bytes} {cap : ℕ} (hplain : (38 : UInt8) ∉ key ++ 61 :: value) :
    queryGet key cap (key ++ 61 :: value) = some (cut cap value) := by
  have hsplit : (key ++ 61 :: value).splitOn 38 = [key ++ 61 :: value] :=
    List.splitOnP_eq_singleton (by
      intro c hc
      simpa using fun h : c = 38 => hplain (h ▸ hc))
  unfold queryGet
  rw [hsplit]
  have hdrop : (key ++ 61 :: value).drop (key.length + 1) = value := by
    rw [← List.drop_drop, List.drop_left]
    rfl
  simp [hdrop]

lemma queryGet_skip {key pair rest : Bytes} {cap : ℕ} (hpair : (38 : UInt8) ∉ pair)
    (hkey : ¬ key <+: pair) : queryGet key cap (pair ++ 38 :: rest) = queryGet key cap rest := by
  have hsplit : (pair ++ 38 :: rest).splitOn 38 = pair :: rest.splitOn 38 := by
    unfold List.splitOn
    rw [List.splitOnP_append_cons _ _ (by simp), List.splitOnP_eq_singleton (by
      intro c hc
      simpa using fun h : c = 38 => hpair (h ▸ hc))]
    rfl
  unfold queryGet
  rw [hsplit, List.findSome?_cons]
  simp [hkey]

end UsbSentinel.Http

namespace UsbSentinel.Web
open ByteString UsbSentinel.Http

variable {ρ : Type}

/-- The device whose scan a request buffer starts. -/
def serve (env : Env ρ) (app : App ρ) (buf : Bytes) : Option Device :=
  match requestParse buf with
  | .error _ => none
  | .ok (request, _) => (handleRequest env app request).started

/-- The token as the launcher makes it: it fits its field and needs no escape in a URL. -/
def IsToken (token : Bytes) : Prop := token.length ≤ 64 ∧ ∀ c ∈ token, Store.isSafe c = true

def tokenPart (app : App ρ) (withToken : Bool) : Bytes :=
  if withToken then ascii "token=" ++ app.token ++ ascii "&" else []

/-- The query of a start for the entry `d`: the frontend sends the token in a header. -/
def pickedQuery (app : App ρ) (withToken : Bool) (d : Device) : Bytes :=
  tokenPart app withToken ++ ascii "device=" ++ safeIdOf d

/-- What is left of the safe id in the query field. -/
def keptId (app : App ρ) (withToken : Bool) (d : Device) : Bytes :=
  (safeIdOf d).take (248 - (tokenPart app withToken).length)

def startBuffer (app : App ρ) (withToken : Bool) (d : Device) (rest : Bytes) : Bytes :=
  startLine (pickedQuery app withToken d) ++ 13 :: 10 :: rest

/-- The request that is read from a buffer with this first line. -/
def startRequest (app : App ρ) (withToken : Bool) (d : Device) (rest : Bytes) (headLen : ℕ) :
    Request where
  method := ascii "POST"
  path := ascii "/api/scan"
  query := (pickedQuery app withToken d).take 255
  headers := ((headerLines headLen (((startBuffer app withToken d rest).take headLen).drop
    ((startLine (pickedQuery app withToken d)).length + 2))).map parseHeaderLine).take maxHeaders

/-- The device goes by this safe id. -/
def Answers (device : Device) (safeId : Bytes) : Prop :=
  ∃ identity, deviceIdentity device identityMax = .ok identity ∧
    Store.safeId identity safeIdMax = .ok safeId

/-- A worker was started on the volume of `d`. -/
def Scanned (d : Device) (started : Option Device) : Prop :=
  ∃ device, started = some device ∧ device.volumePath = d.volumePath

/-- The request is read and accepted, a thread can be had, and the first of the devices that
goes by what is left of the safe id is mounted at the path of `d`. -/
structure FirstOfItsName (env : Env ρ) (app : App ρ) (devices : List Device) (withToken : Bool)
    (d : Device) (rest : Bytes) : Prop where
  line : (startLine (pickedQuery app withToken d)).length < requestLineMax
  accepted : ∃ headLen, headEnd (startBuffer app withToken d rest) = some headLen ∧
    requestIsAuthorized app (startRequest app withToken d rest headLen) = true
  resources : env.calloc = true ∧ env.pthreadCreate = true
  first : ∃ before device after, devices = before ++ device :: after ∧
    (∀ other ∈ before, ¬ Answers other (keptId app withToken d)) ∧
    Answers device (keptId app withToken d) ∧ deviceHasValidMountPoint device = true ∧
    device.volumePath = d.volumePath

/-! ### What the request says -/

lemma safeIdOf_safe (d : Device) : ∀ c ∈ safeIdOf d, Store.isSafe c = true := by
  intro c hc
  unfold safeIdOf at hc
  split at hc
  · next safeId h =>
    obtain ⟨_, rfl, _⟩ := Store.safeId_eq_ok.mp h
    exact Store.isSafe_of_mem_encode hc
  · simp at hc

lemma safe_ne : ∀ c : UInt8, Store.isSafe c = true → isQueryByte c = true ∧ c ≠ 38 := by
  unfold isQueryByte Store.isSafe
  decide +kernel

lemma tokenPart_plain {app : App ρ} (htoken : IsToken app.token) (withToken : Bool) :
    (∀ c ∈ tokenPart app withToken, isQueryByte c = true) ∧
      (tokenPart app withToken).length ≤ 71 := by
  unfold tokenPart
  cases withToken with
  | false => simp
  | true =>
    rw [if_pos rfl]
    constructor
    · intro c hc
      rcases List.mem_append.mp hc with hc | hc
      · rcases List.mem_append.mp hc with hc | hc
        · have hfixed : ∀ c ∈ ascii "token=", isQueryByte c = true := by decide +kernel
          exact hfixed c hc
        · exact (safe_ne c (htoken.2 c hc)).1
      · have hfixed : ∀ c ∈ ascii "&", isQueryByte c = true := by decide +kernel
        exact hfixed c hc
    · have hlen := htoken.1
      have hname : (ascii "token=").length = 6 := rfl
      have hmark : (ascii "&").length = 1 := rfl
      rw [List.length_append, List.length_append]
      omega

lemma pickedQuery_plain {app : App ρ} (htoken : IsToken app.token) (withToken : Bool)
    (d : Device) : ∀ c ∈ pickedQuery app withToken d, isQueryByte c = true := by
  intro c hc
  unfold pickedQuery at hc
  rcases List.mem_append.mp hc with hc | hc
  · rcases List.mem_append.mp hc with hc | hc
    · exact (tokenPart_plain htoken withToken).1 c hc
    · have hfixed : ∀ c ∈ ascii "device=", isQueryByte c = true := by decide +kernel
      exact hfixed c hc
  · exact (safe_ne c (safeIdOf_safe d c hc)).1

lemma queryGet_picked {app : App ρ} (htoken : IsToken app.token) (withToken : Bool)
    (d : Device) : queryGet (ascii "device") 256 ((pickedQuery app withToken d).take 255) =
      some (keptId app withToken d) := by
  obtain ⟨_, hshort⟩ := tokenPart_plain htoken withToken
  have hcut : (pickedQuery app withToken d).take 255 =
      tokenPart app withToken ++ (ascii "device" ++ 61 :: keptId app withToken d) := by
    have hname : (ascii "device=").length = 7 := rfl
    unfold pickedQuery keptId
    rw [List.append_assoc, List.take_append, List.take_of_length_le (by omega),
      List.take_append, List.take_of_length_le (by omega), hname,
      show 255 - (tokenPart app withToken).length - 7 = 248 - (tokenPart app withToken).length
        from by omega]
    rfl
  have hplain : (38 : UInt8) ∉ ascii "device" ++ 61 :: keptId app withToken d := by
    intro hmem
    rcases List.mem_append.mp hmem with hmem | hmem
    · exact absurd hmem (by decide)
    · rcases List.mem_cons.mp hmem with hmem | hmem
      · exact absurd hmem (by decide)
      · exact (safe_ne 38 (safeIdOf_safe d 38 (List.mem_of_mem_take hmem))).2 rfl
  have hkept : cut 256 (keptId app withToken d) = keptId app withToken d := by
    apply cut_eq_self
    unfold keptId
    rw [List.length_take]
    omega
  rw [hcut]
  cases withToken with
  | false =>
    rw [show tokenPart app false = [] from rfl, List.nil_append, queryGet_last hplain, hkept]
  | true =>
    have hpair : tokenPart app true ++ (ascii "device" ++ 61 :: keptId app true d) =
        (ascii "token=" ++ app.token) ++ 38 :: (ascii "device" ++ 61 :: keptId app true d) := by
      simp [tokenPart, show ascii "&" = [38] from rfl]
    have hand : (38 : UInt8) ∉ ascii "token=" ++ app.token := by
      intro hmem
      rcases List.mem_append.mp hmem with hmem | hmem
      · exact absurd hmem (by decide)
      · exact (safe_ne 38 (htoken.2 38 hmem)).2 rfl
    have hkey : ¬ ascii "device" <+: ascii "token=" ++ app.token := by
      intro h
      have hhead := List.IsPrefix.head h (by decide)
      simp [ascii] at hhead
    rw [hpair, queryGet_skip hand hkey, queryGet_last hplain, hkept]

/-! ### What the server makes of it -/

lemma startBuffer_line {app : App ρ} (htoken : IsToken app.token) {withToken : Bool}
    {d : Device} {rest : Bytes} : (startBuffer app withToken d rest).takeWhile (· ≠ 13) =
      startLine (pickedQuery app withToken d) := by
  have hplain := pickedQuery_plain htoken withToken d
  unfold startBuffer
  rw [List.takeWhile_append_of_pos (fun c hc => by
    simpa using (startLine_plain hplain c hc).2)]
  simp

lemma requestParse_start {app : App ρ} (htoken : IsToken app.token) {withToken : Bool}
    {d : Device} {rest : Bytes} {headLen : ℕ}
    (hhead : headEnd (startBuffer app withToken d rest) = some headLen)
    (hline : (startLine (pickedQuery app withToken d)).length < requestLineMax) :
    requestParse (startBuffer app withToken d rest) =
      .ok (startRequest app withToken d rest headLen, headLen + 4) := by
  have hplain := pickedQuery_plain htoken withToken d
  unfold requestParse
  rw [hhead]
  simp only [startBuffer_line htoken]
  rw [parseRequestLine_start hplain hline]
  rfl

lemma requestParse_tooLong {app : App ρ} (htoken : IsToken app.token) {withToken : Bool}
    {d : Device} {rest : Bytes}
    (hline : ¬ (startLine (pickedQuery app withToken d)).length < requestLineMax) :
    requestParse (startBuffer app withToken d rest) = .error .io := by
  unfold requestParse
  cases headEnd (startBuffer app withToken d rest) with
  | none => rfl
  | some headLen =>
    simp only [startBuffer_line htoken]
    rw [parseRequestLine, if_pos (by omega)]

lemma goesBy_iff {device : Device} {safeId : Bytes} :
    goesBy safeId device = true ↔ Answers device safeId := by
  unfold goesBy Answers
  cases deviceIdentity device identityMax with
  | error _ => simp
  | ok identity => simp

lemma findDevice_eq_some {env : Env ρ} {devices : List Device} {safeId : Bytes}
    {device : Device} (henumerate : env.enumerate = .ok devices) :
    findDeviceBySafeId env safeId = some device ↔
      ∃ before after, devices = before ++ device :: after ∧
        (∀ other ∈ before, ¬ Answers other safeId) ∧ Answers device safeId := by
  unfold findDeviceBySafeId
  rw [henumerate]
  simp only [List.find?_eq_some_iff_append, goesBy_iff]
  constructor
  · rintro ⟨hdevice, before, after, hsplit, hbefore⟩
    refine ⟨before, after, hsplit, ?_, hdevice⟩
    intro other hother h
    have hnot := hbefore other hother
    rw [goesBy_iff.mpr h] at hnot
    exact absurd hnot (by decide)
  · rintro ⟨before, after, hsplit, hbefore, hdevice⟩
    refine ⟨hdevice, before, after, hsplit, ?_⟩
    intro other hother
    by_contra hnot
    exact hbefore other hother (goesBy_iff.mp (by simpa using hnot))

lemma handleScanStart_started {env : Env ρ} {app : App ρ} {request : Request} {safeId : Bytes}
    {device : Device} (hquery : queryGet (ascii "device") 256 request.query = some safeId)
    (hidle : app.busy = false) :
    (handleScanStart env app request).started = some device ↔
      findDeviceBySafeId env safeId = some device ∧ deviceHasValidMountPoint device = true ∧
        env.calloc = true ∧ env.pthreadCreate = true := by
  unfold handleScanStart
  rw [hquery]
  simp only [hidle, Bool.false_eq_true, if_false]
  cases hfound : findDeviceBySafeId env safeId with
  | none => simp
  | some first =>
    simp only
    cases hmount : deviceHasValidMountPoint first with
    | false =>
      constructor
      · intro h
        simp at h
      · rintro ⟨hsame, hvalid, _⟩
        obtain rfl := Option.some.inj hsame
        rw [hmount] at hvalid
        cases hvalid
    | true =>
      cases env.calloc with
      | false => simp
      | true =>
        cases env.pthreadCreate with
        | false => simp
        | true =>
          simp only [Bool.not_true, Bool.false_eq_true, if_false]
          constructor
          · intro h
            obtain rfl := Option.some.inj h
            exact ⟨rfl, hmount, trivial, trivial⟩
          · exact fun h => h.1

theorem picked_isScanned_iff (env : Env ρ) {app : App ρ} (hidle : app.busy = false)
    (htoken : IsToken app.token) {devices : List Device} (henumerate : env.enumerate = .ok devices)
    (withToken : Bool) (d : Device) (rest : Bytes) :
    Scanned d (serve env app (startBuffer app withToken d rest)) ↔
      FirstOfItsName env app devices withToken d rest := by
  have hscan : ∀ headLen, route (startRequest app withToken d rest headLen) = .scan :=
    fun _ => rfl
  have hserve : ∀ headLen, headEnd (startBuffer app withToken d rest) = some headLen →
      (startLine (pickedQuery app withToken d)).length < requestLineMax →
      requestIsAuthorized app (startRequest app withToken d rest headLen) = true →
      serve env app (startBuffer app withToken d rest) =
        (handleScanStart env app (startRequest app withToken d rest headLen)).started := by
    intro headLen hhead hline hauthorized
    unfold serve handleRequest
    rw [requestParse_start htoken hhead hline]
    simp only [hauthorized, hscan, Bool.not_true, Bool.false_eq_true, if_false]
  have hid : ∀ headLen, queryGet (ascii "device") 256
      (startRequest app withToken d rest headLen).query = some (keptId app withToken d) :=
    fun _ => queryGet_picked htoken withToken d
  constructor
  · rintro ⟨device, hstarted, hpath⟩
    cases hhead : headEnd (startBuffer app withToken d rest) with
    | none => simp [serve, requestParse, hhead] at hstarted
    | some headLen =>
      by_cases hline : (startLine (pickedQuery app withToken d)).length < requestLineMax
      · by_cases hauthorized :
            requestIsAuthorized app (startRequest app withToken d rest headLen) = true
        · rw [hserve headLen hhead hline hauthorized] at hstarted
          obtain ⟨hfound, hmount, hresources⟩ :=
            (handleScanStart_started (hid headLen) hidle).mp hstarted
          obtain ⟨before, after, hsplit, hbefore, hdevice⟩ :=
            (findDevice_eq_some henumerate).mp hfound
          exact ⟨hline, ⟨headLen, hhead, hauthorized⟩, hresources,
            before, device, after, hsplit, hbefore, hdevice, hmount, hpath⟩
        · simp [serve, requestParse_start htoken hhead hline, handleRequest, hauthorized]
            at hstarted
      · rw [serve, requestParse_tooLong htoken hline] at hstarted
        cases hstarted
  · intro h
    obtain ⟨headLen, hhead, hauthorized⟩ := h.accepted
    obtain ⟨before, device, after, hsplit, hbefore, hdevice, hmount, hpath⟩ := h.first
    refine ⟨device, ?_, hpath⟩
    rw [hserve headLen hhead h.line hauthorized]
    apply (handleScanStart_started (hid headLen) hidle).mpr
    exact ⟨(findDevice_eq_some henumerate).mpr ⟨before, after, hsplit, hbefore, hdevice⟩,
      hmount, h.resources.1, h.resources.2⟩

/-! ### Two partitions of one stick -/

def firstPart : Device where
  volumePath := ascii "/media/u/A/"
  serial := ascii "S1"
  usbVid := ascii "0781"
  usbPid := ascii "5583"
  mountPoints := [ascii "/media/u/A"]
  mediaPresent := true

def secondPart : Device :=
  { firstPart with volumePath := ascii "/media/u/B/", mountPoints := [ascii "/media/u/B"] }

def launchedApp : App ℕ := App.create (ascii "00ff") 8080

def partsEnv : Env ℕ where
  enumerate := .ok [firstPart, secondPart]
  realloc := fun _ => true
  calloc := true
  pthreadCreate := true
  buildReport := fun _ => .error .noMemory
  indexHtml := []

def frontendHeaders : Bytes :=
  ascii "Host: 127.0.0.1:8080\x0d\nX-USBSentinel-Token: 00ff\x0d\n\x0d\n"

lemma launchedApp_token : IsToken launchedApp.token := by
  unfold IsToken
  decide +kernel

/-- Whichever of the two is picked, the first one is scanned. -/
lemma parts_served :
    serve partsEnv launchedApp (startBuffer launchedApp false firstPart frontendHeaders) =
      some firstPart ∧
    serve partsEnv launchedApp (startBuffer launchedApp false secondPart frontendHeaders) =
      some firstPart ∧ firstPart.volumePath ≠ secondPart.volumePath := by
  decide +kernel

lemma secondPart_missed : ¬ Scanned secondPart (serve partsEnv launchedApp
    (startBuffer launchedApp false secondPart frontendHeaders)) := by
  rintro ⟨device, hdevice, hpath⟩
  rw [parts_served.2.1] at hdevice
  obtain rfl := Option.some.inj hdevice
  exact parts_served.2.2 hpath

theorem picked_isScanned_parts :
    FirstOfItsName partsEnv launchedApp [firstPart, secondPart] false firstPart frontendHeaders ∧
      ¬ FirstOfItsName partsEnv launchedApp [firstPart, secondPart] false secondPart
        frontendHeaders := by
  have hfirst := @picked_isScanned_iff _ partsEnv launchedApp rfl launchedApp_token _ rfl false
    firstPart frontendHeaders
  have hsecond := @picked_isScanned_iff _ partsEnv launchedApp rfl launchedApp_token _ rfl false
    secondPart frontendHeaders
  exact ⟨hfirst.mp ⟨firstPart, parts_served.1, rfl⟩, fun h => secondPart_missed (hsecond.mpr h)⟩

/-- Picking the second partition scans the first. -/
theorem secondPart_notScanned :
    secondPart ∈ listed [firstPart, secondPart] ∧ deviceHasValidMountPoint secondPart = true ∧
      serve partsEnv launchedApp (startBuffer launchedApp false secondPart frontendHeaders) =
        some firstPart ∧
      ¬ Scanned secondPart (serve partsEnv launchedApp
        (startBuffer launchedApp false secondPart frontendHeaders)) := by
  have hshown : secondPart ∈ listed [firstPart, secondPart] ∧
      deviceHasValidMountPoint secondPart = true := by decide +kernel
  exact ⟨hshown.1, hshown.2, parts_served.2.1, secondPart_missed⟩

end UsbSentinel.Web
