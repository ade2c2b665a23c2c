import UsbSentinel.AsciiCase
import UsbSentinel.Status

/-! The head of an HTTP request: request line, headers, query values. Every piece is copied
into a bounded field and cut there; nothing is percent-decoded. -/
namespace UsbSentinel.Http
open ByteString

def methodMax : ℕ := 8
def pathMax : ℕ := 256
def queryMax : ℕ := 256
def headerNameMax : ℕ := 64
def headerValueMax : ℕ := 512
def maxHeaders : ℕ := 16

structure Header where
  name : Bytes := []
  value : Bytes := []
  deriving DecidableEq, Repr

structure Request where
  method : Bytes := []
  path : Bytes := []
  /-- Without the question mark. -/
  query : Bytes := []
  headers : List Header := []
  deriving DecidableEq, Repr

def isWhite (c : UInt8) : Bool := c = 32 || (9 ≤ c && c ≤ 13)

/-- `%<width>s`: the word after any white space, and what follows it. -/
def scanWord (width : ℕ) (text : Bytes) : Option (Bytes × Bytes) :=
  let start := text.dropWhile isWhite
  let word := (start.takeWhile fun c => !isWhite c).take width
  if word = [] then none else some (word, start.drop word.length)

def requestLineMax : ℕ := methodMax + pathMax + queryMax + 40

def parseRequestLine (line : Bytes) : Except Status Request :=
  if line.length ≥ requestLineMax then .error .io
  else
    match scanWord 7 (cstr line) with
    | none => .error .io
    | some (method, rest) =>
      match scanWord 511 rest with
      | none => .error .io
      | some (fullPath, rest) =>
        match scanWord 31 rest with
        | none => .error .io
        | some _ =>
          .ok {
            method := cut methodMax method
            path := cut pathMax (fullPath.takeWhile (· ≠ 63))
            query := cut queryMax ((fullPath.dropWhile (· ≠ 63)).drop 1) }

/-- A header without a colon leaves its slot empty. -/
def parseHeaderLine (line : Bytes) : Header :=
  if 58 ∈ line then
    let value := ((line.dropWhile (· ≠ 58)).drop 1).dropWhile fun c => c = 32 || c = 9
    { name := cstr (cut headerNameMax (line.takeWhile (· ≠ 58)))
      value := cstr (cut headerValueMax value) }
  else {}

/-- The lines from here to the end of the head; an empty one ends them. Every turn uses up
a byte of the text. -/
def headerLines : ℕ → Bytes → List Bytes
  | 0, _ => []
  | turns + 1, text =>
    let line := text.takeWhile (· ≠ 13)
    if line = [] then [] else line :: headerLines turns (text.drop (line.length + 2))

def blankLine : Bytes := [13, 10, 13, 10]

/-- What stands in front of the first blank line. -/
def headEnd : Bytes → Option ℕ
  | [] => none
  | c :: rest =>
    if blankLine <+: c :: rest then some 0 else (headEnd rest).map (· + 1)

/-- The request and the length of its head. -/
def requestParse (buf : Bytes) : Except Status (Request × ℕ) :=
  match headEnd buf with
  | none => .error .io
  | some headLen =>
    let line := buf.takeWhile (· ≠ 13)
    match parseRequestLine line with
    | .error e => .error e
    | .ok request =>
      let headers := headerLines headLen ((buf.take headLen).drop (line.length + 2))
      .ok ({ request with headers := (headers.map parseHeaderLine).take maxHeaders }, headLen + 4)

def requestHeader (request : Request) (name : Bytes) : Option Bytes :=
  (request.headers.find? fun h => equalsCi h.name name).map Header.value

/-- The value of the first pair with this key, cut to `cap`. -/
def queryGet (key : Bytes) (cap : ℕ) (query : Bytes) : Option Bytes :=
  (query.splitOn 38).findSome? fun pair =>
    if key.length < pair.length ∧ pair[key.length]? = some 61 ∧ key <+: pair then
      some (cut cap (pair.drop (key.length + 1)))
    else none

end UsbSentinel.Http
