import UsbSentinel.JsonLanguage
import UsbSentinel.Machine

/-! The JSON parser position by position: which bytes it reads, how its calls nest, what it
does to the depth counter, and where it ends. -/
namespace UsbSentinel.Json
open ByteString

inductive Event
  | read (index : ℕ)
  /-- A sum of a position and a length, before it is compared with the length of the text. -/
  | sum (value : ℕ)
  /-- A call of the value parser, with the number of such calls that are active then. -/
  | call (frames : ℕ)
  /-- A return from it: the depth counter at the call and now, the position at the call, and
  now if the call succeeded. -/
  | done (depth depth' pos : ℕ) (pos' : Option ℕ)

def Event.Allowed (len : ℕ) : Event → Prop
  | .read index => index < len
  | .sum value => value ≤ len + 5
  | .call frames => frames ≤ 33
  | .done depth depth' pos pos' => depth' = depth ∧ ∀ q ∈ pos', pos < q ∧ q ≤ len

/-- The depth counter, the active calls of the value parser, the allocations asked for so far,
and the events. -/
structure Work where
  depth : ℕ := 0
  frames : ℕ := 0
  asked : ℕ := 0
  events : List Event := []

/-- A parser step; it stops with a status, or for want of fuel. -/
abbrev Parsing := Machine Work (Option Status)

namespace Traced
open Machine

/-- The parser of a text: a number library, and which allocations succeed. -/
structure Env where
  lib : CLib
  alloc : ℕ → Bool
  text : Bytes

variable (env : Env)

def fail {α : Type} (e : Status) : Parsing α := stop (some e)

def note (e : Event) : Parsing Unit := change fun w => { w with events := w.events ++ [e] }

def byteAt (pos : ℕ) : Parsing UInt8 := do
  note (.read pos)
  pure (env.text.getD pos 0)

def summed (value : ℕ) : Parsing ℕ := do
  note (.sum value)
  pure value

def bytesAt (pos : ℕ) : ℕ → Parsing Bytes
  | 0 => pure []
  | count + 1 => do
    let c ← byteAt env pos
    let rest ← bytesAt (pos + 1) count
    pure (c :: rest)

def allocate : Parsing Unit := do
  let w ← state
  change fun w => { w with asked := w.asked + 1 }
  if env.alloc w.asked then pure () else fail .noMemory

def skipWs (pos : ℕ) : Parsing ℕ :=
  if pos < env.text.length then do
    let c ← byteAt env pos
    if isSpace c then skipWs (pos + 1) else pure pos
  else pure pos
termination_by env.text.length - pos

/-- A NUL at the end of the text. -/
def peek (pos : ℕ) : Parsing UInt8 := if pos ≥ env.text.length then pure 0 else byteAt env pos

def hexLoop : ℕ → ℕ → ℕ → Parsing ℕ
  | 0, _, code => pure code
  | left + 1, pos, code => do
    let h ← byteAt env pos
    match hexDigit h with
    | none => fail .invalidArg
    | some d => hexLoop left (pos + 1) (code * 16 + d)

/-- The buffer's capacity, doubled until `need` is below it. -/
def widen (need cap : ℕ) : ℕ := if 0 < cap ∧ cap ≤ need then widen need (cap * 2) else cap
termination_by need + 1 - cap

/-- Room for one more byte and the NUL behind it. -/
def roomForOne (used cap : ℕ) : Parsing ℕ :=
  if used + 1 ≥ cap then do
    allocate env
    pure (cap * 2)
  else pure cap

def roomFor (used count cap : ℕ) : Parsing ℕ :=
  if used + count ≥ cap then do
    allocate env
    pure (widen (used + count) cap)
  else pure cap

/-- The loop behind the opening quote; `cap` is the capacity of the buffer. -/
def stringLoop (pos cap : ℕ) (out : Bytes) : Parsing (Bytes × ℕ) :=
  if pos < env.text.length then do
    let c ← byteAt env pos
    if c = 34 then pure (out, pos + 1)
    else if c = 92 then
      if pos + 1 < env.text.length then do
        let esc ← byteAt env (pos + 1)
        if esc = 117 then do
          let behind ← summed (pos + 2 + 4)
          if behind > env.text.length then fail .invalidArg
          else do
            let code ← hexLoop env 4 (pos + 2) 0
            let cap ← if code < 0x80 then roomForOne env out.length cap
              else roomFor env out.length (encodeUnit code).length cap
            stringLoop (pos + 6) cap (out ++ encodeUnit code)
        else
          match simpleEscape esc with
          | none => fail .invalidArg
          | some b => do
            let cap ← roomForOne env out.length cap
            stringLoop (pos + 2) cap (out ++ [b])
      else fail .invalidArg
    else do
      let cap ← roomForOne env out.length cap
      stringLoop (pos + 1) cap (out ++ [c])
  else fail .invalidArg
termination_by env.text.length - pos

def parseStringLiteral (pos : ℕ) : Parsing (Bytes × ℕ) := do
  allocate env
  let c ← peek env pos
  if c ≠ 34 then fail .invalidArg else stringLoop env (pos + 1) 32 []

def digits (pos : ℕ) : Parsing ℕ :=
  if pos < env.text.length then do
    let c ← peek env pos
    if isDigit c then digits (pos + 1) else pure pos
  else pure pos
termination_by env.text.length - pos

def minus (pos : ℕ) : Parsing ℕ := do
  let c ← peek env pos
  if c = 45 then pure (pos + 1) else pure pos

def fraction (pos : ℕ) : Parsing ℕ :=
  if pos < env.text.length then do
    let c ← peek env pos
    if c = 46 then digits env (pos + 1) else pure pos
  else pure pos

def exponentSign (pos : ℕ) : Parsing ℕ :=
  if pos < env.text.length then do
    let c ← peek env pos
    if c = 43 ∨ c = 45 then pure (pos + 1) else pure pos
  else pure pos

def exponent (pos : ℕ) : Parsing ℕ :=
  if pos < env.text.length then do
    let c ← peek env pos
    if c = 101 ∨ c = 69 then do
      let pos ← exponentSign env (pos + 1)
      digits env pos
    else pure pos
  else pure pos

def parseNumber (start : ℕ) : Parsing (env.lib.Double × ℕ) := do
  let pos ← minus env start
  let pos ← digits env pos
  let pos ← fraction env pos
  let pos ← exponent env pos
  let n := pos - start
  if n = 0 ∨ n ≥ numberMax then fail .invalidArg
  else do
    let token ← bytesAt env start n
    let number := env.lib.strtod token
    if number.2 ≠ n then fail .invalidArg else pure (number.1, pos)

/-- The value after the literal, once it is allocated. -/
def literal (word : Bytes) (v : Value env.lib.Double) (pos : ℕ) :
    Parsing (Value env.lib.Double × ℕ) := do
  let behind ← summed (pos + word.length)
  if behind > env.text.length then fail .invalidArg
  else do
    let bytes ← bytesAt env pos word.length
    if bytes ≠ word then fail .invalidArg
    else do
      allocate env
      pure (v, pos + word.length)

/-- The capacity of a container after one more item. -/
def push (count cap : ℕ) : Parsing ℕ :=
  if count = cap then do
    allocate env
    pure (if cap = 0 then 4 else cap * 2)
  else pure cap

/-- Members up to the closing brace. -/
def membersLoop (value : ℕ → Parsing (Value env.lib.Double × ℕ)) :
    ℕ → List (Bytes × Value env.lib.Double) → ℕ → ℕ →
      Parsing (List (Bytes × Value env.lib.Double) × ℕ)
  | 0, _, _, _ => stop none
  | fuel + 1, members, cap, pos => do
    let pos ← skipWs env pos
    let (key, pos) ← parseStringLiteral env pos
    let pos ← skipWs env pos
    let c ← peek env pos
    if c ≠ 58 then fail .invalidArg
    else do
      let pos ← skipWs env (pos + 1)
      let (val, pos) ← value pos
      let cap ← push env members.length cap
      let pos ← skipWs env pos
      let d ← peek env pos
      if d = 44 then membersLoop value fuel (members ++ [(key, val)]) cap (pos + 1)
      else if d = 125 then pure (members ++ [(key, val)], pos + 1)
      else fail .invalidArg

def itemsLoop (value : ℕ → Parsing (Value env.lib.Double × ℕ)) :
    ℕ → List (Value env.lib.Double) → ℕ → ℕ → Parsing (List (Value env.lib.Double) × ℕ)
  | 0, _, _, _ => stop none
  | fuel + 1, items, cap, pos => do
    let pos ← skipWs env pos
    let (val, pos) ← value pos
    let cap ← push env items.length cap
    let pos ← skipWs env pos
    let d ← peek env pos
    if d = 44 then itemsLoop value fuel (items ++ [val]) cap (pos + 1)
    else if d = 93 then pure (items ++ [val], pos + 1)
    else fail .invalidArg

/-- From the opening brace on. -/
def parseObject (value : ℕ → Parsing (Value env.lib.Double × ℕ)) (fuel pos : ℕ) :
    Parsing (Value env.lib.Double × ℕ) := do
  allocate env
  let pos ← skipWs env (pos + 1)
  let c ← peek env pos
  if c = 125 then pure (.object [], pos + 1)
  else do
    let (members, pos) ← membersLoop env value fuel [] 0 pos
    pure (.object members, pos)

def parseArray (value : ℕ → Parsing (Value env.lib.Double × ℕ)) (fuel pos : ℕ) :
    Parsing (Value env.lib.Double × ℕ) := do
  allocate env
  let pos ← skipWs env (pos + 1)
  let c ← peek env pos
  if c = 93 then pure (.array [], pos + 1)
  else do
    let (items, pos) ← itemsLoop env value fuel [] 0 pos
    pure (.array items, pos)

/-- The depth counter is one higher inside, and one lower again on every return. -/
def nested {α : Type} (m : Parsing α) : Parsing α := do
  change fun w => { w with depth := w.depth + 1 }
  always m fun _ w => { w with depth := w.depth - 1 }

/-- A call of the value parser at `pos`, with its events. -/
def called {α : Type} (pos : ℕ) (m : Parsing (α × ℕ)) : Parsing (α × ℕ) := do
  let before ← state
  change fun w =>
    { w with frames := w.frames + 1, events := w.events ++ [.call (w.frames + 1)] }
  always m fun r w =>
    { w with
      frames := w.frames - 1
      events := w.events ++ [.done before.depth w.depth pos (r.toOption.map Prod.snd)] }

/-- What stands at `pos` decides, behind the white space. -/
def valueAt (value : ℕ → Parsing (Value env.lib.Double × ℕ)) (fuel pos : ℕ) :
    Parsing (Value env.lib.Double × ℕ) := do
  let c ← peek env pos
  if c = 123 then nested (parseObject env value fuel pos)
  else if c = 91 then nested (parseArray env value fuel pos)
  else if c = 34 then do
    let (s, pos) ← parseStringLiteral env pos
    allocate env
    pure (.string s, pos)
  else if c = 116 then literal env (ascii "true") (.bool true) pos
  else if c = 102 then literal env (ascii "false") (.bool false) pos
  else if c = 110 then literal env (ascii "null") .null pos
  else if c = 45 ∨ isDigit c then do
    let (n, pos) ← parseNumber env pos
    allocate env
    pure (.number n, pos)
  else fail .invalidArg

def parseValue : ℕ → ℕ → Parsing (Value env.lib.Double × ℕ)
  | 0, _ => stop none
  | fuel + 1, pos => called pos do
    let w ← state
    if w.depth ≥ parseMaxDepth then fail .unsupported
    else do
      let pos ← skipWs env pos
      if pos ≥ env.text.length then fail .invalidArg
      else valueAt env (parseValue fuel) fuel pos

def parse (fuel : ℕ) : Parsing (Value env.lib.Double) := do
  let (v, pos) ← parseValue env fuel 0
  let pos ← skipWs env pos
  if pos < env.text.length then fail .invalidArg else pure v

end Traced

/-- How a parse ends: the status, none for want of fuel, the caller's value, and the parser. -/
structure Parsed (ν : Type) where
  status : Option Status
  outValue : Option (Value ν)
  work : Work

/-- The whole of a text; `outValue` is what the caller's pointer holds. -/
def usbsJsonParse (env : Traced.Env) (fuel : ℕ) (outValue : Option (Value env.lib.Double)) :
    Parsed env.lib.Double :=
  match Traced.parse env fuel {} with
  | (.error e, work) => ⟨e, outValue, work⟩
  | (.ok v, work) => ⟨some .ok, some v, work⟩

end UsbSentinel.Json
