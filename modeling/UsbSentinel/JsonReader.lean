import UsbSentinel.Status

/-! The JSON reader: a recursive-descent parser into a small document tree, limited in
depth, and the accessors on the tree. -/
namespace UsbSentinel.Json
open ByteString

/-- The document tree over the host's floating-point numbers. -/
inductive Value (ν : Type)
  | null
  | bool (b : Bool)
  | number (n : ν)
  | string (s : Bytes)
  | array (items : List (Value ν))
  | object (members : List (Bytes × Value ν))

/-- The C library's doubles: `strtod` with the number of bytes it used, whether `modf`
leaves no fraction, and the conversion to `long long`. -/
structure CLib where
  Double : Type
  strtod : Bytes → Double × ℕ
  integral : Double → Bool
  toInt : Double → ℤ

def parseMaxDepth : ℕ := 32

def isSpace (c : UInt8) : Bool := c = 32 || c = 9 || c = 10 || c = 13

def skipWs (inp : Bytes) : Bytes := inp.dropWhile isSpace

def isDigit (c : UInt8) : Bool := 48 ≤ c && c ≤ 57

def hexDigit (h : UInt8) : Option ℕ :=
  if 48 ≤ h ∧ h ≤ 57 then some (h.toNat - 48)
  else if 97 ≤ h ∧ h ≤ 102 then some (h.toNat - 97 + 10)
  else if 65 ≤ h ∧ h ≤ 70 then some (h.toNat - 65 + 10)
  else none

/-- The code unit of a `\u` escape as one, two or three bytes of UTF-8. -/
def encodeUnit (code : ℕ) : Bytes :=
  if code < 0x80 then [code.toUInt8]
  else if code < 0x800 then [(0xC0 + code / 64).toUInt8, (0x80 + code % 64).toUInt8]
  else
    [(0xE0 + code / 4096).toUInt8, (0x80 + code / 64 % 64).toUInt8, (0x80 + code % 64).toUInt8]

/-- The byte a one-letter escape stands for. -/
def simpleEscape (esc : UInt8) : Option UInt8 :=
  if esc = 34 then some 34
  else if esc = 92 then some 92
  else if esc = 47 then some 47
  else if esc = 98 then some 8
  else if esc = 102 then some 12
  else if esc = 110 then some 10
  else if esc = 114 then some 13
  else if esc = 116 then some 9
  else none

/-- The loop behind the opening quote. -/
def stringLoop : Bytes → Bytes → Except Status (Bytes × Bytes)
  | [], _ => .error .invalidArg
  | c :: rest, out =>
    if c = 34 then .ok (out, rest)
    else if c = 92 then
      match rest with
      | [] => .error .invalidArg
      | esc :: rest' =>
        if esc = 117 then
          match rest' with
          | h₁ :: h₂ :: h₃ :: h₄ :: rest'' =>
            match hexDigit h₁, hexDigit h₂, hexDigit h₃, hexDigit h₄ with
            | some d₁, some d₂, some d₃, some d₄ =>
              stringLoop rest'' (out ++ encodeUnit (((d₁ * 16 + d₂) * 16 + d₃) * 16 + d₄))
            | _, _, _, _ => .error .invalidArg
          | _ => .error .invalidArg
        else
          match simpleEscape esc with
          | some b => stringLoop rest' (out ++ [b])
          | none => .error .invalidArg
    else stringLoop rest (out ++ [c])

def parseStringLiteral : Bytes → Except Status (Bytes × Bytes)
  | c :: rest => if c = 34 then stringLoop rest [] else .error .invalidArg
  | [] => .error .invalidArg

/-- The digits at the front, and what follows. -/
def digits (inp : Bytes) : Bytes × Bytes := (inp.takeWhile isDigit, inp.dropWhile isDigit)

def fraction : Bytes → Bytes × Bytes
  | c :: rest => if c = 46 then (c :: (digits rest).1, (digits rest).2) else ([], c :: rest)
  | [] => ([], [])

def exponentSign : Bytes → Bytes × Bytes
  | c :: rest => if c = 43 ∨ c = 45 then ([c], rest) else ([], c :: rest)
  | [] => ([], [])

def exponent : Bytes → Bytes × Bytes
  | c :: rest =>
    if c = 101 ∨ c = 69 then
      (c :: (exponentSign rest).1 ++ (digits (exponentSign rest).2).1,
        (digits (exponentSign rest).2).2)
    else ([], c :: rest)
  | [] => ([], [])

def minus : Bytes → Bytes × Bytes
  | c :: rest => if c = 45 then ([c], rest) else ([], c :: rest)
  | [] => ([], [])

/-- The bytes `parseNumber` hands to `strtod`, and what follows them. -/
def numberToken (inp : Bytes) : Bytes × Bytes :=
  let sign := minus inp
  let whole := digits sign.2
  let frac := fraction whole.2
  let exp := exponent frac.2
  (sign.1 ++ whole.1 ++ frac.1 ++ exp.1, exp.2)

def numberMax : ℕ := 64

section Parser
variable (lib : CLib)

def parseNumber (inp : Bytes) : Except Status (lib.Double × Bytes) :=
  let token := numberToken inp
  if token.1.length = 0 ∨ token.1.length ≥ numberMax then .error .invalidArg
  else
    let number := lib.strtod token.1
    if number.2 ≠ token.1.length then .error .invalidArg else .ok (number.1, token.2)

def matchLiteral (literal : Bytes) (v : Value lib.Double) (inp : Bytes) :
    Except Status (Value lib.Double × Bytes) :=
  if literal <+: inp then .ok (v, inp.drop literal.length) else .error .invalidArg

/-- Members up to the closing brace. Each turn consumes a key, so the length of the
input is enough fuel. -/
def parseMembers (value : Bytes → Except Status (Value lib.Double × Bytes)) :
    ℕ → List (Bytes × Value lib.Double) → Bytes →
      Except Status (List (Bytes × Value lib.Double) × Bytes)
  | 0, _, _ => .error .internal
  | fuel + 1, members, inp =>
    match parseStringLiteral (skipWs inp) with
    | .error e => .error e
    | .ok (key, afterKey) =>
      match skipWs afterKey with
      | [] => .error .invalidArg
      | c :: afterColon =>
        if c ≠ 58 then .error .invalidArg
        else
          match value (skipWs afterColon) with
          | .error e => .error e
          | .ok (val, afterValue) =>
            match skipWs afterValue with
            | [] => .error .invalidArg
            | d :: rest =>
              if d = 44 then parseMembers value fuel (members ++ [(key, val)]) rest
              else if d = 125 then .ok (members ++ [(key, val)], rest)
              else .error .invalidArg

def parseItems (value : Bytes → Except Status (Value lib.Double × Bytes)) :
    ℕ → List (Value lib.Double) → Bytes → Except Status (List (Value lib.Double) × Bytes)
  | 0, _, _ => .error .internal
  | fuel + 1, items, inp =>
    match value (skipWs inp) with
    | .error e => .error e
    | .ok (val, afterValue) =>
      match skipWs afterValue with
      | [] => .error .invalidArg
      | d :: rest =>
        if d = 44 then parseItems value fuel (items ++ [val]) rest
        else if d = 93 then .ok (items ++ [val], rest)
        else .error .invalidArg

/-- Behind the opening brace. -/
def parseObject (value : Bytes → Except Status (Value lib.Double × Bytes)) (inp : Bytes) :
    Except Status (Value lib.Double × Bytes) :=
  let inp := skipWs inp
  if inp.head? = some 125 then .ok (.object [], inp.tail)
  else
    match parseMembers lib value (inp.length + 1) [] inp with
    | .error e => .error e
    | .ok (members, rest) => .ok (.object members, rest)

def parseArray (value : Bytes → Except Status (Value lib.Double × Bytes)) (inp : Bytes) :
    Except Status (Value lib.Double × Bytes) :=
  let inp := skipWs inp
  if inp.head? = some 93 then .ok (.array [], inp.tail)
  else
    match parseItems lib value (inp.length + 1) [] inp with
    | .error e => .error e
    | .ok (items, rest) => .ok (.array items, rest)

/-- `levels` is what the depth limit leaves. -/
def parseValue : ℕ → Bytes → Except Status (Value lib.Double × Bytes)
  | 0, _ => .error .unsupported
  | levels + 1, inp =>
    match skipWs inp with
    | [] => .error .invalidArg
    | c :: rest =>
      if c = 123 then parseObject lib (fun inp => parseValue levels inp) rest
      else if c = 91 then parseArray lib (fun inp => parseValue levels inp) rest
      else if c = 34 then
        match parseStringLiteral (c :: rest) with
        | .error e => .error e
        | .ok (s, rest) => .ok (.string s, rest)
      else if c = 116 then matchLiteral lib (ascii "true") (.bool true) (c :: rest)
      else if c = 102 then matchLiteral lib (ascii "false") (.bool false) (c :: rest)
      else if c = 110 then matchLiteral lib (ascii "null") .null (c :: rest)
      else if c = 45 ∨ isDigit c then
        match parseNumber lib (c :: rest) with
        | .error e => .error e
        | .ok (n, rest) => .ok (.number n, rest)
      else .error .invalidArg

/-- The whole text must be one value. -/
def parse (text : Bytes) : Except Status (Value lib.Double) :=
  match parseValue lib parseMaxDepth text with
  | .error e => .error e
  | .ok (v, rest) => if skipWs rest ≠ [] then .error .invalidArg else .ok v

end Parser

section Accessors
variable {ν : Type}

/-- The first member of that name; keys are compared as C strings. -/
def objectGet (object : Value ν) (name : Bytes) : Option (Value ν) :=
  match object with
  | .object members => (members.find? fun m => cstr m.1 = name).map Prod.snd
  | _ => none

def objectMembers : Value ν → List (Bytes × Value ν)
  | .object members => members
  | _ => []

def asString : Value ν → Option Bytes
  | .string s => some (cstr s)
  | _ => none

end Accessors

def asInt (lib : CLib) : Value lib.Double → Option ℤ
  | .number n => if lib.integral n then some (lib.toInt n) else none
  | _ => none

end UsbSentinel.Json
