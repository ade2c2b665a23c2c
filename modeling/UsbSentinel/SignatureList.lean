import UsbSentinel.Platform
import UsbSentinel.ScanResult

/-! The signature file of the hash detector: one "sha256:size:name" entry a line, sorted
by size once loaded and searched by bisection. -/
namespace UsbSentinel
open ByteString

structure Signature where
  sha256Hex : Bytes
  size : UInt64
  name : Bytes
  deriving DecidableEq, Repr

namespace SignatureList

def hashLen : ℕ := 64
def nameFieldMax : ℕ := 160
def fileMaxRead : ℕ := 64 * 1024 * 1024
def growStep : ℕ := 65536

/-- `qsort` by size; the order of equal sizes is the library's choice. -/
structure SizeSort where
  sort : List Signature → List Signature
  perm : ∀ entries, (sort entries).Perm entries
  sorted : ∀ entries, (sort entries).Pairwise fun a b => a.size ≤ b.size

def notLarger (a b : Signature) : Bool := a.size ≤ b.size

def SizeSort.merge : SizeSort where
  sort entries := entries.mergeSort notLarger
  perm entries := List.mergeSort_perm entries notLarger
  sorted entries := by
    have htrans : ∀ a b c, notLarger a b = true → notLarger b c = true → notLarger a c = true := by
      simp only [notLarger, decide_eq_true_eq]
      exact fun a b c => UInt64.le_trans
    have htotal : ∀ a b, (notLarger a b || notLarger b a) = true := by
      simp only [notLarger, Bool.or_eq_true, decide_eq_true_eq]
      exact fun a b => UInt64.le_total a.size b.size
    simpa [notLarger] using List.pairwise_mergeSort htrans htotal entries

/-- Every read but the last returns at least a byte, so the length of the file bounds the
turns. -/
def readCappedLoop (realloc : ℕ → Bool) (file : FileStream) :
    ℕ → Bytes → ℕ → Except Status Bytes
  | 0, _, _ => .error .internal
  | turns + 1, buf, cap =>
    if buf.length ≥ fileMaxRead then .ok buf
    else
      let grown :=
        if buf.length + growStep > cap then
          min (if cap = 0 then growStep else cap * 2) (fileMaxRead + growStep)
        else cap
      if buf.length + growStep > cap && !realloc grown then .error .noMemory
      else
        match file.read buf.length (grown - buf.length) with
        | .error e => .error e
        | .ok [] => .ok buf
        | .ok got => readCappedLoop realloc file turns (buf ++ got) grown

def readWholeFileCapped (realloc : ℕ → Bool) (file : FileStream) : Except Status Bytes :=
  readCappedLoop realloc file (file.content.length + 1) [] 0

inductive LineResult
  | skipQuiet
  | malformed
  | ok (entry : Signature)
  deriving DecidableEq, Repr

/-- What stands before and after the first `c`, as `memchr` finds it. -/
def splitAtByte (c : UInt8) (text : Bytes) : Option (Bytes × Bytes) :=
  if c ∈ text then some (text.takeWhile (· ≠ c), (text.dropWhile (· ≠ c)).tail) else none

def isBlank (c : UInt8) : Bool := c = 32 || c = 9

def isDecimal (c : UInt8) : Bool := 48 ≤ c && c ≤ 57

/-- The white space `isspace` knows in the C locale. -/
def isCSpace (c : UInt8) : Bool := c = 32 || (9 ≤ c && c ≤ 13)

/-- The value `strtoull` finds and whether it used the whole text. -/
def strtoull (text : Bytes) : UInt64 × Bool :=
  let body := text.dropWhile isCSpace
  let sign := body.head?.any fun c => c = 43 || c = 45
  let digits := if sign then body.tail else body
  let number := digits.takeWhile isDecimal
  let value := number.foldl (fun acc c => 10 * acc + (c.toNat - 48)) 0
  if number = [] then (0, decide (text = []))
  else
    let bounded := min value (2 ^ 64 - 1)
    let negated := body.head? = some 45 ∧ value ≤ 2 ^ 64 - 1
    ((if negated then 2 ^ 64 - bounded else bounded).toUInt64, decide (number = digits))

/-- A hex digit in lower case. -/
def hashChar (c : UInt8) : Option UInt8 :=
  if 65 ≤ c ∧ c ≤ 70 then some (c + 32)
  else if (48 ≤ c ∧ c ≤ 57) ∨ (97 ≤ c ∧ c ≤ 102) then some c
  else none

def isTrailing (c : UInt8) : Bool := c = 13 || c = 10 || c = 32 || c = 9

def parseLine (line : Bytes) : LineResult :=
  let p := line.dropWhile isBlank
  if p.head?.all (fun c => c = 35 || c = 13) then .skipQuiet
  else
    match splitAtByte 58 p with
    | none => .malformed
    | some (hash, afterHash) =>
      if hash.length ≠ hashLen then .malformed
      else
        match splitAtByte 58 afterHash with
        | none => .malformed
        | some (size, afterSize) =>
          if size.length = 0 ∨ size.length ≥ 32 then .malformed
          else
            let name := afterSize.rdropWhile isTrailing
            if name = [] then .malformed
            else
              match hash.mapM hashChar with
              | none => .malformed
              | some sha256Hex =>
                if !(strtoull size).2 then .malformed
                else .ok ⟨sha256Hex, (strtoull size).1, cut nameFieldMax name⟩

/-- `current` holds the line being read. -/
def linesLoop : Bytes → Bytes → List Bytes
  | [], current => if current = [] then [] else [current]
  | c :: rest, current =>
    if c = 10 then current :: linesLoop rest [] else linesLoop rest (current ++ [c])

/-- The lines of a buffer, without their line feeds. -/
def lines (text : Bytes) : List Bytes := linesLoop text []

/-- A push that fails ends the loading. -/
def loadLoop (grow : ℕ → Bool) : List Bytes → GrowList Signature → GrowList Signature
  | [], list => list
  | line :: rest, list =>
    match parseLine line with
    | .ok entry =>
      match list.push 64 grow entry with
      | (.ok, list') => loadLoop grow rest list'
      | (_, list') => list'
    | _ => loadLoop grow rest list

/-- Loading into an empty list; the file has been opened. -/
def load (sort : SizeSort) (realloc grow : ℕ → Bool) (file : FileStream) :
    Except Status (List Signature) :=
  match readWholeFileCapped realloc file with
  | .error e => .error e
  | .ok text => .ok (sort.sort (loadLoop grow (lines text) {}).items)

/-- Every turn shortens the interval, so its length is enough fuel. -/
def lowerBoundLoop (entries : List Signature) (size : UInt64) : ℕ → ℕ → ℕ → ℕ
  | 0, lo, _ => lo
  | fuel + 1, lo, hi =>
    if lo < hi then
      let mid := lo + (hi - lo) / 2
      if (entries[mid]?).any fun e => e.size < size then lowerBoundLoop entries size fuel (mid + 1) hi
      else lowerBoundLoop entries size fuel lo mid
    else lo

/-- The first entry that is not smaller. -/
def lowerBoundBySize (entries : List Signature) (size : UInt64) : ℕ :=
  lowerBoundLoop entries size (entries.length + 1) 0 entries.length

def lookup (entries : List Signature) (size : UInt64) (sha256Hex : Bytes) : Option Bytes :=
  (((entries.drop (lowerBoundBySize entries size)).takeWhile fun e => e.size = size).find?
    fun e => e.sha256Hex = sha256Hex).map Signature.name

def hasSize (entries : List Signature) (size : UInt64) : Bool :=
  (entries[lowerBoundBySize entries size]?).any fun e => e.size = size

end SignatureList
end UsbSentinel
