import UsbSentinel.AsciiCase
import UsbSentinel.Device

/-! The location policy: what kind of place a path below the volume root is. Matching is
by components, either slash separating them. -/
namespace UsbSentinel.Location
open ByteString

inductive Kind
  | ordinary | userExposed | osShortcuts | osComponentStore | recentItems | dependencyTree
  | selfTestFixtures
  deriving DecidableEq, Repr

def maxComponents : ℕ := 96

def isSep (c : UInt8) : Bool := c = 92 || c = 47

def compIs (component literal : Bytes) : Bool := equalsCi component literal

def compStartsWith (component literal : Bytes) : Bool :=
  literal.length ≤ component.length && equalsCi (component.take literal.length) literal

/-- `current` holds the component being read. -/
def splitLoop : Bytes → Bytes → List Bytes
  | [], current => if current = [] then [] else [current]
  | c :: rest, current =>
    if isSep c then
      if current = [] then splitLoop rest [] else current :: splitLoop rest []
    else splitLoop rest (current ++ [c])

def splitComponents (path : Bytes) (cap : ℕ) : List Bytes := (splitLoop path []).take cap

def startsWithSeq : List Bytes → List Bytes → Bool
  | _, [] => true
  | [], _ :: _ => false
  | c :: comps, literal :: seq => compIs c literal && startsWithSeq comps seq

def seqAt (comps : List Bytes) (start : ℕ) (seq : List Bytes) : Bool :=
  startsWithSeq (comps.drop start) seq

def compAt (comps : List Bytes) (i : ℕ) (literal : Bytes) : Bool :=
  (comps[i]?).any fun c => compIs c literal

def scratchMarker : Bytes := ascii "_scratch_"

def isLowerHex (c : UInt8) : Bool := (48 ≤ c && c ≤ 57) || (97 ≤ c && c ≤ 102)

def isFixtureChar (c : UInt8) : Bool := (97 ≤ c && c ≤ 122) || (48 ≤ c && c ≤ 57) || c = 95

/-- "test_<name>_scratch_<8 hex digits>". -/
def isSelfTestScratchName (c : Bytes) : Bool :=
  if !compStartsWith c (ascii "test_") || c.length < 5 + 1 + scratchMarker.length + 8 then false
  else
    let head := c.length - 8
    let marker := head - scratchMarker.length
    (c.drop head).all (fun ch => isLowerHex (lowerAscii ch)) &&
      decide ((c.drop marker).take scratchMarker.length = scratchMarker) &&
      ((c.take marker).drop 5).all (fun ch => isFixtureChar (lowerAscii ch)) &&
      decide (marker > 5)

/-- `previous` is the component before, once there is one. -/
def selfTestLoop : Bool → Option Bytes → List Bytes → Bool
  | _, _, [] => false
  | seenBuild, previous, c :: rest =>
    let seenBuild := seenBuild || compIs c (ascii "build")
    if seenBuild && previous.any (fun p => compIs p (ascii "tests")) && isSelfTestScratchName c then
      true
    else selfTestLoop seenBuild (some c) rest

def matchesSelfTestFixtures (comps : List Bytes) : Bool := selfTestLoop false none comps

def startupAll : List Bytes :=
  ["ProgramData", "Microsoft", "Windows", "Start Menu", "Programs", "Startup"].map ascii

def startupUser : List Bytes :=
  ["AppData", "Roaming", "Microsoft", "Windows", "Start Menu", "Programs", "Startup"].map ascii

def tempUser : List Bytes := ["AppData", "Local", "Temp"].map ascii

def matchesUserExposed (comps : List Bytes) : Bool :=
  if seqAt comps 0 startupAll then true
  else if comps.length < 3 || !compAt comps 0 (ascii "Users") then false
  else if compAt comps 2 (ascii "Desktop") || compAt comps 2 (ascii "Downloads") then true
  else if 4 ≤ comps.length && (comps[2]?).any (fun c => compStartsWith c (ascii "OneDrive")) &&
      (compAt comps 3 (ascii "Desktop") || compAt comps 3 (ascii "Downloads")) then true
  else seqAt comps 2 startupUser || seqAt comps 2 tempUser

/-- `previous` holds the components before, nearest first. -/
def dependencyLoop : List Bytes → List Bytes → Bool
  | _, [] => false
  | previous, c :: rest =>
    if compIs c (ascii "node_modules") || compIs c (ascii "site-packages") ||
        compIs c (ascii ".gradle") || compIs c (ascii ".m2") then true
    else if compIs c (ascii "intermediates") &&
        (compAt previous 0 (ascii "build") || compAt previous 1 (ascii "build")) then true
    else dependencyLoop (c :: previous) rest

def matchesDependencyTree (comps : List Bytes) : Bool := dependencyLoop [] comps

def roaming : List Bytes := ["AppData", "Roaming"].map ascii

def matchesRecentItems (comps : List Bytes) : Bool :=
  if comps.length < 5 || !compAt comps 0 (ascii "Users") || !seqAt comps 2 roaming then false
  else ((comps.drop 4).dropLast).any fun c => compIs c (ascii "Recent")

def startMenuAll : List Bytes := ["ProgramData", "Microsoft", "Windows", "Start Menu"].map ascii

def startMenuUser : List Bytes :=
  ["AppData", "Roaming", "Microsoft", "Windows", "Start Menu"].map ascii

def matchesOsShortcuts (comps : List Bytes) : Bool :=
  seqAt comps 0 startMenuAll ||
    (2 ≤ comps.length && compAt comps 0 (ascii "Users") && seqAt comps 2 startMenuUser)

def winSxS : List Bytes := ["Windows", "WinSxS"].map ascii

def policyApplies (device : Device) : Bool := isKnownNonUsbBus device.busType

def classify (relativePath : Bytes) : Kind :=
  let comps := splitComponents relativePath maxComponents
  if matchesSelfTestFixtures comps then .selfTestFixtures
  else if matchesUserExposed comps then .userExposed
  else if matchesDependencyTree comps then .dependencyTree
  else if matchesRecentItems comps then .recentItems
  else if seqAt comps 0 winSxS then .osComponentStore
  else if matchesOsShortcuts comps then .osShortcuts
  else .ordinary

def kindString : Kind → Bytes
  | .ordinary => ascii "ordinary location"
  | .userExposed => ascii "user-facing location"
  | .osShortcuts => ascii "Start Menu"
  | .osComponentStore => ascii "Windows component store"
  | .recentItems => ascii "Windows Recent Items"
  | .dependencyTree => ascii "package dependency tree"
  | .selfTestFixtures => ascii "USB Sentinel test fixtures"

/-- What follows the volume path, when the path starts with it. -/
def relative (volumePath fullPath : Bytes) : Bytes :=
  if volumePath ≠ [] ∧ volumePath <+: fullPath then fullPath.drop volumePath.length else fullPath

end UsbSentinel.Location
