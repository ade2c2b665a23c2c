import UsbSentinel.JsonUtf8
import UsbSentinel.LnkPadding
import UsbSentinel.ScanFindings

/-! The texts of findings: all that the detectors write themselves is ASCII, and the only bytes of
the media among it are those of a shortcut's target. -/
namespace UsbSentinel
open ByteString Utf8 UsbSentinel.Location

lemma lowerAscii_le : ∀ c : UInt8, lowerAscii c ≤ 0x7F ↔ c ≤ 0x7F := by decide +kernel

/-- Case folding does not leave ASCII. -/
lemma equalsCi_ascii {a b : Bytes} (h : equalsCi a b = true) (hb : Ascii b) : Ascii a := by
  have hmap : a.map lowerAscii = b.map lowerAscii := of_decide_eq_true h
  intro c hc
  have hmem : lowerAscii c ∈ b.map lowerAscii := hmap ▸ List.mem_map_of_mem hc
  obtain ⟨d, hd, heq⟩ := List.mem_map.mp hmem
  have hlow := (lowerAscii_le d).mpr (hb d hd)
  rw [heq] at hlow
  exact (lowerAscii_le c).mp hlow

lemma cut_ascii {s : Bytes} (h : Ascii s) (cap : ℕ) : Ascii (cut cap s) := h.take _

namespace SuspiciousFilename

lemma inSet_ascii {value : Bytes} {set : List Bytes} (h : inSet value set = true)
    (hset : ∀ s ∈ set, Ascii s) : Ascii value := by
  obtain ⟨s, hs, heq⟩ := List.any_eq_true.mp h
  exact equalsCi_ascii heq (hset s hs)

/-- The two extensions that are shown are known ones. -/
lemma doubleExtensionDisguise_ascii {name reason : Bytes}
    (h : doubleExtensionDisguise name = some reason) : Ascii reason := by
  have hexecutable : ∀ s ∈ executableExtensions, Ascii s := by decide
  have hdocument : ∀ s ∈ documentExtensions, Ascii s := by decide
  have hopen : Ascii (ascii "double extension disguise (.") := .ofList (by decide)
  have hdot : Ascii (ascii ".") := .ofList (by decide)
  have hclose : Ascii (ascii ")") := .ofList (by decide)
  unfold doubleExtensionDisguise at h
  split at h
  · next last second _ _ =>
    simp only at h
    split_ifs at h with hlast horder hlength hsecond
    obtain rfl := Option.some.inj h
    have hlast := inSet_ascii (by simpa using hlast) hexecutable
    have hsecond := inSet_ascii hsecond hdocument
    exact cut_ascii ((((hopen.append hsecond).append hdot).append hlast).append hclose) _
  · cases h

structure AsciiReasons (r : Reasons) : Prop where
  kept : Ascii r.kept
  tail : Ascii r.tail

lemma AsciiReasons.append {r : Reasons} (h : AsciiReasons r) {text : Bytes} (htext : Ascii text) :
    AsciiReasons (r.append text) := by
  have hseparator : Ascii (ascii "; ") := .ofList (by decide)
  have hnil : Ascii [] := by decide
  have hpiece : Ascii ((if r.kept ≠ [] then ascii "; " else []) ++ text) := by
    split
    · exact hseparator.append htext
    · exact hnil.append htext
  unfold Reasons.append
  generalize (if r.kept ≠ [] then ascii "; " else []) ++ text = piece at hpiece ⊢
  simp only
  split
  · exact ⟨h.kept.append hpiece, hnil⟩
  · exact ⟨h.kept, cut_ascii hpiece _⟩

lemma AsciiReasons.appendIf {r : Reasons} (h : AsciiReasons r) {text : Bytes}
    (htext : Ascii text) (condition : Bool) : AsciiReasons (r.appendIf condition text) := by
  unfold Reasons.appendIf
  split
  · exact h.append htext
  · exact h

lemma asciiReasons_empty : AsciiReasons {} := ⟨by decide, by decide⟩

lemma weigh_ascii (tuned : Bool) (kind : Kind) (name : Bytes) :
    AsciiReasons (weigh tuned kind name).reasons := by
  have hopen : Ascii (ascii " [internal drive, ") := .ofList (by decide)
  have hkind : Ascii (kindString kind) := by
    cases kind <;> decide
  have hclose : Ascii (ascii "]") := .ofList (by decide)
  unfold weigh
  cases hdisguise : doubleExtensionDisguise name with
  | none => exact asciiReasons_empty
  | some reason =>
    have hreason := doubleExtensionDisguise_ascii hdisguise
    simp only
    split
    · exact asciiReasons_empty.append hreason
    · split
      · exact asciiReasons_empty
      · refine asciiReasons_empty.append ?_
        split
        · exact cut_ascii (((hreason.append hopen).append hkind).append hclose) _
        · exact cut_ascii hreason _

theorem verdict_ascii {tuned : Bool} {kind : Kind} {entry : DirEntry} {severity : Severity}
    {message : Bytes} (h : (verdict tuned kind entry).finding = some (severity, message)) :
    Ascii message := by
  have hbidi : Ascii (ascii "filename contains a Unicode bidi-override character") :=
    .ofList (by decide)
  have hpadding : Ascii (ascii "long space padding hides the real extension") :=
    .ofList (by decide)
  have hhidden : Ascii (ascii "hidden/system-attributed executable") := .ofList (by decide)
  have hreasons : AsciiReasons (reasons tuned kind entry) :=
    (((weigh_ascii tuned kind entry.name).appendIf hbidi _).appendIf hpadding _).appendIf hhidden _
  unfold verdict at h
  split at h
  · obtain ⟨_, rfl⟩ := Prod.mk.inj (Option.some.inj h)
    exact hreasons.kept.append hreasons.tail
  · cases h

end SuspiciousFilename

namespace LnkInspect

/-- No block gets past this unmarked. -/
lemma storedChar_le (isUnicode : Bool) (low high : UInt8) :
    storedChar isUnicode low high ≤ 0x7F := by
  have hbelow : ¬ 0x80 ≤ low → low ≤ 0x7F := by
    revert low
    decide +kernel
  have hmark : (63 : UInt8) ≤ 0x7F := by decide
  unfold storedChar
  split_ifs with _ hwide hlow
  · exact hmark
  · exact hbelow fun hle => hwide (.inr hle)
  · exact hmark
  · exact hbelow hlow

lemma storedChars_ascii (isUnicode : Bool) (block : Bytes) :
    Ascii (storedChars isUnicode block) := by
  have hcons : ∀ {c : UInt8} {rest : Bytes}, c ≤ 0x7F → Ascii rest → Ascii (c :: rest) := by
    intro c rest hc hrest b hb
    rcases List.mem_cons.mp hb with rfl | hb
    · exact hc
    · exact hrest b hb
  have hnil : Ascii [] := by decide
  fun_induction storedChars isUnicode block with
  | case1 => exact hnil
  | case2 => exact hnil
  | case3 low high rest ih => exact hcons (storedChar_le _ _ _) ih
  | case4 low rest _ _ ih => exact hcons (storedChar_le _ _ _) ih

lemma argumentText_ascii (s : Strings) : Ascii s.kept.argumentText := by
  intro b hb
  have hstored : b ∈ cut lnkArgsMax (storedChars s.isUnicode s.arguments) :=
    (List.takeWhile_sublist _).subset hb
  exact cut_ascii (storedChars_ascii _ _) _ b hstored

/-- What the message about a shortcut says behind the target. -/
def behindTarget (p : Parsed) (sha256Hex : Option Bytes) : Bytes :=
  (if p.haveArguments then ascii " arguments=" ++ p.argumentText else []) ++
    ((if targetsInterpreter p then ascii " [interpreter target]" else []) ++
      ((match matchedMarker p with
        | some marker => cut 96 (ascii " [suspicious argument: " ++ marker ++ ascii "]")
        | none => []) ++ (ascii " sha256=" ++ sha256Hex.getD (ascii "(unavailable)"))))

lemma highMessage_eq (p : Parsed) (sha256Hex : Option Bytes) :
    highMessage p sha256Hex = cut (lnkArgsMax + lnkTargetMax + 128)
      (ascii "target=" ++
        ((if p.haveTarget then p.target else ascii "(none)") ++ behindTarget p sha256Hex)) := by
  unfold highMessage behindTarget
  cases matchedMarker p with
  | none => simp only [List.append_assoc]
  | some marker => simp only [List.append_assoc]

lemma behindTarget_ascii (s : Strings) {sha256Hex : Option Bytes}
    (hsha : ∀ hex, sha256Hex = some hex → Ascii hex) : Ascii (behindTarget s.kept sha256Hex) := by
  have harguments : Ascii (ascii " arguments=") := .ofList (by decide)
  have hinterpreter : Ascii (ascii " [interpreter target]") := .ofList (by decide)
  have hopen : Ascii (ascii " [suspicious argument: ") := .ofList (by decide)
  have hclose : Ascii (ascii "]") := .ofList (by decide)
  have hlabel : Ascii (ascii " sha256=") := .ofList (by decide)
  have hunavailable : Ascii (ascii "(unavailable)") := .ofList (by decide)
  have hmarkers : ∀ m ∈ argumentMarkers, Ascii m := by decide
  have hnil : Ascii [] := by decide
  unfold behindTarget
  refine Ascii.append ?_ (Ascii.append ?_ (Ascii.append ?_ (hlabel.append ?_)))
  · split
    · exact harguments.append (argumentText_ascii s)
    · exact hnil
  · split
    · exact hinterpreter
    · exact hnil
  · split
    · next marker hmatched =>
      have hmem : marker ∈ argumentMarkers := by
        unfold matchedMarker at hmatched
        split at hmatched
        · exact List.mem_of_find?_eq_some hmatched
        · cases hmatched
      exact cut_ascii ((hopen.append (hmarkers marker hmem)).append hclose) _
    · exact hnil
  · cases hhex : sha256Hex with
    | none => exact hunavailable
    | some hex => exact hsha hex hhex

/-- How much of a target a finding has room for behind "target=". -/
def messageTargetMax : ℕ := 248

/-- What is stored of the message about a shortcut is UTF-8 when its part of the target is. -/
theorem highMessage_valid_iff {s : Strings} {sha256Hex : Option Bytes}
    (hsha : ∀ hex, sha256Hex = some hex → Ascii hex) :
    Valid (cut findingMessageMax (highMessage s.kept sha256Hex)) ↔
      Valid (s.localBasePath.take messageTargetMax) := by
  have hlabel : Ascii (ascii "target=") := .ofList (by decide)
  have hlength : (ascii "target=").length = 7 := ascii_length _
  have hnone : Ascii (ascii "(none)") := .ofList (by decide)
  have hkept : s.kept.target.take messageTargetMax = s.localBasePath.take messageTargetMax := by
    simp [Strings.kept, cut, List.take_take, messageTargetMax, lnkTargetMax]
  have hroom : findingMessageMax - 1 - (ascii "target=").length = messageTargetMax := by
    rw [hlength]
    rfl
  have hcut : ∀ text : Bytes, cut findingMessageMax (cut (lnkArgsMax + lnkTargetMax + 128) text) =
      text.take (findingMessageMax - 1) := by
    intro text
    simp [cut, List.take_take, findingMessageMax, lnkArgsMax, lnkTargetMax]
  rw [highMessage_eq, hcut, valid_take_ascii_append hlabel, hroom,
    valid_take_append_ascii _ (behindTarget_ascii s hsha)]
  split
  · rw [hkept]
  · next hno =>
    have hempty : s.kept.target = [] := by simpa [Parsed.haveTarget] using hno
    rw [← hkept, hempty, List.take_nil]
    exact iff_of_true (valid_of_ascii (hnone.take _)) .nil

/-- A shortcut that the rules are high about, as it is read from the media. -/
structure Reported (host : ScanHost) (fullPath : Bytes) (s : Strings) : Prop where
  read : ∃ t file stop, host.fileOpen t fullPath = .ok file ∧
    locate (readCapped lnkMaxRead file).1 = some (s, stop)
  suspicious : (targetsInterpreter s.kept || (matchedMarker s.kept).isSome) = true

lemma examine_shortcut {host : ScanHost} {policy : LnkPolicy} {fullPath : Bytes}
    {entry : DirEntry} {w : World} {severity : Severity} {message : Bytes}
    (h : (examine host policy fullPath entry w).1.finding = some (severity, message)) :
    hasLnkExtension entry.name = true := by
  by_contra hother
  unfold examine at h
  rw [if_pos (by simpa using hother)] at h
  cases h

/-- Every finding about a shortcut is ASCII, but for the target of a reported one. -/
theorem examine_valid {host : ScanHost} (hhex : ∀ content, Ascii (host.sha256Hex content))
    {policy : LnkPolicy} {fullPath : Bytes} {entry : DirEntry} {w : World} {severity : Severity}
    {message : Bytes}
    (h : (examine host policy fullPath entry w).1.finding = some (severity, message))
    (htarget : ∀ s, Reported host fullPath s → Valid (s.localBasePath.take messageTargetMax)) :
    Valid (cut findingMessageMax message) := by
  have hascii : ∀ {text : Bytes}, Ascii text → Valid (cut findingMessageMax text) :=
    fun htext => valid_of_ascii (cut_ascii htext _)
  unfold examine at h
  split_ifs at h
  · have hopen : Ascii (ascii "oversized .lnk file (") := .ofList (by decide)
    have hclose : Ascii (ascii " bytes), not parsed") := .ofList (by decide)
    obtain ⟨_, rfl⟩ := Prod.mk.inj (Option.some.inj h)
    exact hascii (cut_ascii ((hopen.append (Json.decimal_ascii _)).append hclose) _)
  · unfold World.fileOpen at h
    cases hopened : host.fileOpen w.trace fullPath with
    | error e =>
      rw [hopened] at h
      cases h
    | ok file =>
      rw [hopened] at h
      simp only at h
      generalize hsha : (if host.hashBegin (w.record (.fileOpen fullPath)).trace &&
          host.hashFinish (w.record (.fileOpen fullPath)).trace
        then some (host.sha256Hex (readCapped lnkMaxRead file).1) else none) = sha256Hex at h
      have hsha : ∀ hex, sha256Hex = some hex → Ascii hex := by
        intro hex heq
        rw [← hsha] at heq
        split at heq
        · rw [← Option.some.inj heq]
          exact hhex _
        · cases heq
      unfold judged at h
      rw [parseLnk_eq] at h
      cases hlocated : locate (readCapped lnkMaxRead file).1 with
      | none =>
        have hopen : Ascii (ascii "malformed or corrupt .lnk file (could not parse)") :=
          .ofList (by decide)
        have hlabel : Ascii (ascii ", sha256=") := .ofList (by decide)
        rw [hlocated] at h
        simp only [Option.map_none] at h
        split_ifs at h
        obtain ⟨_, rfl⟩ := Prod.mk.inj (Option.some.inj h)
        refine hascii (cut_ascii (hopen.append ?_) _)
        cases hhex' : sha256Hex with
        | none => exact by decide
        | some hex => exact hlabel.append (hsha hex hhex')
      | some located =>
        rw [hlocated] at h
        simp only [Option.map_some] at h
        split_ifs at h with hsuspicious
        obtain ⟨_, rfl⟩ := Prod.mk.inj (Option.some.inj h)
        exact (highMessage_valid_iff hsha).mpr
          (htarget located.1 ⟨⟨_, file, located.2, hopened, hlocated⟩, hsuspicious⟩)

end LnkInspect

namespace HashMatch

/-- The names of the signatures in use are UTF-8. -/
def NamesValid (signatures : SignatureState) : Prop :=
  ∀ entries path, signatures.loaded = some (entries, path) → ∀ e ∈ entries, Valid e.name

lemma label_valid {signatures : SignatureState} (hloaded : Loaded signatures)
    (hnames : NamesValid signatures) {size : UInt64} {hex label : Bytes}
    (h : hashMatchLookup signatures size hex = some label) :
    Valid label ∧ label.length < SignatureList.nameFieldMax := by
  unfold hashMatchLookup at h
  cases hstate : signatures.loaded with
  | none =>
    rw [hstate] at h
    simp only at h
    split_ifs at h
    obtain rfl := Option.some.inj h
    have hname : Ascii fallbackEntry.name := by decide
    exact ⟨valid_of_ascii hname, by decide⟩
  | some loaded =>
    obtain ⟨entries, path⟩ := loaded
    rw [hstate] at h
    obtain ⟨sort, realloc, grow, file, hload⟩ := hloaded entries path hstate
    obtain ⟨e, he, _, _, rfl⟩ :=
      SignatureList.lookup_eq_some (SignatureList.load_sorted hload) h
    exact ⟨hnames entries path hstate e he, SignatureList.load_name hload he⟩

/-- A finding has room for a whole name. -/
theorem matchMessage_valid {signatures : SignatureState} {label hex : Bytes}
    (hlabel : Valid label) (hfits : label.length < SignatureList.nameFieldMax)
    (hhex : Ascii hex) : Valid (cut findingMessageMax (matchMessage signatures label hex)) := by
  have hopen : Ascii (ascii "matches signature list entry: ") := .ofList (by decide)
  have hlength : (ascii "matches signature list entry: ").length = 30 := ascii_length _
  have hsha : Ascii (ascii " (sha256=") := .ofList (by decide)
  have hclose : Ascii (ascii ")") := .ofList (by decide)
  have hremark : Ascii (if signatures.loaded.isSome then []
      else ascii " - demonstration match, not a real threat-intelligence source") := by
    split <;> decide
  unfold cut matchMessage
  rw [valid_take_append_ascii _ hremark, valid_take_append_ascii _ hclose,
    valid_take_append_ascii _ hhex, valid_take_append_ascii _ hsha,
    valid_take_ascii_append hopen, hlength, List.take_of_length_le]
  · exact hlabel.cstr
  · have hfront := cstr_prefix label
    have hshown := hfront.length_le
    unfold SignatureList.nameFieldMax at hfits
    unfold findingMessageMax
    omega

/-- How much of the signature file's name the disclaimer has room for. -/
def fileNameRoom (entries : List Signature) : ℕ := 213 - (decimal entries.length).length

/-- The name of the signature file is UTF-8, as far as the disclaimer shows it. -/
def FileNameValid (kind : Path.Host) (signatures : SignatureState) : Prop :=
  ∀ entries path, signatures.loaded = some (entries, path) →
    Valid ((pathFilename kind path).take (fileNameRoom entries))

theorem disclaimer_valid_iff (kind : Path.Host) (signatures : SignatureState) :
    Valid (cut checkMessageMax (disclaimer kind signatures)) ↔ FileNameValid kind signatures := by
  unfold FileNameValid disclaimer
  cases hstate : signatures.loaded with
  | none =>
    have hexample : Ascii (ascii "NON-PRODUCTION EXAMPLE: matched against 1 hardcoded test hash (EICAR only) - this is NOT a real malware signature database") := by
      rw [ascii_ofList]
      decide +kernel
    refine iff_of_true (valid_of_ascii (cut_ascii hexample _)) ?_
    intro entries path h
    cases h
  | some loaded =>
    obtain ⟨entries, path⟩ := loaded
    have hopen : Ascii (ascii "Matched against ") := .ofList (by decide)
    have hopen' : (ascii "Matched against ").length = 16 := ascii_length _
    have hfrom : Ascii (ascii " signature(s) loaded from ") := .ofList (by decide)
    have hfrom' : (ascii " signature(s) loaded from ").length = 26 := ascii_length _
    have hrest : Ascii (ascii " - USB Sentinel does not ship, vet, or vouch for this file's contents; verify its provenance yourself") := by
      rw [ascii_ofList]
      decide
    have hroom : checkMessageMax - 1 - (16 + (decimal entries.length).length + 26) =
        fileNameRoom entries := by
      unfold checkMessageMax fileNameRoom
      omega
    simp only
    unfold cut
    rw [valid_take_append_ascii _ hrest, valid_take_ascii_append
      ((hopen.append (Json.decimal_ascii _)).append hfrom), List.length_append, List.length_append,
      hopen', hfrom', hroom]
    constructor
    · intro h entries' path' heq
      obtain ⟨rfl, rfl⟩ := Prod.mk.inj (Option.some.inj heq)
      exact h
    · intro h
      exact h entries path rfl

end HashMatch
end UsbSentinel
