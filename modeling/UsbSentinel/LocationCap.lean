import UsbSentinel.LocationSpelling
import UsbSentinel.LnkInspect
import UsbSentinel.SuspiciousFilename

/-! What the component limit does to the rules. A rule that looks anywhere in the path can
lose its match to the limit, and a rule after it in the order then decides. -/
namespace UsbSentinel.Location
open ByteString LnkInspect SuspiciousFilename

/-- How much of a shortcut finding the policy takes away. -/
def lnkLaxity : LnkPolicy → ℕ
  | .none => 0
  | .attackShape => 1
  | .suppressAll => 2

def doubleExtStrictness : DoubleExtVerdict × Severity → ℕ
  | (.suppressed, _) => 0
  | (_, .info) => 1
  | (_, .warning) => 2
  | (_, .high) => 3

/-- The policy on shortcuts under a kind found by other means. -/
def lnkPolicyWith (device : Device) (kind : Kind) : LnkPolicy :=
  if !policyApplies device then .none
  else
    match kind with
    | .osShortcuts => .attackShape
    | .osComponentStore => .suppressAll
    | _ => .none

theorem lnkPolicyFor_with (device : Device) (path : Bytes) :
    lnkPolicyFor device path = lnkPolicyWith device (classify path) := rfl

/-- Against the same rules on all the components, neither detector is less strict. -/
structure CapStricter (path : Bytes) : Prop where
  lnk : ∀ device, lnkLaxity (lnkPolicyFor device path) ≤
    lnkLaxity (lnkPolicyWith device (kindOf (components path)))
  doubleExt : ∀ lastExt, doubleExtStrictness (weighDoubleExtension (kindOf (components path)) lastExt) ≤
    doubleExtStrictness (weighDoubleExtension (classify path) lastExt)

def Hidden (rule : List Bytes → Bool) (comps : List Bytes) : Prop :=
  rule comps = true ∧ rule (comps.take maxComponents) = false

/-- A match lost to the limit gives way to no rule that is laxer. -/
structure CapSafe (comps : List Bytes) : Prop where
  selfTest : Hidden matchesSelfTestFixtures comps → matchesUserExposed comps = false →
    matchesDependencyTree (comps.take maxComponents) = false ∧
    matchesRecentItems (comps.take maxComponents) = false ∧
    seqAt comps 0 winSxS = false ∧ matchesOsShortcuts comps = false
  dependency : Hidden matchesDependencyTree comps → matchesSelfTestFixtures comps = false →
    matchesUserExposed comps = false →
    matchesRecentItems (comps.take maxComponents) = false ∧
    seqAt comps 0 winSxS = false ∧ matchesOsShortcuts comps = false
  recent : Hidden matchesRecentItems comps → matchesSelfTestFixtures comps = false →
    matchesUserExposed comps = false → matchesDependencyTree comps = false →
    seqAt comps 0 winSxS = false ∧ matchesOsShortcuts comps = false

section Anywhere

lemma selfTestLoop_append (seenBuild : Bool) (previous : Option Bytes) (front back : List Bytes)
    (h : selfTestLoop seenBuild previous front = true) :
    selfTestLoop seenBuild previous (front ++ back) = true := by
  induction front generalizing seenBuild previous with
  | nil => simp [selfTestLoop] at h
  | cons c rest ih =>
    simp only [List.cons_append, selfTestLoop] at h ⊢
    split
    · rfl
    · rename_i hmatch
      rw [if_neg hmatch] at h
      exact ih _ _ h

lemma dependencyLoop_append (previous front back : List Bytes)
    (h : dependencyLoop previous front = true) :
    dependencyLoop previous (front ++ back) = true := by
  induction front generalizing previous with
  | nil => simp [dependencyLoop] at h
  | cons c rest ih =>
    simp only [List.cons_append, dependencyLoop] at h ⊢
    split
    · rfl
    · rename_i hname
      rw [if_neg hname] at h
      split
      · rfl
      · rename_i hbuild
        rw [if_neg hbuild] at h
        exact ih _ h

lemma matchesSelfTestFixtures_take (comps : List Bytes) (n : ℕ)
    (h : matchesSelfTestFixtures (comps.take n) = true) : matchesSelfTestFixtures comps = true := by
  have hwhole := selfTestLoop_append false none _ (comps.drop n) h
  rwa [List.take_append_drop] at hwhole

lemma matchesDependencyTree_take (comps : List Bytes) (n : ℕ)
    (h : matchesDependencyTree (comps.take n) = true) : matchesDependencyTree comps = true := by
  have hwhole := dependencyLoop_append [] _ (comps.drop n) h
  rwa [List.take_append_drop] at hwhole

end Anywhere

section NearTheRoot

lemma startsWithSeq_take (comps seq : List Bytes) (n : ℕ) (hroom : seq.length ≤ n) :
    startsWithSeq (comps.take n) seq = startsWithSeq comps seq := by
  induction seq generalizing comps n with
  | nil => simp only [startsWithSeq]
  | cons literal seq ih =>
    obtain ⟨m, rfl⟩ : ∃ m, n = m + 1 := ⟨n - 1, by simp at hroom; omega⟩
    cases comps with
    | nil => rfl
    | cons c comps =>
      have hseq : seq.length ≤ m := by simpa using hroom
      simp only [List.take_succ_cons, startsWithSeq, ih comps m hseq]

lemma seqAt_take (comps : List Bytes) (start : ℕ) (seq : List Bytes) (n : ℕ)
    (hroom : start + seq.length ≤ n) : seqAt (comps.take n) start seq = seqAt comps start seq := by
  rw [seqAt, seqAt, List.drop_take]
  exact startsWithSeq_take _ _ _ (by omega)

lemma compAt_take (comps : List Bytes) (i : ℕ) (literal : Bytes) (n : ℕ) (hroom : i < n) :
    compAt (comps.take n) i literal = compAt comps i literal := by
  rw [compAt, compAt, List.getElem?_take_of_lt hroom]

lemma length_take_lt (comps : List Bytes) {k n : ℕ} (hroom : k ≤ n) :
    (comps.take n).length < k ↔ comps.length < k := by
  rw [List.length_take]
  omega

lemma matchesUserExposed_take (comps : List Bytes) :
    matchesUserExposed (comps.take maxComponents) = matchesUserExposed comps := by
  have hthree := length_take_lt comps (show 3 ≤ maxComponents by decide)
  have hfour : 4 ≤ (comps.take maxComponents).length ↔ 4 ≤ comps.length := by
    have hlt := length_take_lt comps (show 4 ≤ maxComponents by decide)
    omega
  simp only [matchesUserExposed, hthree, hfour,
    seqAt_take comps 0 startupAll maxComponents (by decide),
    seqAt_take comps 2 startupUser maxComponents (by decide),
    seqAt_take comps 2 tempUser maxComponents (by decide),
    compAt_take comps 0 _ maxComponents (by decide), compAt_take comps 2 _ maxComponents (by decide),
    compAt_take comps 3 _ maxComponents (by decide),
    List.getElem?_take_of_lt (show 2 < maxComponents by decide)]

lemma matchesOsShortcuts_take (comps : List Bytes) :
    matchesOsShortcuts (comps.take maxComponents) = matchesOsShortcuts comps := by
  have htwo : 2 ≤ (comps.take maxComponents).length ↔ 2 ≤ comps.length := by
    have hlt := length_take_lt comps (show 2 ≤ maxComponents by decide)
    omega
  simp only [matchesOsShortcuts, htwo, seqAt_take comps 0 startMenuAll maxComponents (by decide),
    seqAt_take comps 2 startMenuUser maxComponents (by decide),
    compAt_take comps 0 _ maxComponents (by decide)]

/-- Users and Roaming stand near the root, the Recent directory anywhere below. -/
lemma matchesRecentItems_take (comps : List Bytes)
    (h : matchesRecentItems (comps.take maxComponents) = true) :
    matchesRecentItems comps = true := by
  have hfive := length_take_lt comps (show 5 ≤ maxComponents by decide)
  simp only [matchesRecentItems, hfive, compAt_take comps 0 _ maxComponents (by decide),
    seqAt_take comps 2 roaming maxComponents (by decide)] at h ⊢
  split at h
  · simp at h
  rename_i hroot
  rw [if_neg hroot]
  obtain ⟨c, hmem, hrecent⟩ := List.any_eq_true.1 h
  refine List.any_eq_true.2 ⟨c, ?_, hrecent⟩
  rw [List.dropLast_eq_take, List.drop_take, List.take_take] at hmem
  rw [List.dropLast_eq_take]
  refine List.take_subset_take_left _ ?_ hmem
  simp only [List.length_take, List.length_drop]
  omega

end NearTheRoot

section Table

/-- The rules in their order, by what each of them says. -/
def firstRule (selfTest userExposed dependency recent store shortcuts : Bool) : Kind :=
  if selfTest then .selfTestFixtures
  else if userExposed then .userExposed
  else if dependency then .dependencyTree
  else if recent then .recentItems
  else if store then .osComponentStore
  else if shortcuts then .osShortcuts
  else .ordinary

theorem kindOf_firstRule (comps : List Bytes) : kindOf comps =
    firstRule (matchesSelfTestFixtures comps) (matchesUserExposed comps)
      (matchesDependencyTree comps) (matchesRecentItems comps) (seqAt comps 0 winSxS)
      (matchesOsShortcuts comps) := rfl

/-- One extension for each way `weighDoubleExtension` treats extensions. -/
def sampleExtensions : List Bytes := ["exe", "lnk", "zip"].map ascii

def internalDisk : Device := { volumePath := [], busType := .nvme }

def stricter (capped uncapped : Kind) : Bool :=
  lnkLaxity (lnkPolicyWith internalDisk capped) ≤ lnkLaxity (lnkPolicyWith internalDisk uncapped) &&
    sampleExtensions.all fun lastExt =>
      doubleExtStrictness (weighDoubleExtension uncapped lastExt) ≤
        doubleExtStrictness (weighDoubleExtension capped lastExt)

lemma sample_of (lastExt : Bytes) : ∃ sample ∈ sampleExtensions,
    ∀ kind, weighDoubleExtension kind lastExt = weighDoubleExtension kind sample := by
  have hsame : ∀ sample, equalsCi lastExt (ascii "lnk") = equalsCi sample (ascii "lnk") →
      inSet lastExt nativeBinaryExtensions = inSet sample nativeBinaryExtensions →
      ∀ kind, weighDoubleExtension kind lastExt = weighDoubleExtension kind sample := by
    intro sample hlnk hnative kind
    cases kind <;> simp only [weighDoubleExtension, hlnk, hnative]
  by_cases hlnk : equalsCi lastExt (ascii "lnk") = true
  · refine ⟨ascii "lnk", by decide, hsame _ (hlnk.trans (by decide)) ?_⟩
    -- nothing but the case-folded letters enters the comparison
    have hfold : lastExt.map lowerAscii = (ascii "lnk").map lowerAscii := of_decide_eq_true hlnk
    have hset : equalsCi lastExt = equalsCi (ascii "lnk") := by
      funext other
      simp only [equalsCi, hfold]
    rw [inSet, inSet, hset]
  · by_cases hnative : inSet lastExt nativeBinaryExtensions = true
    · exact ⟨ascii "exe", by decide,
        hsame _ ((Bool.not_eq_true _ ▸ hlnk).trans (by decide)) (hnative.trans (by decide))⟩
    · exact ⟨ascii "zip", by decide, hsame _ ((Bool.not_eq_true _ ▸ hlnk).trans (by decide))
        ((Bool.not_eq_true _ ▸ hnative).trans (by decide))⟩

lemma lnkPolicyWith_internal {device : Device} (h : policyApplies device = true) (kind : Kind) :
    lnkPolicyWith device kind = lnkPolicyWith internalDisk kind := by
  have hdisk : policyApplies internalDisk = true := by decide
  simp only [lnkPolicyWith, h, hdisk]

theorem capStricter_iff (path : Bytes) : CapStricter path ↔
    stricter (classify path) (kindOf (components path)) = true := by
  simp only [stricter, Bool.and_eq_true, decide_eq_true_eq, List.all_eq_true]
  constructor
  · intro h
    exact ⟨h.lnk internalDisk, fun lastExt _ => h.doubleExt lastExt⟩
  · rintro ⟨hlnk, hext⟩
    refine ⟨fun device => ?_, fun lastExt => ?_⟩
    · rw [lnkPolicyFor_with]
      by_cases happlies : policyApplies device = true
      · rw [lnkPolicyWith_internal happlies, lnkPolicyWith_internal happlies]
        exact hlnk
      · simp [lnkPolicyWith, happlies]
    · obtain ⟨sample, hmem, hsample⟩ := sample_of lastExt
      rw [hsample, hsample]
      exact hext sample hmem

lemma stricter_self (kind : Kind) : stricter kind kind = true := by
  cases kind <;> decide

lemma stricter_userExposed (kind : Kind) : stricter .userExposed kind = true := by
  cases kind <;> decide

/-- The self-test match hidden, every later rule that answers is laxer. -/
lemma stricter_selfTest (d r w o : Bool) :
    stricter (firstRule false false d r w o) .selfTestFixtures = true ↔
      d = false ∧ r = false ∧ w = false ∧ o = false := by
  cases d <;> cases r <;> cases w <;> cases o <;> decide

lemma stricter_dependency (r w o : Bool) :
    stricter (firstRule false false false r w o) .dependencyTree = true ↔
      r = false ∧ w = false ∧ o = false := by
  cases r <;> cases w <;> cases o <;> decide

lemma stricter_recent (w o : Bool) :
    stricter (firstRule false false false false w o) .recentItems = true ↔
      w = false ∧ o = false := by
  cases w <;> cases o <;> decide

/-- Primed answers are those within the limit; the rules near the root have only one. -/
lemma firstRule_stricter {s s' d d' r r' : Bool} (u w o : Bool) (hs : s' = true → s = true)
    (hd : d' = true → d = true) (hr : r' = true → r = true) :
    stricter (firstRule s' u d' r' w o) (firstRule s u d r w o) = true ↔
      ((s = true ∧ s' = false) → u = false → d' = false ∧ r' = false ∧ w = false ∧ o = false) ∧
      ((d = true ∧ d' = false) → s = false → u = false → r' = false ∧ w = false ∧ o = false) ∧
      ((r = true ∧ r' = false) → s = false → u = false → d = false → w = false ∧ o = false) := by
  cases s' with
  | true => simp [hs rfl, firstRule, stricter_self]
  | false =>
    cases u with
    | true => simp [firstRule, stricter_userExposed]
    | false =>
      cases s with
      | true =>
        have hkind : firstRule true false d r w o = .selfTestFixtures := rfl
        rw [hkind, stricter_selfTest]
        simp
      | false =>
        cases d' with
        | true => simp [hd rfl, firstRule, stricter_self]
        | false =>
          cases d with
          | true =>
            have hkind : firstRule false false true r w o = .dependencyTree := rfl
            rw [hkind, stricter_dependency]
            simp
          | false =>
            cases r' with
            | true => simp [hr rfl, firstRule, stricter_self]
            | false =>
              cases r with
              | true =>
                have hkind : firstRule false false false true w o = .recentItems := rfl
                rw [hkind, stricter_recent]
                simp
              | false => simp [stricter_self]

end Table

theorem classify_capStricter (path : Bytes) : CapStricter path ↔ CapSafe (components path) := by
  have hstore : seqAt ((components path).take maxComponents) 0 winSxS =
      seqAt (components path) 0 winSxS := seqAt_take _ _ _ _ (by decide)
  have htable := firstRule_stricter (matchesUserExposed (components path))
    (seqAt (components path) 0 winSxS) (matchesOsShortcuts (components path))
    (matchesSelfTestFixtures_take (components path) maxComponents)
    (matchesDependencyTree_take (components path) maxComponents)
    (matchesRecentItems_take (components path))
  rw [capStricter_iff, classify_kindOf, kindOf_firstRule, kindOf_firstRule, matchesUserExposed_take,
    matchesOsShortcuts_take, hstore, htable]
  exact ⟨fun h => ⟨h.1, h.2.1, h.2.2⟩, fun h => ⟨h.selfTest, h.dependency, h.recent⟩⟩

/-- A path no deeper than the limit is classified by all of its components. -/
theorem classify_shallow {path : Bytes} (h : (components path).length ≤ maxComponents) :
    classify path = kindOf (components path) := by
  rw [classify_kindOf, List.take_of_length_le h]

/-- A shortcut below WinSxS whose node_modules directory is the 97th component. -/
def deepShortcut : Bytes :=
  ascii "Windows/WinSxS/" ++ (List.replicate 94 (ascii "a/")).flatten ++ ascii "node_modules/x.lnk"

theorem classify_laxer : ¬∀ path : Bytes, CapStricter path := by
  intro hall
  have hlnk := (hall deepShortcut).lnk internalDisk
  revert hlnk
  decide +kernel

end UsbSentinel.Location
