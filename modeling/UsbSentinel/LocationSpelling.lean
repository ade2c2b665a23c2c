import UsbSentinel.Location

/-! The rules see a path only as its components, and each component only up to ASCII case;
the scratch marker of the self-test rule is the one exception. -/
namespace ByteString

lemma lowerAscii_lowerAscii : ∀ c : UInt8, lowerAscii (lowerAscii c) = lowerAscii c := by
  decide +kernel

lemma equalsCi_lower (a b : Bytes) : equalsCi (a.map lowerAscii) b = equalsCi a b := by
  have hlower : lowerAscii ∘ lowerAscii = lowerAscii := funext lowerAscii_lowerAscii
  simp only [equalsCi, List.map_map, hlower]

end ByteString

namespace UsbSentinel.Location
open ByteString

/-- What stands between separators. -/
def components (path : Bytes) : List Bytes := (path.splitOnP isSep).filter fun c => c ≠ []

def fold (comps : List Bytes) : List Bytes := comps.map fun c => c.map lowerAscii

/-- The rules after the self-test one, in their order. -/
def tunedKind (comps : List Bytes) : Kind :=
  if matchesUserExposed comps then .userExposed
  else if matchesDependencyTree comps then .dependencyTree
  else if matchesRecentItems comps then .recentItems
  else if seqAt comps 0 winSxS then .osComponentStore
  else if matchesOsShortcuts comps then .osShortcuts
  else .ordinary

def kindOf (comps : List Bytes) : Kind :=
  if matchesSelfTestFixtures comps then .selfTestFixtures else tunedKind comps

lemma modifyHead_nil_append (pieces : List Bytes) :
    (pieces.modifyHead fun c => [] ++ c) = pieces := by
  cases pieces <;> rfl

theorem splitLoop_components (path current : Bytes) : splitLoop path current =
    ((path.splitOnP isSep).modifyHead fun c => current ++ c).filter fun c => c ≠ [] := by
  induction path generalizing current with
  | nil =>
    rw [splitLoop, List.splitOnP_nil]
    by_cases hcurrent : current = [] <;> simp [hcurrent]
  | cons c rest ih =>
    rw [splitLoop, List.splitOnP_cons_eq_if_modifyHead]
    by_cases hsep : isSep c = true
    · rw [if_pos hsep, if_pos hsep, ih [], modifyHead_nil_append]
      by_cases hcurrent : current = [] <;> simp [hcurrent]
    · rw [if_neg hsep, if_neg hsep, ih, List.modifyHead_modifyHead]
      congr 2
      funext d
      simp

theorem splitComponents_take (path : Bytes) (cap : ℕ) :
    splitComponents path cap = (components path).take cap := by
  rw [splitComponents, splitLoop_components, modifyHead_nil_append, components]

theorem classify_kindOf (path : Bytes) :
    classify path = kindOf ((components path).take maxComponents) := by
  rw [← splitComponents_take]
  rfl

section Folding

lemma compIs_lower (component literal : Bytes) :
    compIs (component.map lowerAscii) literal = compIs component literal :=
  equalsCi_lower component literal

lemma compStartsWith_lower (component literal : Bytes) :
    compStartsWith (component.map lowerAscii) literal = compStartsWith component literal := by
  rw [compStartsWith, compStartsWith, List.length_map, ← List.map_take, equalsCi_lower]

lemma startsWithSeq_fold (comps seq : List Bytes) :
    startsWithSeq (fold comps) seq = startsWithSeq comps seq := by
  induction seq generalizing comps with
  | nil => simp only [startsWithSeq]
  | cons literal seq ih =>
    cases comps with
    | nil => rfl
    | cons c comps =>
      have hrest := ih comps
      simp only [fold, List.map_cons, startsWithSeq, compIs_lower] at hrest ⊢
      rw [hrest]

lemma seqAt_fold (comps : List Bytes) (start : ℕ) (seq : List Bytes) :
    seqAt (fold comps) start seq = seqAt comps start seq := by
  rw [seqAt, seqAt, fold, ← List.map_drop]
  exact startsWithSeq_fold (comps.drop start) seq

lemma compAt_fold (comps : List Bytes) (i : ℕ) (literal : Bytes) :
    compAt (fold comps) i literal = compAt comps i literal := by
  simp only [compAt, fold, List.getElem?_map]
  cases comps[i]? with
  | none => rfl
  | some c => exact compIs_lower c literal

lemma fold_length (comps : List Bytes) : (fold comps).length = comps.length := List.length_map _

lemma fold_startsWith (comps : List Bytes) (i : ℕ) (literal : Bytes) :
    ((fold comps)[i]?).any (fun c => compStartsWith c literal) =
      (comps[i]?).any fun c => compStartsWith c literal := by
  simp only [fold, List.getElem?_map]
  cases comps[i]? with
  | none => rfl
  | some c => exact compStartsWith_lower c literal

lemma matchesUserExposed_fold (comps : List Bytes) :
    matchesUserExposed (fold comps) = matchesUserExposed comps := by
  simp only [matchesUserExposed, seqAt_fold, compAt_fold, fold_length, fold_startsWith]

lemma dependencyLoop_fold (previous comps : List Bytes) :
    dependencyLoop (fold previous) (fold comps) = dependencyLoop previous comps := by
  induction comps generalizing previous with
  | nil => rfl
  | cons c rest ih =>
    have hnext := ih (c :: previous)
    have hprevious := compAt_fold previous
    simp only [fold, List.map_cons] at hnext hprevious ⊢
    simp only [dependencyLoop, compIs_lower, hprevious, hnext]

lemma matchesDependencyTree_fold (comps : List Bytes) :
    matchesDependencyTree (fold comps) = matchesDependencyTree comps :=
  dependencyLoop_fold [] comps

lemma matchesRecentItems_fold (comps : List Bytes) :
    matchesRecentItems (fold comps) = matchesRecentItems comps := by
  have hrecent : ((fold comps).drop 4).dropLast.any (fun c => compIs c (ascii "Recent")) =
      (comps.drop 4).dropLast.any fun c => compIs c (ascii "Recent") := by
    rw [fold, ← List.map_drop, List.map_dropLast.symm, List.any_map]
    congr 1
    funext c
    exact compIs_lower c _
  simp only [matchesRecentItems, fold_length, compAt_fold, seqAt_fold, hrecent]

lemma matchesOsShortcuts_fold (comps : List Bytes) :
    matchesOsShortcuts (fold comps) = matchesOsShortcuts comps := by
  simp only [matchesOsShortcuts, seqAt_fold, compAt_fold, fold_length]

theorem tunedKind_fold (comps : List Bytes) : tunedKind (fold comps) = tunedKind comps := by
  simp only [tunedKind, matchesUserExposed_fold, matchesDependencyTree_fold,
    matchesRecentItems_fold, matchesOsShortcuts_fold, seqAt_fold]

end Folding

lemma fold_eq_of_equalsCi {first second : List Bytes}
    (hsame : List.Forall₂ (fun c d => equalsCi c d = true) first second) :
    fold first = fold second := by
  induction hsame with
  | nil => rfl
  | cons hhead _ ih =>
    have heq := of_decide_eq_true hhead
    simp only [fold, List.map_cons] at ih ⊢
    rw [heq, ih]

theorem kindOf_tuned {comps : List Bytes} (hself : kindOf comps ≠ .selfTestFixtures) :
    kindOf comps = tunedKind comps := by
  unfold kindOf at hself ⊢
  split at hself
  · exact absurd rfl hself
  · rename_i hmatch
    rw [if_neg hmatch]

theorem classify_spelling {p q : Bytes}
    (hsame : List.Forall₂ (fun c d => equalsCi c d = true) (components p) (components q))
    (hp : classify p ≠ .selfTestFixtures) (hq : classify q ≠ .selfTestFixtures) :
    classify p = classify q := by
  rw [classify_kindOf] at hp hq ⊢
  rw [classify_kindOf, kindOf_tuned hp, kindOf_tuned hq]
  have hfold := fold_eq_of_equalsCi (List.forall₂_take maxComponents hsame)
  rw [← tunedKind_fold, hfold, tunedKind_fold]

theorem classify_spelling_recent :
    classify (ascii "Users\\u\\AppData\\Roaming\\Recent\\a.pdf.lnk") =
      classify (ascii "/users//U/appdata/ROAMING/recent/A.pdf.LNK/") :=
  classify_spelling (by decide +kernel) (by decide +kernel) (by decide +kernel)

end UsbSentinel.Location
