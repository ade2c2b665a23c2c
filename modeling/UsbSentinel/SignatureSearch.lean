import UsbSentinel.SignatureList

/-! What a loaded signature list holds, and what the two searches in it find: the entries of
the file's lines, whatever order equal sizes were sorted in. -/
namespace UsbSentinel.SignatureList
open ByteString

/-- A file within the limit is read whole if it is read at all. -/
lemma readCappedLoop_eq_ok {realloc : ℕ → Bool} {file : FileStream}
    (hlimit : file.content.length ≤ fileMaxRead) {turns cap n : ℕ} {out : Bytes}
    (hcap : n ≤ cap) (hstep : cap = 0 ∨ growStep ≤ cap) (hn : n ≤ file.content.length)
    (h : readCappedLoop realloc file turns (file.content.take n) cap = .ok out) :
    out = file.content := by
  induction turns generalizing n cap with
  | zero => simp [readCappedLoop] at h
  | succ turns ih =>
    have hlen : (file.content.take n).length = n := by simp [hn]
    simp only [readCappedLoop, hlen] at h
    generalize hgrown : (if n + growStep > cap then
      min (if cap = 0 then growStep else cap * 2) (fileMaxRead + growStep) else cap) = grown at h
    by_cases hfull : n ≥ fileMaxRead
    · rw [if_pos hfull] at h
      obtain rfl := Except.ok.inj h
      exact List.take_of_length_le (hlimit.trans hfull)
    · have hask : n < grown ∧ growStep ≤ grown := by
        unfold growStep fileMaxRead at *
        split_ifs at hgrown <;> omega
      rw [if_neg hfull] at h
      split_ifs at h
      split at h
      · cases h
      · next hread =>
        have hend := ByteStream.Stream.read_nil (by omega) hread
        rw [List.take_of_length_le hend] at h
        exact (Except.ok.inj h).symm
      · next got _ hread =>
        rw [ByteStream.Stream.read_extends hread] at h
        have hle := ByteStream.Stream.read_length_le hread
        have hcontent : got.length ≤ file.content.length - n := by
          rw [ByteStream.Stream.read_eq_ok hread]
          simp only [List.length_take, List.length_drop]
          omega
        exact ih (by omega) (.inr hask.2) (by omega) h

lemma readWholeFileCapped_eq_ok {realloc : ℕ → Bool} {file : FileStream} {out : Bytes}
    (hlimit : file.content.length ≤ fileMaxRead)
    (h : readWholeFileCapped realloc file = .ok out) : out = file.content :=
  readCappedLoop_eq_ok (n := 0) hlimit le_rfl (.inl rfl) (Nat.zero_le _) h

def LineResult.entry : LineResult → Option Signature
  | .ok e => some e
  | _ => none

/-- The entries of the lines that are well formed, in the order of the file. -/
def parsed (text : Bytes) : List Signature :=
  (text.splitOn 10).filterMap fun line => (parseLine line).entry

lemma parseLine_nil : parseLine [] = .skipQuiet := rfl

/-- The loop over the buffer splits it at its line feeds; whether the last piece counts as a
line when it is empty makes no difference. -/
lemma linesLoop_entries (text current : Bytes) :
    (linesLoop text current).filterMap (fun line => (parseLine line).entry) =
      ((text.splitOn 10).modifyHead (current ++ ·)).filterMap
        fun line => (parseLine line).entry := by
  unfold List.splitOn
  induction text generalizing current with
  | nil =>
    unfold linesLoop
    split_ifs with hempty
    · simp [hempty, List.splitOnP_nil, parseLine_nil, LineResult.entry]
    · simp [List.splitOnP_nil]
  | cons c rest ih =>
    rw [List.splitOnP_cons_eq_if_modifyHead]
    unfold linesLoop
    by_cases hc : c = 10
    · have hrest := ih []
      simp only [List.nil_append] at hrest
      simp only [hc, if_true, beq_self_eq_true, List.modifyHead_cons, List.append_nil,
        List.filterMap_cons, hrest]
      have hid : ∀ l : List Bytes, l.modifyHead (fun x => x) = l := by
        intro l
        cases l <;> rfl
      rw [hid]
    · have hrest := ih (current ++ [c])
      simp only [hc, if_false, beq_iff_eq, hrest]
      congr 1
      cases rest.splitOnP (· == 10) <;> simp

lemma lines_entries (text : Bytes) :
    (lines text).filterMap (fun line => (parseLine line).entry) = parsed text := by
  have h := linesLoop_entries text []
  have hid : (text.splitOn 10).modifyHead ([] ++ ·) = text.splitOn 10 := by
    cases text.splitOn 10 <;> rfl
  rw [hid] at h
  exact h

/-- While the list can grow, every entry is pushed. -/
lemma loadLoop_items {grow : ℕ → Bool} (hgrow : ∀ n, grow n = true) (ls : List Bytes)
    (list : GrowList Signature) :
    (loadLoop grow ls list).items =
      list.items ++ ls.filterMap fun line => (parseLine line).entry := by
  induction ls generalizing list with
  | nil => simp [loadLoop]
  | cons line rest ih =>
    unfold loadLoop
    cases hline : parseLine line with
    | skipQuiet => simp [ih, hline, LineResult.entry]
    | malformed => simp [ih, hline, LineResult.entry]
    | ok entry =>
      have hpush : ∃ list', list.push 64 grow entry = (.ok, list') ∧
          list'.items = list.items ++ [entry] := by
        unfold GrowList.push
        simp only [hgrow, if_true]
        split_ifs <;> exact ⟨_, rfl, rfl⟩
      obtain ⟨list', hpush, hitems⟩ := hpush
      simp [hpush, ih, hitems, hline, LineResult.entry]

/-- A name that is read fits its field. -/
lemma parseLine_name {line : Bytes} {entry : Signature} (h : parseLine line = .ok entry) :
    entry.name.length < nameFieldMax := by
  have hcut : ∀ name : Bytes, (cut nameFieldMax name).length < nameFieldMax := by
    intro name
    rw [cut_length]
    unfold nameFieldMax
    omega
  unfold parseLine at h
  simp only at h
  repeat' split at h
  all_goals first
    | cases h; done
    | obtain rfl := LineResult.ok.inj h
      exact hcut _

lemma mem_loadLoop {grow : ℕ → Bool} {ls : List Bytes} {list : GrowList Signature} {e : Signature}
    (h : e ∈ (loadLoop grow ls list).items) :
    e ∈ list.items ∨ ∃ line ∈ ls, parseLine line = .ok e := by
  induction ls generalizing list with
  | nil => exact .inl h
  | cons line rest ih =>
    have hlater : ∀ {list' : GrowList Signature}, e ∈ (loadLoop grow rest list').items →
        e ∈ list'.items ∨ ∃ l ∈ line :: rest, parseLine l = .ok e := by
      intro list' hmem
      refine (ih hmem).imp_right fun hline => ?_
      obtain ⟨l, hl, heq⟩ := hline
      exact ⟨l, List.mem_cons_of_mem _ hl, heq⟩
    unfold loadLoop at h
    cases hline : parseLine line with
    | skipQuiet =>
      rw [hline] at h
      exact hlater h
    | malformed =>
      rw [hline] at h
      exact hlater h
    | ok entry =>
      rw [hline] at h
      simp only at h
      have hpushed : ∀ {list' : GrowList Signature}, e ∈ list'.items →
          (list.push 64 grow entry).2 = list' →
          e ∈ list.items ∨ ∃ l ∈ line :: rest, parseLine l = .ok e := by
        intro list' hmem hpush
        rw [← hpush] at hmem
        refine (GrowList.mem_push hmem).imp_right fun hnew => ?_
        exact ⟨line, List.mem_cons_self .., by rw [hline, hnew]⟩
      split at h
      · next list' hpush =>
        rcases hlater h with hmem | hmem
        · exact hpushed hmem (congrArg Prod.snd hpush)
        · exact .inr hmem
      · next hpush => exact hpushed h (congrArg Prod.snd hpush)

/-- Whatever the file holds, the names that are loaded fit. -/
lemma load_name {sort : SizeSort} {realloc grow : ℕ → Bool} {file : FileStream}
    {entries : List Signature} (h : load sort realloc grow file = .ok entries) {e : Signature}
    (he : e ∈ entries) : e.name.length < nameFieldMax := by
  unfold load at h
  split at h
  · cases h
  · obtain rfl := Except.ok.inj h
    rcases mem_loadLoop ((sort.perm _).mem_iff.mp he) with hnone | ⟨line, _, hline⟩
    · cases hnone
    · exact parseLine_name hline

/-- Ascending by size. -/
def Sorted (entries : List Signature) : Prop := entries.Pairwise fun a b => a.size ≤ b.size

/-- `n` parts the entries into the smaller ones and the others. -/
structure Parts (entries : List Signature) (size : UInt64) (n : ℕ) : Prop where
  smaller : ∀ e ∈ entries.take n, e.size < size
  others : ∀ e ∈ entries.drop n, size ≤ e.size

/-- What bisection keeps: nothing before `lo` is large enough, everything from `hi` on is. -/
structure Bracket (entries : List Signature) (size : UInt64) (lo hi : ℕ) : Prop where
  le : lo ≤ hi
  within : hi ≤ entries.length
  smaller : ∀ e ∈ entries.take lo, e.size < size
  others : ∀ e ∈ entries.drop hi, size ≤ e.size

lemma Bracket.upper {entries : List Signature} (hsorted : Sorted entries) {size : UInt64}
    {lo hi mid : ℕ} (h : Bracket entries size lo hi) (hmid : lo ≤ mid ∧ mid < hi)
    {e : Signature} (he : entries[mid]? = some e) (hlt : e.size < size) :
    Bracket entries size (mid + 1) hi := by
  refine ⟨by omega, h.within, ?_, h.others⟩
  intro x hx
  rw [List.take_add_one, he, Option.toList_some] at hx
  rcases List.mem_append.mp hx with hx | hx
  · have hpair : (entries.take (mid + 1)).Pairwise fun a b => a.size ≤ b.size :=
      hsorted.sublist (List.take_sublist _ _)
    rw [List.take_add_one, he, Option.toList_some, List.pairwise_append] at hpair
    exact UInt64.lt_of_le_of_lt (hpair.2.2 x hx e (List.mem_singleton_self e)) hlt
  · rw [List.mem_singleton.mp hx]
    exact hlt

lemma Bracket.lower {entries : List Signature} (hsorted : Sorted entries) {size : UInt64}
    {lo hi mid : ℕ} (h : Bracket entries size lo hi) (hmid : lo ≤ mid ∧ mid < hi)
    {e : Signature} (he : entries[mid]? = some e) (hle : size ≤ e.size) :
    Bracket entries size lo mid := by
  have hwithin := h.within
  refine ⟨hmid.1, by omega, h.smaller, ?_⟩
  have hpair : (entries.drop mid).Pairwise fun a b => a.size ≤ b.size :=
    hsorted.sublist (List.drop_sublist _ _)
  obtain ⟨hbound, rfl⟩ := List.getElem?_eq_some_iff.mp he
  rw [List.drop_eq_getElem_cons hbound] at hpair ⊢
  intro x hx
  rcases List.mem_cons.mp hx with rfl | hx
  · exact hle
  · exact UInt64.le_trans hle ((List.pairwise_cons.mp hpair).1 x hx)

lemma lowerBoundLoop_parts {entries : List Signature} (hsorted : Sorted entries) {size : UInt64}
    {fuel lo hi : ℕ} (h : Bracket entries size lo hi) (hfuel : hi - lo < fuel) :
    Parts entries size (lowerBoundLoop entries size fuel lo hi) := by
  induction fuel generalizing lo hi with
  | zero => omega
  | succ fuel ih =>
    have hwithin := h.within
    unfold lowerBoundLoop
    by_cases hlt : lo < hi
    · rw [if_pos hlt]
      have hmid : lo ≤ lo + (hi - lo) / 2 ∧ lo + (hi - lo) / 2 < hi := by omega
      have hbound : lo + (hi - lo) / 2 < entries.length := by omega
      obtain ⟨e, he⟩ : ∃ e, entries[lo + (hi - lo) / 2]? = some e :=
        ⟨_, List.getElem?_eq_getElem hbound⟩
      simp only [he, Option.any_some, decide_eq_true_eq]
      split_ifs with hsmall
      · exact ih (h.upper hsorted hmid he hsmall) (by omega)
      · exact ih (h.lower hsorted hmid he (UInt64.not_lt.mp hsmall)) (by omega)
    · rw [if_neg hlt]
      have heq : hi = lo := by have := h.le; omega
      subst heq
      exact ⟨h.smaller, h.others⟩

lemma lowerBoundBySize_parts {entries : List Signature} (hsorted : Sorted entries)
    (size : UInt64) : Parts entries size (lowerBoundBySize entries size) := by
  refine lowerBoundLoop_parts hsorted ⟨Nat.zero_le _, le_rfl, ?_, ?_⟩ (by omega)
  · intro e he
    simp at he
  · intro e he
    simp at he

/-- The run of equal entries at the front of what is not smaller is all of them. -/
lemma takeWhile_size {entries : List Signature} (hsorted : Sorted entries) {size : UInt64}
    (hall : ∀ e ∈ entries, size ≤ e.size) :
    entries.takeWhile (fun e => e.size = size) = entries.filter fun e => e.size = size := by
  induction entries with
  | nil => rfl
  | cons e rest ih =>
    have hpair := List.pairwise_cons.mp hsorted
    by_cases he : e.size = size
    · simp only [he, decide_true, List.takeWhile_cons_of_pos, List.filter_cons_of_pos]
      rw [ih hpair.2 fun x hx => hall x (List.mem_cons_of_mem _ hx)]
    · have hnone : ∀ x ∈ rest, ¬ decide (x.size = size) = true := by
        intro x hx hxs
        have hle := hpair.1 x hx
        rw [of_decide_eq_true hxs] at hle
        exact he (UInt64.le_antisymm hle (hall e (List.mem_cons_self ..)))
      rw [List.takeWhile_cons_of_neg (by simpa using he),
        List.filter_cons_of_neg (by simpa using he), List.filter_eq_nil_iff.mpr hnone]

/-- The run the search looks at: every entry of the size. -/
lemma run_eq_filter {entries : List Signature} (hsorted : Sorted entries) (size : UInt64) :
    ((entries.drop (lowerBoundBySize entries size)).takeWhile fun e => e.size = size) =
      entries.filter fun e => e.size = size := by
  have hparts := lowerBoundBySize_parts hsorted size
  have hnone : (entries.take (lowerBoundBySize entries size)).filter
      (fun e => e.size = size) = [] := by
    rw [List.filter_eq_nil_iff]
    intro e he heq
    have hlt := hparts.smaller e he
    rw [of_decide_eq_true heq] at hlt
    exact UInt64.lt_irrefl _ hlt
  rw [takeWhile_size (hsorted.sublist (List.drop_sublist _ _)) hparts.others]
  conv_rhs => rw [← List.take_append_drop (lowerBoundBySize entries size) entries]
  rw [List.filter_append, hnone, List.nil_append]

theorem hasSize_iff {entries : List Signature} (hsorted : Sorted entries) (size : UInt64) :
    hasSize entries size = true ↔ ∃ e ∈ entries, e.size = size := by
  have hrun := run_eq_filter hsorted size
  have hmem : (∃ e ∈ entries, e.size = size) ↔ (entries.filter fun e => e.size = size) ≠ [] := by
    rw [Ne, List.filter_eq_nil_iff]
    simp
  rw [hmem, ← hrun, hasSize, ← List.head?_drop]
  cases entries.drop (lowerBoundBySize entries size) with
  | nil => simp
  | cons e rest =>
    by_cases he : e.size = size
    · simp [he]
    · simp [he]

theorem lookup_eq {entries : List Signature} (hsorted : Sorted entries) (size : UInt64)
    (hex : Bytes) :
    lookup entries size hex =
      ((entries.filter fun e => e.size = size).find? fun e => e.sha256Hex = hex).map
        Signature.name := by
  rw [lookup, run_eq_filter hsorted]

lemma lookup_isSome {entries : List Signature} (hsorted : Sorted entries) (size : UInt64)
    (hex : Bytes) :
    (lookup entries size hex).isSome = true ↔
      ∃ e ∈ entries, e.size = size ∧ e.sha256Hex = hex := by
  rw [lookup_eq hsorted, Option.isSome_map, List.find?_isSome]
  simp only [List.mem_filter, decide_eq_true_eq, and_assoc]

lemma lookup_eq_some {entries : List Signature} (hsorted : Sorted entries) {size : UInt64}
    {hex name : Bytes} (h : lookup entries size hex = some name) :
    ∃ e ∈ entries, e.size = size ∧ e.sha256Hex = hex ∧ e.name = name := by
  rw [lookup_eq hsorted] at h
  obtain ⟨e, hfind, hname⟩ := Option.map_eq_some_iff.mp h
  have hmem := List.mem_filter.mp (List.mem_of_find?_eq_some hfind)
  have hhex := List.find?_some hfind
  exact ⟨e, hmem.1, of_decide_eq_true hmem.2, of_decide_eq_true hhex, hname⟩

/-- The searches in `entries` answer what `source` holds. -/
structure Answers (source entries : List Signature) : Prop where
  hasSize_iff : ∀ size, hasSize entries size = true ↔ ∃ e ∈ source, e.size = size
  lookup_iff : ∀ size hex, (lookup entries size hex).isSome = true ↔
    ∃ e ∈ source, e.size = size ∧ e.sha256Hex = hex
  lookup_name : ∀ size hex name, lookup entries size hex = some name →
    ∃ e ∈ source, e.size = size ∧ e.sha256Hex = hex ∧ e.name = name

theorem answers_of_perm {source entries : List Signature} (hsorted : Sorted entries)
    (hperm : entries.Perm source) : Answers source entries := by
  refine ⟨?_, ?_, ?_⟩
  · intro size
    rw [SignatureList.hasSize_iff hsorted]
    simp only [hperm.mem_iff]
  · intro size hex
    rw [lookup_isSome hsorted]
    simp only [hperm.mem_iff]
  · intro size hex name h
    obtain ⟨e, he, hname⟩ := lookup_eq_some hsorted h
    exact ⟨e, hperm.mem_iff.mp he, hname⟩

lemma load_sorted {sort : SizeSort} {realloc grow : ℕ → Bool} {file : FileStream}
    {entries : List Signature} (h : load sort realloc grow file = .ok entries) :
    Sorted entries := by
  unfold load at h
  split at h
  · cases h
  · obtain rfl := Except.ok.inj h
    exact sort.sorted _

theorem load_answers {sort : SizeSort} {realloc grow : ℕ → Bool} {file : FileStream}
    {entries : List Signature} (hlimit : file.content.length ≤ fileMaxRead)
    (hgrow : ∀ n, grow n = true) (h : load sort realloc grow file = .ok entries) :
    entries.Perm (parsed file.content) ∧ Sorted entries ∧
      Answers (parsed file.content) entries := by
  have hsorted := load_sorted h
  have hperm : entries.Perm (parsed file.content) := by
    unfold load at h
    split at h
    · cases h
    · next text hread =>
      obtain rfl := Except.ok.inj h
      rw [readWholeFileCapped_eq_ok hlimit hread, loadLoop_items hgrow, List.nil_append,
        lines_entries]
      exact sort.perm _
  exact ⟨hperm, hsorted, answers_of_perm hsorted hperm⟩

def abcHash : Bytes :=
  ascii "ba7816bf8f01cfea414140de5dae2223b00361a396177a9cb410ff61f20015ad"

/-- Three entries among other lines, two of them of one size, the last line feed missing. -/
def severalLines : FileStream where
  content := ascii "# test\n" ++ List.replicate 64 65 ++ ascii ":68:EICAR\nbroken\n" ++ abcHash ++
    ascii ":3:abc\n" ++ List.replicate 64 48 ++ ascii ":3:zero"
  chunk := fun offset => 9 + offset / 2

def severalEntries : List Signature :=
  [⟨abcHash, 3, ascii "abc"⟩, ⟨List.replicate 64 48, 3, ascii "zero"⟩,
    ⟨List.replicate 64 97, 68, ascii "EICAR"⟩]

lemma severalLines_load :
    load .merge (fun _ => true) (fun _ => true) severalLines = .ok severalEntries := by
  have hread : readWholeFileCapped (fun _ => true) severalLines = .ok severalLines.content ∧
      (loadLoop (fun _ => true) (lines severalLines.content) {}).items =
        [⟨List.replicate 64 97, 68, ascii "EICAR"⟩, ⟨abcHash, 3, ascii "abc"⟩,
          ⟨List.replicate 64 48, 3, ascii "zero"⟩] := by
    decide +kernel
  rw [load, hread.1]
  simp only [hread.2, SizeSort.merge]
  simp [List.mergeSort, List.MergeSort.Internal.splitInTwo, notLarger, severalEntries]

theorem load_answers_several :
    severalEntries.Perm (parsed severalLines.content) ∧ Sorted severalEntries ∧
      Answers (parsed severalLines.content) severalEntries :=
  load_answers (by decide +kernel) (fun _ => rfl) severalLines_load

end UsbSentinel.SignatureList
