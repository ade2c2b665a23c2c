import UsbSentinel.HttpRequest
import UsbSentinel.Strtok

/-! The lookup in a query, pair by pair, with the buffer that the value is stored in. -/
namespace UsbSentinel.Http
open ByteString

/-- `memcpy(out, value, count)` and the NUL behind it. -/
def storeValue (value : Bytes) (count : ℕ) (out : Bytes) : Bytes :=
  (value.take count ++ out.drop count).set count 0

/-- The loop from `cursor` on; every turn moves it. -/
def queryLoop (key : Bytes) : ℕ → Bytes → Bytes → Bool × Bytes
  | 0, _, out => (false, out)
  | turns + 1, cursor, out =>
    if cursor = [] then (false, out)
    else
      let pairLen := (cursor.takeWhile (· ≠ 38)).length
      if pairLen > key.length ∧ cursor[key.length]? = some 61 ∧ cursor.take key.length = key then
        let value := cursor.drop (key.length + 1)
        let valueLen := pairLen - key.length - 1
        (true, storeValue value (if valueLen ≥ out.length then out.length - 1 else valueLen) out)
      else
        let next := cursor.drop pairLen
        queryLoop key turns (if next.head? = some 38 then next.tail else next) out

/-- Whether the key is found, and the buffer afterwards; its length is the capacity. -/
def httpQueryGet (query key out : Bytes) : Bool × Bytes :=
  if out = [] then (false, out) else queryLoop key (query.length + 1) query (out.set 0 0)

/-- The pair has the form `key=value`. -/
def HasValue (key value pair : Bytes) : Prop := pair = key ++ 61 :: value

/-- The lookup answers for the first pair with this key, and leaves a string in the buffer. -/
structure LooksUp (query key out : Bytes) (found : Bool) (after : Bytes) : Prop where
  room : after.length = out.length
  terminated : 0 ∈ after
  found_iff : found = true ↔ ∃ pair ∈ query.splitOn 38, ∃ value, HasValue key value pair
  first : ∀ before pair later value, query.splitOn 38 = before ++ pair :: later →
    (∀ p ∈ before, ∀ v, ¬HasValue key v p) → HasValue key value pair →
    cstr after = cut out.length value
  absent : found = false → cstr after = []

/-- What the loop takes from a pair. -/
def valueOf (key pair : Bytes) : Option Bytes :=
  if key.length < pair.length ∧ pair[key.length]? = some 61 ∧ key <+: pair then
    some (pair.drop (key.length + 1))
  else none

lemma valueOf_eq_some {key pair value : Bytes} :
    valueOf key pair = some value ↔ HasValue key value pair := by
  unfold valueOf HasValue
  constructor
  · intro h
    split_ifs at h with hpair
    obtain ⟨-, hmark, rest, rfl⟩ := hpair
    obtain rfl := Option.some.inj h
    rw [List.getElem?_append_right le_rfl, Nat.sub_self] at hmark
    cases rest with
    | nil => cases hmark
    | cons c rest =>
      obtain rfl : c = 61 := Option.some.inj hmark
      rw [← List.drop_drop, List.drop_left]
      rfl
  · rintro rfl
    rw [if_pos]
    · rw [← List.drop_drop, List.drop_left]
      rfl
    · refine ⟨?_, ?_, List.prefix_append _ _⟩
      · simp
      · rw [List.getElem?_append_right le_rfl, Nat.sub_self]
        rfl

/-- The test of the loop is about the pair alone. -/
lemma test_iff (key : Bytes) {cursor pair rest : Bytes} (h : cursor = pair ++ rest) :
    (pair.length > key.length ∧ cursor[key.length]? = some 61 ∧ cursor.take key.length = key) ↔
      key.length < pair.length ∧ pair[key.length]? = some 61 ∧ key <+: pair := by
  refine and_congr_right fun hlong => ?_
  rw [h, List.getElem?_append_left hlong, List.take_append_of_le_length hlong.le,
    List.prefix_iff_eq_take, eq_comm (a := key)]

/-- The buffer once the value is stored, as much of it as there is room for. -/
def keptIn (out value : Bytes) : Bytes := storeValue value (min value.length (out.length - 1)) out

lemma keptIn_eq {cursor pair rest out : Bytes} {skip : ℕ} (h : cursor = pair ++ rest)
    (hskip : skip ≤ pair.length) (hout : out ≠ []) :
    storeValue (cursor.drop skip) (if pair.length - skip ≥ out.length then out.length - 1
      else pair.length - skip) out = keptIn out (pair.drop skip) := by
  have hpos := List.length_pos_iff.mpr hout
  have hcount : (if pair.length - skip ≥ out.length then out.length - 1 else pair.length - skip) =
      min (pair.drop skip).length (out.length - 1) := by
    rw [List.length_drop]
    split_ifs <;> omega
  have htake : (cursor.drop skip).take (min (pair.drop skip).length (out.length - 1)) =
      (pair.drop skip).take (min (pair.drop skip).length (out.length - 1)) := by
    rw [h, List.drop_append_of_le_length hskip, List.take_append_of_le_length (min_le_left _ _)]
  rw [hcount, keptIn, storeValue, storeValue, htake]

lemma queryLoop_eq {key out cursor : Bytes} {turns : ℕ} (hturns : cursor.length < turns)
    (hout : out ≠ []) :
    queryLoop key turns cursor out =
      match (cursor.splitOn 38).findSome? (valueOf key) with
      | some value => (true, keptIn out value)
      | none => (false, out) := by
  induction turns generalizing cursor with
  | zero => omega
  | succ turns ih =>
    unfold queryLoop
    by_cases hend : cursor = []
    · subst hend
      have hnone : valueOf key [] = none := if_neg (by simp)
      rw [if_pos rfl, List.splitOn_nil, List.findSome?_cons, hnone]
      rfl
    · rw [if_neg hend]
      have hcursor : cursor = cursor.takeWhile (· ≠ 38) ++ cursor.dropWhile (· ≠ 38) :=
        List.takeWhile_append_dropWhile.symm
      have hpairs := Strtok.splitOn_first 38 cursor
      set pair := cursor.takeWhile (· ≠ 38) with hpair
      have htest := test_iff key hcursor
      simp only
      by_cases hfound : key.length < pair.length ∧ pair[key.length]? = some 61 ∧ key <+: pair
      · have hvalue : valueOf key pair = some (pair.drop (key.length + 1)) := if_pos hfound
        rw [if_pos (htest.mpr hfound), Nat.sub_sub,
          keptIn_eq hcursor (Nat.succ_le_of_lt hfound.1) hout]
        rcases hpairs with ⟨-, hsplit⟩ | ⟨rest, -, hsplit⟩
        · rw [hsplit, List.findSome?_cons, hvalue]
        · rw [hsplit, List.findSome?_cons, hvalue]
      · have hvalue : valueOf key pair = none := if_neg hfound
        rw [if_neg (mt htest.mp hfound)]
        rcases hpairs with ⟨hwhole, hsplit⟩ | ⟨rest, hrest, hsplit⟩
        · rw [hsplit, List.findSome?_cons, hvalue, ← hwhole, List.drop_length]
          cases turns <;> rfl
        · have hnext : cursor.drop pair.length = 38 :: rest := by
            conv_lhs => rw [hrest]
            exact List.drop_left
          have hshorter := congrArg List.length hrest
          rw [List.length_append, List.length_cons] at hshorter
          rw [hsplit, List.findSome?_cons, hvalue, hnext]
          exact @ih rest (by omega)

/-- A pair is a piece of the query. -/
lemma mem_of_pair {c : UInt8} {text pair : Bytes} (hpair : pair ∈ text.splitOn 38) (hc : c ∈ pair) :
    c ∈ text := by
  induction text generalizing pair with
  | nil =>
    obtain rfl := List.mem_singleton.mp (List.splitOn_nil (a := (38 : UInt8)) ▸ hpair)
    exact hc
  | cons d text ih =>
    obtain ⟨first, later, hsplit⟩ := List.exists_cons_of_ne_nil (List.splitOn_ne_nil 38 text)
    rw [List.splitOn_cons_eq_if_modifyHead] at hpair
    split_ifs at hpair
    · rcases List.mem_cons.mp hpair with rfl | hpair
      · cases hc
      · exact List.mem_cons_of_mem d (ih hpair hc)
    · rw [hsplit, List.modifyHead_cons] at hpair
      rcases List.mem_cons.mp hpair with rfl | hpair
      · rcases List.mem_cons.mp hc with rfl | hc
        · exact List.mem_cons_self
        · exact List.mem_cons_of_mem d (ih (hsplit ▸ List.mem_cons_self) hc)
      · exact List.mem_cons_of_mem d (ih (hsplit ▸ List.mem_cons_of_mem first hpair) hc)

/-- What the loop finds is what the authorisation and the routes look up. -/
lemma queryGet_eq (key query : Bytes) (cap : ℕ) :
    queryGet key cap query = ((query.splitOn 38).findSome? (valueOf key)).map (cut cap) := by
  unfold queryGet
  rw [List.map_findSome?]
  congr 1
  funext pair
  unfold valueOf
  rw [Function.comp_apply, apply_ite (Option.map (cut cap))]
  rfl

lemma storeValue_eq {value out : Bytes} {n : ℕ} (hvalue : n ≤ value.length)
    (hout : n < out.length) :
    storeValue value n out = value.take n ++ 0 :: out.drop (n + 1) := by
  have hlength : (value.take n).length = n := List.length_take_of_le hvalue
  rw [storeValue, List.set_append_right _ _ hlength.le, hlength, Nat.sub_self,
    List.drop_eq_getElem_cons hout, List.set_cons_zero]

lemma cstr_keptIn {value out : Bytes} (hvalue : 0 ∉ value) (hout : out ≠ []) :
    (keptIn out value).length = out.length ∧ 0 ∈ keptIn out value ∧
      cstr (keptIn out value) = cut out.length value := by
  have hpos := List.length_pos_iff.mpr hout
  have hkept := storeValue_eq (min_le_left value.length (out.length - 1))
    (show min value.length (out.length - 1) < out.length by omega)
  have hcut : value.take (min value.length (out.length - 1)) = cut out.length value := by
    rw [cut, List.take_eq_take_iff]
    omega
  rw [keptIn, hkept, hcut]
  refine ⟨?_, List.mem_append_right _ List.mem_cons_self, ?_⟩
  · simp only [List.length_append, List.length_cons, List.length_drop, cut_length]
    omega
  · rw [cstr_append_zero, cstr_eq_self]
    exact fun h => hvalue (List.mem_of_mem_take h)

lemma set_zero_ne_nil {out : Bytes} (hout : out ≠ []) : out.set 0 0 ≠ [] := by
  rw [← List.length_pos_iff, List.length_set]
  exact List.length_pos_iff.mpr hout

lemma httpQueryGet_eq (key query : Bytes) {out : Bytes} (hout : out ≠ []) :
    httpQueryGet query key out =
      match (query.splitOn 38).findSome? (valueOf key) with
      | some value => (true, keptIn (out.set 0 0) value)
      | none => (false, out.set 0 0) := by
  have hset : out.set 0 0 ≠ [] := set_zero_ne_nil hout
  rw [httpQueryGet, if_neg hout]
  exact queryLoop_eq (Nat.lt_succ_self _) hset

lemma found_plain {key query value : Bytes} (hquery : 0 ∉ query)
    (h : (query.splitOn 38).findSome? (valueOf key) = some value) : 0 ∉ value := by
  obtain ⟨before, pair, later, hpairs, hvalue, -⟩ := List.findSome?_eq_some_iff.mp h
  intro hmem
  have hpair : pair ∈ query.splitOn 38 := by
    rw [hpairs]
    exact List.mem_append_right _ List.mem_cons_self
  refine hquery (mem_of_pair hpair ?_)
  rw [valueOf_eq_some.mp hvalue]
  exact List.mem_append_right _ (List.mem_cons_of_mem _ hmem)

/-- What the buffer holds afterwards is what the requests are looked up by. -/
theorem httpQueryGet_queryGet {query out : Bytes} (hquery : 0 ∉ query) (hout : out ≠ [])
    (key : Bytes) : queryGet key out.length query =
      if (httpQueryGet query key out).1 then some (cstr (httpQueryGet query key out).2)
      else none := by
  have hset : out.set 0 0 ≠ [] := set_zero_ne_nil hout
  rw [httpQueryGet_eq key query hout, queryGet_eq]
  cases hfind : (query.splitOn 38).findSome? (valueOf key) with
  | none => rfl
  | some value =>
    have hkept := (cstr_keptIn (found_plain hquery hfind) hset).2.2
    rw [List.length_set] at hkept
    simp only [Option.map_some, if_true, hkept]

/-- For a C string as the query and a buffer of at least one byte. -/
theorem httpQueryGet_looksUp {query out : Bytes} (hquery : 0 ∉ query) (hout : out ≠ [])
    (key : Bytes) :
    LooksUp query key out (httpQueryGet query key out).1 (httpQueryGet query key out).2 := by
  have hset : out.set 0 0 ≠ [] := set_zero_ne_nil hout
  rw [httpQueryGet_eq key query hout]
  cases hfind : (query.splitOn 38).findSome? (valueOf key) with
  | none =>
    have hnone : ∀ pair ∈ query.splitOn 38, ∀ value, ¬HasValue key value pair := by
      intro pair hpair value hvalue
      have := List.findSome?_eq_none_iff.mp hfind pair hpair
      rw [valueOf_eq_some.mpr hvalue] at this
      cases this
    obtain ⟨c, rest, rfl⟩ := List.exists_cons_of_ne_nil hout
    refine ⟨List.length_set, List.mem_cons_self, ⟨nofun, ?_⟩, ?_, fun _ => rfl⟩
    · rintro ⟨pair, hpair, value, hvalue⟩
      exact absurd hvalue (hnone pair hpair value)
    · intro before pair later value hpairs _ hvalue
      refine absurd hvalue (hnone pair ?_ value)
      rw [hpairs]
      exact List.mem_append_right _ List.mem_cons_self
  | some value =>
    obtain ⟨before, pair, later, hpairs, hvalue, hbefore⟩ := List.findSome?_eq_some_iff.mp hfind
    have hpair : pair ∈ query.splitOn 38 := by
      rw [hpairs]
      exact List.mem_append_right _ List.mem_cons_self
    obtain ⟨hroom, hzero, hkept⟩ := cstr_keptIn (found_plain hquery hfind) hset
    rw [List.length_set] at hroom hkept
    refine ⟨hroom, hzero, iff_of_true rfl ⟨pair, hpair, value, valueOf_eq_some.mp hvalue⟩, ?_, nofun⟩
    intro before' pair' later' value' hpairs' hnone' hvalue'
    -- the first pair with a value is the same
    have hfirst : (query.splitOn 38).findSome? (valueOf key) = some value' := by
      rw [hpairs', List.findSome?_append, List.findSome?_eq_none_iff.mpr, List.findSome?_cons,
        valueOf_eq_some.mpr hvalue']
      · rfl
      · intro p hp
        cases hv : valueOf key p with
        | none => rfl
        | some v => exact absurd (valueOf_eq_some.mp hv) (hnone' p hp v)
    rw [hfind] at hfirst
    obtain rfl := Option.some.inj hfirst
    exact hkept

theorem httpQueryGet_token :
    LooksUp (ascii "to=1&token=abcd&") (ascii "token") [1, 2, 3] true (ascii "ab" ++ [0]) :=
  httpQueryGet_looksUp (by decide) (by decide) (ascii "token")

end UsbSentinel.Http
