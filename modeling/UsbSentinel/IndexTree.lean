import UsbSentinel.JsonRoundtrip
import UsbSentinel.StoreIndex

/-! The index as a document: the text that `buildIndex` produces is the rendering of one
tree, and reading it back yields the entries that went into it. -/
namespace UsbSentinel.Store
open ByteString UsbSentinel.Json

/-- The member that a well-formed entry is read from. -/
def entryOf (lib : CLib) (m : Bytes × Value lib.Double) : Option IndexEntry :=
  match objectGet m.2 (ascii "last_scan_id"), objectGet m.2 (ascii "last_scan_at"),
    (objectGet m.2 (ascii "report_count")).bind (asInt lib) with
  | some id, some stamp, some count =>
    some { key := cstr m.1, scanId := asString id, scannedAt := asString stamp, count }
  | _, _, _ => none

lemma carried_eq (lib : CLib) (safe : Bytes) (m : Bytes × Value lib.Double) :
    carried lib safe m = if cstr m.1 = safe then none else entryOf lib m := rfl

lemma key_of_entryOf {lib : CLib} {m : Bytes × Value lib.Double} {e : IndexEntry}
    (h : entryOf lib m = some e) : e.key = cstr m.1 := by
  unfold entryOf at h
  split at h
  · rw [← Option.some.inj h]
  · simp at h

/-- The index that `text` spells: it parses, has the schema version, and every member of
"devices" is well formed. -/
def IndexReads (lib : CLib) (text : Bytes) (entries : List IndexEntry) : Prop :=
  ∃ root members, parse lib text = .ok root ∧
    (objectGet root (ascii "schema_version")).bind (asInt lib) = some indexSchemaVersion ∧
    objectGet root (ascii "devices") = some (.object members) ∧
    members.map (entryOf lib) = entries.map some

/-- The entries of a well-formed index that are carried over. -/
lemma filterMap_carried {lib : CLib} {members : List (Bytes × Value lib.Double)}
    {entries : List IndexEntry} (h : members.map (entryOf lib) = entries.map some) (safe : Bytes) :
    members.filterMap (carried lib safe) = entries.filter (·.key ≠ safe) := by
  induction members generalizing entries with
  | nil =>
    obtain rfl : entries = [] := by simpa using h.symm
    rfl
  | cons m members ih =>
    cases entries with
    | nil => simp at h
    | cons e entries =>
      simp only [List.map_cons, List.cons.injEq] at h
      have hkey := key_of_entryOf h.1
      rw [List.filterMap_cons, List.filter_cons, carried_eq, ih h.2, h.1, hkey]
      by_cases hsafe : cstr m.1 = safe
      · simp [hsafe]
      · simp [hsafe]

section Tree

def entryTree (e : IndexEntry) : Bytes × Value ℤ :=
  (e.key, .object [(ascii "last_scan_id", .string (e.scanId.getD [])),
    (ascii "last_scan_at", .string (e.scannedAt.getD [])), (ascii "report_count", .number e.count)])

def indexTree (entries : List IndexEntry) : Value ℤ :=
  .object [(ascii "schema_version", .number indexSchemaVersion),
    (ascii "devices", .object (entries.map entryTree))]

variable {realloc : ℕ → Bool}

lemma renderMembers_append (comma : Bool) (a b : List (Bytes × Value ℤ)) :
    renderMembers comma (a ++ b) =
      renderMembers comma a ++ renderMembers (if a = [] then comma else true) b := by
  induction a generalizing comma with
  | nil => rfl
  | cons m a ih =>
    obtain ⟨k, v⟩ := m
    rw [List.cons_append, renderMembers, renderMembers, ih true]
    simp

lemma memberString_sound {w : Writer} {name : Bytes} {value : Option Bytes}
    (h : (memberString realloc w name value).error = .ok) : w.error = .ok := by
  obtain ⟨_, hvalue⟩ := string_wrote h
  obtain ⟨_, _, _, _, _, hkey⟩ := key_wrote hvalue.sound
  exact hkey.sound

lemma memberInt_sound {w : Writer} {name : Bytes} {value : ℤ}
    (h : (memberInt realloc w name value).error = .ok) : w.error = .ok := by
  obtain ⟨_, hvalue⟩ := int_wrote h
  obtain ⟨_, _, _, _, _, hkey⟩ := key_wrote hvalue.sound
  exact hkey.sound

lemma key_sound {w : Writer} {name : Bytes} (h : (Json.key realloc w name).error = .ok) :
    w.error = .ok := by
  obtain ⟨_, _, _, _, _, hkey⟩ := key_wrote h
  exact hkey.sound

lemma beginObject_sound {w : Writer} (h : (beginObject realloc w).error = .ok) :
    w.error = .ok :=
  (beginContainer_wrote h).2.sound

lemma endObject_sound {w : Writer} (h : (endObject realloc w).error = .ok) : w.error = .ok := by
  obtain ⟨_, _, _, _, hend⟩ := endContainer_wrote h
  exact hend.sound

/-- An entry whose last call did not fail had no call fail. -/
lemma writeEntry_sound {w : Writer} {entry : IndexEntry}
    (h : (writeEntry realloc w entry).error = .ok) : w.error = .ok := by
  have hcount := endObject_sound h
  have hstamp := memberInt_sound hcount
  have hid := memberString_sound hstamp
  have hopen := memberString_sound hid
  have hkey := beginObject_sound hopen
  exact key_sound hkey

lemma key_into_object {w : Writer} {name : Bytes} {comma : Bool} {outer : List Frame}
    (hf : w.frames = ⟨true, comma, true⟩ :: outer) (h : (Json.key realloc w name).error = .ok) :
    Wrote w (Json.key realloc w name) ((if comma then ascii "," else []) ++ quoted name ++ ascii ":")
      (⟨true, true, false⟩ :: outer) := by
  obtain ⟨f, fs, hfs, _, _, hkey⟩ := key_wrote h
  obtain ⟨rfl, rfl⟩ : f = ⟨true, comma, true⟩ ∧ fs = outer := by simpa [hfs] using hf
  exact hkey

/-- After a key, an object opens as the member's value. -/
lemma beginObject_after_key {w : Writer} {outer : List Frame}
    (hf : w.frames = ⟨true, true, false⟩ :: outer) (h : (beginObject realloc w).error = .ok) :
    Wrote w (beginObject realloc w) (ascii "\x7b")
      (⟨true, false, true⟩ :: ⟨true, true, true⟩ :: outer) := by
  obtain ⟨_, hbegin⟩ := beginContainer_wrote h
  rw [hf] at hbegin
  exact hbegin

lemma endObject_wrote {w : Writer} {f : Frame} {outer : List Frame} (hf : w.frames = f :: outer)
    (h : (endObject realloc w).error = .ok) :
    Wrote w (endObject realloc w) (ascii "\x7d") outer := by
  obtain ⟨g, gs, hgs, _, hend⟩ := endContainer_wrote h
  rw [hf] at hgs
  rw [(List.cons.inj hgs).2]
  exact hend

lemma writeEntry_wrote {w : Writer} {entry : IndexEntry} {comma : Bool} {outer : List Frame}
    (hf : w.frames = ⟨true, comma, true⟩ :: outer)
    (h : (writeEntry realloc w entry).error = .ok) :
    Wrote w (writeEntry realloc w entry) (renderMembers comma [entryTree entry])
      (⟨true, true, true⟩ :: outer) := by
  have hcount := endObject_sound h
  have hstamp := memberInt_sound hcount
  have hid := memberString_sound hstamp
  have hopen := memberString_sound hid
  have hkey := beginObject_sound hopen
  have h₁ := key_into_object hf hkey
  have h₂ := beginObject_after_key h₁.frames hopen
  have h₃ := memberString_wrote h₂.frames hid
  have h₄ := memberString_wrote h₃.frames hstamp
  have h₅ := memberInt_wrote h₄.frames hcount
  have h₆ := endObject_wrote h₅.frames h
  have hwrote := ((((h₁.trans h₂).trans h₃).trans h₄).trans h₅).trans h₆
  refine ⟨hwrote.sound, hwrote.buf.trans ?_, hwrote.frames⟩
  simp [renderMembers, render, entryTree]

lemma foldl_writeEntry_sound {entries : List IndexEntry} {w : Writer}
    (h : (entries.foldl (writeEntry realloc) w).error = .ok) : w.error = .ok := by
  induction entries generalizing w with
  | nil => exact h
  | cons e entries ih =>
    rw [List.foldl_cons] at h
    exact writeEntry_sound (ih h)

lemma foldl_writeEntry_wrote {entries : List IndexEntry} {w : Writer} {comma : Bool}
    {outer : List Frame} (hf : w.frames = ⟨true, comma, true⟩ :: outer)
    (h : (entries.foldl (writeEntry realloc) w).error = .ok) :
    ∃ comma', Wrote w (entries.foldl (writeEntry realloc) w)
      (renderMembers comma (entries.map entryTree)) (⟨true, comma', true⟩ :: outer) := by
  induction entries generalizing w comma with
  | nil => exact ⟨comma, h, by simp [renderMembers], hf⟩
  | cons e entries ih =>
    rw [List.foldl_cons] at h ⊢
    have hentry := writeEntry_wrote hf (foldl_writeEntry_sound h)
    obtain ⟨comma', hrest⟩ := ih hentry.frames h
    refine ⟨comma', ?_⟩
    have hall := hentry.trans hrest
    have htext : renderMembers comma ((e :: entries).map entryTree) =
        renderMembers comma [entryTree e] ++ renderMembers true (entries.map entryTree) := by
      rw [List.map_cons, ← List.singleton_append, renderMembers_append]
      rfl
    rw [htext]
    exact hall

/-- Once built, the text is the rendering of the entries' tree. -/
theorem buildIndex_render {entries : List IndexEntry} {text : Bytes}
    (h : finish (buildIndex realloc entries) = .ok text) : text = render (indexTree entries) := by
  obtain ⟨herror, hframes, rfl⟩ := finish_eq_ok h
  have hdevices := endObject_sound herror
  have hentries := endObject_sound hdevices
  have hopen := foldl_writeEntry_sound hentries
  have hkey := beginObject_sound hopen
  have hversion := key_sound hkey
  have hroot := memberInt_sound hversion
  have h₁ : Wrote {} (beginObject realloc {}) (ascii "\x7b") [⟨true, false, true⟩] := by
    obtain ⟨_, hbegin⟩ := beginContainer_wrote hroot
    exact hbegin
  have h₂ := memberInt_wrote h₁.frames hversion
  have h₃ := key_into_object h₂.frames hkey
  have h₄ := beginObject_after_key h₃.frames hopen
  obtain ⟨comma, h₅⟩ := foldl_writeEntry_wrote h₄.frames hentries
  have h₆ := endObject_wrote h₅.frames hdevices
  have h₇ := endObject_wrote h₆.frames herror
  have hwrote := (((((h₁.trans h₂).trans h₃).trans h₄).trans h₅).trans h₆).trans h₇
  rw [buildIndex, hwrote.buf]
  simp [indexTree, renderMembers, render]

end Tree

section Reading
variable {lib : CLib}

/-- An entry as it comes back from the document. -/
def IndexEntry.asRead (e : IndexEntry) : IndexEntry :=
  ⟨cstr e.key, some (cstr (e.scanId.getD [])), some (cstr (e.scannedAt.getD [])), e.count⟩

@[simp] lemma IndexEntry.asRead_asRead (e : IndexEntry) : e.asRead.asRead = e.asRead := by
  simp [IndexEntry.asRead, cstr_cstr]

lemma mapMembers_eq_map {μ ν : Type} (f : μ → ν) (members : List (Bytes × Value μ)) :
    mapMembers f members = members.map fun m => (m.1, mapNumber f m.2) := by
  induction members with
  | nil => rfl
  | cons m members ih =>
    obtain ⟨k, v⟩ := m
    rw [mapMembers, ih, List.map_cons]

lemma allNumbersMembers_of_forall {ν : Type} {p : ν → Prop} {members : List (Bytes × Value ν)}
    (h : ∀ m ∈ members, AllNumbers p m.2) : AllNumbersMembers p members := by
  induction members with
  | nil => trivial
  | cons m members ih =>
    exact ⟨h m (by simp), ih fun m' hm' => h m' (by simp [hm'])⟩

lemma heightMembers_le {ν : Type} {members : List (Bytes × Value ν)} {n : ℕ}
    (h : ∀ m ∈ members, height m.2 ≤ n) : heightMembers members ≤ n := by
  induction members with
  | nil => exact Nat.zero_le n
  | cons m members ih =>
    exact max_le (h m (by simp)) (ih fun m' hm' => h m' (by simp [hm']))

lemma indexTree_height (entries : List IndexEntry) : height (indexTree entries) ≤ parseMaxDepth := by
  have hentry : ∀ m ∈ entries.map entryTree, height m.2 ≤ 2 := by
    intro m hm
    obtain ⟨e, _, rfl⟩ := List.mem_map.mp hm
    exact le_rfl
  have hdevices := heightMembers_le hentry
  simp only [indexTree, height, heightMembers, parseMaxDepth]
  omega

lemma indexTree_numbers {entries : List IndexEntry} (h : ∀ e ∈ entries, e.count.natAbs ≤ 2 ^ 53) :
    AllNumbers (fun n => n.natAbs ≤ 2 ^ 53) (indexTree entries) := by
  have hentries : AllNumbersMembers (fun n : ℤ => n.natAbs ≤ 2 ^ 53) (entries.map entryTree) := by
    refine allNumbersMembers_of_forall fun m hm => ?_
    obtain ⟨e, he, rfl⟩ := List.mem_map.mp hm
    exact ⟨trivial, trivial, h e he, trivial⟩
  have hversion : AllNumbers (fun n : ℤ => n.natAbs ≤ 2 ^ 53) (.number indexSchemaVersion) := by
    simp [AllNumbers, indexSchemaVersion]
  exact ⟨hversion, hentries, trivial⟩

lemma find_member {ν : Type} {name k : Bytes} {v : Value ν} {rest : List (Bytes × Value ν)} :
    objectGet (.object ((k, v) :: rest)) name =
      if cstr k = name then some v else objectGet (.object rest) name := by
  simp only [objectGet, List.find?_cons]
  by_cases hk : cstr k = name
  · simp [hk]
  · simp [hk]

/-- An entry's member, read back. -/
lemma entryOf_readBack (hlib : lib.Exact) {e : IndexEntry} (h : e.count.natAbs ≤ 2 ^ 53) :
    entryOf lib ((entryTree e).1, readBack lib (entryTree e).2) = some e.asRead := by
  obtain ⟨_, hintegral, hvalue⟩ := hlib e.count h
  have hid : cstr (ascii "last_scan_id") = ascii "last_scan_id" := by decide
  have hat : cstr (ascii "last_scan_at") = ascii "last_scan_at" := by decide
  have hcount : cstr (ascii "report_count") = ascii "report_count" := by decide
  have hne₁ : ascii "last_scan_id" ≠ ascii "last_scan_at" := by decide
  have hne₂ : ascii "last_scan_id" ≠ ascii "report_count" := by decide
  have hne₃ : ascii "last_scan_at" ≠ ascii "report_count" := by decide
  simp only [entryOf, entryTree, readBack, mapNumber, mapMembers, find_member, hid, hat, hcount,
    hne₁, hne₂, hne₃, if_true, if_false, Option.bind_some, asInt, hintegral, hvalue, asString]
  rfl

/-- A rendered index is read back entry by entry. -/
theorem indexTree_reads (hlib : lib.Exact) {entries : List IndexEntry}
    (hcounts : ∀ e ∈ entries, e.count.natAbs ≤ 2 ^ 53) :
    IndexReads lib (render (indexTree entries)) (entries.map IndexEntry.asRead) := by
  have hparse := parse_render hlib (indexTree_height entries) (indexTree_numbers hcounts)
  have hone : (indexSchemaVersion).natAbs ≤ 2 ^ 53 := by decide
  obtain ⟨_, hintegral, hvalue⟩ := hlib indexSchemaVersion hone
  have hversion : cstr (ascii "schema_version") = ascii "schema_version" := by decide
  have hdevices : cstr (ascii "devices") = ascii "devices" := by decide
  have hne : ascii "schema_version" ≠ ascii "devices" := by decide
  refine ⟨readBack lib (indexTree entries),
    (entries.map entryTree).map fun m => (m.1, readBack lib m.2), hparse, ?_, ?_, ?_⟩
  · simp only [indexTree, readBack, mapNumber, mapMembers, find_member, hversion, if_true,
      Option.bind_some, asInt, hintegral, hvalue]
  · simp only [indexTree, readBack, mapNumber, mapMembers, find_member, hversion, hdevices, hne,
      if_true, if_false, mapMembers_eq_map]
  · rw [List.map_map, List.map_map, List.map_map]
    refine List.map_congr_left fun e he => ?_
    exact entryOf_readBack hlib (hcounts e he)

/-- What was built is read back entry by entry. -/
theorem buildIndex_reads (hlib : lib.Exact) {realloc : ℕ → Bool} {entries : List IndexEntry}
    {text : Bytes} (hcounts : ∀ e ∈ entries, e.count.natAbs ≤ 2 ^ 53)
    (h : finish (buildIndex realloc entries) = .ok text) :
    IndexReads lib text (entries.map IndexEntry.asRead) := by
  rw [buildIndex_render h]
  exact indexTree_reads hlib hcounts

/-- A text spells one list of entries. -/
theorem IndexReads.unique {text : Bytes} {entries entries' : List IndexEntry}
    (h : IndexReads lib text entries) (h' : IndexReads lib text entries') : entries = entries' := by
  obtain ⟨root, members, hparse, _, hdevices, hmembers⟩ := h
  obtain ⟨root', members', hparse', _, hdevices', hmembers'⟩ := h'
  obtain rfl := Except.ok.inj (hparse.symm.trans hparse')
  obtain rfl : members = members' := by simpa [hdevices] using hdevices'
  exact List.map_injective_iff.mpr (Option.some_injective _) (hmembers.symm.trans hmembers')

end Reading

end UsbSentinel.Store
