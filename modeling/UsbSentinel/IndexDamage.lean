import UsbSentinel.IndexTree
import UsbSentinel.StoreLastScan

/-! What a refresh keeps of a damaged index: which members of the old document go into the new
one, and from which damage the old index may suffer without harm. -/
namespace UsbSentinel.Json

/-- How doubles meet `long long`, where `value` is the integer that a double is, if it is one:
`modf` leaves no fraction of an integer, and an integer in range is converted to itself. -/
structure CLib.Converts (lib : CLib) (value : lib.Double → Option ℤ) : Prop where
  integral : ∀ d n, value d = some n → lib.integral d = true
  toInt : ∀ d n, value d = some n → -2 ^ 63 ≤ n → n < 2 ^ 63 → lib.toInt d = n

end UsbSentinel.Json

namespace UsbSentinel.Store
open ByteString UsbSentinel.Path UsbSentinel.Json

section Members
variable {lib : CLib} {value : lib.Double → Option ℤ} {safe : Bytes}

/-- The member stands for the old one: two strings and an integer that fits, as they were. -/
def Same (value : lib.Double → Option ℤ) (old : Bytes × Value lib.Double)
    (new : Bytes × Value ℤ) : Prop :=
  ∃ id stamp d count, objectGet old.2 (ascii "last_scan_id") = some (.string id) ∧
    objectGet old.2 (ascii "last_scan_at") = some (.string stamp) ∧
    objectGet old.2 (ascii "report_count") = some (.number d) ∧
    value d = some count ∧ -2 ^ 63 ≤ count ∧ count < 2 ^ 63 ∧
    new = entryTree ⟨cstr old.1, some id, some stamp, count⟩

/-- The new members stand for old ones, in order; the written device's own and those that are
not well formed are dropped. -/
inductive Carries (value : lib.Double → Option ℤ) (safe : Bytes) :
    List (Bytes × Value lib.Double) → List (Bytes × Value ℤ) → Prop
  | nil : Carries value safe [] []
  | keep {m n ms ns} (hother : cstr m.1 ≠ safe) (hsame : Same value m n)
      (hrest : Carries value safe ms ns) : Carries value safe (m :: ms) (n :: ns)
  | drop {m ms ns} (hdrop : cstr m.1 = safe ∨ ∀ n, ¬Same value m n)
      (hrest : Carries value safe ms ns) : Carries value safe (m :: ms) ns

/-- The field is not a string, or one with a NUL character in it. -/
def NotText (v : Value lib.Double) : Prop := ∀ s, v = .string s → 0 ∈ s

/-- Another device's member with all three fields and a number without a fraction for a count,
in which a text is no string that a C string can hold or the count is not a `long long`. -/
def Damaged (value : lib.Double → Option ℤ) (safe : Bytes) (m : Bytes × Value lib.Double) : Prop :=
  cstr m.1 ≠ safe ∧ ∃ id stamp d, objectGet m.2 (ascii "last_scan_id") = some id ∧
    objectGet m.2 (ascii "last_scan_at") = some stamp ∧
    objectGet m.2 (ascii "report_count") = some (.number d) ∧ lib.integral d = true ∧
    (NotText id ∨ NotText stamp ∨ ¬∃ n, value d = some n ∧ -2 ^ 63 ≤ n ∧ n < 2 ^ 63)

lemma text_of_not_notText {v : Value lib.Double} (h : ¬NotText v) :
    ∃ s, v = .string s ∧ cstr s = s := by
  obtain ⟨s, hs⟩ := not_forall.mp h
  obtain ⟨htext, hzero⟩ := Classical.not_imp.mp hs
  exact ⟨s, htext, cstr_eq_self hzero⟩

/-- What an entry is read from. -/
lemma entryOf_eq_some {m : Bytes × Value lib.Double} {e : IndexEntry}
    (h : entryOf lib m = some e) :
    ∃ id stamp d, objectGet m.2 (ascii "last_scan_id") = some id ∧
      objectGet m.2 (ascii "last_scan_at") = some stamp ∧
      objectGet m.2 (ascii "report_count") = some (.number d) ∧ lib.integral d = true ∧
      e = ⟨cstr m.1, asString id, asString stamp, lib.toInt d⟩ := by
  unfold entryOf at h
  split at h
  · next id stamp count hid hstamp hcount =>
    obtain ⟨v, hv, hint⟩ := Option.bind_eq_some_iff.mp hcount
    unfold asInt at hint
    split at hint
    · next d =>
      split_ifs at hint with hintegral
      obtain rfl := Option.some.inj hint
      exact ⟨id, stamp, d, hid, hstamp, hv, hintegral, (Option.some.inj h).symm⟩
    · simp at hint
  · simp at h

lemma entryOf_of_fields {m : Bytes × Value lib.Double} {id stamp : Value lib.Double}
    {d : lib.Double} (hid : objectGet m.2 (ascii "last_scan_id") = some id)
    (hstamp : objectGet m.2 (ascii "last_scan_at") = some stamp)
    (hcount : objectGet m.2 (ascii "report_count") = some (.number d))
    (hintegral : lib.integral d = true) :
    entryOf lib m = some ⟨cstr m.1, asString id, asString stamp, lib.toInt d⟩ := by
  simp only [entryOf, hid, hstamp, hcount, Option.bind_some, asInt, hintegral, if_true]

/-- Where a member is not damaged, the entry carried over stands for it. -/
lemma same_of_not_damaged (hlib : lib.Converts value) {m : Bytes × Value lib.Double}
    {e : IndexEntry} (hother : cstr m.1 ≠ safe) (h : entryOf lib m = some e)
    (hsound : ¬Damaged value safe m) : Same value m (entryTree e) := by
  obtain ⟨id, stamp, d, hid, hstamp, hcount, hintegral, rfl⟩ := entryOf_eq_some h
  have hfine : ¬(NotText id ∨ NotText stamp ∨ ¬∃ n, value d = some n ∧ -2 ^ 63 ≤ n ∧ n < 2 ^ 63) :=
    fun hbad => hsound ⟨hother, id, stamp, d, hid, hstamp, hcount, hintegral, hbad⟩
  obtain ⟨hidText, hrest⟩ := not_or.mp hfine
  obtain ⟨hstampText, hlong⟩ := not_or.mp hrest
  obtain ⟨n, hvalue, hlow, hhigh⟩ := not_not.mp hlong
  obtain ⟨s, rfl, hs⟩ := text_of_not_notText hidText
  obtain ⟨t, rfl, ht⟩ := text_of_not_notText hstampText
  refine ⟨s, t, d, n, hid, hstamp, hcount, hvalue, hlow, hhigh, ?_⟩
  rw [asString, asString, hs, ht, hlib.toInt d n hvalue hlow hhigh]

/-- Where the entry carried over stands for the member, the member is not damaged. -/
lemma not_damaged_of_same {m : Bytes × Value lib.Double} {e : IndexEntry}
    (h : entryOf lib m = some e) (hsame : Same value m (entryTree e)) : ¬Damaged value safe m := by
  rintro ⟨-, id, stamp, d, hid, hstamp, hcount, hintegral, hbad⟩
  obtain ⟨s, t, d', n, hid', hstamp', hcount', hvalue, hlow, hhigh, htree⟩ := hsame
  obtain rfl := Option.some.inj (hid.symm.trans hid')
  obtain rfl := Option.some.inj (hstamp.symm.trans hstamp')
  obtain rfl := Value.number.inj (Option.some.inj (hcount.symm.trans hcount'))
  rw [entryOf_of_fields hid hstamp hcount hintegral] at h
  obtain rfl := Option.some.inj h
  simp only [entryTree, asString, Option.getD_some, Prod.mk.injEq, Value.object.injEq,
    List.cons.injEq, Value.string.injEq, Value.number.injEq, true_and, and_true] at htree
  obtain ⟨hs, ht, -⟩ := htree
  rcases hbad with hbad | hbad | hbad
  · exact cstr_eq_self_iff.mp hs (hbad s rfl)
  · exact cstr_eq_self_iff.mp ht (hbad t rfl)
  · exact hbad ⟨n, hvalue, hlow, hhigh⟩

lemma entryOf_of_same (hlib : lib.Converts value) {m : Bytes × Value lib.Double}
    {n : Bytes × Value ℤ} (h : Same value m n) : ∃ e, entryOf lib m = some e := by
  obtain ⟨_, _, d, count, hid, hstamp, hcount, hvalue, -⟩ := h
  exact ⟨_, entryOf_of_fields hid hstamp hcount (hlib.integral d count hvalue)⟩

/-- The members of the new document that come from the old index. -/
def keptMembers (lib : CLib) (safe : Bytes) (old : Option (Value lib.Double)) :
    List (Bytes × Value ℤ) :=
  ((oldDevices old).filterMap (carried lib safe)).map entryTree

lemma carried_of_ne {m : Bytes × Value lib.Double} (hother : cstr m.1 ≠ safe) :
    carried lib safe m = entryOf lib m := by
  rw [carried_eq, if_neg hother]

/-- No more members can be well formed than are carried over. -/
lemma Carries.length_le (hlib : lib.Converts value) {ms : List (Bytes × Value lib.Double)}
    {ns : List (Bytes × Value ℤ)} (h : Carries value safe ms ns) :
    ns.length ≤ (ms.filterMap (carried lib safe)).length := by
  induction h with
  | nil => exact le_rfl
  | @keep m n ms ns hother hsame _ ih =>
    obtain ⟨e, he⟩ := entryOf_of_same hlib hsame
    rw [List.filterMap_cons_some (by rw [carried_of_ne hother, he]), List.length_cons,
      List.length_cons]
    exact Nat.succ_le_succ ih
  | @drop m ms ns _ _ ih =>
    rw [List.filterMap_cons]
    cases carried lib safe m with
    | none => exact ih
    | some e => exact ih.trans (Nat.le_succ _)

theorem carries_iff (hlib : lib.Converts value) (ms : List (Bytes × Value lib.Double)) :
    Carries value safe ms ((ms.filterMap (carried lib safe)).map entryTree) ↔
      ∀ m ∈ ms, ¬Damaged value safe m := by
  induction ms with
  | nil => exact ⟨fun _ m hm => by simp at hm, fun _ => .nil⟩
  | cons m ms ih =>
    rw [List.forall_mem_cons, ← ih]
    by_cases hown : cstr m.1 = safe
    · have hdropped : carried lib safe m = none := by rw [carried_eq, if_pos hown]
      rw [List.filterMap_cons_none hdropped]
      refine ⟨fun h => ⟨fun hd => hd.1 hown, ?_⟩, fun h => .drop (.inl hown) h.2⟩
      generalize (ms.filterMap (carried lib safe)).map entryTree = ns at h
      cases h with
      | keep hother => exact absurd hown hother
      | drop _ hrest => exact hrest
    · have hcarried : carried lib safe m = entryOf lib m := carried_of_ne hown
      cases hentry : entryOf lib m with
      | none =>
        rw [List.filterMap_cons_none (hcarried.trans hentry)]
        have hnone : ∀ n, ¬Same value m n := fun n hsame => by
          obtain ⟨e, he⟩ := entryOf_of_same hlib hsame
          rw [hentry] at he
          cases he
        refine ⟨fun h => ⟨?_, ?_⟩, fun h => .drop (.inr hnone) h.2⟩
        · rintro ⟨-, id, stamp, d, hid, hstamp, hcount, hintegral, -⟩
          rw [entryOf_of_fields hid hstamp hcount hintegral] at hentry
          cases hentry
        · generalize (ms.filterMap (carried lib safe)).map entryTree = ns at h
          cases h with
          | keep _ hsame => exact absurd hsame (hnone _)
          | drop _ hrest => exact hrest
      | some e =>
        rw [List.filterMap_cons_some (hcarried.trans hentry), List.map_cons]
        refine ⟨fun h => ?_, fun h => .keep hown (same_of_not_damaged hlib hown hentry h.1) h.2⟩
        cases h with
        | keep _ hsame hrest => exact ⟨not_damaged_of_same hentry hsame, hrest⟩
        | drop _ hrest =>
          -- one member more than the rest can give
          have hlength := hrest.length_le hlib
          rw [List.length_cons, List.length_map] at hlength
          omega

end Members

/-- A refresh that wrote: the old index it found, whole, and the document it put in place, whose
"devices" are the members kept of the old one and the written device's own. -/
structure Refreshed {σ : Type} (P : StorePlatform σ) (host : Host) (lib : CLib) (memory : Memory)
    (store : Store) (identity : Bytes) (s s' : σ) (safe path : Bytes)
    (old : Option (Value lib.Double)) (kept : List (Bytes × Value ℤ)) : Prop where
  safe_id : safeId identity storePathMax = .ok safe
  index_path : indexPath host store storePathMax = .ok path
  run : ∃ last s₁ s₂, lastScan P host store identity s = ((.ok, last), s₁) ∧
    (oldIndex P lib memory path s₁ = (old, s₂) ∧ ∀ root, old = some root →
      ∃ file, P.fileOpenRead path s₁ = (.ok file, s₂) ∧ parse lib file.content = .ok root) ∧
    writeThenReplace P path (path ++ ascii ".tmp")
      (render (.object [(ascii "schema_version", .number indexSchemaVersion),
        (ascii "devices", .object (kept ++ (freshEntry safe last).map entryTree))])) s₂ = (.ok, s')

/-- An index that was found is the parse of the whole file. -/
lemma oldIndex_found {σ : Type} {P : StorePlatform σ} {lib : CLib} {memory : Memory}
    {path : Bytes} {s s' : σ} {root : Value lib.Double}
    (h : oldIndex P lib memory path s = (some root, s')) :
    ∃ file, P.fileOpenRead path s = (.ok file, s') ∧ parse lib file.content = .ok root := by
  unfold oldIndex at h
  split at h
  · simp at h
  · next text s₁ hread =>
    split_ifs at h
    · split at h
      · next root' hparse =>
        obtain ⟨hroot, rfl⟩ := Prod.mk.inj h
        obtain rfl := Option.some.inj hroot
        unfold readWholeFile at hread
        split at hread
        · simp at hread
        · next file s₁ hopen =>
          obtain ⟨hloop, rfl⟩ := Prod.mk.inj hread
          have htext := readLoop_eq_ok (n := 0) le_rfl (.inl rfl) (Nat.zero_le _) hloop
          exact ⟨file, hopen, htext ▸ hparse⟩
      · simp at h
    · simp at h

lemma refreshed_of_written {σ : Type} {P : StorePlatform σ} {host : Host} {lib : CLib}
    {memory : Memory} {store : Store} {identity : Bytes} {s s' : σ}
    (h : refreshIndex P host lib memory store identity s = (.written, s')) :
    ∃ safe path old, Refreshed P host lib memory store identity s s' safe path old
      (keptMembers lib safe old) := by
  unfold refreshIndex at h
  split at h
  · simp at h
  · next safe hsafe =>
    split at h
    · simp at h
    · next path hpath =>
      split at h
      · next last s₁ hlast =>
        split at h
        · next old s₂ hold =>
          dsimp only at h
          split at h
          · simp at h
          · next text hbuild =>
            split_ifs at h
            · simp at h
            · split at h
              · next s₃ hwrite =>
                obtain rfl := (Prod.mk.inj h).2
                refine ⟨safe, path, old, hsafe, hpath, last, s₁, s₂, hlast, ⟨hold, ?_⟩, ?_⟩
                · rintro root rfl
                  exact oldIndex_found hold
                · rw [buildIndex_render hbuild, indexTree, List.map_append] at hwrite
                  exact hwrite
              · simp at h
      · simp at h

/-- A refresh that writes an index keeps of the old one what is well formed, as it was, and
nothing else, exactly when no other device's member is damaged. -/
theorem refreshIndex_carries_iff {σ : Type} (P : StorePlatform σ) (host : Host) {lib : CLib}
    {value : lib.Double → Option ℤ} (hlib : lib.Converts value) (memory : Memory) (store : Store)
    (identity : Bytes) {s s' : σ}
    (h : refreshIndex P host lib memory store identity s = (.written, s')) :
    ∃ safe path old, Refreshed P host lib memory store identity s s' safe path old
        (keptMembers lib safe old) ∧
      (Carries value safe (oldDevices old) (keptMembers lib safe old) ↔
        ∀ m ∈ oldDevices old, ¬Damaged value safe m) := by
  obtain ⟨safe, path, old, hrefreshed⟩ := refreshed_of_written h
  exact ⟨safe, path, old, hrefreshed, carries_iff hlib (oldDevices old)⟩

/-- A store whose index is the given text, as another program may have left it. -/
def indexedDisk (text : Bytes) : Posix.Disk :=
  (quietPlatform.writeFile (ascii "/s/index.json") text stickOpened.2).2

def refreshed (text : Bytes) : Refresh × Posix.Disk :=
  refreshIndex quietPlatform .posix wholeLib {} ⟨ascii "/s"⟩ (ascii "usb:1") (indexedDisk text)

def soundIndex : Bytes :=
  ascii "\x7b\"devices\":\x7b\"usb_3A2\":\x7b\"last_scan_id\":\"A\",\"last_scan_at\":\"B\",\"report_count\":3\x7d\x7d\x7d"

/-- The scan id is a number. -/
def damagedIndex : Bytes :=
  ascii "\x7b\"devices\":\x7b\"usb_3A2\":\x7b\"last_scan_id\":5,\"last_scan_at\":\"B\",\"report_count\":3\x7d\x7d\x7d"

lemma wholeLib_converts : wholeLib.Converts some :=
  ⟨fun _ _ _ => rfl, fun _ _ h _ _ => Option.some.inj h⟩

def stickBefore (text : Bytes) : Posix.Disk :=
  (lastScan quietPlatform .posix ⟨ascii "/s"⟩ (ascii "usb:1") (indexedDisk text)).2

def stickOld (text : Bytes) : Option (Value wholeLib.Double) :=
  (oldIndex quietPlatform wholeLib {} (ascii "/s/index.json") (stickBefore text)).1

lemma refreshed_sound : (refreshed soundIndex).1 = .written := by decide +kernel

theorem refreshIndex_carries_sound :
    ∃ safe path old, Refreshed quietPlatform .posix wholeLib {} ⟨ascii "/s"⟩ (ascii "usb:1")
        (indexedDisk soundIndex) (refreshed soundIndex).2 safe path old
        (keptMembers wholeLib safe old) ∧
      (Carries some safe (oldDevices old) (keptMembers wholeLib safe old) ↔
        ∀ m ∈ oldDevices old, ¬Damaged some safe m) := by
  have hrun : refreshed soundIndex = (.written, (refreshed soundIndex).2) :=
    refreshed_sound ▸ Prod.mk.eta.symm
  generalize (refreshed soundIndex).2 = s' at hrun ⊢
  exact refreshIndex_carries_iff quietPlatform .posix wholeLib_converts {} ⟨ascii "/s"⟩
    (ascii "usb:1") hrun

/-- The member is kept though it has no scan id that is a text. -/
lemma damaged_written : (refreshed damagedIndex).1 = .written ∧
    (oldDevices (stickOld damagedIndex)).map
      (fun m => (objectGet m.2 (ascii "last_scan_id")).bind asString) = [none] ∧
    (keptMembers wholeLib (ascii "usb_3A1") (stickOld damagedIndex)).length = 1 := by
  decide +kernel

/-- A member whose scan id is a number comes out with an empty text for it. -/
theorem refreshIndex_propagates :
    ¬∀ s s' : Posix.Disk,
      refreshIndex quietPlatform .posix wholeLib {} ⟨ascii "/s"⟩ (ascii "usb:1") s = (.written, s') →
      ∀ safe path old, Refreshed quietPlatform .posix wholeLib {} ⟨ascii "/s"⟩ (ascii "usb:1") s s'
          safe path old (keptMembers wholeLib safe old) →
        Carries some safe (oldDevices old) (keptMembers wholeLib safe old) := by
  intro h
  obtain ⟨hwritten, hfields, hkept⟩ := damaged_written
  have hrun : refreshed damagedIndex = (.written, (refreshed damagedIndex).2) :=
    hwritten ▸ Prod.mk.eta.symm
  obtain ⟨safe, path, old, hrefreshed⟩ := refreshed_of_written hrun
  have hcarries := h _ _ hrun safe path old hrefreshed
  obtain ⟨hsafe, hpath, last, s₁, s₂, hlast, ⟨hold, -⟩, -⟩ := hrefreshed
  have hsafeIs : safeId (ascii "usb:1") storePathMax = .ok (ascii "usb_3A1") := by decide +kernel
  have hpathIs : indexPath .posix ⟨ascii "/s"⟩ storePathMax = .ok (ascii "/s/index.json") := by
    decide +kernel
  obtain rfl := Except.ok.inj (hsafe.symm.trans hsafeIs)
  obtain rfl := Except.ok.inj (hpath.symm.trans hpathIs)
  have hbefore : stickBefore damagedIndex = s₁ := congrArg Prod.snd hlast
  have hfound : stickOld damagedIndex = old := by
    rw [stickOld, hbefore]
    exact congrArg Prod.fst hold
  rw [hfound] at hfields hkept
  generalize keptMembers wholeLib (ascii "usb_3A1") old = kept at hcarries hkept
  generalize oldDevices old = devices at hcarries hfields
  cases hcarries with
  | nil => simp at hkept
  | keep _ hsame _ =>
    obtain ⟨id, _, _, _, hid, -⟩ := hsame
    rw [List.map_cons, hid] at hfields
    simp [asString] at hfields
  | drop _ hrest =>
    obtain ⟨-, hrest'⟩ := List.cons.inj hfields
    obtain rfl := List.map_eq_nil_iff.mp hrest'
    cases hrest
    simp at hkept

end UsbSentinel.Store
