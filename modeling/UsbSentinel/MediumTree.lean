import UsbSentinel.VolumeTree

/-! Volumes as their directories keep them: every object under its own name, beside the entry it
is listed as. A listed name may be another object's own, since what is no UTF-8 is replaced. -/
namespace UsbSentinel
open ByteString UsbSentinel.Path

def DirEntry.isFile (e : DirEntry) : Bool := !e.isDirectory && !e.isReparsePoint

/-- What the walk takes for a directory. -/
def DirEntry.isEntered (e : DirEntry) : Bool := e.isDirectory && !e.isReparsePoint

/-- The contents of a directory: each object's own name and entry, how it opens as a directory,
and what it holds then. What a reparse point holds is what it leads to. -/
inductive Contents
  | nil
  | cons (own : Bytes) (entry : DirEntry) (answer : Answer) (below rest : Contents)

/-- A name that stays in the directory it is looked up in. -/
structure PlainName (kind : Host) (name : Bytes) : Prop where
  ne_nil : name ≠ []
  separator : ∀ c ∈ name, isSeparator kind c = false

/-- How many of the shown entries are directories listed under the name. -/
def leads (shown : List DirEntry) (own : Bytes) : ℕ :=
  shown.countP fun e => e.isEntered && e.name = own

/-- A directory, or what a reparse point leads to, under the path of the own names. `ways`
counts the chains of shown entries that lead the walk there, and `linked` tells that one of the
names is a reparse point's. -/
structure Site where
  path : Bytes
  depth : ℕ
  ways : ℕ
  linked : Bool
  delivered : ℕ
  inside : Contents

namespace Contents

def entries : Contents → List DirEntry
  | nil => []
  | cons _ entry _ _ rest => entry :: rest.entries

def names : Contents → List Bytes
  | nil => []
  | cons own _ _ _ rest => own :: rest.names

/-- The own names in each directory are distinct, and all names are plain. -/
def WellNamed (kind : Host) : Contents → Prop
  | nil => True
  | cons own entry _ below rest =>
    own ∉ rest.names ∧ PlainName kind own ∧ PlainName kind entry.name ∧ below.WellNamed kind ∧
      rest.WellNamed kind

/-- The sites below the directory `path`, of which `shown` is listed. -/
def sites (kind : Host) (path : Bytes) (depth ways : ℕ) (linked : Bool) (shown : List DirEntry) :
    Contents → List Site
  | nil => []
  | cons own entry answer below rest =>
    (if entry.isFile then []
      else
        ⟨joined kind path own, depth + 1, ways * leads shown own, linked || entry.isReparsePoint,
          answer.delivered, below⟩ ::
          sites kind (joined kind path own) (depth + 1) (ways * leads shown own)
            (linked || entry.isReparsePoint) (below.entries.take answer.delivered) below) ++
      sites kind path depth ways linked shown rest

/-- The host opens by its own name what `path` holds, where `names` are all the own names there,
and no directory that is listed under a name that nothing has; so on for `levels` directories. -/
def Opens (host : ScanHost) : ℕ → Bytes → List Bytes → Contents → Prop
  | _, _, _, nil => True
  | 0, _, _, cons _ _ _ _ _ => True
  | levels + 1, path, names, cons own entry answer below rest =>
    (entry.isEntered = true → entry.name ∉ names →
        ∀ t, ∃ e, host.dirOpen t (joined host.kind path entry.name) = .error e) ∧
      (if entry.isFile then ∀ t, ∃ e, host.dirOpen t (joined host.kind path own) = .error e
        else
          (∀ t, host.dirOpen t (joined host.kind path own) = answer.listing below.entries) ∧
            below.Opens host levels (joined host.kind path own) below.names) ∧
      rest.Opens host (levels + 1) path names

end Contents

namespace Site

/-- The files there, each with the path that the walk gives it. -/
def files (kind : Host) (s : Site) : List (Bytes × DirEntry) :=
  (s.inside.entries.filter DirEntry.isFile).map fun e => (joined kind s.path e.name, e)

/-- The files that the listing shows. -/
def shown (kind : Host) (s : Site) : List (Bytes × DirEntry) :=
  ((s.inside.entries.take s.delivered).filter DirEntry.isFile).map fun e =>
    (joined kind s.path e.name, e)

def below (kind : Host) (s : Site) : List Site :=
  s.inside.sites kind s.path s.depth s.ways s.linked (s.inside.entries.take s.delivered)

end Site

/-- A volume with the names that its directories keep. -/
structure Medium (kind : Host) where
  answer : Answer
  top : Contents
  named : top.WellNamed kind

namespace Medium
variable {kind : Host}

def root (m : Medium kind) (path : Bytes) : Site := ⟨path, 0, 1, false, m.answer.delivered, m.top⟩

def sites (m : Medium kind) (path : Bytes) : List Site := m.root path :: (m.root path).below kind

/-- All files of the volume that are not below a reparse point. -/
def files (m : Medium kind) (path : Bytes) : List (Bytes × DirEntry) :=
  ((m.sites path).filter fun s => !s.linked).flatMap (Site.files kind)

/-- The host opens the volume at `path` as it is, for `levels` directories below the root. -/
structure Presented (host : ScanHost) (m : Medium host.kind) (levels : ℕ) (path : Bytes) :
    Prop where
  first : host.dirOpen [] path = m.answer.listing m.top.entries
  opens : m.top.Opens host levels path m.top.names

end Medium

theorem stem_joined {kind : Host} {path own : Bytes} (h : PlainName kind own) :
    stem kind (joined kind path own) = stem kind path ++ (own ++ [kind.sep]) := by
  have hlast : ¬ (joined kind path own).getLast?.any (isSeparator kind) = true := by
    rw [joined_eq_stem_append, List.getLast?_append_of_ne_nil _ h.ne_nil,
      List.getLast?_eq_getLast_of_ne_nil h.ne_nil]
    simp [h.separator _ (List.getLast_mem h.ne_nil)]
  rw [stem, if_neg hlast, joined_eq_stem_append, List.append_assoc]

/-- The name is what stands behind the last separator. -/
lemma name_of_joined {kind : Host} {base name : Bytes} (h : PlainName kind name) :
    (joined kind base name).rtakeWhile (fun c => !isSeparator kind c) = name := by
  obtain ⟨p, c, hstem, hc⟩ := stem_ends_with_separator kind base
  have hname : ∀ x ∈ name.reverse, (!isSeparator kind x) = true := by
    intro x hx
    rw [h.separator x (List.mem_reverse.mp hx)]
    rfl
  rw [joined_eq_stem_append, hstem, List.rtakeWhile, List.reverse_append, List.reverse_append,
    List.takeWhile_append_of_pos hname]
  simp [hc]

/-- A path goes on under one name. -/
lemma own_unique {kind : Host} {base a b path : Bytes} (ha : PlainName kind a)
    (hb : PlainName kind b) (hpa : base ++ (a ++ [kind.sep]) <+: path)
    (hpb : base ++ (b ++ [kind.sep]) <+: path) : a = b := by
  have hsep : ∀ {c : Bytes}, PlainName kind c → kind.sep ∉ c := by
    intro c hc hmem
    have hplain := hc.separator _ hmem
    rw [isSeparator_sep] at hplain
    cases hplain
  have hshort : ∀ {c d : Bytes}, PlainName kind c → PlainName kind d → c.length ≤ d.length →
      base ++ (c ++ [kind.sep]) <+: path → base ++ (d ++ [kind.sep]) <+: path → c = d := by
    intro c d hc hd hlen hpc hpd
    have hprefix := (List.prefix_append_right_inj base).mp
      (List.prefix_of_prefix_length_le hpc hpd (by simp; omega))
    obtain ⟨rest, hrest⟩ := hprefix
    rcases Nat.lt_or_ge c.length d.length with hlt | hge
    · have hget := congrArg (fun l => l[c.length]?) hrest
      simp only [List.append_assoc, List.singleton_append] at hget
      rw [List.getElem?_append_right le_rfl, Nat.sub_self, List.getElem?_append_left hlt] at hget
      exact absurd (List.mem_of_getElem? hget.symm) (hsep hd)
    · rw [List.append_assoc] at hrest
      exact (List.append_inj hrest (by omega)).1
  rcases Nat.le_total a.length b.length with hlen | hlen
  · exact hshort ha hb hlen hpa hpb
  · exact (hshort hb ha hlen hpb hpa).symm

namespace Contents

lemma WellNamed.names_plain {kind : Host} {c : Contents} (h : c.WellNamed kind) {own : Bytes}
    (hmem : own ∈ c.names) : PlainName kind own := by
  induction c with
  | nil => simp [names] at hmem
  | cons own' entry answer below rest _ ihrest =>
    rcases List.mem_cons.mp hmem with rfl | hmem
    · exact h.2.1
    · exact ihrest h.2.2.2.2 hmem

lemma WellNamed.entries_plain {kind : Host} {c : Contents} (h : c.WellNamed kind) {e : DirEntry}
    (hmem : e ∈ c.entries) : PlainName kind e.name := by
  induction c with
  | nil => simp [entries] at hmem
  | cons own entry answer below rest _ ihrest =>
    rcases List.mem_cons.mp hmem with rfl | hmem
    · exact h.2.2.1
    · exact ihrest h.2.2.2.2 hmem

variable {kind : Host} {path : Bytes} {depth ways : ℕ} {linked : Bool} {shown : List DirEntry}

/-- A site's path starts with the own name of an object of the directory. -/
lemma sites_stem {c : Contents} (h : c.WellNamed kind) {s : Site}
    (hs : s ∈ c.sites kind path depth ways linked shown) :
    ∃ own ∈ c.names, stem kind path ++ (own ++ [kind.sep]) <+: stem kind s.path := by
  induction c generalizing path depth ways linked shown with
  | nil => simp [sites] at hs
  | cons own entry answer below rest ihbelow ihrest =>
    obtain ⟨_, hown, _, hbelow, hrest⟩ := h
    rcases List.mem_append.mp hs with hs | hs
    · split_ifs at hs with hfile
      · simp at hs
      · refine ⟨own, List.mem_cons_self, ?_⟩
        rcases List.mem_cons.mp hs with rfl | hs
        · rw [stem_joined hown]
        · obtain ⟨own', _, hprefix⟩ := ihbelow hbelow hs
          rw [stem_joined hown] at hprefix
          exact (List.prefix_append _ _).trans hprefix
    · obtain ⟨own', hmem, hprefix⟩ := ihrest hrest hs
      exact ⟨own', List.mem_cons_of_mem _ hmem, hprefix⟩

/-- A site lies deeper than the directory, and its path is longer. -/
lemma sites_bounds {c : Contents} {s : Site}
    (hs : s ∈ c.sites kind path depth ways linked shown) :
    depth < s.depth ∧ path.length ≤ s.path.length := by
  induction c generalizing path depth ways linked shown with
  | nil => simp [sites] at hs
  | cons own entry answer below rest ihbelow ihrest =>
    rcases List.mem_append.mp hs with hs | hs
    · split_ifs at hs with hfile
      · simp at hs
      · have hlen := joined_length_ge kind path own
        rcases List.mem_cons.mp hs with rfl | hs
        · exact ⟨Nat.lt_succ_self _, hlen⟩
        · obtain ⟨hdepth, hpath⟩ := ihbelow hs
          exact ⟨by omega, hlen.trans hpath⟩
    · exact ihrest hs

lemma sites_named {c : Contents} (h : c.WellNamed kind) {s : Site}
    (hs : s ∈ c.sites kind path depth ways linked shown) : s.inside.WellNamed kind := by
  induction c generalizing path depth ways linked shown with
  | nil => simp [sites] at hs
  | cons own entry answer below rest ihbelow ihrest =>
    obtain ⟨_, _, _, hbelow, hrest⟩ := h
    rcases List.mem_append.mp hs with hs | hs
    · split_ifs at hs with hfile
      · simp at hs
      · rcases List.mem_cons.mp hs with rfl | hs
        · exact hbelow
        · exact ihbelow hbelow hs
    · exact ihrest hrest hs

/-- No two sites have the same path. -/
theorem sites_nodup {c : Contents} (h : c.WellNamed kind) :
    ((c.sites kind path depth ways linked shown).map fun s => stem kind s.path).Nodup := by
  induction c generalizing path depth ways linked shown with
  | nil => exact List.nodup_nil
  | cons own entry answer below rest ihbelow ihrest =>
    obtain ⟨hfresh, hown, hentry, hbelow, hrest⟩ := h
    rw [sites, List.map_append]
    refine List.Nodup.append ?_ (ihrest hrest) ?_
    · split_ifs with hfile
      · exact List.nodup_nil
      · refine List.nodup_cons.mpr ⟨fun hmem => ?_, ihbelow hbelow⟩
        obtain ⟨s, hs, hpath⟩ := List.mem_map.mp hmem
        obtain ⟨own', _, hprefix⟩ := sites_stem hbelow hs
        have hlong := hprefix.length_le
        rw [hpath] at hlong
        simp at hlong
    · intro path' hleft hright
      split_ifs at hleft with hfile
      · simp at hleft
      · -- both paths would go on under the same name
        obtain ⟨s', hs', hpath'⟩ := List.mem_map.mp hright
        obtain ⟨own', hmem', hprefix'⟩ := sites_stem hrest hs'
        have hprefix : stem kind path ++ (own ++ [kind.sep]) <+: path' := by
          obtain ⟨s, hs, rfl⟩ := List.mem_map.mp hleft
          rcases List.mem_cons.mp hs with rfl | hs
          · rw [stem_joined hown]
          · obtain ⟨_, _, hp⟩ := sites_stem hbelow hs
            rw [stem_joined hown] at hp
            exact (List.prefix_append _ _).trans hp
        rw [hpath'] at hprefix'
        exact hfresh (own_unique hown (hrest.names_plain hmem') hprefix hprefix' ▸ hmem')

/-- The tree without the own names. -/
def forest : Contents → Forest
  | nil => .nil
  | cons _ entry answer below rest => .cons entry answer below.forest rest.forest

/-- Every directory is listed under its own name. -/
def OwnNamed : Contents → Prop
  | nil => True
  | cons own entry _ below rest =>
    (entry.isEntered = true → own = entry.name) ∧ below.OwnNamed ∧ rest.OwnNamed

lemma forest_entries (c : Contents) : c.forest.entries = c.entries := by
  induction c with
  | nil => rfl
  | cons own entry answer below rest _ ihrest => exact congrArg (entry :: ·) ihrest

/-- Where directories are listed under their own names, the listed ones are what opens. -/
theorem Opens.presented {host : ScanHost} {names : List Bytes} {c : Contents}
    (h : ∀ levels, c.Opens host levels path names) (hown : c.OwnNamed) :
    c.forest.Presented host path := by
  induction c generalizing path names with
  | nil => trivial
  | cons own entry answer below rest ihbelow ihrest =>
    refine ⟨fun hdir hreparse => ?_, @ihrest path names (fun levels => ?_) hown.2.2⟩
    · have hentered : entry.isEntered = true := by simp [DirEntry.isEntered, hdir, hreparse]
      have hfile : ¬ entry.isFile = true := by simp [DirEntry.isFile, hdir]
      have hopen := fun levels => (h (levels + 1)).2.1
      simp only [if_neg hfile] at hopen
      rw [forest_entries, ← hown.1 hentered]
      exact ⟨(hopen 0).1, ihbelow (fun levels => (hopen levels).2) hown.2.1⟩
    · cases levels with
      | zero => cases rest <;> trivial
      | succ levels => exact (h (levels + 1)).2.2

end Contents

namespace Medium
variable {kind : Host} {m : Medium kind} {path : Bytes}

lemma root_below_stem {s : Site} (hs : s ∈ (m.root path).below kind) :
    (stem kind path).length < (stem kind s.path).length := by
  obtain ⟨own, _, hprefix⟩ := Contents.sites_stem m.named hs
  have hlen := hprefix.length_le
  simp only [List.length_append, List.length_singleton] at hlen
  have hroot : (m.root path).path = path := rfl
  rw [hroot] at hlen
  omega

theorem sites_nodup : ((m.sites path).map fun s => stem kind s.path).Nodup := by
  rw [sites, List.map_cons]
  refine List.nodup_cons.mpr ⟨fun hmem => ?_, Contents.sites_nodup m.named⟩
  obtain ⟨s, hs, heq⟩ := List.mem_map.mp hmem
  have hlong := root_below_stem hs
  rw [heq] at hlong
  exact lt_irrefl _ hlong

lemma sites_named {s : Site} (hs : s ∈ m.sites path) : s.inside.WellNamed kind := by
  rcases List.mem_cons.mp hs with rfl | hs
  · exact m.named
  · exact Contents.sites_named m.named hs

/-- The path of a file tells its directory. -/
theorem site_of_path {s s' : Site} (hs : s ∈ m.sites path) (hs' : s' ∈ m.sites path)
    {f f' : Bytes × DirEntry} (hf : f ∈ s.files kind) (hf' : f' ∈ s'.files kind)
    (hpath : f.1 = f'.1) : s = s' := by
  obtain ⟨e, he, rfl⟩ := List.mem_map.mp hf
  obtain ⟨e', he', rfl⟩ := List.mem_map.mp hf'
  have hname := (sites_named hs).entries_plain (List.mem_of_mem_filter he)
  have hname' := (sites_named hs').entries_plain (List.mem_of_mem_filter he')
  refine List.inj_on_of_nodup_map sites_nodup hs hs' ?_
  have hsame : e.name = e'.name := by
    have htail := congrArg (List.rtakeWhile fun c => !isSeparator kind c) hpath
    rwa [name_of_joined hname, name_of_joined hname'] at htail
  simp only [joined_eq_stem_append, hsame] at hpath
  exact List.append_cancel_right hpath

end Medium
end UsbSentinel
