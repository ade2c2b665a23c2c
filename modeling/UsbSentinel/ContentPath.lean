import UsbSentinel.Disk
import UsbSentinel.Scanner

/-! Whether the path handed to the detectors names the file the listing showed: the name in
it has gone through the UTF-8 sanitiser. -/
namespace UsbSentinel.Scanner
open ByteString FileSystem UsbSentinel.Path UsbSentinel.Posix

theorem components_joined (dir leaf : Bytes) :
    components (joined .posix dir leaf) = components dir ++ components leaf := by
  unfold joined
  split_ifs with hlast
  · cases hdir : dir.getLast? with
    | none => simp [hdir] at hlast
    | some c =>
      obtain ⟨p, rfl⟩ := List.getLast?_eq_some_iff.mp hdir
      have hc : c = Path.slash := by simpa [hdir, isSeparator] using hlast
      have hnil : components [] = [] := rfl
      rw [hc, show Path.slash = FileSystem.slash from rfl, List.append_assoc, List.singleton_append, components_append,
        show p ++ [FileSystem.slash] = p ++ FileSystem.slash :: [] from rfl, components_append,
        hnil, List.append_nil]
  · exact components_append dir leaf

/-- A path names the entry of a directory that has exactly these bytes as its name. -/
def Names (path dir name : Bytes) : Prop := components path = components dir ++ [name]

theorem slash_notMem_sanitizeUtf8 {name : Bytes} (hplain : FileSystem.slash ∉ name) (cap : ℕ) :
    FileSystem.slash ∉ sanitizeUtf8 name cap := by
  intro hmem
  rcases mem_sanitizeUtf8 hmem with h | h
  · exact hplain h
  · revert h
    decide

/-- The path the walk builds for an entry names that entry exactly when the entry's name is
valid UTF-8 and fits the name field. -/
theorem childPath_names_iff {raw : RawDirent} {dir path : Bytes} (hne : raw.name ≠ [])
    (hplain : FileSystem.slash ∉ raw.name)
    (hpath : childPath .posix dir (fillEntry raw).name = .ok path) :
    Names path dir raw.name ↔ Utf8.Valid raw.name ∧ raw.name.length < nameMax := by
  obtain ⟨rfl, -⟩ := pathJoin_eq_ok.mp hpath
  rw [← sanitizeUtf8_eq_self_iff (show 0 < nameMax by decide), Names, components_joined,
    List.append_cancel_left_eq, fillEntry_name]
  constructor
  · intro h
    have hsanitized : sanitizeUtf8 raw.name nameMax ≠ [] := by
      intro hnil
      rw [hnil] at h
      cases h
    rw [components_of_notMem (slash_notMem_sanitizeUtf8 hplain nameMax) hsanitized] at h
    exact (List.cons.inj h).1
  · intro h
    rw [h]
    exact components_of_notMem hplain hne

theorem childPath_names_iff_plain :
    Names (ascii "/v/a.lnk") (ascii "/v") (ascii "a.lnk") ↔
      Utf8.Valid (ascii "a.lnk") ∧ (ascii "a.lnk").length < nameMax :=
  childPath_names_iff (show (RawDirent.mk (ascii "a.lnk") none none).name ≠ [] by decide)
    (by decide) (by decide +kernel)

/-- A Latin-1 name: the path names an entry that the directory does not have. -/
theorem childPath_misnames :
    childPath .posix (ascii "/v") (fillEntry { name := ascii "caf" ++ [0xE9] ++ ascii ".lnk" }).name =
        .ok (ascii "/v/caf" ++ replacement ++ ascii ".lnk") ∧
      ¬ Names (ascii "/v/caf" ++ replacement ++ ascii ".lnk") (ascii "/v")
        (ascii "caf" ++ [0xE9] ++ ascii ".lnk") := by
  refine ⟨by decide +kernel, ?_⟩
  unfold Names
  decide +kernel

end UsbSentinel.Scanner
