import Mathlib

/-! Comma-separated values after RFC 4180: a parser with one state for each place in a
field, and the texts that it reads back. -/
namespace Csv

/-- The four characters that are not text. -/
structure Marks (α : Type) where
  comma : α
  quote : α
  cr : α
  lf : α
  nodup : [comma, quote, cr, lf].Nodup

lemma Marks.ne {α : Type} (m : Marks α) :
    m.comma ≠ m.quote ∧ m.comma ≠ m.cr ∧ m.quote ≠ m.cr := by
  have hnodup := m.nodup
  simp only [List.nodup_cons, List.mem_cons, not_or] at hnodup
  obtain ⟨⟨hquote, hcr, _⟩, ⟨hquoteCr, _⟩, _⟩ := hnodup
  exact ⟨hquote, hcr, hquoteCr⟩

variable {α : Type} [DecidableEq α] (m : Marks α)

/-- Text in the wide sense: every character but the four. -/
def Marks.IsText (c : α) : Prop := c ∉ [m.comma, m.quote, m.cr, m.lf]

instance (c : α) : Decidable (m.IsText c) := inferInstanceAs (Decidable (c ∉ _))

inductive Mode | start | plain | quoted | closed | ended
  deriving DecidableEq, Repr

/-- The cell, the row and the table read so far. -/
structure Reading (α : Type) where
  mode : Mode := .start
  cell : List α := []
  row : List (List α) := []
  table : List (List (List α)) := []
  deriving DecidableEq, Repr

namespace Reading

def push (r : Reading α) (mode : Mode) (c : α) : Reading α :=
  { r with mode, cell := r.cell ++ [c] }

/-- Behind a field stands a comma or a line break. -/
def leave (r : Reading α) (c : α) : Option (Reading α) :=
  if c = m.comma then some { r with mode := .start, cell := [], row := r.row ++ [r.cell] }
  else if c = m.cr then some { r with mode := .ended }
  else none

def endRecord (r : Reading α) : Reading α := { table := r.table ++ [r.row ++ [r.cell]] }

def step (r : Reading α) (c : α) : Option (Reading α) :=
  match r.mode with
  | .start =>
    if c = m.quote then some { r with mode := .quoted }
    else if m.IsText c then some (r.push .plain c)
    else r.leave m c
  | .plain => if m.IsText c then some (r.push .plain c) else r.leave m c
  | .quoted => if c = m.quote then some { r with mode := .closed } else some (r.push .quoted c)
  | .closed => if c = m.quote then some (r.push .quoted c) else r.leave m c
  | .ended => if c = m.lf then some r.endRecord else none

/-- The last record may lack its line break. -/
def finish (r : Reading α) : Option (List (List (List α))) :=
  match r.mode with
  | .start => if r.row = [] then some r.table else some r.endRecord.table
  | .plain | .closed => some r.endRecord.table
  | .quoted | .ended => none

def run (r : Reading α) (text : List α) : Option (Reading α) := text.foldlM (step m) r

lemma run_cons (r : Reading α) (c : α) (text : List α) :
    r.run m (c :: text) = (r.step m c).bind fun r => r.run m text := rfl

lemma run_append (r : Reading α) (text rest : List α) :
    r.run m (text ++ rest) = (r.run m text).bind fun r => r.run m rest :=
  List.foldlM_append

end Reading

def parse (text : List α) : Option (List (List (List α))) :=
  (Reading.run m {} text).bind Reading.finish

def doubled (cell : List α) : List α :=
  cell.flatMap fun c => if c = m.quote then [m.quote, m.quote] else [c]

def quoted (cell : List α) : List α := m.quote :: (doubled m cell ++ [m.quote])

/-- A field writes a cell as it is, or in quotes. -/
inductive Writes : List α → List α → Prop
  | plain {cell : List α} (text : ∀ c ∈ cell, m.IsText c) : Writes cell cell
  | quoted (cell : List α) : Writes (quoted m cell) cell

def fieldsText : List (List α) → List α
  | [] => []
  | [field] => field
  | field :: next :: fields => field ++ m.comma :: fieldsText (next :: fields)

def line (fields : List (List α)) : List α := fieldsText m fields ++ [m.cr, m.lf]

variable {m} {row : List (List α)} {table : List (List (List α))}

/-- The reading stands behind a field that holds the cell. -/
structure Behind (r : Reading α) (cell : List α) (row : List (List α))
    (table : List (List (List α))) : Prop where
  mode : r.mode = .start ∨ r.mode = .plain ∨ r.mode = .closed
  cell : r.cell = cell
  row : r.row = row
  table : r.table = table

lemma Behind.leave {r : Reading α} {cell : List α} (h : Behind r cell row table) {c : α}
    (hquote : c ≠ m.quote) (htext : ¬ m.IsText c) : r.step m c = r.leave m c := by
  unfold Reading.step
  rcases h.mode with hmode | hmode | hmode
  · simp only [hmode, if_neg hquote, if_neg htext]
  · simp only [hmode, if_neg htext]
  · simp only [hmode, if_neg hquote]

lemma Behind.comma {r : Reading α} {cell : List α} (h : Behind r cell row table) :
    r.step m m.comma = some { row := row ++ [cell], table } := by
  rw [h.leave m.ne.1 (by simp [Marks.IsText]), Reading.leave, if_pos rfl, h.cell, h.row,
    h.table]

lemma Behind.lineBreak {r : Reading α} {cell : List α} (h : Behind r cell row table) :
    r.run m [m.cr, m.lf] = some { table := table ++ [row ++ [cell]] } := by
  obtain ⟨_, hcommaCr, hquoteCr⟩ := m.ne
  have hcr : r.step m m.cr = some { r with mode := .ended } := by
    rw [h.leave hquoteCr.symm (by simp [Marks.IsText]), Reading.leave, if_neg hcommaCr.symm,
      if_pos rfl]
  rw [Reading.run_cons, hcr, Option.bind_some, Reading.run_cons]
  simp only [Reading.step, if_true, Option.bind_some, Reading.endRecord, h.cell, h.row, h.table]
  rfl

lemma run_plain {cell : List α} (text : ∀ c ∈ cell, m.IsText c) {r : Reading α}
    {before : List α} (hmode : r.mode = .start ∨ r.mode = .plain)
    (hr : Behind r before row table) :
    ∃ r', r.run m cell = some r' ∧ Behind r' (before ++ cell) row table := by
  induction cell generalizing r before with
  | nil => exact ⟨r, rfl, by rwa [List.append_nil]⟩
  | cons c cell ih =>
    have hc := text c List.mem_cons_self
    have hquote : c ≠ m.quote := by
      rintro rfl
      exact hc (by simp)
    have hstep : r.step m c = some (r.push .plain c) := by
      unfold Reading.step
      rcases hmode with hmode | hmode
      · simp only [hmode, if_neg hquote, if_pos hc]
      · simp only [hmode, if_pos hc]
    have hpushed : Behind (r.push .plain c) (before ++ [c]) row table :=
      ⟨.inr (.inl rfl), by rw [Reading.push, hr.cell], hr.row, hr.table⟩
    obtain ⟨r', hrun, hbehind⟩ := ih (fun d hd => text d (List.mem_cons_of_mem _ hd)) (.inr rfl)
      hpushed
    refine ⟨r', ?_, ?_⟩
    · rw [Reading.run_cons, hstep, Option.bind_some, hrun]
    · rwa [List.append_assoc] at hbehind

lemma run_doubled (cell before : List α) :
    Reading.run m { mode := .quoted, cell := before, row, table } (doubled m cell) =
      some { mode := .quoted, cell := before ++ cell, row, table } := by
  induction cell generalizing before with
  | nil => simp [doubled, Reading.run]
  | cons c cell ih =>
    have hsplit : doubled m (c :: cell) =
        (if c = m.quote then [m.quote, m.quote] else [c]) ++ doubled m cell := rfl
    have hc : Reading.run m { mode := .quoted, cell := before, row, table }
        (if c = m.quote then [m.quote, m.quote] else [c]) =
        some { mode := .quoted, cell := before ++ [c], row, table } := by
      by_cases hquote : c = m.quote
      · subst hquote
        simp [Reading.run, Reading.step, Reading.push]
      · simp [Reading.run, Reading.step, Reading.push, hquote]
    rw [hsplit, Reading.run_append, hc, Option.bind_some, ih, List.append_assoc]
    rfl

lemma run_field {field cell : List α} (h : Writes m field cell) :
    ∃ r, Reading.run m { row, table } field = some r ∧ Behind r cell row table := by
  cases h with
  | plain text =>
    obtain ⟨r, hrun, hbehind⟩ := run_plain (r := { row, table }) text (.inl rfl)
      ⟨.inl rfl, rfl, rfl, rfl⟩
    exact ⟨r, hrun, hbehind⟩
  | quoted cell =>
    refine ⟨{ mode := .closed, cell, row, table }, ?_, ⟨.inr (.inr rfl), rfl, rfl, rfl⟩⟩
    have hopen : Reading.step m { row, table } m.quote =
        some { mode := .quoted, row, table } := by
      simp [Reading.step]
    rw [quoted, Reading.run_cons, hopen, Option.bind_some, Reading.run_append, run_doubled,
      Option.bind_some]
    simp [Reading.run, Reading.step]

lemma run_fieldsText {fields cells : List (List α)} (h : List.Forall₂ (Writes m) fields cells)
    (hne : fields ≠ []) :
    ∃ r last init, Reading.run m { row, table } (fieldsText m fields) = some r ∧
      Behind r last (row ++ init) table ∧ init ++ [last] = cells := by
  induction h generalizing row with
  | nil => exact absurd rfl hne
  | @cons field cell fields cells hfield hrest ih =>
    obtain ⟨r, hrun, hbehind⟩ := @run_field _ _ m row table _ _ hfield
    cases hrest with
    | nil => exact ⟨r, cell, [], hrun, by rwa [List.append_nil], rfl⟩
    | @cons next _ fields _ _ _ =>
      obtain ⟨r', last, init, hrun', hbehind', hcells⟩ := @ih (row ++ [cell])
        (List.cons_ne_nil _ _)
      refine ⟨r', last, cell :: init, ?_, ?_, ?_⟩
      · rw [fieldsText, Reading.run_append, hrun, Option.bind_some, Reading.run_cons,
          hbehind.comma, Option.bind_some, hrun']
      · rwa [List.append_assoc] at hbehind'
      · rw [List.cons_append, hcells]

lemma run_line {fields cells : List (List α)} (h : List.Forall₂ (Writes m) fields cells)
    (hne : fields ≠ []) :
    Reading.run m { table } (line m fields) = some { table := table ++ [cells] } := by
  obtain ⟨r, last, init, hrun, hbehind, rfl⟩ := @run_fieldsText _ _ m [] table _ _ h hne
  rw [line, Reading.run_append, hrun, Option.bind_some, hbehind.lineBreak, List.nil_append]

lemma run_lines {texts cells : List (List (List α))}
    (h : List.Forall₂ (fun fields cells => List.Forall₂ (Writes m) fields cells ∧ fields ≠ [])
      texts cells) :
    Reading.run m { table } (texts.flatMap (line m)) = some { table := table ++ cells } := by
  induction h generalizing table with
  | nil => simp [Reading.run]
  | cons hline _ ih =>
    rw [List.flatMap_cons, Reading.run_append, run_line hline.1 hline.2, Option.bind_some, ih,
      List.append_assoc]
    rfl

/-- Lines of fields are read back as the cells that the fields write. -/
theorem parse_lines {texts cells : List (List (List α))}
    (h : List.Forall₂ (fun fields cells => List.Forall₂ (Writes m) fields cells ∧ fields ≠ [])
      texts cells) : parse m (texts.flatMap (line m)) = some cells := by
  rw [parse, run_lines h, Option.bind_some]
  rfl

end Csv
