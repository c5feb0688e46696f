import Mathlib.Data.List.Basic

/-! Records of fields as RFC 4180 has them, over any alphabet that has the four marks
of the format: a reader that goes over a text once, and what it makes of fields,
records and files that are written one after the other. -/
namespace Rfc4180

structure Marks (α : Type) where
  comma : α
  quote : α
  cr : α
  lf : α
  distinct : [comma, quote, cr, lf].Nodup

/-- Where in a record the reader stands. -/
inductive Mode
  | start
  | plain
  | quoted
  /-- After a quote inside quotes, which ends the field or is the first of two. -/
  | closed
  /-- After a CR outside quotes, where only the LF of a line end may follow. -/
  | lineEnd
deriving DecidableEq

structure Reader (α : Type) where
  records : List (List (List α))
  fields : List (List α)
  field : List α
  mode : Mode

variable {α : Type}

namespace Reader

def initial : Reader α :=
  ⟨[], [], [], .start⟩

def endField (r : Reader α) : Reader α :=
  { r with fields := r.fields ++ [r.field], field := [], mode := .start }

def endRecord (r : Reader α) : Reader α :=
  { r with records := r.records ++ [r.fields ++ [r.field]], fields := [], field := [],
           mode := .start }

def take (r : Reader α) (a : α) (mode : Mode) : Reader α :=
  { r with field := r.field ++ [a], mode := mode }

def goto (r : Reader α) (mode : Mode) : Reader α :=
  { r with mode := mode }

/-- A field is read up to here that a mark may end. -/
structure Holds (r : Reader α) (before : Reader α) (text : List α) : Prop where
  records : r.records = before.records
  fields : r.fields = before.fields
  field : r.field = text
  mode : r.mode = .start ∨ r.mode = .plain ∨ r.mode = .closed

end Reader

variable [DecidableEq α] (m : Marks α)

/-- Outside quotes a field has no mark in it, and a CR is the first half of a line
end. Inside quotes only a quote is special. -/
def step (r : Reader α) (a : α) : Option (Reader α) :=
  match r.mode with
  | .start | .plain =>
      if a = m.quote then (if r.mode = .start then some (r.goto .quoted) else none)
      else if a = m.comma then some r.endField
      else if a = m.cr then some (r.goto .lineEnd)
      else if a = m.lf then none
      else some (r.take a .plain)
  | .quoted => if a = m.quote then some (r.goto .closed) else some (r.take a .quoted)
  | .closed =>
      if a = m.quote then some (r.take a .quoted)
      else if a = m.comma then some r.endField
      else if a = m.cr then some (r.goto .lineEnd)
      else none
  | .lineEnd => if a = m.lf then some r.endRecord else none

def run (r : Reader α) (text : List α) : Option (Reader α) :=
  text.foldlM (step m) r

/-- The last record may end with a line end or without. -/
def finish (r : Reader α) : Option (List (List (List α))) :=
  match r.mode with
  | .quoted | .lineEnd => none
  | .start => if r.fields = [] then some r.records else some r.endRecord.records
  | .plain | .closed => some r.endRecord.records

/-- The records of a text, `none` for a text that is no such file. -/
def parse (text : List α) : Option (List (List (List α))) :=
  (run m .initial text).bind finish

variable {m}

@[simp] theorem run_nil (r : Reader α) : run m r [] = some r :=
  rfl

theorem run_cons (r : Reader α) (a : α) (text : List α) :
    run m r (a :: text) = (step m r a).bind fun r' => run m r' text := by
  simp [run]

theorem run_append (r : Reader α) (front back : List α) :
    run m r (front ++ back) = (run m r front).bind fun r' => run m r' back := by
  simp [run, List.foldlM_append]

section fields

variable {r r' : Reader α} {text : List α}

/-- A written form of a field: from its start a reader gets to where the field may
end, with the text of it. -/
def Spells (m : Marks α) (written text : List α) : Prop :=
  ∀ r : Reader α, r.mode = .start → r.field = [] →
    ∃ r', run m r written = some r' ∧ r'.Holds r text

theorem step_plain {a : α} (hMode : r.mode = .start ∨ r.mode = .plain)
    (hFree : a ≠ m.quote ∧ a ≠ m.comma ∧ a ≠ m.cr ∧ a ≠ m.lf) :
    step m r a = some (r.take a .plain) := by
  obtain ⟨hQuote, hComma, hCr, hLf⟩ := hFree
  cases hMode with
  | inl hStart => simp [step, hStart, hQuote, hComma, hCr, hLf]
  | inr hPlain => simp [step, hPlain, hQuote, hComma, hCr, hLf]

theorem run_plain (text : List α) :
    ∀ r : Reader α, (r.mode = .start ∨ r.mode = .plain) →
      (∀ a ∈ text, a ≠ m.quote ∧ a ≠ m.comma ∧ a ≠ m.cr ∧ a ≠ m.lf) →
      ∃ r', run m r text = some r' ∧ r'.Holds r (r.field ++ text) := by
  induction text with
  | nil =>
      intro r hMode hFree
      refine ⟨r, rfl, rfl, rfl, (List.append_nil _).symm, ?_⟩
      cases hMode with
      | inl hStart => exact .inl hStart
      | inr hPlain => exact .inr (.inl hPlain)
  | cons a text ih =>
      intro r hMode hFree
      have hStep := step_plain hMode (hFree a List.mem_cons_self)
      obtain ⟨r', hRun, hHolds⟩ := ih (r.take a .plain) (.inr rfl)
        fun b hb => hFree b (List.mem_cons_of_mem a hb)
      refine ⟨r', ?_, hHolds.records, hHolds.fields, ?_, hHolds.mode⟩
      · rw [run_cons, hStep, Option.bind_some, hRun]
      · rw [hHolds.field, Reader.take, List.append_assoc, List.singleton_append]

/-- A text without marks may stand as it is. -/
theorem spells_plain (hFree : ∀ a ∈ text, a ≠ m.quote ∧ a ≠ m.comma ∧ a ≠ m.cr ∧ a ≠ m.lf) :
    Spells m text text := by
  intro r hStart hField
  obtain ⟨r', hRun, hHolds⟩ := run_plain text r (.inl hStart) hFree
  rw [hField, List.nil_append] at hHolds
  exact ⟨r', hRun, hHolds⟩

/-- Inside quotes a quote is written twice. -/
def doubled (m : Marks α) (text : List α) : List α :=
  text.flatMap fun a => if a = m.quote then [m.quote, m.quote] else [a]

theorem run_doubled_char (a : α) (hMode : r.mode = .quoted) :
    run m r (if a = m.quote then [m.quote, m.quote] else [a]) = some (r.take a .quoted) := by
  split
  · next hQuote => simp [run, step, hMode, hQuote, Reader.goto, Reader.take]
  · next hOther => simp [run, step, hMode, hOther]

theorem run_doubled (text : List α) :
    ∀ r : Reader α, r.mode = .quoted →
      run m r (doubled m text) = some { r with field := r.field ++ text } := by
  induction text with
  | nil =>
      intro r hMode
      simp [doubled]
  | cons a text ih =>
      intro r hMode
      have hRest := ih (r.take a .quoted) rfl
      rw [doubled, List.flatMap_cons, run_append, run_doubled_char a hMode, Option.bind_some]
      refine hRest.trans ?_
      simp [Reader.take, hMode]

/-- Any text may stand in quotes. -/
theorem spells_quoted (text : List α) : Spells m (m.quote :: doubled m text ++ [m.quote]) text := by
  intro r hStart hField
  let opened := r.goto .quoted
  let full := { opened with field := opened.field ++ text }
  have hOpen : step m r m.quote = some opened := by simp [step, hStart, opened]
  have hText : run m opened (doubled m text) = some full := run_doubled text opened rfl
  have hClose : step m full m.quote = some (full.goto .closed) := by
    simp [step, full, opened, Reader.goto]
  refine ⟨full.goto .closed, ?_, rfl, rfl, ?_, .inr (.inr rfl)⟩
  · rw [List.cons_append, run_cons, hOpen, Option.bind_some, run_append, hText, Option.bind_some,
      run_cons, hClose, Option.bind_some, run_nil]
  · simp [full, opened, Reader.goto, hField]

theorem step_comma {before : Reader α} (h : r.Holds before text) :
    step m r m.comma =
      some { before with fields := before.fields ++ [text], field := [], mode := .start } := by
  have hQuote : m.comma ≠ m.quote := by
    have := m.distinct
    simp_all
  have hEnd : step m r m.comma = some r.endField := by
    rcases h.mode with hMode | hMode | hMode
    all_goals simp [step, hMode, hQuote]
  rw [hEnd, Reader.endField, h.records, h.fields, h.field]

theorem run_lineEnd {before : Reader α} (h : r.Holds before text) :
    run m r [m.cr, m.lf] =
      some { before with records := before.records ++ [before.fields ++ [text]], fields := [],
                         field := [], mode := .start } := by
  have hCr : m.cr ≠ m.quote ∧ m.cr ≠ m.comma := by
    have := m.distinct
    simp_all [eq_comm]
  have hFirst : step m r m.cr = some (r.goto .lineEnd) := by
    rcases h.mode with hMode | hMode | hMode
    all_goals simp [step, hMode, hCr]
  rw [run_cons, hFirst, Option.bind_some, run_cons]
  simp [step, Reader.goto, Reader.endRecord, h.records, h.fields, h.field]

end fields

section records

variable (m) in
/-- One line: the fields with commas between them, and the line end. -/
def line (written : List (List α)) : List α :=
  [m.comma].intercalate written ++ [m.cr, m.lf]

omit [DecidableEq α] in
theorem line_cons_cons (first second : List α) (rest : List (List α)) :
    line m (first :: second :: rest) = first ++ m.comma :: line m (second :: rest) := by
  simp [line, List.intercalate, List.intersperse]

/-- A line that spells a record field by field is read as that record. -/
theorem run_line {written record : List (List α)} (hSpells : List.Forall₂ (Spells m) written record)
    (hSome : written ≠ []) :
    ∀ r : Reader α, r.mode = .start → r.field = [] →
      run m r (line m written) =
        some { r with records := r.records ++ [r.fields ++ record], fields := [] } := by
  induction hSpells with
  | nil => exact absurd rfl hSome
  | @cons first text written record hFirst hRest ih =>
      intro r hStart hField
      obtain ⟨r', hRun, hHolds⟩ := hFirst r hStart hField
      cases hRest with
      | nil =>
          have hLine : line m [first] = first ++ [m.cr, m.lf] := by
            simp [line, List.intercalate]
          rw [hLine, run_append, hRun, Option.bind_some, run_lineEnd hHolds, hStart, hField]
      | @cons second text' written record hSecond hRest =>
          rw [line_cons_cons, run_append, hRun, Option.bind_some, run_cons, step_comma hHolds,
            Option.bind_some, ih (List.cons_ne_nil second written) _ rfl rfl]
          simp [hStart, hField]

/-- A file whose lines spell the records is read as these records. -/
theorem parse_lines {written records : List (List (List α))}
    (hSpells : List.Forall₂ (List.Forall₂ (Spells m)) written records)
    (hSome : ∀ fields ∈ written, fields ≠ []) :
    parse m (written.flatMap (line m)) = some records := by
  have hRun : ∀ r : Reader α, r.mode = .start → r.field = [] → r.fields = [] →
      run m r (written.flatMap (line m)) = some { r with records := r.records ++ records } := by
    induction hSpells with
    | nil =>
        intro r hStart hField hFields
        simp
    | @cons fields record written records hLine hRest ih =>
        intro r hStart hField hFields
        have hRead := run_line hLine (hSome fields List.mem_cons_self) r hStart hField
        have hRestSome : ∀ other ∈ written, other ≠ [] := fun other hOther =>
          hSome other (List.mem_cons_of_mem fields hOther)
        have hReadRest := ih hRestSome { r with records := r.records ++ [r.fields ++ record],
                                                fields := [] } hStart hField rfl
        rw [List.flatMap_cons, run_append, hRead, Option.bind_some, hReadRest]
        simp [hFields]
  rw [parse, hRun .initial rfl rfl rfl]
  simp [finish, Reader.initial]

end records

end Rfc4180
