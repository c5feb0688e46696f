import Mathlib.Data.List.Basic

/-! The Prometheus text exposition format: samples as lines of text, and the reader of
such a text. -/
namespace PrometheusText

abbrev Text := List Char

/-- How numbers are spelt and read. -/
structure NumberFormat (V : Type) where
  spell : V → Text
  read : Text → Option V
  read_spell : ∀ v, read (spell v) = some v
  plain : ∀ v, '\n' ∉ spell v

/-- One line: a metric with its labels, and the value. -/
structure Sample (V : Type) where
  name : Text
  labels : List (Text × Text)
  value : V
deriving DecidableEq

def isLabelChar (c : Char) : Bool :=
  c.isAlphanum || c = '_'

def isMetricChar (c : Char) : Bool :=
  isLabelChar c || c = ':'

def labelName (n : Text) : Bool :=
  n.all isLabelChar && n.head?.any fun c => !c.isDigit

def metricName (n : Text) : Bool :=
  n.all isMetricChar && n.head?.any fun c => !c.isDigit

namespace Sample

/-- Names are made of the characters for names. -/
structure WellFormed {V : Type} (s : Sample V) : Prop where
  name : metricName s.name = true
  labels : ∀ l ∈ s.labels, labelName l.1 = true

end Sample

section write

def escapeChar (c : Char) : Text :=
  if c = '\\' then ['\\', '\\'] else if c = '\n' then ['\\', 'n'] else if c = '"' then ['\\', '"'] else [c]

def escape (v : Text) : Text := v.flatMap escapeChar

def writeLabel (l : Text × Text) : Text :=
  l.1 ++ '=' :: '"' :: escape l.2 ++ ['"']

def writeLabels (labels : List (Text × Text)) : Text :=
  if labels = [] then [] else '{' :: List.intercalate [','] (labels.map writeLabel) ++ ['}']

variable {V : Type} (fmt : NumberFormat V)

def writeLine (s : Sample V) : Text :=
  s.name ++ writeLabels s.labels ++ ' ' :: fmt.spell s.value

end write

section read

def unescape (c : Char) : Option Char :=
  if c = '\\' then some '\\' else if c = 'n' then some '\n' else if c = '"' then some '"' else none

/-- The value up to the closing quote, and what follows it. -/
def readQuoted : Text → Option (Text × Text)
  | [] => none
  | '"' :: rest => some ([], rest)
  | '\\' :: c :: rest => do
      let c ← unescape c
      let (v, rest) ← readQuoted rest
      some (c :: v, rest)
  | c :: rest => do
      let (v, rest) ← readQuoted rest
      some (c :: v, rest)

def readLabel (text : Text) : Option ((Text × Text) × Text) :=
  let n := text.takeWhile isLabelChar
  if labelName n then
    match text.dropWhile isLabelChar with
    | '=' :: '"' :: rest => (readQuoted rest).map fun (v, rest) => ((n, v), rest)
    | _ => none
  else none

/-- The labels up to the closing brace, and what follows it. -/
def readLabels : Nat → Text → Option (List (Text × Text) × Text)
  | 0, _ => none
  | fuel + 1, text => do
      let (label, rest) ← readLabel text
      match rest with
      | ',' :: rest => do
          let (labels, rest) ← readLabels fuel rest
          some (label :: labels, rest)
      | '}' :: rest => some ([label], rest)
      | _ => none

variable {V : Type} (fmt : NumberFormat V)

def readValue (name : Text) (labels : List (Text × Text)) : Text → Option (Sample V)
  | ' ' :: number => (fmt.read number).map fun v => ⟨name, labels, v⟩
  | _ => none

def readLine (line : Text) : Option (Sample V) :=
  let n := line.takeWhile isMetricChar
  if metricName n then
    match line.dropWhile isMetricChar with
    | '{' :: rest => do
        let (labels, rest) ← readLabels rest.length rest
        readValue fmt n labels rest
    | rest => readValue fmt n [] rest
  else none

/-- Empty lines and comments say nothing. -/
def speaks (line : Text) : Bool :=
  line.head?.any (· ≠ '#')

/-- The samples of a text. -/
def parse (text : Text) : Option (List (Sample V)) :=
  ((text.splitOn '\n').filter speaks).mapM (readLine fmt)

end read

section roundTrip

variable {V : Type} {fmt : NumberFormat V} {v rest : Text} {l : Text × Text}
  {labels : List (Text × Text)} {s : Sample V}

/-- An escaped character is read back, whatever follows it. -/
theorem readQuoted_escapeChar (c : Char) (text : Text) :
    readQuoted (escapeChar c ++ text) = (readQuoted text).map fun (v, rest) => (c :: v, rest) := by
  unfold escapeChar
  split
  · next hSlash =>
      subst hSlash
      cases hRest : readQuoted text <;> simp [readQuoted, unescape, hRest]
  split
  · next hLine =>
      subst hLine
      cases hRest : readQuoted text <;> simp [readQuoted, unescape, hRest]
  split
  · next hQuote =>
      subst hQuote
      cases hRest : readQuoted text <;> simp [readQuoted, unescape, hRest]
  · next hSlash _ hQuote =>
      rw [List.singleton_append, readQuoted.eq_4 _ _ hQuote (fun _ _ hEq => absurd hEq hSlash)]
      cases readQuoted text <;> rfl

/-- The value that was escaped is read back. -/
theorem readQuoted_escape (v rest : Text) :
    readQuoted (escape v ++ '"' :: rest) = some (v, rest) := by
  induction v with
  | nil => rfl
  | cons c v ih =>
      have hCons : escape (c :: v) = escapeChar c ++ escape v := rfl
      rw [hCons, List.append_assoc, readQuoted_escapeChar, ih]
      rfl

/-- A label is read back up to the character after its closing quote. -/
theorem readLabel_writeLabel (h : labelName l.1 = true) :
    readLabel (writeLabel l ++ rest) = some (l, rest) := by
  have hAll : ∀ c ∈ l.1, isLabelChar c = true := by
    simp only [labelName, Bool.and_eq_true, List.all_eq_true] at h
    exact h.1
  have hTake : (writeLabel l ++ rest).takeWhile isLabelChar = l.1 := by
    simp [writeLabel, List.takeWhile_append_of_pos hAll, isLabelChar]
  have hDrop : (writeLabel l ++ rest).dropWhile isLabelChar =
      '=' :: '"' :: (escape l.2 ++ '"' :: rest) := by
    simp [writeLabel, List.dropWhile_append_of_pos hAll, isLabelChar]
  simp only [readLabel, hTake, h, if_true, hDrop]
  rw [readQuoted_escape]
  rfl

/-- The labels are read back up to the brace. -/
theorem readLabels_write (hValid : ∀ l ∈ labels, labelName l.1 = true) (hSome : labels ≠ [])
    {fuel : Nat} (hFuel : labels.length ≤ fuel) :
    readLabels fuel (List.intercalate [','] (labels.map writeLabel) ++ '}' :: rest) =
      some (labels, rest) := by
  induction labels generalizing fuel with
  | nil => exact absurd rfl hSome
  | cons l labels ih =>
      obtain ⟨fuel, rfl⟩ : ∃ n, fuel = n + 1 := ⟨fuel - 1, by simp at hFuel; omega⟩
      have hHead := hValid l List.mem_cons_self
      cases labels with
      | nil =>
          simp [readLabels, readLabel_writeLabel hHead]
      | cons l' labels =>
          have hRest := ih (fun x hx => hValid x (List.mem_cons_of_mem _ hx)) (by simp)
            (Nat.le_of_succ_le_succ hFuel)
          rw [List.map_cons] at hRest
          rw [List.map_cons, List.map_cons, List.intercalate_cons_cons, List.append_assoc,
            List.append_assoc, readLabels, readLabel_writeLabel hHead]
          simp [hRest]

/-- A text of labels is long enough to serve as the fuel of reading it. -/
theorem length_le_intercalate (labels : List (Text × Text)) :
    labels.length ≤ (List.intercalate [','] (labels.map writeLabel)).length := by
  induction labels with
  | nil => simp
  | cons l labels ih =>
      have hHead : 0 < (writeLabel l).length := by
        simp only [writeLabel, List.length_append, List.length_cons]
        omega
      cases labels with
      | nil =>
          rw [List.map_singleton, List.intercalate_singleton]
          exact hHead
      | cons l' labels =>
          rw [List.map_cons, List.map_cons, List.intercalate_cons_cons, ← List.map_cons]
          simp only [List.length_append, List.length_cons] at ih ⊢
          omega

/-- A well-formed sample is read back from its line. -/
theorem readLine_writeLine (h : s.WellFormed) : readLine fmt (writeLine fmt s) = some s := by
  have hAll : ∀ c ∈ s.name, isMetricChar c = true := by
    have hName := h.name
    simp only [metricName, Bool.and_eq_true, List.all_eq_true] at hName
    exact hName.1
  have hBrace : isMetricChar '{' = false := by decide
  have hSpace : isMetricChar ' ' = false := by decide
  have hValue : readValue fmt s.name s.labels (' ' :: fmt.spell s.value) = some s := by
    simp [readValue, fmt.read_spell]
  by_cases hLabels : s.labels = []
  · have hLine : writeLine fmt s = s.name ++ ' ' :: fmt.spell s.value := by
      simp [writeLine, writeLabels, hLabels]
    have hTake : (writeLine fmt s).takeWhile isMetricChar = s.name := by
      simp [hLine, List.takeWhile_append_of_pos hAll, hSpace]
    have hDrop : (writeLine fmt s).dropWhile isMetricChar = ' ' :: fmt.spell s.value := by
      simp [hLine, List.dropWhile_append_of_pos hAll, hSpace]
    simp only [readLine, hTake, h.name, if_true, hDrop]
    rw [← hLabels]
    exact hValue
  · have hLine : writeLine fmt s = s.name ++ '{' ::
        (List.intercalate [','] (s.labels.map writeLabel) ++ '}' :: ' ' :: fmt.spell s.value) := by
      simp [writeLine, writeLabels, hLabels]
    have hTake : (writeLine fmt s).takeWhile isMetricChar = s.name := by
      simp [hLine, List.takeWhile_append_of_pos hAll, hBrace]
    have hDrop : (writeLine fmt s).dropWhile isMetricChar = '{' ::
        (List.intercalate [','] (s.labels.map writeLabel) ++ '}' :: ' ' :: fmt.spell s.value) := by
      simp [hLine, List.dropWhile_append_of_pos hAll, hBrace]
    simp only [readLine, hTake, h.name, if_true, hDrop]
    have hFuel := length_le_intercalate s.labels
    rw [readLabels_write h.labels hLabels (by rw [List.length_append]; omega)]
    exact hValue

/-- An escaped value stays on its line. -/
theorem newline_not_mem_escape (v : Text) : '\n' ∉ escape v := by
  intro hMem
  obtain ⟨c, -, hChar⟩ := List.mem_flatMap.mp hMem
  unfold escapeChar at hChar
  split at hChar
  · simp at hChar
  split at hChar
  · simp at hChar
  split at hChar
  · simp at hChar
  · next hLine _ =>
      exact hLine (List.mem_singleton.mp hChar).symm

theorem newline_not_mem_of_all {p : Char → Bool} {n : Text} (hAll : ∀ c ∈ n, p c = true)
    (hLine : p '\n' = false) : '\n' ∉ n := by
  intro hMem
  rw [hAll _ hMem] at hLine
  cases hLine

theorem newline_not_mem_intercalate {texts : List Text} (h : ∀ text ∈ texts, '\n' ∉ text) :
    '\n' ∉ List.intercalate [','] texts := by
  induction texts with
  | nil => simp
  | cons a texts ih =>
      have hHead := h a List.mem_cons_self
      cases texts with
      | nil => simpa using hHead
      | cons b texts =>
          have hRest := ih fun text hMem => h text (List.mem_cons_of_mem _ hMem)
          rw [List.intercalate_cons_cons]
          simp [hHead, hRest]

/-- A sample is one line. -/
theorem newline_not_mem_writeLine (h : s.WellFormed) : '\n' ∉ writeLine fmt s := by
  have hName : '\n' ∉ s.name := by
    have hValid := h.name
    simp only [metricName, Bool.and_eq_true, List.all_eq_true] at hValid
    exact newline_not_mem_of_all hValid.1 (by decide)
  have hLabel : ∀ l ∈ s.labels, '\n' ∉ writeLabel l := by
    intro l hMem
    have hValid := h.labels l hMem
    simp only [labelName, Bool.and_eq_true, List.all_eq_true] at hValid
    have hHead := newline_not_mem_of_all hValid.1 (by decide)
    simp [writeLabel, hHead, newline_not_mem_escape]
  have hLabels : '\n' ∉ writeLabels s.labels := by
    unfold writeLabels
    split
    · simp
    · have hInner : '\n' ∉ List.intercalate [','] (s.labels.map writeLabel) := by
        apply newline_not_mem_intercalate
        intro text hMem
        obtain ⟨l, hIn, rfl⟩ := List.mem_map.mp hMem
        exact hLabel l hIn
      simpa using hInner
  simp [writeLine, hName, hLabels, fmt.plain]

/-- The line of a sample is neither blank nor a comment. -/
theorem speaks_writeLine (h : s.WellFormed) : speaks (writeLine fmt s) = true := by
  have hName := h.name
  cases hChars : s.name with
  | nil => simp [metricName, hChars] at hName
  | cons c rest =>
      have hHash : c ≠ '#' := by
        rintro rfl
        rw [hChars] at hName
        simp [metricName, isMetricChar, isLabelChar] at hName
      simp [speaks, writeLine, hChars, hHash]

/-- A text of comments and samples reads as the samples. -/
theorem parse_lines {comments : List Text} {samples : List (Sample V)}
    (hComments : ∀ line ∈ comments, '\n' ∉ line ∧ speaks line = false)
    (hSamples : ∀ s ∈ samples, s.WellFormed) (hSome : comments ≠ []) :
    parse fmt (List.intercalate ['\n'] (comments ++ samples.map (writeLine fmt))) = some samples := by
  have hLines : ∀ line ∈ comments ++ samples.map (writeLine fmt), '\n' ∉ line := by
    intro line hMem
    rcases List.mem_append.mp hMem with hComment | hSample
    · exact (hComments line hComment).1
    · obtain ⟨s, hIn, rfl⟩ := List.mem_map.mp hSample
      exact newline_not_mem_writeLine (hSamples s hIn)
  have hQuiet : comments.filter speaks = [] := by
    apply List.filter_eq_nil_iff.mpr
    intro line hMem
    simp [(hComments line hMem).2]
  have hSpeak : (samples.map (writeLine fmt)).filter speaks = samples.map (writeLine fmt) := by
    apply List.filter_eq_self.mpr
    intro line hMem
    obtain ⟨s, hIn, rfl⟩ := List.mem_map.mp hMem
    exact speaks_writeLine (hSamples s hIn)
  rw [parse, List.splitOn_intercalate '\n' hLines (by simp [hSome]), List.filter_append, hQuiet,
    List.nil_append, hSpeak]
  clear hLines hSpeak
  induction samples with
  | nil => rfl
  | cons s samples ih =>
      have hRest := ih fun x hx => hSamples x (List.mem_cons_of_mem _ hx)
      rw [List.map_cons, List.mapM_cons, readLine_writeLine (hSamples s List.mem_cons_self), hRest]
      rfl

end roundTrip
end PrometheusText
