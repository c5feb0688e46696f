import Mathlib.Data.List.Dedup
import Mathlib.Data.List.Induction
import VpnPayment.Collections.Decimal
import VpnPayment.Observability.Metrics

/-! Each tuple of label values has a series of its own exactly when no two tuples have
the same key. -/
namespace VpnPayment.Metrics

open Collections PrometheusText

variable {V S : Type}

/-- The values of an instrument's labels. -/
def tuple (labelNames : List String) (labels : Labels) : List String :=
  labelNames.map (labelValue labels)

/-- Label values that differ have keys that differ. -/
def Apart (labelNames : List String) (used : List Labels) : Prop :=
  ∀ labels ∈ used, ∀ labels' ∈ used, seriesKey labelNames labels = seriesKey labelNames labels' →
    tuple labelNames labels = tuple labelNames labels'

/-- The values that were given for a tuple, oldest first. -/
def valuesOf (labelNames : List String) (updates : List (Labels × V)) (t : List String) : List V :=
  (updates.filter fun u => tuple labelNames u.1 = t).map Prod.snd

/-- The labels of the lines of a tuple. -/
def pairs (labelNames t : List String) : List (Text × Text) :=
  List.zipWith (fun n v => (n.toList, v.toList)) labelNames t

/-- The text reads, up to order, as one block of lines for each tuple that was used. -/
def ReadsAs (fmt : NumberFormat V) (text : Text) (used : List (List String))
    (block : List String → List (Sample V)) : Prop :=
  ∃ samples, parse fmt text = some samples ∧ samples.Perm (used.dedup.flatMap block)

section key

variable {labelNames : List String} {labels labels' : Labels}

theorem length_tuple : (tuple labelNames labels).length = labelNames.length :=
  List.length_map _

/-- The key of a series is made of the tuple of its label values. -/
theorem seriesKey_eq : seriesKey labelNames labels =
    "|".intercalate (List.zipWith (fun n v => n ++ "=" ++ v) labelNames (tuple labelNames labels)) := by
  rw [seriesKey, tuple, List.zipWith_map_right, List.zipWith_self]

/-- Labels with one tuple have one series. -/
theorem seriesKey_of_tuple (h : tuple labelNames labels = tuple labelNames labels') :
    seriesKey labelNames labels = seriesKey labelNames labels' := by
  rw [seriesKey_eq, h, ← seriesKey_eq]

/-- The label values can be read off the pairs. -/
theorem pairs_injective {t t' : List String} (hLength : t.length = labelNames.length)
    (hLength' : t'.length = labelNames.length) (h : pairs labelNames t = pairs labelNames t') :
    t = t' := by
  induction labelNames generalizing t t' with
  | nil => rw [List.length_eq_zero_iff.mp hLength, List.length_eq_zero_iff.mp hLength']
  | cons n names ih =>
      cases t with
      | nil => cases hLength
      | cons v t =>
          cases t' with
          | nil => cases hLength'
          | cons v' t' =>
              obtain ⟨hHead, hTail⟩ := List.cons.inj h
              have hValue : v = v' := String.toList_inj.mp (Prod.mk.inj hHead).2
              rw [hValue, ih (Nat.succ.inj hLength) (Nat.succ.inj hLength') hTail]

theorem name_of_pairs {t : List String} {l : Text × Text} (h : l ∈ pairs labelNames t) :
    ∃ n ∈ labelNames, l.1 = n.toList := by
  rw [pairs, ← List.map_uncurry_zip_eq_zipWith] at h
  obtain ⟨both, hMem, rfl⟩ := List.mem_map.mp h
  exact ⟨both.1, (List.of_mem_zip hMem).1, rfl⟩

/-- Values without a bar have keys that differ when they do. -/
theorem apart_of_plain {used : List Labels} (hNames : ∀ n ∈ labelNames, '|' ∉ n.toList)
    (hValues : ∀ labels ∈ used, ∀ v ∈ tuple labelNames labels, '|' ∉ v.toList) :
    Apart labelNames used := by
  intro labels hLabels labels' hLabels' hKey
  cases labelNames with
  | nil => rfl
  | cons first names =>
      -- the parts of the key, which the bars between them keep apart
      have hParts : ∀ labels ∈ used, (seriesKey (first :: names) labels).toList.splitOn '|' =
          (first :: names).map fun n => n.toList ++ '=' :: (labelValue labels n).toList := by
        intro labels hMem
        rw [seriesKey, String.toList_intercalate]
        have hBar : "|".toList = ['|'] := rfl
        rw [hBar, List.splitOn_intercalate '|' _ (by simp)]
        · simp
        · intro part hPart
          simp only [List.map_map, List.mem_map] at hPart
          obtain ⟨n, hIn, rfl⟩ := hPart
          have hValue := hValues labels hMem _ (List.mem_map_of_mem hIn)
          simp [hNames n hIn, hValue]
      have hSame := (hParts labels hLabels).symm.trans (hKey ▸ hParts labels' hLabels')
      apply List.map_congr_left
      intro n hIn
      have hPart := List.map_inj_left.mp hSame n hIn
      apply String.toList_inj.mp
      simpa using hPart

end key

section run

variable {update : Update V S} {labelNames : List String} {updates : List (Labels × V)}
  {u : Labels × V} {key : String} {series : SeriesMap S} {entry : String × Series S}

/-- The series after a sequence of updates. -/
def run (update : Update V S) (labelNames : List String) (updates : List (Labels × V)) : SeriesMap S :=
  updates.foldl (fun series u => touch update labelNames series u.1 u.2) .empty

/-- What values make of a series. -/
def Update.total (update : Update V S) : List V → Option S
  | [] => none
  | v :: vs => some (vs.foldl update.next (update.start v))

theorem run_concat : run update labelNames (updates ++ [u]) =
    touch update labelNames (run update labelNames updates) u.1 u.2 :=
  List.foldl_concat ..

theorem Update.total_concat (vs : List V) (v : V) : update.total (vs ++ [v]) =
    some (match update.total vs with
      | some s => update.next s v
      | none => update.start v) := by
  cases vs with
  | nil => rfl
  | cons v' vs => exact congrArg some (List.foldl_concat ..)

/-- An update reaches the series of its labels and no other. -/
theorem get?_touch (labels : Labels) (value : V) :
    ((touch update labelNames series labels value).get? key).map (fun e => e.2.state) =
      if seriesKey labelNames labels = key then
        some (match (series.get? key).map fun e => e.2.state with
          | some s => update.next s value
          | none => update.start value)
      else (series.get? key).map fun e => e.2.state := by
  unfold touch
  by_cases hKey : seriesKey labelNames labels = key
  · subst hKey
    cases hGet : series.get? (seriesKey labelNames labels) <;> simp [hGet]
  · cases hGet : series.get? (seriesKey labelNames labels) <;> simp [hGet, hKey]

/-- A series holds what the values given for its key make. -/
theorem state_of_run (update : Update V S) (labelNames : List String) (updates : List (Labels × V))
    (key : String) : ((run update labelNames updates).get? key).map (fun e => e.2.state) =
      update.total ((updates.filter fun u => seriesKey labelNames u.1 = key).map Prod.snd) := by
  induction updates using List.reverseRecOn with
  | nil => rfl
  | append_singleton updates u ih =>
      rw [run_concat, get?_touch, List.filter_append, List.map_append, ih]
      by_cases hKey : seriesKey labelNames u.1 = key
      · have hOne : ([u].filter fun u => seriesKey labelNames u.1 = key) = [u] := by simp [hKey]
        rw [if_pos hKey, hOne, List.map_singleton, Update.total_concat]
      · have hNone : ([u].filter fun u => seriesKey labelNames u.1 = key) = [] := by simp [hKey]
        rw [if_neg hKey, hNone, List.map_nil, List.append_nil]

/-- A series has the labels of an update with its key. -/
theorem labels_of_run (h : entry ∈ (run update labelNames updates).rows) :
    ∃ u ∈ updates, u.1 = entry.2.labels ∧ seriesKey labelNames u.1 = entry.1 := by
  induction updates using List.reverseRecOn generalizing entry with
  | nil => cases h
  | append_singleton updates u ih =>
      have hOld : ∀ e ∈ (run update labelNames updates).rows,
          ∃ u' ∈ updates ++ [u], u'.1 = e.2.labels ∧ seriesKey labelNames u'.1 = e.1 := by
        intro e hMem
        obtain ⟨u', hIn, hBoth⟩ := ih hMem
        exact ⟨u', List.mem_append_left _ hIn, hBoth⟩
      rw [run_concat, touch] at h
      split at h
      · next key' cur hGet =>
          rcases Table.mem_put_iff.mp h with rfl | ⟨hMem, -⟩
          · cases update.relabels with
            | true => exact ⟨u, by simp, rfl, rfl⟩
            | false =>
                obtain ⟨u', hIn, hLabels, hKey⟩ := hOld _ (Table.mem_of_get? hGet)
                exact ⟨u', hIn, hLabels, hKey.trans (Table.key_of_get? hGet)⟩
          · exact hOld entry hMem
      · rcases Table.mem_put_iff.mp h with rfl | ⟨hMem, -⟩
        · exact ⟨u, by simp, rfl, rfl⟩
        · exact hOld entry hMem

end run

section reading

variable {fmt : NumberFormat V} {update : Update V S} {d : Descriptor} {updates : List (Labels × V)}
  {block : List String → S → List (Sample V)} {expected : List String → List (Sample V)}
  {text : Text}

/-- Among the lines of a series there is one that has the labels of the series alone. -/
structure Marks (labelNames : List String) (block : List String → S → List (Sample V))
    (mark : Text) : Prop where
  some : ∀ t s, ∃ v, ⟨mark, pairs labelNames t, v⟩ ∈ block t s
  only : ∀ t s, ∀ x ∈ block t s, x.name = mark → x.labels = pairs labelNames t

/-- The lines of the series after a sequence of updates. -/
def lines (update : Update V S) (labelNames : List String)
    (block : List String → S → List (Sample V)) (updates : List (Labels × V)) : List (Sample V) :=
  (run update labelNames updates).rows.flatMap fun e => block (tuple labelNames e.2.labels) e.2.state

/-- Every series is stored under the key of its labels. -/
theorem key_of_run {entry : String × Series S}
    (h : entry ∈ (run update d.labelNames updates).rows) :
    entry.1 = seriesKey d.labelNames entry.2.labels := by
  obtain ⟨u, -, hLabels, hKey⟩ := labels_of_run h
  rw [← hKey, hLabels]

/-- A tuple that was updated has a value. -/
theorem valuesOf_ne_nil {labelNames : List String} {u : Labels × V} (h : u ∈ updates) :
    valuesOf labelNames updates (tuple labelNames u.1) ≠ [] := by
  intro hNil
  have hMem : u.2 ∈ valuesOf labelNames updates (tuple labelNames u.1) :=
    List.mem_map_of_mem (List.mem_filter.mpr ⟨h, by simp⟩)
  rw [hNil] at hMem
  cases hMem

/-- When the reading has a line for each tuple, no two tuples share a key. -/
theorem apart_of_perm {mark : Text} (hMarks : Marks d.labelNames block mark)
    (hExpected : ∀ t, valuesOf d.labelNames updates t ≠ [] → ∃ s, expected t = block t s)
    (hPerm : (lines update d.labelNames block updates).Perm
      ((updates.map fun u => tuple d.labelNames u.1).dedup.flatMap expected)) :
    Apart d.labelNames (updates.map Prod.fst) := by
  -- a series whose labels have the values of the update
  have hSeries : ∀ u ∈ updates, ∃ e ∈ (run update d.labelNames updates).rows,
      tuple d.labelNames e.2.labels = tuple d.labelNames u.1 := by
    intro u hMem
    obtain ⟨s, hBlock⟩ := hExpected _ (valuesOf_ne_nil hMem)
    obtain ⟨v, hLine⟩ := hMarks.some (tuple d.labelNames u.1) s
    have hRead : ⟨mark, pairs d.labelNames (tuple d.labelNames u.1), v⟩ ∈
        lines update d.labelNames block updates := by
      apply hPerm.mem_iff.mpr
      apply List.mem_flatMap.mpr
      exact ⟨_, List.mem_dedup.mpr (List.mem_map_of_mem hMem), hBlock ▸ hLine⟩
    obtain ⟨e, hEntry, hIn⟩ := List.mem_flatMap.mp hRead
    have hSame := hMarks.only _ _ _ hIn rfl
    exact ⟨e, hEntry, (pairs_injective length_tuple length_tuple hSame).symm⟩
  intro labels hLabels labels' hLabels' hKey
  obtain ⟨u, hMem, rfl⟩ := List.mem_map.mp hLabels
  obtain ⟨u', hMem', rfl⟩ := List.mem_map.mp hLabels'
  obtain ⟨e, hEntry, hTuple⟩ := hSeries u hMem
  obtain ⟨e', hEntry', hTuple'⟩ := hSeries u' hMem'
  have hSame : e.1 = e'.1 := by
    rw [key_of_run hEntry, key_of_run hEntry', seriesKey_of_tuple hTuple, hKey,
      seriesKey_of_tuple hTuple']
  have hRow := Table.get?_of_mem hEntry
  rw [hSame, Table.get?_of_mem hEntry'] at hRow
  rw [← hTuple, ← hTuple', Option.some.inj hRow]

/-- When no two tuples share a key, the values given for a key are those for the tuple. -/
theorem values_of_key (hApart : Apart d.labelNames (updates.map Prod.fst)) {u : Labels × V}
    (hMem : u ∈ updates) :
    (updates.filter fun u' => seriesKey d.labelNames u'.1 = seriesKey d.labelNames u.1).map Prod.snd =
      valuesOf d.labelNames updates (tuple d.labelNames u.1) := by
  rw [valuesOf]
  congr 1
  apply List.filter_congr
  intro u' hMem'
  apply decide_eq_decide.mpr
  constructor
  · exact hApart _ (List.mem_map_of_mem hMem') _ (List.mem_map_of_mem hMem)
  · exact seriesKey_of_tuple

/-- While tuples have series of their own, the lines are the expected ones of each tuple. -/
theorem perm_of_apart (hApart : Apart d.labelNames (updates.map Prod.fst))
    (hExpected : ∀ t s, update.total (valuesOf d.labelNames updates t) = some s →
      expected t = block t s) :
    (lines update d.labelNames block updates).Perm
      ((updates.map fun u => tuple d.labelNames u.1).dedup.flatMap expected) := by
  have hBlocks : lines update d.labelNames block updates =
      ((run update d.labelNames updates).rows.map fun e => tuple d.labelNames e.2.labels).flatMap
        expected := by
    rw [lines, List.flatMap_map]
    apply List.flatMap_congr
    intro e hEntry
    obtain ⟨u, hMem, hLabels, hKey⟩ := labels_of_run hEntry
    have hState := state_of_run update d.labelNames updates e.1
    rw [Table.get?_of_mem hEntry, ← hKey, values_of_key hApart hMem] at hState
    rw [← hLabels]
    exact (hExpected _ _ hState.symm).symm
  rw [hBlocks]
  apply List.Perm.flatMap_right
  apply (List.perm_ext_iff_of_nodup _ (List.nodup_dedup _)).mpr
  · intro t
    rw [List.mem_dedup, List.mem_map, List.mem_map]
    constructor
    · intro hEntry
      obtain ⟨e, hEntry, rfl⟩ := hEntry
      obtain ⟨u, hMem, hLabels, -⟩ := labels_of_run hEntry
      exact ⟨u, hMem, by rw [hLabels]⟩
    · intro hUsed
      obtain ⟨u, hMem, rfl⟩ := hUsed
      have hState := state_of_run update d.labelNames updates (seriesKey d.labelNames u.1)
      rw [values_of_key hApart hMem] at hState
      cases hGet : (run update d.labelNames updates).get? (seriesKey d.labelNames u.1) with
      | none =>
          rw [hGet] at hState
          cases hValues : valuesOf d.labelNames updates (tuple d.labelNames u.1) with
          | nil => exact absurd hValues (valuesOf_ne_nil hMem)
          | cons v vs =>
              rw [hValues] at hState
              cases hState
      | some e =>
          have hEntry := Table.mem_of_get? hGet
          obtain ⟨u', hMem', hLabels, hKey⟩ := labels_of_run hEntry
          have hSame := hKey.trans (Table.key_of_get? hGet)
          refine ⟨e, hEntry, ?_⟩
          rw [← hLabels]
          exact hApart _ (List.mem_map_of_mem hMem') _ (List.mem_map_of_mem hMem) hSame
  · apply List.Nodup.map_on _ (List.Nodup.of_map _ (run update d.labelNames updates).nodup)
    intro e hEntry e' hEntry' hTuple
    have hSame : e.1 = e'.1 := by
      rw [key_of_run hEntry, key_of_run hEntry', seriesKey_of_tuple hTuple]
    have hRow := Table.get?_of_mem hEntry
    rw [hSame, Table.get?_of_mem hEntry'] at hRow
    exact (Option.some.inj hRow).symm

/-- A text of such lines reads as the updates exactly while the tuples are kept apart. -/
theorem readsAs_iff {mark : Text} (hMarks : Marks d.labelNames block mark)
    (hText : parse fmt text = some (lines update d.labelNames block updates))
    (hExpected : ∀ t s, update.total (valuesOf d.labelNames updates t) = some s →
      expected t = block t s) :
    ReadsAs fmt text (updates.map fun u => tuple d.labelNames u.1) expected ↔
      Apart d.labelNames (updates.map Prod.fst) := by
  constructor
  · intro hReads
    obtain ⟨samples, hSamples, hPerm⟩ := hReads
    rw [hText] at hSamples
    cases hSamples
    apply apart_of_perm hMarks _ hPerm
    intro t hSome
    obtain ⟨v, vs, hValues⟩ := List.exists_cons_of_ne_nil hSome
    exact ⟨_, hExpected t _ (by rw [hValues]; rfl)⟩
  · exact fun hApart => ⟨_, hText, perm_of_apart hApart hExpected⟩

end reading

section text

variable {fmt : NumberFormat V} {d : Descriptor} {labels : Labels} {extra : Option (Text × Text)}

/-- The code escapes in three passes what the format escapes character by character. -/
theorem escapeLabelValue_eq (v : Text) : escapeLabelValue v = escape v := by
  induction v with
  | nil => rfl
  | cons c v ih =>
      have hCons : escapeLabelValue (c :: v) = escapeLabelValue [c] ++ escapeLabelValue v := by
        simp [escapeLabelValue, replaceAll]
      have hOne : escapeLabelValue [c] = escapeChar c := by
        unfold escapeChar
        split
        · next hSlash =>
            rw [hSlash]
            rfl
        split
        · next hLine =>
            rw [hLine]
            rfl
        split
        · next hQuote =>
            rw [hQuote]
            rfl
        · next hSlash hLine hQuote =>
            simp [escapeLabelValue, replaceAll, hSlash, hLine, hQuote]
      rw [hCons, hOne, ih]
      rfl

/-- The label block of the code is the one that the format writes. -/
theorem renderLabels_eq (labelNames : List String) : renderLabels labelNames labels extra =
    writeLabels (pairs labelNames (tuple labelNames labels) ++ extra.toList) := by
  have hLabel : ∀ n v, renderLabel n v = writeLabel (n, v) := by
    intro n v
    rw [renderLabel, escapeLabelValue_eq]
    rfl
  have hPairs : pairs labelNames (tuple labelNames labels) =
      labelNames.map fun n => (n.toList, (labelValue labels n).toList) := by
    rw [pairs, tuple, List.zipWith_map_right, List.zipWith_self]
  have hParts : ∀ parts : List (Text × Text),
      (if (parts.map writeLabel).length = 0 then ([] : Text)
        else '{' :: List.intercalate [','] (parts.map writeLabel) ++ ['}']) = writeLabels parts := by
    intro parts
    simp only [writeLabels, List.length_map, List.length_eq_zero_iff]
  rw [← hParts, hPairs]
  cases extra with
  | none => simp [renderLabels, hLabel, Function.comp_def]
  | some l => simp [renderLabels, hLabel, Function.comp_def]

/-- A line of the code is the line that the format writes for the sample. -/
theorem line_eq (suffix : String) (v : V) : line fmt d suffix labels extra v =
    writeLine fmt ⟨d.name.toList ++ suffix.toList,
      pairs d.labelNames (tuple d.labelNames labels) ++ extra.toList, v⟩ := by
  rw [line, renderLabels_eq, writeLine]

/-- The samples of a metric with valid names are well formed. -/
theorem wellFormed_line (d : Descriptor) {suffix : String}
    (hSuffix : suffix.toList.all isMetricChar = true) (extra : Option (Text × Text))
    (hExtra : ∀ l ∈ extra, labelName l.1 = true) (t : List String) (v : V) :
    Sample.WellFormed ⟨d.name.toList ++ suffix.toList, pairs d.labelNames t ++ extra.toList, v⟩ where
  name := by
    have hValid := d.name_valid
    simp only [metricName, Bool.and_eq_true] at hValid
    obtain ⟨hAll, hHead⟩ := hValid
    cases hName : d.name.toList with
    | nil =>
        rw [hName] at hHead
        cases hHead
    | cons c cs =>
        rw [hName] at hAll hHead
        simpa [metricName, hSuffix] using And.intro (by simpa using hAll) hHead
  labels := by
    intro l hMem
    rcases List.mem_append.mp hMem with hOwn | hMore
    · obtain ⟨n, hIn, hPair⟩ := name_of_pairs hOwn
      rw [hPair]
      exact d.labels_valid n hIn
    · exact hExtra l (by simpa using hMore)

/-- The HELP and TYPE lines are comments, and single lines. -/
theorem header_comments (type : String) (hType : '\n' ∉ type.toList) :
    ∀ line ∈ header d type, '\n' ∉ line ∧ speaks line = false := by
  have hName : '\n' ∉ d.name.toList := by
    have hValid := d.name_valid
    simp only [metricName, Bool.and_eq_true, List.all_eq_true] at hValid
    exact newline_not_mem_of_all hValid.1 (by decide)
  intro line hMem
  simp only [header, List.mem_cons, List.not_mem_nil, or_false] at hMem
  rcases hMem with rfl | rfl
  · exact ⟨by simp [hName, d.help_line], rfl⟩
  · exact ⟨by simp [hName, hType], rfl⟩

/-- A rendered text reads as the samples of its lines. -/
theorem parse_joinLines {type : String} {samples : List (Sample V)} (hType : '\n' ∉ type.toList)
    (hSamples : ∀ s ∈ samples, s.WellFormed) :
    parse fmt (joinLines (header d type ++ samples.map (writeLine fmt))) = some samples :=
  parse_lines (header_comments type hType) hSamples (by simp [header])

end text

section single

variable {fmt : NumberFormat V} {d : Descriptor}

/-- The line of a counter or a gauge. -/
def single (d : Descriptor) (t : List String) (value : V) : List (Sample V) :=
  [⟨d.name.toList, pairs d.labelNames t, value⟩]

theorem marks_single : Marks d.labelNames (single (V := V) d) d.name.toList where
  some t s := ⟨s, List.mem_singleton.mpr rfl⟩
  only t s x hMem _ := by rw [List.mem_singleton.mp hMem]

/-- A scraper reads one sample for each series of a counter or a gauge. -/
theorem parse_single {type : String} (hType : '\n' ∉ type.toList) (series : SeriesMap V) :
    parse fmt (joinLines (header d type ++ series.rows.map fun (_, s) =>
      line fmt d "" s.labels none s.state)) =
      some (series.rows.flatMap fun e => single d (tuple d.labelNames e.2.labels) e.2.state) := by
  have hLines : (series.rows.map fun (_, s) => line fmt d "" s.labels none s.state) =
      (series.rows.flatMap fun e => single d (tuple d.labelNames e.2.labels) e.2.state).map
        (writeLine fmt) := by
    rw [List.map_flatMap, ← List.flatMap_pure_eq_map]
    apply List.flatMap_congr
    intro e _
    simp [single, line_eq]
  rw [hLines]
  apply parse_joinLines hType
  intro s hMem
  obtain ⟨e, -, hIn⟩ := List.mem_flatMap.mp hMem
  rw [List.mem_singleton.mp hIn]
  have hEmpty : "".toList.all isMetricChar = true := by decide
  simpa using wellFormed_line d hEmpty none nofun (tuple d.labelNames e.2.labels) e.2.state

end single

namespace Counter

variable [Add V]

/-- The line of a tuple shows the sum of its increments. -/
def reading (d : Descriptor) (updates : List (Labels × V)) (t : List String) : List (Sample V) :=
  match valuesOf d.labelNames updates t with
  | [] => []
  | v :: vs => single d t (vs.foldl (· + ·) v)

/-- The exposed counter tells the sum of each tuple's increments exactly while the tuples
are kept apart. -/
theorem readsAs_iff (fmt : NumberFormat V) (d : Descriptor) (updates : List (Labels × V)) :
    ReadsAs fmt (render fmt d (updates.foldl (fun series u => inc d series u.1 u.2) .empty))
        (updates.map fun u => tuple d.labelNames u.1) (reading d updates) ↔
      Apart d.labelNames (updates.map Prod.fst) := by
  apply Metrics.readsAs_iff marks_single (parse_single (by decide) (run update d.labelNames updates))
  intro t s hTotal
  rw [reading]
  cases hValues : valuesOf d.labelNames updates t with
  | nil =>
      rw [hValues] at hTotal
      cases hTotal
  | cons v vs =>
      rw [hValues] at hTotal
      cases hTotal
      rfl

end Counter

namespace Gauge

/-- What is done to a gauge. -/
inductive Action (V : Type)
  | set (labels : Labels) (value : V)
  | reset

def act (d : Descriptor) (series : SeriesMap V) : Action V → SeriesMap V
  | .set labels value => set d series labels value
  | .reset => reset series

/-- A reset forgets what was set before. -/
def Action.after (updates : List (Labels × V)) : Action V → List (Labels × V)
  | .set labels value => updates ++ [(labels, value)]
  | .reset => []

/-- The values that were set since the newest reset. -/
def sinceReset (actions : List (Action V)) : List (Labels × V) :=
  actions.foldl Action.after []

/-- The line of a tuple shows its last value. -/
def reading (d : Descriptor) (updates : List (Labels × V)) (t : List String) : List (Sample V) :=
  match (valuesOf d.labelNames updates t).getLast? with
  | none => []
  | some v => single d t v

/-- `reset` forgets what came before it. -/
theorem foldl_act (d : Descriptor) (actions : List (Action V)) :
    actions.foldl (act d) .empty = run update d.labelNames (sinceReset actions) := by
  induction actions using List.reverseRecOn with
  | nil => rfl
  | append_singleton actions action ih =>
      rw [List.foldl_concat, ih, sinceReset, sinceReset, List.foldl_concat]
      cases action with
      | set labels value =>
          rw [Action.after, run_concat]
          rfl
      | reset => rfl

/-- A gauge shows its last value. -/
theorem total_eq_getLast? (vs : List V) : update.total vs = vs.getLast? := by
  induction vs using List.reverseRecOn with
  | nil => rfl
  | append_singleton vs v ih =>
      rw [Update.total_concat, List.getLast?_concat]
      cases update.total vs <;> rfl

/-- The exposed gauge tells each tuple's last value exactly while the tuples are kept apart. -/
theorem readsAs_iff (fmt : NumberFormat V) (d : Descriptor) (actions : List (Action V)) :
    ReadsAs fmt (render fmt d (actions.foldl (act d) .empty))
        ((sinceReset actions).map fun u => tuple d.labelNames u.1) (reading d (sinceReset actions)) ↔
      Apart d.labelNames ((sinceReset actions).map Prod.fst) := by
  rw [foldl_act]
  apply Metrics.readsAs_iff marks_single
    (parse_single (by decide) (run update d.labelNames (sinceReset actions)))
  intro t s hTotal
  rw [total_eq_getLast?] at hTotal
  rw [reading, hTotal]

end Gauge

namespace Histogram

theorem zipWith_zipWith (f g : V → Nat → Nat) (bounds : List V) (ns : List Nat) :
    List.zipWith f bounds (List.zipWith g bounds ns) =
      List.zipWith (fun bound n => f bound (g bound n)) bounds ns := by
  induction bounds generalizing ns with
  | nil => rfl
  | cons bound bounds ih =>
      cases ns with
      | nil => rfl
      | cons n ns => exact congrArg _ (ih ns)

section render

variable [NatCast V] {fmt : NumberFormat V} {d : Descriptor} {buckets : List V}

/-- The lines of a series: one for each bound, and those for all observations. -/
def block (fmt : NumberFormat V) (d : Descriptor) (buckets : List V) (t : List String)
    (s : HistogramState V) : List (Sample V) :=
  List.zipWith (fun bound (n : Nat) => ⟨d.name.toList ++ "_bucket".toList,
    pairs d.labelNames t ++ (le (fmt.spell bound)).toList, n⟩) buckets s.counts ++
  [⟨d.name.toList ++ "_bucket".toList, pairs d.labelNames t ++ (le "+Inf".toList).toList, s.count⟩,
    ⟨d.name.toList ++ "_sum".toList, pairs d.labelNames t, s.sum⟩,
    ⟨d.name.toList ++ "_count".toList, pairs d.labelNames t, s.count⟩]

theorem marks_block : Marks d.labelNames (block fmt d buckets) (d.name.toList ++ "_count".toList) where
  some t s := ⟨s.count, List.mem_append_right _ (by simp)⟩
  only t s x hMem hName := by
    have hOther : ∀ suffix : String, suffix.toList ≠ "_count".toList →
        d.name.toList ++ suffix.toList ≠ d.name.toList ++ "_count".toList := fun suffix hNe hEq =>
      hNe (List.append_cancel_left hEq)
    rcases List.mem_append.mp hMem with hBucket | hAll
    · rw [← List.map_uncurry_zip_eq_zipWith] at hBucket
      obtain ⟨both, -, rfl⟩ := List.mem_map.mp hBucket
      exact absurd hName (hOther "_bucket" (by decide))
    · simp only [List.mem_cons, List.not_mem_nil, or_false] at hAll
      rcases hAll with rfl | rfl | rfl
      · exact absurd hName (hOther "_bucket" (by decide))
      · exact absurd hName (hOther "_sum" (by decide))
      · rfl

/-- A scraper reads the buckets, the sum and the count of each series of a histogram. -/
theorem parse_render (series : SeriesMap (HistogramState V)) :
    parse fmt (render fmt d buckets series) =
      some (series.rows.flatMap fun e =>
        block fmt d buckets (tuple d.labelNames e.2.labels) e.2.state) := by
  have hLines : ∀ s : Series (HistogramState V),
      List.zipWith (fun bound (n : Nat) =>
        line fmt d "_bucket" s.labels (le (fmt.spell bound)) (n : V)) buckets s.state.counts ++
      [line fmt d "_bucket" s.labels (le "+Inf".toList) (s.state.count : V),
        line fmt d "_sum" s.labels none s.state.sum,
        line fmt d "_count" s.labels none (s.state.count : V)] =
      (block fmt d buckets (tuple d.labelNames s.labels) s.state).map (writeLine fmt) := by
    intro s
    simp [block, line_eq, List.map_zipWith]
  rw [render]
  simp only [hLines]
  rw [← List.map_flatMap]
  apply parse_joinLines (by decide)
  intro s hMem
  obtain ⟨e, -, hIn⟩ := List.mem_flatMap.mp hMem
  have hLe : ∀ value, ∀ l ∈ le value, labelName l.1 = true := by
    intro value l hLabel
    cases hLabel
    show labelName "le".toList = true
    decide
  rcases List.mem_append.mp hIn with hBucket | hAll
  · rw [← List.map_uncurry_zip_eq_zipWith] at hBucket
    obtain ⟨both, -, rfl⟩ := List.mem_map.mp hBucket
    exact wellFormed_line d (by decide) _ (hLe _) _ _
  · simp only [List.mem_cons, List.not_mem_nil, or_false] at hAll
    rcases hAll with rfl | rfl | rfl
    · exact wellFormed_line d (by decide) _ (hLe _) _ _
    · have hSum : "_sum".toList.all isMetricChar = true := by decide
      simpa using wellFormed_line d hSum none nofun (tuple d.labelNames e.2.labels) e.2.state.sum
    · have hCount : "_count".toList.all isMetricChar = true := by decide
      simpa using wellFormed_line d hCount none nofun (tuple d.labelNames e.2.labels)
        (e.2.state.count : V)

end render

section observe

variable [Add V] [LE V] [DecidableLE V] {buckets : List V}

/-- What a sequence of observations adds to a series. -/
theorem foldl_record (vs : List V) (s : HistogramState V) (hCounts : s.counts.length = buckets.length) :
    vs.foldl (record buckets) s = {
      counts := List.zipWith (fun bound n => n + vs.countP (· ≤ bound)) buckets s.counts
      sum := vs.foldl (· + ·) s.sum
      count := s.count + vs.length } := by
  induction vs generalizing s with
  | nil =>
      have hSame : List.zipWith (fun (_ : V) (n : Nat) => n) buckets s.counts = s.counts := by
        rw [← List.map_uncurry_zip_eq_zipWith]
        exact List.map_snd_zip hCounts.le
      simp [hSame]
  | cons v vs ih =>
      have hStep : (record buckets s v).counts.length = buckets.length := by
        simp [record, hCounts]
      rw [List.foldl_cons, ih _ hStep]
      congr 1
      · rw [record, zipWith_zipWith]
        congr 1
        funext bound n
        rw [List.countP_cons]
        split
        · simp_all
          omega
        · simp_all
      · show s.count + 1 + vs.length = s.count + (vs.length + 1)
        omega

variable [Zero V]

/-- A bucket counts the observations up to its bound. -/
theorem total_update (vs : List V) (s : HistogramState V) (h : (update buckets).total vs = some s) :
    s = {
      counts := buckets.map fun bound => vs.countP (· ≤ bound)
      sum := vs.foldl (· + ·) 0
      count := vs.length } := by
  cases vs with
  | nil => cases h
  | cons v vs =>
      cases h
      have hAll := foldl_record (v :: vs) (zero buckets) (List.length_replicate ..)
      rw [List.foldl_cons] at hAll
      have hZero : (zero buckets).counts = buckets.map fun _ => 0 := by simp [zero]
      have hCounts : List.zipWith (fun bound n => n + (v :: vs).countP (· ≤ bound)) buckets
          (zero buckets).counts = buckets.map fun bound => (v :: vs).countP (· ≤ bound) := by
        rw [hZero, List.zipWith_map_right, List.zipWith_self]
        simp only [Nat.zero_add]
      rw [hCounts] at hAll
      simpa [zero, update] using hAll

variable [NatCast V]

/-- The lines of a tuple show for each bound how many of its observations are within it,
and their sum and count. -/
def reading (fmt : NumberFormat V) (d : Descriptor) (buckets : List V) (updates : List (Labels × V))
    (t : List String) : List (Sample V) :=
  let observed := valuesOf d.labelNames updates t
  block fmt d buckets t {
    counts := buckets.map fun bound => observed.countP (· ≤ bound)
    sum := observed.foldl (· + ·) 0
    count := observed.length }

/-- The exposed histogram tells each tuple's observations exactly while the tuples are kept
apart. -/
theorem readsAs_iff (fmt : NumberFormat V) (d : Descriptor) (buckets : List V)
    (updates : List (Labels × V)) :
    ReadsAs fmt
        (render fmt d buckets (updates.foldl (fun series u => observe buckets d series u.1 u.2) .empty))
        (updates.map fun u => tuple d.labelNames u.1) (reading fmt d buckets updates) ↔
      Apart d.labelNames (updates.map Prod.fst) := by
  apply Metrics.readsAs_iff marks_block (parse_render (run (update buckets) d.labelNames updates))
  intro t s hTotal
  rw [total_update _ _ hTotal]
  rfl

end observe
end Histogram

/-- Whatever is given to an instrument, its text reads as one series for each tuple of label
values, with what was given for the tuple, exactly when tuples that differ have keys
that differ. -/
theorem series_apart_iff [Add V] [Zero V] [NatCast V] [LE V] [DecidableLE V] (fmt : NumberFormat V)
    (d : Descriptor) (buckets : List V) :
    (∀ updates : List (Labels × V),
      ReadsAs fmt (Counter.render fmt d
          (updates.foldl (fun series u => Counter.inc d series u.1 u.2) .empty))
        (updates.map fun u => tuple d.labelNames u.1) (Counter.reading d updates) ↔
      Apart d.labelNames (updates.map Prod.fst)) ∧
    (∀ actions : List (Gauge.Action V),
      ReadsAs fmt (Gauge.render fmt d (actions.foldl (Gauge.act d) .empty))
        ((Gauge.sinceReset actions).map fun u => tuple d.labelNames u.1)
        (Gauge.reading d (Gauge.sinceReset actions)) ↔
      Apart d.labelNames ((Gauge.sinceReset actions).map Prod.fst)) ∧
    ∀ updates : List (Labels × V),
      ReadsAs fmt (Histogram.render fmt d buckets
          (updates.foldl (fun series u => Histogram.observe buckets d series u.1 u.2) .empty))
        (updates.map fun u => tuple d.labelNames u.1) (Histogram.reading fmt d buckets updates) ↔
      Apart d.labelNames (updates.map Prod.fst) :=
  ⟨Counter.readsAs_iff fmt d, Gauge.readsAs_iff fmt d, Histogram.readsAs_iff fmt d buckets⟩

namespace Sample

/-- Natural numbers with their decimal digits. -/
def decimal : NumberFormat Nat where
  spell := Nat.toDigits 10
  read digits := if digits.all Char.isDigit then some (Decimal.value digits) else none
  read_spell n := by
    have hDigits : (Nat.toDigits 10 n).all Char.isDigit = true :=
      List.all_eq_true.mpr (Decimal.digits_toDigits n)
    rw [if_pos hDigits, Decimal.value_toDigits]
  plain n hMem := by
    have hDigit := Decimal.digits_toDigits n _ hMem
    cases hDigit

def requests : Descriptor where
  name := "requests_total"
  help := "requests"
  labelNames := ["method", "route"]
  name_valid := by decide
  help_line := by decide
  labels_valid := by decide

def first : Labels := [("method", "GET|route=/a"), ("route", "/b")]

def second : Labels := [("method", "GET"), ("route", "/a|route=/b")]

end Sample

/-- Two tuples of label values of one counter have one key. The second one is counted
under the first. -/
theorem series_merged :
    tuple Sample.requests.labelNames Sample.first ≠ tuple Sample.requests.labelNames Sample.second ∧
    parse Sample.decimal (Counter.render Sample.decimal Sample.requests
      ([(Sample.first, 1), (Sample.second, 1)].foldl
        (fun series u => Counter.inc Sample.requests series u.1 u.2) .empty)) =
      some [⟨"requests_total".toList, [("method".toList, "GET|route=/a".toList),
        ("route".toList, "/b".toList)], 2⟩] ∧
    ¬ReadsAs Sample.decimal (Counter.render Sample.decimal Sample.requests
        ([(Sample.first, 1), (Sample.second, 1)].foldl
          (fun series u => Counter.inc Sample.requests series u.1 u.2) .empty))
      ([(Sample.first, 1), (Sample.second, 1)].map fun u => tuple Sample.requests.labelNames u.1)
      (Counter.reading Sample.requests [(Sample.first, 1), (Sample.second, 1)]) := by
  have hDiffer : tuple Sample.requests.labelNames Sample.first ≠
      tuple Sample.requests.labelNames Sample.second := by decide
  refine ⟨hDiffer, by decide +kernel, ?_⟩
  rw [Counter.readsAs_iff]
  intro hApart
  exact hDiffer (hApart _ (by simp) _ (by simp) (by decide +kernel))

end VpnPayment.Metrics
