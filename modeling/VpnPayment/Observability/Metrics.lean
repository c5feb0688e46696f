import VpnPayment.Collections.Table
import VpnPayment.Observability.PrometheusText

/-! Counters, gauges and histograms, and the text they render. -/
namespace VpnPayment.Metrics

open Collections PrometheusText

/-- `Record<string, string>` -/
abbrev Labels := List (String × String)

/-- `labels[n] ?? ''` -/
def labelValue (labels : Labels) (n : String) : String :=
  (labels.lookup n).getD ""

/-- `s.replace(/c/g, ...)` -/
def replaceAll (c : Char) (substitute : Text) (s : Text) : Text :=
  s.flatMap fun c' => if c' = c then substitute else [c']

def escapeLabelValue (v : Text) : Text :=
  replaceAll '"' ['\\', '"'] (replaceAll '\n' ['\\', 'n'] (replaceAll '\\' ['\\', '\\'] v))

def seriesKey (labelNames : List String) (labels : Labels) : String :=
  "|".intercalate (labelNames.map fun n => n ++ "=" ++ labelValue labels n)

def renderLabel (n v : Text) : Text :=
  n ++ '=' :: '"' :: escapeLabelValue v ++ ['"']

def renderLabels (labelNames : List String) (labels : Labels) (extra : Option (Text × Text)) : Text :=
  let parts := labelNames.map fun n => renderLabel n.toList (labelValue labels n).toList
  let parts := match extra with
    | some (n, v) => parts ++ [renderLabel n v]
    | none => parts
  if parts.length = 0 then [] else '{' :: List.intercalate [','] parts ++ ['}']

/-- What an instrument is created with. The names are ones of the format, and the help
text is one line. -/
structure Descriptor where
  name : String
  help : String
  labelNames : List String
  name_valid : metricName name.toList = true
  help_line : '\n' ∉ help.toList
  labels_valid : ∀ n ∈ labelNames, labelName n.toList = true

structure Series (S : Type) where
  labels : Labels
  state : S

/-- `Map<string, ...>` -/
abbrev SeriesMap (S : Type) := Table (String × Series S) Prod.fst

/-- What the update of an instrument does to a series: how one starts, how it goes on, and
whether it takes the labels of the update. -/
structure Update (V S : Type) where
  start : V → S
  next : S → V → S
  relabels : Bool

variable {V S : Type}

/-- An update goes to the series with the key of its labels. -/
def touch (update : Update V S) (labelNames : List String) (series : SeriesMap S) (labels : Labels)
    (value : V) : SeriesMap S :=
  let key := seriesKey labelNames labels
  match series.get? key with
  | some (_, cur) =>
      series.put (key, ⟨if update.relabels then labels else cur.labels, update.next cur.state value⟩)
  | none => series.put (key, ⟨labels, update.start value⟩)

/-- The first two lines of an instrument. -/
def header (d : Descriptor) (type : String) : List Text :=
  ["# HELP ".toList ++ d.name.toList ++ ' ' :: d.help.toList,
    "# TYPE ".toList ++ d.name.toList ++ ' ' :: type.toList]

def joinLines (lines : List Text) : Text :=
  List.intercalate ['\n'] lines

/-- A line of a series. -/
def line (fmt : NumberFormat V) (d : Descriptor) (suffix : String) (labels : Labels)
    (extra : Option (Text × Text)) (value : V) : Text :=
  d.name.toList ++ suffix.toList ++ renderLabels d.labelNames labels extra ++ ' ' :: fmt.spell value

namespace Counter

def update [Add V] : Update V V where
  start value := value
  next cur value := cur + value
  relabels := false

def inc [Add V] (d : Descriptor) (series : SeriesMap V) (labels : Labels) (value : V) : SeriesMap V :=
  touch update d.labelNames series labels value

def render (fmt : NumberFormat V) (d : Descriptor) (series : SeriesMap V) : Text :=
  joinLines (header d "counter" ++ series.rows.map fun (_, s) =>
    line fmt d "" s.labels none s.state)

end Counter

namespace Gauge

def update : Update V V where
  start value := value
  next _ value := value
  relabels := true

def set (d : Descriptor) (series : SeriesMap V) (labels : Labels) (value : V) : SeriesMap V :=
  touch update d.labelNames series labels value

/-- Replace all series. -/
def reset (_ : SeriesMap V) : SeriesMap V := .empty

def render (fmt : NumberFormat V) (d : Descriptor) (series : SeriesMap V) : Text :=
  joinLines (header d "gauge" ++ series.rows.map fun (_, s) =>
    line fmt d "" s.labels none s.state)

end Gauge

structure HistogramState (V : Type) where
  counts : List Nat
  sum : V
  count : Nat

namespace Histogram

section observe

variable [Add V] [Zero V] [LE V] [DecidableLE V] (buckets : List V)

def record (s : HistogramState V) (value : V) : HistogramState V where
  counts := List.zipWith (fun bound n => if value ≤ bound then n + 1 else n) buckets s.counts
  sum := s.sum + value
  count := s.count + 1

def zero : HistogramState V where
  counts := List.replicate buckets.length 0
  sum := 0
  count := 0

def update : Update V (HistogramState V) where
  start value := record buckets (zero buckets) value
  next := record buckets
  relabels := false

def observe (d : Descriptor) (series : SeriesMap (HistogramState V)) (labels : Labels) (value : V) :
    SeriesMap (HistogramState V) :=
  touch (update buckets) d.labelNames series labels value

end observe

variable [NatCast V]

def le (value : Text) : Option (Text × Text) :=
  some ("le".toList, value)

def render (fmt : NumberFormat V) (d : Descriptor) (buckets : List V)
    (series : SeriesMap (HistogramState V)) : Text :=
  joinLines (header d "histogram" ++ series.rows.flatMap fun (_, s) =>
    List.zipWith (fun bound (n : Nat) =>
      line fmt d "_bucket" s.labels (le (fmt.spell bound)) n) buckets s.state.counts ++
    [line fmt d "_bucket" s.labels (le "+Inf".toList) s.state.count,
      line fmt d "_sum" s.labels none s.state.sum,
      line fmt d "_count" s.labels none s.state.count])

end Histogram
end VpnPayment.Metrics
