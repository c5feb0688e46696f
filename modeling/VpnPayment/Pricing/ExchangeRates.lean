import VpnPayment.Collections.Table
import VpnPayment.Domain.Types

/-! Exchange rates: the static table, the feed over HTTP and the provider that keeps
the last table of the feed. A number is what it compares as; what a lookup throws is
which check threw. -/
namespace VpnPayment

open Collections

/-- What a JSON text spells. An array is the object of its indices. -/
inductive JsonValue
  | null
  | boolean (b : Bool)
  | number (n : Magnitude)
  | string (s : String)
  | object (members : List (String × JsonValue))

/-- The own properties of an object, in their order. -/
abbrev Properties (V : Type) : Type := Table (String × V) Prod.fst

namespace Properties

variable {V : Type}

/-- What every object inherits. These names are never undefined. -/
def inherited : List String :=
  ["constructor", "__defineGetter__", "__defineSetter__", "hasOwnProperty", "__lookupGetter__",
    "__lookupSetter__", "isPrototypeOf", "propertyIsEnumerable", "toString", "valueOf",
    "__proto__", "toLocaleString"]

def defined (props : Properties V) (name : String) : Bool :=
  props.has name || inherited.contains name

/-- `out[name] = value`; the prototype is no own property. -/
def assign (props : Properties V) (name : String) (value : V) : Properties V :=
  if name = "__proto__" then props else props.put (name, value)

/-- `if (table[name] === undefined) table[name] = value`. -/
def withDefault (props : Properties V) (name : String) (value : V) : Properties V :=
  if props.defined name then props else props.put (name, value)

end Properties

inductive RateError
  | thrown (message : String)
  | status (code : Nat)
  | syntaxError
  | notAnObject
  | invalidRate (currency : String)
  | unknownCurrency (currency : String)
deriving DecidableEq

/-- A provider backed by a fixed table of positive rates relative to one base. -/
structure StaticExchangeRateProvider where
  baseCurrency : String
  ratesFromBase : Properties ℚ
  positive : ∀ row ∈ ratesFromBase.rows, 0 < row.2

namespace StaticExchangeRateProvider

/-- A valid rate is finite and positive. -/
def validRate : Magnitude → Option ℚ
  | .finite q => if 0 < q then some q else none
  | _ => none

/-- The rows of a table, if all of them are valid. -/
def checkRates : List (String × Magnitude) → Except RateError (List (String × ℚ))
  | [] => .ok []
  | row :: rows =>
      match validRate row.2 with
      | none => .error (.invalidRate row.1)
      | some q => (checkRates rows).map fun rest => (row.1, q) :: rest

theorem checkRates_spec {rows : List (String × Magnitude)} {rates : List (String × ℚ)}
    (h : checkRates rows = .ok rates) :
    rates.map Prod.fst = rows.map Prod.fst ∧ ∀ row ∈ rates, 0 < row.2 := by
  induction rows generalizing rates with
  | nil =>
      cases h
      exact ⟨rfl, by simp⟩
  | cons row rows ih =>
      rw [checkRates] at h
      cases hValid : validRate row.2 with
      | none =>
          rw [hValid] at h
          cases h
      | some q =>
          rw [hValid] at h
          cases hRest : checkRates rows with
          | error e =>
              rw [hRest] at h
              cases h
          | ok rest =>
              rw [hRest] at h
              cases h
              obtain ⟨hNames, hPositive⟩ := ih hRest
              refine ⟨by rw [List.map_cons, List.map_cons, hNames], ?_⟩
              have hHead : 0 < q := by
                unfold validRate at hValid
                split at hValid
                · split at hValid
                  · next hPos =>
                      cases hValid
                      exact hPos
                  · cases hValid
                · cases hValid
              exact List.forall_mem_cons.mpr ⟨hHead, hPositive⟩

def ofTable (baseCurrency : String) (table : Properties Magnitude) :
    Except RateError StaticExchangeRateProvider :=
  match h : checkRates table.rows with
  | .error e => .error e
  | .ok rates => .ok {
      baseCurrency
      ratesFromBase := ⟨rates, (checkRates_spec h).1 ▸ table.nodup⟩
      positive := (checkRates_spec h).2 }

/-- The constructor. -/
def new (baseCurrency : String) (ratesFromBase : Properties Magnitude) :
    Except RateError StaticExchangeRateProvider :=
  ofTable baseCurrency (ratesFromBase.withDefault baseCurrency (.finite 1))

/-- The rate of a currency; an inherited property is found too, and is no number. -/
def lookup (p : StaticExchangeRateProvider) (currency : String) : Except RateError (Option ℚ) :=
  if p.ratesFromBase.defined currency then .ok ((p.ratesFromBase.get? currency).map Prod.snd)
  else .error (.unknownCurrency currency)

def rate (p : StaticExchangeRateProvider) (fromCurrency toCurrency : String) :
    Except RateError Magnitude := do
  if fromCurrency = toCurrency then
    let _ ← p.lookup fromCurrency
    pure (.finite 1)
  else
    let numerator ← p.lookup toCurrency
    let denominator ← p.lookup fromCurrency
    match numerator, denominator with
    | some a, some b => pure (.finite (a / b))
    | _, _ => pure .nan

end StaticExchangeRateProvider

/-- What a request of the feed comes to: it throws, or a response with a status and
what its body spells, if it is no syntax error. -/
inductive FeedOutcome
  | thrown (message : String)
  | response (status : Nat) (body : Option JsonValue)

namespace HttpRateFeed

/-- The object that `JSON.parse` builds: of members with one name the last one counts, in the
place of the first. -/
def parsed (members : List (String × JsonValue)) : Properties JsonValue :=
  members.foldl Table.put .empty

example : (parsed [("JPY", .null), ("EUR", .null), ("JPY", .boolean true)]).rows =
    [("JPY", .boolean true), ("EUR", .null)] := rfl

def defaultParse (body : Option JsonValue) (base : String) :
    Except RateError (Properties Magnitude) :=
  match body with
  | none => .error .syntaxError
  | some (.object obj) =>
      let source := match (parsed obj).get? "rates" with
        | some (_, .object rates) => parsed rates
        | _ => parsed obj
      let out : Properties Magnitude := source.rows.foldl (fun out member =>
        match member.2 with
        | .number (.finite q) => out.assign member.1 (.finite q)
        | _ => out) .empty
      .ok (out.withDefault base (.finite 1))
  | some _ => .error .notAnObject

def fetchRates (base : String) : FeedOutcome → Except RateError (Properties Magnitude)
  | .thrown message => .error (.thrown message)
  | .response status body =>
      if status < 200 ∨ 300 ≤ status then .error (.status status) else defaultParse body base

end HttpRateFeed

/-- The state of the caching provider. -/
structure CachingExchangeRateProvider where
  base : String
  fallback : StaticExchangeRateProvider
  cached : Option StaticExchangeRateProvider
  lastRefreshAt : Option Int

namespace CachingExchangeRateProvider

def new (base : String) (fallback : StaticExchangeRateProvider) : CachingExchangeRateProvider :=
  ⟨base, fallback, none, none⟩

def rate (p : CachingExchangeRateProvider) (fromCurrency toCurrency : String) :
    Except RateError Magnitude :=
  (p.cached.getD p.fallback).rate fromCurrency toCurrency

/-- The `try` block of `refresh`. -/
def tryRefresh (p : CachingExchangeRateProvider) (outcome : FeedOutcome) (now : Int) :
    Except RateError CachingExchangeRateProvider := do
  let rates ← HttpRateFeed.fetchRates p.base outcome
  let cached ← StaticExchangeRateProvider.new p.base (rates.withDefault p.base (.finite 1))
  pure { p with cached := some cached, lastRefreshAt := some now }

/-- Fetch rates and rebuild the table. What the block throws is logged. -/
def refresh (p : CachingExchangeRateProvider) (outcome : FeedOutcome) (now : Int) :
    Except RateError (CachingExchangeRateProvider × Bool) :=
  match p.tryRefresh outcome now with
  | .ok refreshed => .ok (refreshed, true)
  | .error _ => .ok (p, false)

/-- The provider after a refresh for every outcome of the feed, the newest first. -/
def refreshes (base : String) (fallback : StaticExchangeRateProvider) :
    List (FeedOutcome × Int) → Except RateError CachingExchangeRateProvider
  | [] => .ok (new base fallback)
  | (outcome, now) :: older => do
      let p ← refreshes base fallback older
      let r ← p.refresh outcome now
      pure r.1

end CachingExchangeRateProvider

section tables

variable {V : Type} {props : Properties V} {name : String}

theorem Properties.defined_withDefault (props : Properties V) (name : String) (value : V) :
    (props.withDefault name value).defined name = true := by
  unfold withDefault
  split
  · next hDefined => exact hDefined
  · simp [defined, Table.has]

theorem Properties.withDefault_of_defined (h : props.defined name = true) (value : V) :
    props.withDefault name value = props :=
  if_pos h

/-- Tables with the same names define the same names. -/
theorem Properties.defined_congr {W : Type} {other : Properties W}
    (h : props.rows.map Prod.fst = other.rows.map Prod.fst) (name : String) :
    props.defined name = other.defined name := by
  have hHas : ∀ {U : Type} (t : Properties U), t.has name = decide (name ∈ t.rows.map Prod.fst) := by
    intro U t
    by_cases hMem : name ∈ t.rows.map Prod.fst
    · obtain ⟨row, hRow, rfl⟩ := List.mem_map.mp hMem
      rw [Table.has, Table.get?_of_mem hRow, decide_eq_true hMem]
      rfl
    · have hNone : t.get? name = none :=
        Table.get?_eq_none_iff.mpr fun row hRow hKey => hMem (List.mem_map.mpr ⟨row, hRow, hKey⟩)
      rw [Table.has, hNone, decide_eq_false hMem]
      rfl
  rw [defined, defined, hHas props, hHas other, h]

namespace StaticExchangeRateProvider

/-- The constructor takes a table whose rates are all valid, and keeps its names. -/
theorem new_spec {base : String} {table : Properties Magnitude} (hBase : table.defined base = true) :
    if ∀ row ∈ table.rows, (validRate row.2).isSome then
      ∃ p, new base table = .ok p ∧ ∀ c, p.ratesFromBase.defined c = table.defined c
    else ∃ e, new base table = .error e := by
  have hCheck : ∀ rows : List (String × Magnitude),
      if ∀ row ∈ rows, (validRate row.2).isSome then ∃ rates, checkRates rows = .ok rates
      else ∃ e, checkRates rows = .error e := by
    intro rows
    induction rows with
    | nil => exact ⟨[], rfl⟩
    | cons row rows ih =>
        rw [checkRates]
        cases hValid : validRate row.2 with
        | none =>
            rw [if_neg (by simp [hValid])]
            exact ⟨_, rfl⟩
        | some q =>
            simp only [List.forall_mem_cons, hValid, Option.isSome_some, true_and]
            split
            · next hAll =>
                rw [if_pos hAll] at ih
                obtain ⟨rates, hRates⟩ := ih
                exact ⟨_, by rw [hRates]; rfl⟩
            · next hSome =>
                rw [if_neg hSome] at ih
                obtain ⟨e, hError⟩ := ih
                exact ⟨e, by rw [hError]; rfl⟩
  have hTable := hCheck table.rows
  rw [new, Properties.withDefault_of_defined hBase]
  unfold ofTable
  split
  · next hAll =>
      rw [if_pos hAll] at hTable
      obtain ⟨rates, hRates⟩ := hTable
      split
      · next hError =>
          rw [hRates] at hError
          cases hError
      · next found hFound =>
          exact ⟨_, rfl, Properties.defined_congr (checkRates_spec hFound).1⟩
  · next hSome =>
      rw [if_neg hSome] at hTable
      obtain ⟨e, hError⟩ := hTable
      split
      · exact ⟨_, rfl⟩
      · next found hFound =>
          rw [hError] at hFound
          cases hFound

/-- A rate is answered exactly for currencies the table defines. -/
theorem rate_ok_iff (p : StaticExchangeRateProvider) (a b : String) :
    (∃ r, p.rate a b = .ok r) ↔
      p.ratesFromBase.defined a = true ∧ p.ratesFromBase.defined b = true := by
  have hFound : ∀ c, p.ratesFromBase.defined c = true →
      p.lookup c = .ok ((p.ratesFromBase.get? c).map Prod.snd) := fun c h => if_pos h
  have hUnknown : ∀ c, ¬p.ratesFromBase.defined c = true →
      p.lookup c = .error (.unknownCurrency c) := fun c h => if_neg h
  unfold rate
  by_cases hB : p.ratesFromBase.defined b = true
  · by_cases hA : p.ratesFromBase.defined a = true
    · refine ⟨fun _ => ⟨hA, hB⟩, fun _ => ?_⟩
      rw [hFound a hA, hFound b hB]
      simp only [bind, Except.bind]
      split
      · exact ⟨_, rfl⟩
      · split
        · exact ⟨_, rfl⟩
        · exact ⟨_, rfl⟩
    · refine ⟨fun h => ?_, fun h => absurd h.1 hA⟩
      obtain ⟨r, hr⟩ := h
      rw [hUnknown a hA, hFound b hB] at hr
      simp only [bind, Except.bind, ite_self] at hr
      cases hr
  · refine ⟨fun h => ?_, fun h => absurd h.2 hB⟩
    obtain ⟨r, hr⟩ := h
    by_cases hSame : a = b
    · rw [if_pos hSame, hSame, hUnknown b hB] at hr
      cases hr
    · rw [if_neg hSame, hUnknown b hB] at hr
      cases hr

end StaticExchangeRateProvider

/-- The feed names its base. -/
theorem HttpRateFeed.defined_base {base : String} {outcome : FeedOutcome}
    {table : Properties Magnitude} (h : fetchRates base outcome = .ok table) :
    table.defined base = true := by
  unfold fetchRates at h
  split at h
  · cases h
  · split at h
    · cases h
    · unfold defaultParse at h
      split at h
      · cases h
      · cases h
        exact Properties.defined_withDefault _ _ _
      · cases h

end tables

namespace CachingExchangeRateProvider

/-- The table the feed delivers, if it delivers one and all its rates are valid. -/
def delivered (base : String) (outcome : FeedOutcome) : Option (Properties Magnitude) :=
  match HttpRateFeed.fetchRates base outcome with
  | .ok table =>
      if ∀ row ∈ table.rows, (StaticExchangeRateProvider.validRate row.2).isSome then some table
      else none
  | .error _ => none

/-- The last table the feed delivered. -/
def latest (base : String) (history : List (FeedOutcome × Int)) : Option (Properties Magnitude) :=
  history.findSome? fun entry => delivered base entry.1

/-- No refresh threw, and every pair of currencies of the fallback table has a rate. -/
def Available (base : String) (fallback : StaticExchangeRateProvider)
    (history : List (FeedOutcome × Int)) : Prop :=
  ∃ p, refreshes base fallback history = .ok p ∧
    ∀ a b, fallback.ratesFromBase.has a = true → fallback.ratesFromBase.has b = true →
      ∃ r, p.rate a b = .ok r

variable {base : String} {fallback : StaticExchangeRateProvider}

/-- A refresh changes the table exactly when the feed delivers one. -/
theorem refresh_spec (p : CachingExchangeRateProvider) (outcome : FeedOutcome) (now : Int) :
    match delivered p.base outcome with
    | some table => ∃ cached, p.refresh outcome now =
        .ok ({ p with cached := some cached, lastRefreshAt := some now }, true) ∧
          ∀ c, cached.ratesFromBase.defined c = table.defined c
    | none => p.refresh outcome now = .ok (p, false) := by
  unfold delivered refresh tryRefresh
  cases hFetch : HttpRateFeed.fetchRates p.base outcome with
  | error e => rfl
  | ok table =>
      have hBase := HttpRateFeed.defined_base hFetch
      have hNew := StaticExchangeRateProvider.new_spec hBase
      dsimp only
      split at hNew
      · next hAll =>
          obtain ⟨cached, hCached, hNames⟩ := hNew
          rw [if_pos hAll]
          refine ⟨cached, ?_, hNames⟩
          simp only [bind, Except.bind, Properties.withDefault_of_defined hBase, hCached, pure,
            Except.pure]
      · next hSome =>
          obtain ⟨e, hError⟩ := hNew
          rw [if_neg hSome]
          simp only [bind, Except.bind, Properties.withDefault_of_defined hBase, hError]

/-- The provider holds the last table that was delivered. -/
theorem refreshes_spec (base : String) (fallback : StaticExchangeRateProvider)
    (history : List (FeedOutcome × Int)) : ∃ p, refreshes base fallback history = .ok p ∧
      p.base = base ∧ p.fallback = fallback ∧
      match latest base history with
      | some table => ∃ cached, p.cached = some cached ∧
          ∀ c, cached.ratesFromBase.defined c = table.defined c
      | none => p.cached = none := by
  induction history with
  | nil => exact ⟨_, rfl, rfl, rfl, rfl⟩
  | cons entry older ih =>
      obtain ⟨outcome, now⟩ := entry
      obtain ⟨p, hRun, hBase, hFallback, hCached⟩ := ih
      have hStep := refresh_spec p outcome now
      rw [refreshes, hRun, latest, List.findSome?_cons]
      rw [hBase] at hStep
      cases hDelivered : delivered base outcome with
      | some table =>
          rw [hDelivered] at hStep
          obtain ⟨cached, hRefresh, hNames⟩ := hStep
          refine ⟨{ p with cached := some cached, lastRefreshAt := some now }, ?_, hBase, hFallback,
            cached, rfl, hNames⟩
          simp only [bind, Except.bind, hRefresh, pure, Except.pure, hBase]
      | none =>
          rw [hDelivered] at hStep
          refine ⟨p, ?_, hBase, hFallback, hCached⟩
          simp only [bind, Except.bind, hStep, pure, Except.pure]

/-- Every rate of the fallback stays available exactly while the last table that was
delivered defines every currency of the fallback. -/
theorem available_iff (base : String) (fallback : StaticExchangeRateProvider)
    (history : List (FeedOutcome × Int)) : Available base fallback history ↔
      ∀ table, latest base history = some table →
        ∀ c, fallback.ratesFromBase.has c = true → table.defined c = true := by
  obtain ⟨p, hRun, -, hFallback, hCached⟩ := refreshes_spec base fallback history
  unfold Available
  rw [hRun]
  constructor
  · intro h table hTable c hHas
    obtain ⟨q, hq, hRates⟩ := h
    cases hq
    rw [hTable] at hCached
    obtain ⟨cached, hSome, hNames⟩ := hCached
    have hRate := hRates c c hHas hHas
    rw [rate, hSome, Option.getD_some, StaticExchangeRateProvider.rate_ok_iff] at hRate
    rw [← hNames]
    exact hRate.1
  · intro hCovers
    refine ⟨p, rfl, fun a b hA hB => ?_⟩
    cases hLatest : latest base history with
    | some table =>
        rw [hLatest] at hCached
        obtain ⟨cached, hSome, hNames⟩ := hCached
        rw [rate, hSome, Option.getD_some, StaticExchangeRateProvider.rate_ok_iff, hNames, hNames]
        exact ⟨hCovers table hLatest a hA, hCovers table hLatest b hB⟩
    | none =>
        rw [hLatest] at hCached
        rw [rate, hCached, Option.getD_none, StaticExchangeRateProvider.rate_ok_iff, hFallback]
        simp [Properties.defined, hA, hB]

/-- A fallback table of two currencies. -/
def sampleFallback : StaticExchangeRateProvider where
  baseCurrency := "CNY"
  ratesFromBase := ⟨[("CNY", 1), ("JPY", 20)], by decide⟩
  positive := by decide

/-- The feed answers an error object. -/
def quotaExceeded : FeedOutcome :=
  .response 200 (some (.object [("error", .string "quota exceeded")]))

theorem rate_lost_after_error_body :
    ¬∀ base fallback history, Available base fallback history := by
  intro hAll
  obtain ⟨p, hRun, hRates⟩ := hAll "CNY" sampleFallback [(quotaExceeded, 0)]
  obtain ⟨r, hr⟩ := hRates "JPY" "CNY" (by decide) (by decide)
  have hLost : (refreshes "CNY" sampleFallback [(quotaExceeded, 0)]).bind (fun p =>
      p.rate "JPY" "CNY") = .error (.unknownCurrency "JPY") := by
    decide +kernel
  rw [hRun] at hLost
  have hError : p.rate "JPY" "CNY" = .error (.unknownCurrency "JPY") := hLost
  rw [hr] at hError
  cases hError

end CachingExchangeRateProvider
end VpnPayment
