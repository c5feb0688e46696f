import VpnPayment.Collections.Table

/-! The lock of a single process. Every call of `withLock` appends a promise to
the chain of its key. The order in which the continuations of settled promises
run is left open, and calls may arrive between any two of them. -/
namespace VpnPayment

open Collections

/-- The promise `mine = prev.then(() => gate)` of a call. It is pending until
`prev` is fulfilled, then it follows `gate`. -/
inductive Mine
  | chained | adopting | fulfilled
deriving DecidableEq

/-- How far the body of a call has run. It awaits `prev.catch`, then it awaits
its callback, and it settles with what the callback settled with. -/
inductive Turn (Err α : Type)
  | waiting
  | caught
  | running
  | returning (result : Except Err α)
  | settled (result : Except Err α)

/-- One call of `withLock`. `prev` names the call whose promise was the tail of
the key, `none` when the key had no tail. -/
structure LockCall (Err α : Type) where
  key : String
  prev : Option Nat
  gate : Bool
  mine : Mine
  turn : Turn Err α

/-- The locker, with every call made so far in the order of the calls. A tail
is the number of the call that set it. -/
structure InProcessLocker (Err α : Type) where
  tails : Table (String × Nat) Prod.fst
  calls : List (LockCall Err α)

/-- The continuations of one call. -/
inductive LockJob
  | chain | adopt | catch | enter | leave
deriving DecidableEq

/-- What can happen next: a new call, a continuation of a call, one step of a
running callback, or its end. -/
inductive LockStep (Err α : Type)
  | withLock (key : String)
  | resume (n : Nat) (job : LockJob)
  | work (n : Nat)
  | finish (n : Nat) (result : Except Err α)

variable {Err α : Type}

namespace Turn

def started : Turn Err α → Bool
  | waiting | caught => false
  | running | returning _ | settled _ => true

/-- What the callback settled with. -/
def result? : Turn Err α → Option (Except Err α)
  | returning result | settled result => some result
  | waiting | caught | running => none

def isSettled : Turn Err α → Bool
  | settled _ => true
  | waiting | caught | running | returning _ => false

end Turn

/-- The continuation of the call has run. -/
def LockCall.past (c : LockCall Err α) : LockJob → Bool
  | .chain => decide (c.mine ≠ .chained)
  | .adopt => decide (c.mine = .fulfilled)
  | .catch => match c.turn with
      | .waiting => false
      | _ => true
  | .enter => c.turn.started
  | .leave => c.turn.isSettled

namespace InProcessLocker

def empty : InProcessLocker Err α :=
  ⟨.empty, []⟩

/-- The promise a call waits for. -/
def fulfilled (s : InProcessLocker Err α) : Option Nat → Bool
  | none => true
  | some m => s.calls[m]?.any fun c => decide (c.mine = .fulfilled)

/-- The call after one of its continuations, when that continuation can run. -/
def resumed (s : InProcessLocker Err α) (c : LockCall Err α) : LockJob → Option (LockCall Err α)
  | .chain => if c.mine = .chained ∧ s.fulfilled c.prev then some { c with mine := .adopting } else none
  | .adopt => if c.mine = .adopting ∧ c.gate then some { c with mine := .fulfilled } else none
  | .catch => match c.turn with
      | .waiting => if s.fulfilled c.prev then some { c with turn := .caught } else none
      | _ => none
  | .enter => match c.turn with
      | .caught => some { c with turn := .running }
      | _ => none
  | .leave => match c.turn with
      | .returning result => some { c with gate := true, turn := .settled result }
      | _ => none

/-- The cleanup of a call that leaves: its own tail is dropped. -/
def tailsAfter (s : InProcessLocker Err α) (n : Nat) (key : String) :
    LockJob → Table (String × Nat) Prod.fst
  | .leave => if (s.tails.get? key).map Prod.snd = some n then s.tails.delete key else s.tails
  | _ => s.tails

def step (s : InProcessLocker Err α) : LockStep Err α → Option (InProcessLocker Err α)
  | .withLock key => some
      ⟨s.tails.put (key, s.calls.length),
        s.calls ++ [⟨key, (s.tails.get? key).map Prod.snd, false, .chained, .waiting⟩]⟩
  | .resume n job => s.calls[n]?.bind fun c => (s.resumed c job).map fun c' =>
      ⟨s.tailsAfter n c.key job, s.calls.set n c'⟩
  | .work n => s.calls[n]?.bind fun c => match c.turn with
      | .running => some s
      | _ => none
  | .finish n result => s.calls[n]?.bind fun c => match c.turn with
      | .running => some ⟨s.tails, s.calls.set n { c with turn := .returning result }⟩
      | _ => none

/-- Any interleaving of calls, continuations and callbacks. -/
inductive Run : List (LockStep Err α) → InProcessLocker Err α → Prop
  | start : Run [] empty
  | tail {steps : List (LockStep Err α)} {s s' : InProcessLocker Err α} {st : LockStep Err α}
      (prior : Run steps s) (last : s.step st = some s') : Run (steps ++ [st]) s'

/-- The continuation can run now. -/
def due (s : InProcessLocker Err α) (n : Nat) (job : LockJob) : Bool :=
  s.calls[n]?.any fun c => (s.resumed c job).isSome

end InProcessLocker

namespace LockStep

def job? : LockStep Err α → Option (Nat × LockJob)
  | resume n job => some (n, job)
  | withLock _ | work _ | finish _ _ => none

/-- The key of a new call. -/
def called? : LockStep Err α → Option String
  | withLock key => some key
  | resume _ _ | work _ | finish _ _ => none

/-- The result of the callback of call `n`. -/
def resultOf? (n : Nat) : LockStep Err α → Option (Except Err α)
  | finish m result => if m = n then some result else none
  | withLock _ | resume _ _ | work _ => none

end LockStep

/-- The continuations run so far, oldest first. -/
def jobs (steps : List (LockStep Err α)) : List (Nat × LockJob) :=
  steps.filterMap LockStep.job?

/-- The keys that `withLock` was called with, oldest call first. -/
def called (steps : List (LockStep Err α)) : List String :=
  steps.filterMap LockStep.called?

/-- The calls whose callbacks were started, in that order. -/
def entered (steps : List (LockStep Err α)) : List Nat :=
  (jobs steps).filterMap fun j => if j.2 = .enter then some j.1 else none

/-- What the callback of call `n` has settled with, each time it did. -/
def results (n : Nat) (steps : List (LockStep Err α)) : List (Except Err α) :=
  steps.filterMap (LockStep.resultOf? n)

namespace InProcessLocker

variable {s s' : InProcessLocker Err α} {n m i j : Nat} {c c' : LockCall Err α}
  {key : String} {job : LockJob} {steps : List (LockStep Err α)} {st : LockStep Err α}

/-- What a step does to the call it is about. -/
inductive Moves (s : InProcessLocker Err α) (n : Nat) (c : LockCall Err α) :
    LockStep Err α → LockCall Err α → Prop
  | resume {job : LockJob} {c' : LockCall Err α} (h : s.resumed c job = some c') :
      Moves s n c (.resume n job) c'
  | work (h : c.turn = .running) : Moves s n c (.work n) c
  | finish {result : Except Err α} (h : c.turn = .running) :
      Moves s n c (.finish n result) { c with turn := .returning result }

/-- The tails after a step that is not a new call. -/
def tailsFor (s : InProcessLocker Err α) (n : Nat) (key : String) :
    LockStep Err α → Table (String × Nat) Prod.fst
  | .resume _ job => s.tailsAfter n key job
  | _ => s.tails

/-- A step makes a new call or moves one call. -/
theorem step_cases (h : s.step st = some s') :
    (∃ key, st = .withLock key ∧ s' =
      ⟨s.tails.put (key, s.calls.length),
        s.calls ++ [⟨key, (s.tails.get? key).map Prod.snd, false, .chained, .waiting⟩]⟩) ∨
    (∃ n c c', s.calls[n]? = some c ∧ Moves s n c st c' ∧
      s' = ⟨s.tailsFor n c.key st, s.calls.set n c'⟩) := by
  cases st with
  | withLock key => exact .inl ⟨key, rfl, by simpa [step] using h.symm⟩
  | resume n job =>
      obtain ⟨c, hc, hStep⟩ := Option.bind_eq_some_iff.mp h
      obtain ⟨c', hMove, rfl⟩ := Option.map_eq_some_iff.mp hStep
      exact .inr ⟨n, c, c', hc, .resume hMove, rfl⟩
  | work n =>
      obtain ⟨c, hc, hStep⟩ := Option.bind_eq_some_iff.mp h
      cases hTurn : c.turn with
      | running =>
          simp only [hTurn, Option.some.injEq] at hStep
          subst hStep
          obtain ⟨hLt, rfl⟩ := List.getElem?_eq_some_iff.mp hc
          exact .inr ⟨n, _, _, hc, .work hTurn, by rw [List.set_getElem_self]; rfl⟩
      | _ => simp [hTurn] at hStep
  | finish n result =>
      obtain ⟨c, hc, hStep⟩ := Option.bind_eq_some_iff.mp h
      cases hTurn : c.turn with
      | running =>
          simp only [hTurn, Option.some.injEq] at hStep
          exact .inr ⟨n, c, _, hc, .finish hTurn, hStep.symm⟩
      | _ => simp [hTurn] at hStep

namespace Moves

theorem key_eq (h : Moves s n c st c') : c'.key = c.key := by
  cases h with
  | @resume job c' h =>
      cases job <;> simp only [resumed] at h <;> grind -ring -linarith
  | work | finish => rfl

theorem prev_eq (h : Moves s n c st c') : c'.prev = c.prev := by
  cases h with
  | @resume job c' h =>
      cases job <;> simp only [resumed] at h <;> grind -ring -linarith
  | work | finish => rfl

theorem called_eq (h : Moves s n c st c') : st.called? = none := by
  cases h <;> rfl

/-- A continuation that has run stays so. -/
theorem past (h : Moves s n c st c') (hPast : c.past job = true) : c'.past job = true := by
  cases h with
  | @resume job' c' h =>
      cases job' <;> cases job <;> simp only [resumed, LockCall.past, Turn.started,
        Turn.isSettled] at h hPast ⊢ <;> grind -ring -linarith
  | work => exact hPast
  | finish h =>
      cases job <;> simp_all [LockCall.past, Turn.started, Turn.isSettled]

end Moves

/-- One call moves, and the others stay. -/
theorem getElem?_calls_set (hc : s.calls[n]? = some c) {d : LockCall Err α} :
    (s.calls.set n c')[j]? = some d ↔ (j = n ∧ d = c') ∨ (j ≠ n ∧ s.calls[j]? = some d) := by
  have hLt : n < s.calls.length := (List.getElem?_eq_some_iff.mp hc).1
  by_cases hj : j = n
  · subst hj
    simp [hLt, eq_comm]
  · simp [hj, List.getElem?_set_ne (Ne.symm hj)]

theorem getElem?_calls_append {d : LockCall Err α} :
    (s.calls ++ [c])[j]? = some d ↔ s.calls[j]? = some d ∨ (j = s.calls.length ∧ d = c) := by
  by_cases hj : j < s.calls.length
  · simp [List.getElem?_append_left hj, Nat.ne_of_lt hj]
  · have hNone : s.calls[j]? = none := by simpa using hj
    rw [List.getElem?_append_right (by omega), hNone]
    by_cases hEq : j = s.calls.length
    · simp [hEq, eq_comm]
    · have hSub : j - s.calls.length ≠ 0 := by omega
      simp [hEq, hSub]

/-- What every step keeps of a call that was made. -/
theorem call_of_step (h : s.step st = some s') (hc : s.calls[j]? = some c) :
    ∃ c', s'.calls[j]? = some c' ∧ c'.key = c.key ∧ c'.prev = c.prev ∧
      ∀ job, c.past job = true → c'.past job = true := by
  obtain ⟨key, rfl, rfl⟩ | ⟨n, d, d', hd, hMove, rfl⟩ := step_cases h
  · exact ⟨c, getElem?_calls_append.mpr (.inl hc), rfl, rfl, fun _ hPast => hPast⟩
  · by_cases hj : j = n
    · subst hj
      obtain rfl := Option.some.inj (hc.symm.trans hd)
      exact ⟨d', (getElem?_calls_set hd).mpr (.inl ⟨rfl, rfl⟩), hMove.key_eq, hMove.prev_eq,
        fun _ => hMove.past⟩
    · exact ⟨c, (getElem?_calls_set hd).mpr (.inr ⟨hj, hc⟩), rfl, rfl, fun _ hPast => hPast⟩

/-- A promise that is fulfilled stays fulfilled. -/
theorem fulfilled_of_step (h : s.step st = some s') {p : Option Nat}
    (hFul : s.fulfilled p = true) : s'.fulfilled p = true := by
  cases p with
  | none => rfl
  | some m =>
      obtain ⟨c, hc, hMine⟩ := (Option.any_eq_true _ _).mp hFul
      obtain ⟨c', hc', -, -, hPast⟩ := call_of_step h hc
      exact (Option.any_eq_true _ _).mpr ⟨c', hc', hPast .adopt hMine⟩

/-- The call waits for the newest earlier call of its key. -/
structure Follows (s : InProcessLocker Err α) (n m : Nat) (key : String) : Prop where
  lt : m < n
  made : ∃ d, s.calls[m]? = some d ∧ d.key = key
  newest : ∀ (j : Nat) (d : LockCall Err α), s.calls[j]? = some d → d.key = key → j < n → j ≤ m

/-- The chain of every key is unbroken. A call without a predecessor came when
every earlier call of its key had settled, and the tail of a key is its newest
call, which has not settled. -/
structure Sound (s : InProcessLocker Err α) : Prop where
  follows : ∀ (n : Nat) (c : LockCall Err α) m, s.calls[n]? = some c → c.prev = some m → s.Follows n m c.key
  first : ∀ (n : Nat) (c : LockCall Err α), s.calls[n]? = some c → c.prev = none →
    ∀ (j : Nat) (d : LockCall Err α), j < n → s.calls[j]? = some d → d.key = c.key → d.past .leave = true
  awaited : ∀ (n : Nat) (c : LockCall Err α), s.calls[n]? = some c → c.past .chain = true ∨ c.past .catch = true →
    s.fulfilled c.prev = true
  adopted : ∀ (n : Nat) (c : LockCall Err α), s.calls[n]? = some c → c.past .adopt = true → c.gate = true
  released : ∀ (n : Nat) (c : LockCall Err α), s.calls[n]? = some c → c.gate = c.past .leave
  tail : ∀ e, s.tails.get? e.1 = some e → ∃ c, s.calls[e.2]? = some c ∧ c.key = e.1 ∧
    c.past .leave = false ∧ ∀ (j : Nat) (d : LockCall Err α), s.calls[j]? = some d → d.key = e.1 → j ≤ e.2
  noTail : ∀ key, s.tails.get? key = none →
    ∀ (j : Nat) (d : LockCall Err α), s.calls[j]? = some d → d.key = key → d.past .leave = true

theorem sound_empty : Sound (empty : InProcessLocker Err α) := by
  constructor <;> intros <;> simp_all [empty]

/-- A new call chains itself to the newest one with its key. -/
theorem Sound.withLock (hs : s.Sound) (key : String) : Sound
    (⟨s.tails.put (key, s.calls.length),
      s.calls ++ [⟨key, (s.tails.get? key).map Prod.snd, false, .chained, .waiting⟩]⟩ :
      InProcessLocker Err α) := by
  have hStep : s.step (.withLock key) = some _ := rfl
  have hLt : ∀ {j d}, s.calls[j]? = some d → j < s.calls.length :=
    fun h => (List.getElem?_eq_some_iff.mp h).1
  constructor
  · intro n c m hc hPrev
    obtain hc | ⟨rfl, rfl⟩ := getElem?_calls_append.mp hc
    · obtain ⟨hLtm, ⟨d, hd, hKey⟩, hNewest⟩ := hs.follows n c m hc hPrev
      refine ⟨hLtm, ⟨d, getElem?_calls_append.mpr (.inl hd), hKey⟩, fun j e he hje hjn => ?_⟩
      obtain he | ⟨rfl, rfl⟩ := getElem?_calls_append.mp he
      · exact hNewest j e he hje hjn
      · exact absurd (hLt hc) (by omega)
    · obtain ⟨e, he, rfl⟩ := Option.map_eq_some_iff.mp hPrev
      obtain rfl : e.1 = key := Table.key_of_get? he
      obtain ⟨d, hd, hKey, -, hNewest⟩ := hs.tail e he
      refine ⟨hLt hd, ⟨d, getElem?_calls_append.mpr (.inl hd), hKey⟩, fun j e' he' hje hjn => ?_⟩
      obtain he' | ⟨rfl, rfl⟩ := getElem?_calls_append.mp he'
      · exact hNewest j e' he' hje
      · exact absurd hjn (lt_irrefl _)
  · intro n c hc hPrev j d hjn hd hKey
    obtain hc | ⟨rfl, rfl⟩ := getElem?_calls_append.mp hc
    · obtain hd | ⟨rfl, rfl⟩ := getElem?_calls_append.mp hd
      · exact hs.first n c hc hPrev j d hjn hd hKey
      · exact absurd (hLt hc) (by omega)
    · obtain hd | ⟨rfl, rfl⟩ := getElem?_calls_append.mp hd
      · exact hs.noTail key (Option.map_eq_none_iff.mp hPrev) j d hd hKey
      · exact absurd hjn (lt_irrefl _)
  · intro n c hc hPast
    obtain hc | ⟨rfl, rfl⟩ := getElem?_calls_append.mp hc
    · exact fulfilled_of_step hStep (hs.awaited n c hc hPast)
    · simp [LockCall.past] at hPast
  · intro n c hc hPast
    obtain hc | ⟨rfl, rfl⟩ := getElem?_calls_append.mp hc
    · exact hs.adopted n c hc hPast
    · simp [LockCall.past] at hPast
  · intro n c hc
    obtain hc | ⟨rfl, rfl⟩ := getElem?_calls_append.mp hc
    · exact hs.released n c hc
    · rfl
  · rintro ⟨k, m⟩ he
    simp only [Table.get?_put] at he
    split at he
    · next hKey =>
        cases he
        refine ⟨_, getElem?_calls_append.mpr (.inr ⟨rfl, rfl⟩), rfl, rfl, fun j d hd _ => ?_⟩
        obtain hd | ⟨rfl, -⟩ := getElem?_calls_append.mp hd
        · exact (hLt hd).le
        · exact le_rfl
    · next hKey =>
        obtain ⟨c, hc, hcKey, hLeave, hNewest⟩ := hs.tail (k, m) he
        refine ⟨c, getElem?_calls_append.mpr (.inl hc), hcKey, hLeave, fun j d hd hdKey => ?_⟩
        obtain hd | ⟨rfl, rfl⟩ := getElem?_calls_append.mp hd
        · exact hNewest j d hd hdKey
        · exact absurd hdKey hKey
  · intro k hNone j d hd hKey
    simp only [Table.get?_put] at hNone
    split at hNone
    · cases hNone
    · next hNe =>
        obtain hd | ⟨rfl, rfl⟩ := getElem?_calls_append.mp hd
        · exact hs.noTail k hNone j d hd hKey
        · exact absurd hKey hNe

/-- Once the promise a call waits for is fulfilled, every earlier call of its
key has settled. -/
theorem Sound.settled_before (hs : s.Sound) (hc : s.calls[n]? = some c)
    (hPrev : s.fulfilled c.prev = true) {d : LockCall Err α} (hj : j < n)
    (hd : s.calls[j]? = some d) (hKey : d.key = c.key) : d.past .leave = true := by
  induction n using Nat.strong_induction_on generalizing c with
  | _ n ih =>
      cases hP : c.prev with
      | none => exact hs.first n c hc hP j d hj hd hKey
      | some m =>
          obtain ⟨hLt, ⟨e, he, heKey⟩, hNewest⟩ := hs.follows n c m hc hP
          rw [hP] at hPrev
          obtain ⟨e', he', hMine⟩ := (Option.any_eq_true _ _).mp hPrev
          obtain rfl := Option.some.inj (he.symm.trans he')
          -- the promise of `m` is fulfilled only after `m` has released its gate
          have hLeft : e.past .leave = true := by
            rw [← hs.released m e he]
            exact hs.adopted m e he hMine
          have hChain : e.past .chain = true := by
            simp only [decide_eq_true_eq] at hMine
            simp [LockCall.past, hMine]
          obtain rfl | hjm : j = m ∨ j < m := (hNewest j d hd hKey hj).eq_or_lt
          · obtain rfl := Option.some.inj (he.symm.trans hd)
            exact hLeft
          · exact ih m hLt he (hs.awaited m e he (.inl hChain)) hjm (hKey.trans heKey.symm)

namespace Moves

/-- A call goes past the chain only when its predecessor has fulfilled its promise. -/
theorem awaited (h : Moves s n c st c')
    (hs : c.past .chain = true ∨ c.past .catch = true → s.fulfilled c.prev = true)
    (hPast : c'.past .chain = true ∨ c'.past .catch = true) : s.fulfilled c.prev = true := by
  cases h with
  | @resume job c' h =>
      cases job <;> simp only [resumed, LockCall.past] at h hs hPast <;> grind -ring -linarith
  | work => exact hs hPast
  | finish h => exact hs (.inr (by simp [LockCall.past, h]))

/-- Only its own step makes a continuation past. -/
theorem ran (h : Moves s n c st c') (hBefore : c.past job = false)
    (hPast : c'.past job = true) : st = .resume n job := by
  cases h with
  | @resume job' c' h =>
      cases job' <;> cases job <;> simp only [resumed, LockCall.past, Turn.started,
        Turn.isSettled] at h hBefore hPast <;> grind -ring -linarith
  | work => simp [hBefore] at hPast
  | finish h => cases job <;> simp_all [LockCall.past, Turn.started, Turn.isSettled]

/-- A call settles its promise only when its gate is open. -/
theorem adopted (h : Moves s n c st c') (hs : c.past .adopt = true → c.gate = true)
    (hPast : c'.past .adopt = true) : c'.gate = true := by
  cases h with
  | @resume job c' h =>
      cases job <;> simp only [resumed, LockCall.past] at h hs hPast <;> grind -ring -linarith
  | work | finish => exact hs hPast

/-- The gate is open exactly from `finally` on. -/
theorem released (h : Moves s n c st c') (hs : c.gate = c.past .leave) :
    c'.gate = c'.past .leave := by
  cases h with
  | @resume job c' h =>
      cases job <;> simp only [resumed, LockCall.past, Turn.isSettled] at h hs ⊢ <;>
        grind -ring -linarith
  | work => exact hs
  | finish h => simpa [LockCall.past, Turn.isSettled, h] using hs

/-- A call takes its result on from its function. -/
theorem result (h : Moves s n c st c') :
    c.turn.result?.toList ++ (st.resultOf? n).toList = c'.turn.result?.toList := by
  cases h with
  | @resume job c' h =>
      cases job <;> simp only [resumed] at h <;> simp only [LockStep.resultOf?] <;>
        grind -ring -linarith [Turn.result?]
  | work => simp [LockStep.resultOf?]
  | finish h => simp [LockStep.resultOf?, h, Turn.result?]

theorem resultOf_ne (h : Moves s n c st c') (hm : m ≠ n) : st.resultOf? m = none := by
  cases h with
  | resume | work => rfl
  | finish h => simp [LockStep.resultOf?, Ne.symm hm]

/-- What a continuation needs of its call. -/
theorem isSome_resumed : (s.resumed c job).isSome = true ↔ match job with
    | .chain => c.mine = .chained ∧ s.fulfilled c.prev = true
    | .adopt => c.mine = .adopting ∧ c.gate = true
    | .catch => c.turn = .waiting ∧ s.fulfilled c.prev = true
    | .enter => c.turn = .caught
    | .leave => ∃ result, c.turn = .returning result := by
  obtain ⟨key, prev, gate, mine, turn⟩ := c
  cases job with
  | chain | adopt => simp [resumed, Option.isSome_iff_exists]
  | «catch» | enter | leave => cases turn <;> simp [resumed, Option.isSome_iff_exists]

/-- A continuation that can run still can after any other step of the call. -/
theorem keeps_due (h : Moves s n c st c') (hFul : ∀ p, s.fulfilled p = true → s'.fulfilled p = true)
    (hDue : (s.resumed c job).isSome = true) (hOther : st ≠ .resume n job) :
    (s'.resumed c' job).isSome = true := by
  have hPrev := hFul c.prev
  rw [isSome_resumed] at hDue ⊢
  cases h with
  | @resume job' c' h =>
      have hNe : job' ≠ job := fun hEq => hOther (hEq ▸ rfl)
      cases job' <;> simp only [resumed] at h <;> cases job <;> grind -ring -linarith
  | work => cases job <;> grind -ring -linarith
  | finish h => cases job <;> grind -ring -linarith

/-- A call settles only in its last continuation. -/
theorem leaves (h : Moves s n c st c') (hs : c.past .leave = false)
    (hPast : c'.past .leave = true) : st = .resume n .leave ∧ c.past .catch = true := by
  cases h with
  | @resume job c' h =>
      cases job <;> simp only [resumed, LockCall.past, Turn.isSettled] at h hs hPast ⊢ <;>
        grind -ring -linarith
  | work => simp [hs] at hPast
  | finish h => simp [LockCall.past, Turn.isSettled] at hPast

/-- The last continuation drops the tail of the key only if it is its own. -/
theorem tail (h : Moves s n c st c') {e : String × Nat}
    (he : (s.tailsFor n c.key st).get? e.1 = some e) :
    s.tails.get? e.1 = some e ∧ (e.1 = c.key → e.2 = n → c'.past .leave = true →
      c.past .leave = true) := by
  have hOther (hSt : ∀ m, st ≠ .resume m .leave) : c'.past .leave = true →
      c.past .leave = true := by
    intro hPast
    by_contra hNot
    exact hSt n (h.leaves (by simpa using hNot) hPast).1
  cases h with
  | @resume job c' h =>
      cases job with
      | leave =>
          simp only [tailsFor, tailsAfter] at he
          split at he
          · rw [Table.get?_delete] at he
            split at he
            · cases he
            · next hNe => exact ⟨he, fun hKey => absurd hKey.symm hNe⟩
          · next hNot =>
              refine ⟨he, fun hKey hn => absurd ?_ hNot⟩
              rw [← hKey, he, ← hn]
              rfl
      | _ => exact ⟨he, fun _ _ => hOther (by simp)⟩
  | work => exact ⟨he, fun _ _ => hOther (by simp)⟩
  | finish => exact ⟨he, fun _ _ => hOther (by simp)⟩

/-- A key loses its tail only to its newest call, which has left. -/
theorem noTail (h : Moves s n c st c') {k : String}
    (hNone : (s.tailsFor n c.key st).get? k = none) :
    s.tails.get? k = none ∨ k = c.key ∧ s.tails.get? k = some (k, n) ∧ c.past .catch = true ∧
      c'.past .leave = true := by
  cases h with
  | @resume job c' h =>
      cases job with
      | leave =>
          simp only [tailsFor, tailsAfter] at hNone
          split at hNone
          · next hTail =>
              rw [Table.get?_delete] at hNone
              split at hNone
              · next hKey =>
                  subst hKey
                  obtain ⟨e, he, rfl⟩ := Option.map_eq_some_iff.mp hTail
                  refine .inr ⟨rfl, ?_, ?_⟩
                  · rw [he, ← Table.key_of_get? he]
                  · simp only [resumed] at h
                    simp only [LockCall.past]
                    grind -ring -linarith [Turn.isSettled]
              · exact .inl hNone
          · exact .inl hNone
      | _ => exact .inl hNone
  | work | finish => exact .inl hNone

end Moves

/-- Every step of the locker keeps its invariant. -/
theorem Sound.step (hs : s.Sound) (h : s.step st = some s') : s'.Sound := by
  obtain ⟨key, rfl, rfl⟩ | ⟨n, c, c', hc, hMove, rfl⟩ := step_cases h
  · exact hs.withLock key
  have hSettled : ∀ {j : Nat} {d d' : LockCall Err α}, s.calls[j]? = some d → (s.calls.set n c')[j]? = some d' →
      d.past .leave = true → d'.past .leave = true := by
    intro j d d' hd hd' hLeft
    obtain ⟨x, hx, -, -, hPast⟩ := call_of_step h hd
    obtain rfl := Option.some.inj (hx.symm.trans hd')
    exact hPast .leave hLeft
  -- every call is an old one with the same key and predecessor
  have hOld : ∀ {j : Nat} {d' : LockCall Err α}, (s.calls.set n c')[j]? = some d' →
      ∃ d, s.calls[j]? = some d ∧ d'.key = d.key ∧ d'.prev = d.prev := by
    intro j d' hd'
    obtain ⟨rfl, rfl⟩ | ⟨-, hd⟩ := (getElem?_calls_set hc).mp hd'
    · exact ⟨c, hc, hMove.key_eq, hMove.prev_eq⟩
    · exact ⟨d', hd, rfl, rfl⟩
  constructor
  · intro i d' m hd' hPrev
    obtain ⟨d, hd, hKey, hSame⟩ := hOld hd'
    rw [hSame] at hPrev
    obtain ⟨hLt, ⟨e, he, heKey⟩, hNewest⟩ := hs.follows i d m hd hPrev
    obtain ⟨e', he', heKey', -⟩ := call_of_step h he
    refine ⟨hLt, ⟨e', he', by rw [heKey', heKey, hKey]⟩, fun j x' hx' hxKey => ?_⟩
    obtain ⟨x, hx, hxSame, -⟩ := hOld hx'
    exact hNewest j x hx (by rw [← hxSame, hxKey, hKey])
  · intro i d' hd' hPrev j x' hj hx' hxKey
    obtain ⟨d, hd, hKey, hSame⟩ := hOld hd'
    obtain ⟨x, hx, hxSame, -⟩ := hOld hx'
    exact hSettled hx hx' (hs.first i d hd (hSame ▸ hPrev) j x hj hx (by rw [← hxSame, hxKey, hKey]))
  · intro i d' hd' hPast
    refine fulfilled_of_step h ?_
    obtain ⟨rfl, rfl⟩ | ⟨-, hd⟩ := (getElem?_calls_set hc).mp hd'
    · rw [hMove.prev_eq]
      exact hMove.awaited (hs.awaited i c hc) hPast
    · exact hs.awaited i d' hd hPast
  · intro i d' hd'
    obtain ⟨rfl, rfl⟩ | ⟨-, hd⟩ := (getElem?_calls_set hc).mp hd'
    · exact hMove.adopted (hs.adopted i c hc)
    · exact hs.adopted i d' hd
  · intro i d' hd'
    obtain ⟨rfl, rfl⟩ | ⟨-, hd⟩ := (getElem?_calls_set hc).mp hd'
    · exact hMove.released (hs.released i c hc)
    · exact hs.released i d' hd
  · intro e he
    obtain ⟨hTail, hOwn⟩ := hMove.tail he
    obtain ⟨d, hd, hKey, hLeave, hNewest⟩ := hs.tail e hTail
    obtain ⟨d', hd', hKey', -⟩ := call_of_step h hd
    refine ⟨d', hd', hKey'.trans hKey, ?_, fun j x' hx' hxKey => ?_⟩
    · obtain ⟨hn, rfl⟩ | ⟨-, hd''⟩ := (getElem?_calls_set hc).mp hd'
      · obtain rfl := Option.some.inj (hc.symm.trans (hn ▸ hd))
        by_contra hNot
        have hLeft := hOwn hKey.symm hn (by simpa using hNot)
        rw [hLeave] at hLeft
        cases hLeft
      · obtain rfl := Option.some.inj (hd.symm.trans hd'')
        exact hLeave
    · obtain ⟨x, hx, hxSame, -⟩ := hOld hx'
      exact hNewest j x hx (hxSame.symm.trans hxKey)
  · intro k hNone j x' hx' hxKey
    obtain ⟨x, hx, hxSame, -⟩ := hOld hx'
    have hxk : x.key = k := hxSame.symm.trans hxKey
    obtain hNone' | ⟨rfl, hTail, hCatch, hLeft⟩ := hMove.noTail hNone
    · exact hSettled hx hx' (hs.noTail k hNone' j x hx hxk)
    · obtain ⟨-, -, -, -, hNewest⟩ := hs.tail (c.key, n) hTail
      obtain ⟨rfl, rfl⟩ | ⟨hne, hd⟩ := (getElem?_calls_set hc).mp hx'
      · exact hLeft
      · have hlt : j < n := lt_of_le_of_ne (hNewest j x hx hxk) hne
        exact hSettled hx hx' (hs.settled_before hc (hs.awaited n c hc (.inr hCatch)) hlt hx hxk)

/-- The state of every run is sound. -/
theorem sound_of_run (h : Run steps s) : s.Sound := by
  induction h with
  | start => exact sound_empty
  | tail _ last ih => exact ih.step last

/-- A continuation runs when it has not run before, and has run after. -/
theorem past_of_resumed (h : s.resumed c job = some c') :
    c.past job = false ∧ c'.past job = true := by
  cases job <;> simp only [resumed, LockCall.past] at h ⊢ <;>
    grind -ring -linarith [Turn.started, Turn.isSettled]

theorem jobs_append (steps : List (LockStep Err α)) (st : LockStep Err α) :
    jobs (steps ++ [st]) = jobs steps ++ st.job?.toList := by
  unfold jobs
  rw [List.filterMap_append]
  cases hJob : st.job? <;> simp [hJob]

theorem called_append (steps : List (LockStep Err α)) (st : LockStep Err α) :
    called (steps ++ [st]) = called steps ++ st.called?.toList := by
  unfold called
  rw [List.filterMap_append]
  cases hKey : st.called? <;> simp [hKey]

theorem results_append (n : Nat) (steps : List (LockStep Err α)) (st : LockStep Err α) :
    results n (steps ++ [st]) = results n steps ++ (st.resultOf? n).toList := by
  unfold results
  rw [List.filterMap_append]
  cases hRes : st.resultOf? n <;> simp [hRes]

/-- The locker holds one call for each time `withLock` was called, with the key
it was called with, and in that order. -/
theorem keys_of_run (h : Run steps s) : s.calls.map LockCall.key = called steps := by
  induction h with
  | start => rfl
  | @tail steps s s' st prior last ih =>
      rw [called_append]
      obtain ⟨key, rfl, rfl⟩ | ⟨n, c, c', hc, hMove, rfl⟩ := step_cases last
      · rw [List.map_append, ih]
        rfl
      · -- a call that moves keeps its key
        obtain ⟨hLt, rfl⟩ := List.getElem?_eq_some_iff.mp hc
        have hSame : (s.calls.map LockCall.key).set n s.calls[n].key =
            s.calls.map LockCall.key := by
          rw [← List.getElem_map LockCall.key (h := by simpa using hLt), List.set_getElem_self]
        rw [List.map_set, hMove.key_eq, hSame, ih, hMove.called_eq]
        simp

/-- The continuations of a call that have run are those of the run. -/
theorem mem_jobs_iff (h : Run steps s) :
    (n, job) ∈ jobs steps ↔ ∃ c, s.calls[n]? = some c ∧ c.past job = true := by
  induction h with
  | start => simp [jobs, empty]
  | @tail steps s s' st prior last ih =>
      rw [jobs_append, List.mem_append, ih]
      constructor
      · rintro (⟨c, hc, hPast⟩ | hNew)
        · obtain ⟨c', hc', -, -, hKeep⟩ := call_of_step last hc
          exact ⟨c', hc', hKeep job hPast⟩
        · cases st with
          | resume m job' =>
              obtain ⟨rfl, rfl⟩ : n = m ∧ job = job' := by simpa [LockStep.job?] using hNew
              obtain ⟨c, hc, hStep⟩ := Option.bind_eq_some_iff.mp last
              obtain ⟨c', hMove, rfl⟩ := Option.map_eq_some_iff.mp hStep
              exact ⟨c', (getElem?_calls_set hc).mpr (.inl ⟨rfl, rfl⟩), (past_of_resumed hMove).2⟩
          | withLock key => simp [LockStep.job?] at hNew
          | work m => simp [LockStep.job?] at hNew
          | finish m result => simp [LockStep.job?] at hNew
      · rintro ⟨c', hc', hPast⟩
        obtain ⟨key, rfl, rfl⟩ | ⟨m, d, d', hd, hMove, rfl⟩ := step_cases last
        · obtain hc | ⟨-, rfl⟩ := getElem?_calls_append.mp hc'
          · exact .inl ⟨c', hc, hPast⟩
          · cases job <;> simp [LockCall.past, Turn.started, Turn.isSettled] at hPast
        · obtain ⟨rfl, rfl⟩ | ⟨-, hc⟩ := (getElem?_calls_set hd).mp hc'
          · by_cases hBefore : d.past job = true
            · exact .inl ⟨d, hd, hBefore⟩
            · exact .inr (hMove.ran (by simpa using hBefore) hPast ▸ by simp [LockStep.job?])
          · exact .inl ⟨c', hc, hPast⟩

/-- A call that was not made has no result. -/
theorem results_of_unmade (h : Run steps s) (hn : s.calls.length ≤ n) :
    results n steps = [] := by
  induction h with
  | start => rfl
  | @tail steps s s' st prior last ih =>
      obtain ⟨key, rfl, rfl⟩ | ⟨m, d, d', hd, hMove, rfl⟩ := step_cases last
      · simp only [List.length_append, List.length_singleton] at hn
        rw [results_append, ih (by omega)]
        rfl
      · have hLt : m < s.calls.length := (List.getElem?_eq_some_iff.mp hd).1
        simp only [List.length_set] at hn
        rw [results_append, ih hn, hMove.resultOf_ne (show n ≠ m by omega)]
        rfl

/-- No continuation runs twice. -/
theorem nodup_jobs (h : Run steps s) : (jobs steps).Nodup := by
  induction h with
  | start => exact .nil
  | @tail steps s s' st prior last ih =>
      rw [jobs_append]
      cases st with
      | resume m job =>
          refine List.nodup_append.mpr ⟨ih, by simp [LockStep.job?], ?_⟩
          rintro ⟨n, job'⟩ hMem _ hNew rfl
          obtain ⟨rfl, rfl⟩ : n = m ∧ job' = job := by simpa [LockStep.job?] using hNew
          obtain ⟨c, hc, hStep⟩ := Option.bind_eq_some_iff.mp last
          obtain ⟨c', hMove, -⟩ := Option.map_eq_some_iff.mp hStep
          obtain ⟨d, hd, hPast⟩ := (mem_jobs_iff prior).mp hMem
          obtain rfl := Option.some.inj (hc.symm.trans hd)
          rw [(past_of_resumed hMove).1] at hPast
          cases hPast
      | withLock key => simpa [LockStep.job?] using ih
      | work m => simpa [LockStep.job?] using ih
      | finish m result => simpa [LockStep.job?] using ih

/-- No call enters its critical section twice. -/
theorem nodup_entered (h : Run steps s) : (entered steps).Nodup := by
  refine (nodup_jobs h).filterMap fun x y n hx hy => ?_
  obtain ⟨i, job⟩ := x
  obtain ⟨j, job'⟩ := y
  simp only [Option.mem_def, Option.ite_none_right_eq_some, Option.some.injEq] at hx hy
  rw [hx.1, hy.1, hx.2, hy.2]

/-- The calls that have entered are those that have started. -/
theorem mem_entered_iff (h : Run steps s) :
    n ∈ entered steps ↔ ∃ c, s.calls[n]? = some c ∧ c.turn.started = true := by
  show _ ↔ ∃ c, s.calls[n]? = some c ∧ c.past .enter = true
  rw [← mem_jobs_iff h]
  simp only [entered, List.mem_filterMap, Option.ite_none_right_eq_some, Option.some.injEq]
  constructor
  · rintro ⟨⟨m, job⟩, hMem, rfl, rfl⟩
    exact hMem
  · exact fun hMem => ⟨(n, .enter), hMem, rfl, rfl⟩

/-- A callback has settled as often as its call remembers, and with that result. -/
theorem results_of_run (h : Run steps s) (hc : s.calls[n]? = some c) :
    results n steps = c.turn.result?.toList := by
  induction h generalizing c with
  | start => simp [empty] at hc
  | @tail steps s s' st prior last ih =>
      rw [results_append]
      obtain ⟨key, rfl, rfl⟩ | ⟨m, d, d', hd, hMove, rfl⟩ := step_cases last
      · obtain hc | ⟨rfl, rfl⟩ := getElem?_calls_append.mp hc
        · simpa [LockStep.resultOf?] using ih hc
        · -- no callback of a call has settled before the call was made
          rw [results_of_unmade prior le_rfl]
          rfl
      · obtain ⟨rfl, rfl⟩ | ⟨hne, hc⟩ := (getElem?_calls_set hd).mp hc
        · rw [ih hd]
          exact hMove.result
        · rw [ih hc, hMove.resultOf_ne hne]
          simp

/-- Two calls of one key. -/
def SameKey (s : InProcessLocker Err α) (i j : Nat) : Prop :=
  ∃ ci cj, s.calls[i]? = some ci ∧ s.calls[j]? = some cj ∧ ci.key = cj.key

/-- The callback of a call starts only when every earlier call of its key has
settled. -/
theorem Sound.settled_before_start (hs : s.Sound) {d : LockCall Err α}
    (hc : s.calls[n]? = some c) (hStarted : c.turn.started = true) (hj : j < n)
    (hd : s.calls[j]? = some d) (hKey : d.key = c.key) : d.turn.isSettled = true := by
  have hCatch : c.past .catch = true := by
    cases hTurn : c.turn <;> simp_all [LockCall.past, Turn.started]
  exact hs.settled_before hc (hs.awaited n c hc (.inr hCatch)) hj hd hKey

/-- Callbacks of a key start in the order in which their calls were made. -/
theorem entered_ordered (h : Run steps s) :
    (entered steps).Pairwise fun i j => s.SameKey i j → i < j := by
  induction h with
  | start => exact .nil
  | @tail steps s s' st prior last ih =>
      have hOld : (entered steps).Pairwise fun i j => s'.SameKey i j → i < j := by
        refine ih.imp_of_mem fun {i j} hi hj hLt => ?_
        rintro ⟨ci', cj', hci', hcj', hKey⟩
        obtain ⟨ci, hci, -⟩ := (mem_entered_iff prior).mp hi
        obtain ⟨cj, hcj, -⟩ := (mem_entered_iff prior).mp hj
        obtain ⟨x, hx, hxKey, -⟩ := call_of_step last hci
        obtain ⟨y, hy, hyKey, -⟩ := call_of_step last hcj
        obtain rfl := Option.some.inj (hx.symm.trans hci')
        obtain rfl := Option.some.inj (hy.symm.trans hcj')
        exact hLt ⟨ci, cj, hci, hcj, by rw [← hxKey, ← hyKey, hKey]⟩
      by_cases hEnter : ∃ n, st = .resume n .enter
      · obtain ⟨n, rfl⟩ := hEnter
        have hSplit : entered (steps ++ [.resume n .enter]) = entered steps ++ [n] := by
          simp [entered, jobs_append, LockStep.job?]
        rw [hSplit]
        refine List.pairwise_append.mpr ⟨hOld, by simp, fun i hi j hj hSame => ?_⟩
        obtain rfl : j = n := by simpa using hj
        have hRun' : Run (steps ++ [.resume j .enter]) s' := .tail prior last
        have hne : i ≠ j := by
          rintro rfl
          have hNodup := nodup_entered hRun'
          rw [hSplit] at hNodup
          exact (List.nodup_append.mp hNodup).2.2 i hi i (by simp) rfl
        -- a later call that has started has seen this one settle
        by_contra hNot
        obtain ⟨ci, hci, hStarted⟩ := (mem_entered_iff prior).mp hi
        obtain ⟨cj, hcj, hStep⟩ := Option.bind_eq_some_iff.mp last
        obtain ⟨cj', hMove, -⟩ := Option.map_eq_some_iff.mp hStep
        obtain ⟨ci', cj'', hci', hcj'', hKey⟩ := hSame
        obtain ⟨x, hx, hxKey, -⟩ := call_of_step last hci
        obtain ⟨y, hy, hyKey, -⟩ := call_of_step last hcj
        obtain rfl := Option.some.inj (hx.symm.trans hci')
        obtain rfl := Option.some.inj (hy.symm.trans hcj'')
        have hSettled := (sound_of_run prior).settled_before_start hci hStarted
          (show j < i by omega) hcj (by rw [← hxKey, ← hyKey, hKey])
        have hBefore := (past_of_resumed hMove).1
        cases hTurn : cj.turn <;> simp_all [LockCall.past, Turn.started, Turn.isSettled]
      · have hSame : entered (steps ++ [st]) = entered steps := by
          cases st with
          | resume n job =>
              have hJob : job ≠ .enter := fun hEq => hEnter ⟨n, hEq ▸ rfl⟩
              simp [entered, jobs_append, LockStep.job?, hJob]
          | withLock key => simp [entered, jobs_append, LockStep.job?]
          | work n => simp [entered, jobs_append, LockStep.job?]
          | finish n result => simp [entered, jobs_append, LockStep.job?]
        rw [hSame]
        exact hOld

/-- The first call of a key that has not settled has a continuation that can
run, or its callback runs, or its predecessor has a continuation that can run. -/
theorem Sound.progress_first (hs : s.Sound) (hc : s.calls[n]? = some c)
    (hOpen : c.turn.isSettled = false)
    (hFirst : ∀ j (d : LockCall Err α), j < n → s.calls[j]? = some d → d.key = c.key →
      d.turn.isSettled = true) :
    ∃ m d, s.calls[m]? = some d ∧ d.key = c.key ∧ m ≤ n ∧
      (d.turn = .running ∨ ∃ job, s.due m job = true) := by
  have hDue : ∀ {m : Nat} {d : LockCall Err α} {job : LockJob}, s.calls[m]? = some d →
      (s.resumed d job).isSome = true → s.due m job = true :=
    fun hd hSome => (Option.any_eq_true _ _).mpr ⟨_, hd, hSome⟩
  cases hTurn : c.turn with
  | settled result => simp [hTurn, Turn.isSettled] at hOpen
  | running => exact ⟨n, c, hc, rfl, le_rfl, .inl hTurn⟩
  | caught => exact ⟨n, c, hc, rfl, le_rfl, .inr ⟨.enter, hDue hc (by simp [resumed, hTurn])⟩⟩
  | returning result =>
      exact ⟨n, c, hc, rfl, le_rfl, .inr ⟨.leave, hDue hc (by simp [resumed, hTurn])⟩⟩
  | waiting =>
      by_cases hFul : s.fulfilled c.prev = true
      · exact ⟨n, c, hc, rfl, le_rfl, .inr ⟨.catch, hDue hc (by simp [resumed, hTurn, hFul])⟩⟩
      · cases hPrev : c.prev with
        | none => simp [hPrev, fulfilled] at hFul
        | some m =>
            -- the predecessor has settled, so only its own promise is still to follow its gate
            obtain ⟨hLt, ⟨d, hd, hKey⟩, -⟩ := hs.follows n c m hc hPrev
            have hSettled := hFirst m d hLt hd hKey
            refine ⟨m, d, hd, hKey, hLt.le, .inr ?_⟩
            cases hMine : d.mine with
            | fulfilled => simp [hPrev, fulfilled, hd, hMine] at hFul
            | adopting =>
                have hGate : d.gate = true := (hs.released m d hd).trans hSettled
                exact ⟨.adopt, hDue hd (by simp [resumed, hMine, hGate])⟩
            | chained =>
                have hCatch : d.past .catch = true := by
                  cases hd' : d.turn <;> simp_all [LockCall.past, Turn.isSettled]
                have hAwaited := hs.awaited m d hd (.inr hCatch)
                exact ⟨.chain, hDue hd (by simp [resumed, hMine, hAwaited])⟩

theorem Sound.progress (hs : s.Sound) (hc : s.calls[n]? = some c)
    (hOpen : c.turn.isSettled = false) :
    ∃ m d, s.calls[m]? = some d ∧ d.key = c.key ∧ m ≤ n ∧
      (d.turn = .running ∨ ∃ job, s.due m job = true) := by
  induction n using Nat.strong_induction_on generalizing c with
  | _ n ih =>
      by_cases hFirst : ∀ j (d : LockCall Err α), j < n → s.calls[j]? = some d → d.key = c.key →
          d.turn.isSettled = true
      · exact hs.progress_first hc hOpen hFirst
      · push Not at hFirst
        obtain ⟨j, d, hj, hd, hKey, hNot⟩ := hFirst
        obtain ⟨m, e, he, heKey, hm, hRest⟩ := ih j hj hd (by simpa using hNot)
        exact ⟨m, e, he, heKey.trans hKey, by omega, hRest⟩

/-- A continuation that can run can do so until it does. -/
theorem due_of_step (h : s.step st = some s') (hDue : s.due n job = true)
    (hOther : st ≠ .resume n job) : s'.due n job = true := by
  obtain ⟨c, hc, hSome⟩ := (Option.any_eq_true _ _).mp hDue
  have hFul : ∀ p, s.fulfilled p = true → s'.fulfilled p = true := fun _ => fulfilled_of_step h
  obtain ⟨key, rfl, rfl⟩ | ⟨m, d, d', hd, hMove, rfl⟩ := step_cases h
  · refine (Option.any_eq_true _ _).mpr ⟨c, getElem?_calls_append.mpr (.inl hc), ?_⟩
    have hPrev := hFul c.prev
    cases job <;> simp only [resumed] at hSome ⊢ <;> grind -ring -linarith
  · by_cases hn : n = m
    · subst hn
      obtain rfl := Option.some.inj (hc.symm.trans hd)
      exact (Option.any_eq_true _ _).mpr
        ⟨d', (getElem?_calls_set hd).mpr (.inl ⟨rfl, rfl⟩), hMove.keeps_due hFul hSome hOther⟩
    · refine (Option.any_eq_true _ _).mpr ⟨c, (getElem?_calls_set hd).mpr (.inr ⟨hn, hc⟩), ?_⟩
      have hPrev := hFul c.prev
      cases job <;> simp only [resumed] at hSome ⊢ <;> grind -ring -linarith

/-- What a run of the locker promises each of its callers. -/
structure FairMutex (steps : List (LockStep Err α)) (s : InProcessLocker Err α) : Prop where
  /-- Every call of `withLock` is among the calls, under its key, and no other. -/
  made : s.calls.map LockCall.key = called steps
  /-- One callback of a key runs at a time. -/
  exclusive : ∀ (i j : Nat) (ci cj : LockCall Err α), s.calls[i]? = some ci → s.calls[j]? = some cj → ci.key = cj.key →
    ci.turn = .running → cj.turn = .running → i = j
  /-- Callbacks of a key start in the order of their calls. -/
  ordered : (entered steps).Pairwise fun i j => s.SameKey i j → i < j
  /-- A started callback has been started once, and no other has been started. -/
  once : ∀ (n : Nat) (c : LockCall Err α), s.calls[n]? = some c → (entered steps).count n = c.turn.started.toNat
  /-- The caller gets what its callback settled with, which it did once. -/
  unchanged : ∀ (n : Nat) (c : LockCall Err α), s.calls[n]? = some c → results n steps = c.turn.result?.toList
  /-- A key with a caller left runs a callback, or a continuation of the key can
  run, whatever other keys do and whatever earlier callbacks settled with. -/
  progress : ∀ (n : Nat) (c : LockCall Err α), s.calls[n]? = some c → c.turn.isSettled = false →
    ∃ m d, s.calls[m]? = some d ∧ d.key = c.key ∧ m ≤ n ∧
      (d.turn = .running ∨ ∃ job, s.due m job = true)
  /-- No step withdraws a continuation that can run, and each runs once. -/
  persistent : ∀ n job st s', s.due n job = true → s.step st = some s' →
    st ≠ .resume n job → s'.due n job = true
  bounded : (jobs steps).Nodup
  /-- Nothing is left behind once every caller has been answered. -/
  clean : (∀ (n : Nat) (c : LockCall Err α), s.calls[n]? = some c → c.turn.isSettled = true) → s.tails.rows = []

theorem withLock_fairMutex (h : Run steps s) : FairMutex steps s where
  made := keys_of_run h
  exclusive i j ci cj hci hcj hKey hi hj := by
    have hs := sound_of_run h
    by_contra hne
    obtain hLt | hLt := Nat.lt_or_gt_of_ne hne
    · have hSettled := hs.settled_before_start hcj (by simp [hj, Turn.started]) hLt hci hKey
      simp [hi, Turn.isSettled] at hSettled
    · have hSettled := hs.settled_before_start hci (by simp [hi, Turn.started]) hLt hcj hKey.symm
      simp [hj, Turn.isSettled] at hSettled
  ordered := entered_ordered h
  once n c hc := by
    have hMem := mem_entered_iff (n := n) h
    cases hStarted : c.turn.started with
    | true => exact List.count_eq_one_of_mem (nodup_entered h) (hMem.mpr ⟨c, hc, hStarted⟩)
    | false =>
        refine List.count_eq_zero.mpr fun hn => ?_
        obtain ⟨d, hd, hStart⟩ := hMem.mp hn
        obtain rfl := Option.some.inj (hc.symm.trans hd)
        simp [hStarted] at hStart
  unchanged _ _ hc := results_of_run h hc
  progress _ _ hc hOpen := (sound_of_run h).progress hc hOpen
  persistent _ _ _ _ hDue hStep hOther := due_of_step hStep hDue hOther
  bounded := nodup_jobs h
  clean hAll := by
    refine List.eq_nil_iff_forall_not_mem.mpr fun e he => ?_
    obtain ⟨c, hc, -, hOpen, -⟩ := (sound_of_run h).tail e (Table.get?_of_mem he)
    have hSettled : c.past .leave = true := hAll e.2 c hc
    simp [hSettled] at hOpen

/-- Two callers of one key, the first of which is rejected. The second runs its
callback all the same and gets its result. -/
theorem withLock_fairMutex_rejected :
    let steps : List (LockStep String Nat) :=
      [.withLock "order", .withLock "order", .resume 0 .catch, .resume 0 .enter, .work 0,
        .finish 0 (.error "timeout"), .resume 0 .leave, .resume 0 .chain, .resume 0 .adopt,
        .resume 1 .catch, .resume 1 .enter, .finish 1 (.ok 7), .resume 1 .leave]
    ∃ s : InProcessLocker String Nat, Run steps s ∧ FairMutex steps s ∧
      called steps = ["order", "order"] ∧ entered steps = [0, 1] ∧
      results 0 steps = [.error "timeout"] ∧ results 1 steps = [.ok 7] ∧ s.tails.rows = [] := by
  intro steps
  have hRun : Run steps _ := .tail (.tail (.tail (.tail (.tail (.tail (.tail (.tail (.tail (.tail
    (.tail (.tail (.tail .start rfl) rfl) rfl) rfl) rfl) rfl) rfl) rfl) rfl) rfl) rfl) rfl) rfl
  exact ⟨_, hRun, withLock_fairMutex hRun, rfl, rfl, rfl, rfl, rfl⟩

end InProcessLocker
end VpnPayment
