import Mathlib.Data.Rat.Floor
import VpnPayment.Collections.Table

/-! The fixed-window rate limiter of one process, and the counter it refines: a window
of a key opens at a request and takes the requests until it ends. -/
namespace VpnPayment

open Collections

structure RateLimitDecision where
  allowed : Bool
  /-- The configured max requests per window. -/
  limit : Int
  remaining : Int
  /-- Epoch millis when the current window resets. -/
  resetAt : Int
  /-- Seconds until reset (for the Retry-After header). -/
  retryAfterSec : Int
deriving DecidableEq

namespace RateLimiter

structure Window where
  key : String
  count : Int
  resetAt : Int

end RateLimiter

structure RateLimiter where
  max : Int
  windowMs : Int
  windows : Table RateLimiter.Window RateLimiter.Window.key

namespace RateLimiter

variable {max windowMs : Int}

def new (max windowMs : Int) : RateLimiter :=
  ⟨max, windowMs, .empty⟩

/-- The window that a request at `t` counts in. -/
def current (l : RateLimiter) (t : Int) (key : String) : Window :=
  match l.windows.get? key with
  | some w => if w.resetAt ≤ t then ⟨key, 0, t + l.windowMs⟩ else w
  | none => ⟨key, 0, t + l.windowMs⟩

def check (l : RateLimiter) (t : Int) (key : String) : RateLimitDecision × RateLimiter :=
  let w := l.current t key
  let w := { w with count := w.count + 1 }
  let decision :=
    { allowed := w.count ≤ l.max
      limit := l.max
      remaining := Max.max 0 (l.max - w.count)
      resetAt := w.resetAt
      retryAfterSec := Max.max 1 ⌈((w.resetAt - t : Int) : ℚ) / 1000⌉ }
  (decision, { l with windows := l.windows.put w })

def dropExpired (t : Int) (windows : Table Window Window.key) (w : Window) :
    Table Window Window.key :=
  if w.resetAt ≤ t then windows.delete w.key else windows

/-- Drop windows that have expired. Every entry of the `Map` is visited once, also
those after a deleted one. -/
def sweep (l : RateLimiter) (t : Int) : RateLimiter :=
  { l with windows := l.windows.rows.foldl (dropExpired t) l.windows }

inductive Op
  | check (key : String)
  | sweep

/-- The limiter after calls at their clock values. -/
def after (l : RateLimiter) : List (Int × Op) → RateLimiter
  | [] => l
  | (t, .check key) :: ops => ((l.check t key).2).after ops
  | (t, .sweep) :: ops => (l.sweep t).after ops

/-- What the checks of a key are answered. -/
def decisions (key : String) (l : RateLimiter) : List (Int × Op) → List RateLimitDecision
  | [] => []
  | (t, .check k) :: ops =>
      let (decision, l') := l.check t k
      if k = key then decision :: decisions key l' ops else decisions key l' ops
  | (t, .sweep) :: ops => decisions key (l.sweep t) ops

/-- When a key is checked. -/
def requests (key : String) : List (Int × Op) → List Int
  | [] => []
  | (t, .check k) :: ops => if k = key then t :: requests key ops else requests key ops
  | (_, .sweep) :: ops => requests key ops

/-- The clock never goes back. -/
def Ordered (ops : List (Int × Op)) : Prop :=
  ops.Pairwise fun op op' => op.1 ≤ op'.1

section reference

/-- The requests of the open window, the one that opened it first, after one more. -/
def admitting (windowMs : Int) (window : List Int) (t : Int) : List Int :=
  match window with
  | [] => [t]
  | opened :: _ => if opened + windowMs ≤ t then [t] else window ++ [t]

/-- What the last request of a window is told. -/
def decisionAt (max windowMs : Int) (window : List Int) (t : Int) : RateLimitDecision :=
  let resetAt := window.headD t + windowMs
  { allowed := window.length ≤ max
    limit := max
    remaining := Max.max 0 (max - window.length)
    resetAt := resetAt
    retryAfterSec := Max.max 1 ⌈((resetAt - t : Int) : ℚ) / 1000⌉ }

/-- The counter of one key. -/
def reference (max windowMs : Int) (window : List Int) : List Int → List RateLimitDecision
  | [] => []
  | t :: ts =>
      let window := admitting windowMs window t
      decisionAt max windowMs window t :: reference max windowMs window ts

theorem admit_ne_nil (windowMs : Int) (window : List Int) (t : Int) :
    admitting windowMs window t ≠ [] := by
  cases window with
  | nil => simp [admitting]
  | cons opened rest =>
      rw [admitting]
      split
      · simp
      · simp

end reference

section simulation

/-- The map holds the window of the key, or has none where it is over at `t`. -/
def Follows (l : RateLimiter) (key : String) (window : List Int) (t : Int) : Prop :=
  match l.windows.get? key with
  | some w => window ≠ [] ∧ w.count = window.length ∧ w.resetAt = window.headD t + l.windowMs
  | none => ∀ opened ∈ window.head?, opened + l.windowMs ≤ t

variable {l : RateLimiter} {key k : String} {window : List Int} {t t' : Int}

theorem follows_new : (new max windowMs).Follows key [] t := by
  intro opened hOpened
  cases hOpened

theorem Follows.later (h : l.Follows key window t) (hLater : t ≤ t') : l.Follows key window t' := by
  unfold Follows at h ⊢
  cases hGet : l.windows.get? key with
  | none =>
      rw [hGet] at h
      intro opened hOpened
      exact (h opened hOpened).trans hLater
  | some w =>
      rw [hGet] at h
      obtain ⟨hSome, hCount, hReset⟩ := h
      refine ⟨hSome, hCount, ?_⟩
      cases window with
      | nil => exact absurd rfl hSome
      | cons opened rest => exact hReset

/-- The window a check counts in is the one the reference admits the request to. -/
theorem current_of_follows (h : l.Follows key window t) :
    let w := l.current t key
    w.count + 1 = (admitting l.windowMs window t).length ∧
      w.resetAt = (admitting l.windowMs window t).headD t + l.windowMs ∧ w.key = key := by
  unfold Follows at h
  rw [current]
  cases hGet : l.windows.get? key with
  | none =>
      rw [hGet] at h
      have hFresh : admitting l.windowMs window t = [t] := by
        cases window with
        | nil => rfl
        | cons opened rest => rw [admitting, if_pos (h opened rfl)]
      rw [hFresh]
      exact ⟨rfl, rfl, rfl⟩
  | some w =>
      rw [hGet] at h
      obtain ⟨hSome, hCount, hReset⟩ := h
      cases window with
      | nil => exact absurd rfl hSome
      | cons opened rest =>
          rw [List.headD_cons] at hReset
          dsimp only
          rw [hReset, admitting]
          split
          · exact ⟨rfl, rfl, rfl⟩
          · refine ⟨?_, hReset, Table.key_of_get? hGet⟩
            rw [hCount, List.length_append]
            rfl

theorem check_of_follows (h : l.Follows key window t) :
    (l.check t key).1 = decisionAt l.max l.windowMs (admitting l.windowMs window t) t ∧
      ((l.check t key).2).Follows key (admitting l.windowMs window t) t := by
  obtain ⟨hCount, hReset, hKey⟩ := current_of_follows h
  constructor
  · rw [check, decisionAt]
    dsimp only
    rw [hCount, hReset]
  · have hGet : ((l.check t key).2).windows.get? key =
        some { l.current t key with count := (l.current t key).count + 1 } := by
      rw [check, Table.get?_put, if_pos hKey]
    unfold Follows
    rw [hGet]
    exact ⟨admit_ne_nil _ window t, hCount, hReset⟩

theorem follows_check_other (hOther : k ≠ key) (h : l.Follows key window t) :
    ((l.check t k).2).Follows key window t := by
  have hKey : (l.current t k).key = k := by
    rw [current]
    cases hGet : l.windows.get? k with
    | none => rfl
    | some w =>
        dsimp only
        split
        · rfl
        · exact Table.key_of_get? hGet
  unfold Follows at h ⊢
  rw [check, Table.get?_put, hKey, if_neg hOther]
  exact h

theorem get?_dropExpired (windows : Table Window Window.key) (w : Window) :
    (dropExpired t windows w).get? key =
      if w.key = key ∧ w.resetAt ≤ t then none else windows.get? key := by
  rw [dropExpired]
  by_cases hExpired : w.resetAt ≤ t
  · rw [if_pos hExpired, Table.get?_delete]
    simp only [hExpired, and_true]
  · rw [if_neg hExpired, if_neg fun h => hExpired h.2]

theorem get?_foldl_dropExpired (rows : List Window) (windows : Table Window Window.key) :
    (rows.foldl (dropExpired t) windows).get? key =
      if ∃ w ∈ rows, w.key = key ∧ w.resetAt ≤ t then none else windows.get? key := by
  induction rows generalizing windows with
  | nil => simp
  | cons w rows ih =>
      rw [List.foldl_cons, ih, get?_dropExpired]
      by_cases hHead : w.key = key ∧ w.resetAt ≤ t
      · have hSome : ∃ w' ∈ w :: rows, w'.key = key ∧ w'.resetAt ≤ t :=
          ⟨w, List.mem_cons_self, hHead⟩
        rw [if_pos hSome, if_pos hHead, ite_self]
      · have hSame : (∃ w' ∈ w :: rows, w'.key = key ∧ w'.resetAt ≤ t) ↔
            ∃ w' ∈ rows, w'.key = key ∧ w'.resetAt ≤ t := by
          simp only [List.mem_cons, exists_eq_or_imp, hHead, false_or]
        rw [if_neg hHead]
        simp only [hSame]

/-- A sweep drops the window of a key only when it is over. -/
theorem follows_sweep (h : l.Follows key window t) : (l.sweep t).Follows key window t := by
  unfold Follows at h ⊢
  rw [sweep, get?_foldl_dropExpired]
  cases hGet : l.windows.get? key with
  | none =>
      rw [hGet] at h
      rw [ite_self]
      exact h
  | some w =>
      rw [hGet] at h
      by_cases hExpired : ∃ w' ∈ l.windows.rows, w'.key = key ∧ w'.resetAt ≤ t
      · rw [if_pos hExpired]
        obtain ⟨w', hMem', hKey', hEnd⟩ := hExpired
        have hSame : w' = w := by
          have hGet' := Table.get?_of_mem hMem'
          rw [hKey', hGet] at hGet'
          exact (Option.some.inj hGet').symm
        subst hSame
        obtain ⟨hSome, _, hReset⟩ := h
        intro opened hOpened
        rw [Option.mem_def, List.head?_eq_some_iff] at hOpened
        obtain ⟨rest, rfl⟩ := hOpened
        rw [List.headD_cons] at hReset
        exact hReset.symm.le.trans hEnd
      · rw [if_neg hExpired]
        exact h

end simulation

section runs

variable {key : String} {ops : List (Int × Op)}

theorem after_append (l : RateLimiter) (ops ops' : List (Int × Op)) :
    l.after (ops ++ ops') = (l.after ops).after ops' := by
  induction ops generalizing l with
  | nil => rfl
  | cons op ops ih =>
      obtain ⟨t, op⟩ := op
      cases op with
      | check k => exact ih _
      | sweep => exact ih _

/-- No call changes what the limiter was made with. -/
theorem after_config (l : RateLimiter) (ops : List (Int × Op)) :
    (l.after ops).max = l.max ∧ (l.after ops).windowMs = l.windowMs := by
  induction ops generalizing l with
  | nil => exact ⟨rfl, rfl⟩
  | cons op ops ih =>
      obtain ⟨t, op⟩ := op
      cases op with
      | check k => exact ih _
      | sweep => exact ih _

theorem after_max (l : RateLimiter) (ops : List (Int × Op)) : (l.after ops).max = l.max :=
  (l.after_config ops).1

theorem after_windowMs (l : RateLimiter) (ops : List (Int × Op)) :
    (l.after ops).windowMs = l.windowMs :=
  (l.after_config ops).2

theorem mem_of_mem_requests {s : Int} (h : s ∈ requests key ops) : ∃ op, (s, op) ∈ ops := by
  induction ops with
  | nil => cases h
  | cons op ops ih =>
      obtain ⟨t, op⟩ := op
      have hTail : s ∈ requests key ops → ∃ op', (s, op') ∈ (t, op) :: ops := by
        intro hMem
        obtain ⟨op', hOp⟩ := ih hMem
        exact ⟨op', List.mem_cons_of_mem _ hOp⟩
      cases op with
      | sweep => exact hTail h
      | check k =>
          rw [requests] at h
          split at h
          · cases h with
            | head => exact ⟨_, List.mem_cons_self⟩
            | tail _ hMem => exact hTail hMem
          · exact hTail h

theorem follows_after (l : RateLimiter) {window : List Int} {t : Int} (hOrdered : Ordered ops)
    (hLater : ∀ op ∈ ops, t ≤ op.1) (h : l.Follows key window t) {last : Int}
    (hLast : t ≤ last ∧ ∀ op ∈ ops, op.1 ≤ last) :
    (l.after ops).Follows key ((requests key ops).foldl (admitting l.windowMs) window) last := by
  induction ops generalizing l window t with
  | nil => exact h.later hLast.1
  | cons op ops ih =>
      obtain ⟨u, op⟩ := op
      obtain ⟨hHead, hTail⟩ := List.pairwise_cons.mp hOrdered
      have hLastTail : u ≤ last ∧ ∀ op ∈ ops, op.1 ≤ last :=
        ⟨hLast.2 _ List.mem_cons_self, fun op hOp => hLast.2 op (List.mem_cons_of_mem _ hOp)⟩
      have hNow := h.later (hLater _ List.mem_cons_self)
      cases op with
      | sweep => exact ih (l.sweep u) hTail hHead (follows_sweep hNow) hLastTail
      | check k =>
          by_cases hKey : k = key
          · subst hKey
            have hNext := ih (l.check u k).2 hTail hHead (check_of_follows hNow).2 hLastTail
            rw [requests, if_pos rfl, List.foldl_cons]
            exact hNext
          · have hNext := ih (l.check u k).2 hTail hHead (follows_check_other hKey hNow) hLastTail
            rw [requests, if_neg hKey]
            exact hNext

theorem decisions_of_follows (l : RateLimiter) {window : List Int} {t : Int} (hOrdered : Ordered ops)
    (hLater : ∀ op ∈ ops, t ≤ op.1) (h : l.Follows key window t) :
    decisions key l ops = reference l.max l.windowMs window (requests key ops) := by
  induction ops generalizing l window t with
  | nil => rfl
  | cons op ops ih =>
      obtain ⟨u, op⟩ := op
      obtain ⟨hHead, hTail⟩ := List.pairwise_cons.mp hOrdered
      have hNow := h.later (hLater _ List.mem_cons_self)
      cases op with
      | sweep => exact ih (l.sweep u) hTail hHead (follows_sweep hNow)
      | check k =>
          by_cases hKey : k = key
          · subst hKey
            obtain ⟨hDecision, hNext⟩ := check_of_follows hNow
            rw [decisions, requests, if_pos rfl, reference]
            dsimp only
            rw [if_pos rfl, hDecision, ih (l.check u k).2 hTail hHead hNext]
            rfl
          · rw [decisions, requests, if_neg hKey]
            dsimp only
            rw [if_neg hKey]
            exact ih (l.check u k).2 hTail hHead (follows_check_other hKey hNow)

/-- Until it ends a window only grows. -/
theorem foldl_admitting {window ts : List Int} (hSome : window ≠ [])
    (hOpen : ∀ s ∈ ts, s < window.headD 0 + windowMs) :
    ts.foldl (admitting windowMs) window = window ++ ts := by
  induction ts generalizing window with
  | nil => simp
  | cons s ts ih =>
      cases window with
      | nil => exact absurd rfl hSome
      | cons opened rest =>
          have hAdmit : admitting windowMs (opened :: rest) s = opened :: rest ++ [s] := by
            rw [admitting, if_neg (by have := hOpen s List.mem_cons_self; simpa using this)]
          have hRest := @ih (opened :: rest ++ [s]) (by simp) fun s' hs' =>
            hOpen s' (List.mem_cons_of_mem s hs')
          rw [List.foldl_cons, hAdmit, hRest]
          simp

variable {before between : List (Int × Op)} {t u : Int}

/-- The window in which a check was denied, at a later check. -/
theorem answer_after_denial
    (hOrdered : Ordered (before ++ (t, .check key) :: between ++ [(u, .check key)])) :
    ∃ window, window ≠ [] ∧
      (((new max windowMs).after before).check t key).1 = decisionAt max windowMs window t ∧
      (((new max windowMs).after (before ++ (t, .check key) :: between)).check u key).1 =
        decisionAt max windowMs (admitting windowMs ((requests key between).foldl (admitting windowMs) window) u)
          u := by
  have hSplit := List.pairwise_append.mp hOrdered
  have hFront := List.pairwise_append.mp hSplit.1
  have hCons := List.pairwise_cons.mp hFront.2.1
  have hMax : ((new max windowMs).after before).max = max := after_max _ before
  have hMs : ((new max windowMs).after before).windowMs = windowMs := after_windowMs _ before
  have hBefore : ∀ op ∈ before, op.1 ≤ t := fun op hOp => hFront.2.2 op hOp _ List.mem_cons_self
  have hLast : ∀ op ∈ (t, Op.check key) :: between, op.1 ≤ u := fun op hOp =>
    hSplit.2.2 op (List.mem_append_right _ hOp) _ List.mem_cons_self
  obtain ⟨start, hStart, hStartT⟩ : ∃ start, (∀ op ∈ before, start ≤ op.1) ∧ start ≤ t := by
    cases before with
    | nil => exact ⟨t, fun op hOp => (nomatch hOp), le_refl t⟩
    | cons op before =>
        refine ⟨op.1, ?_, hBefore op List.mem_cons_self⟩
        intro op' hOp'
        cases hOp' with
        | head => exact le_refl _
        | tail _ hMem => exact (List.pairwise_cons.mp hFront.1).1 op' hMem
  have hAt := follows_after (new max windowMs) hFront.1 hStart (@follows_new _ _ key start)
    ⟨hStartT, hBefore⟩
  obtain ⟨hDenied, hNext⟩ := check_of_follows hAt
  have hThen := follows_after _ hCons.2 hCons.1 hNext ⟨hLast _ List.mem_cons_self,
    fun op hOp => hLast op (List.mem_cons_of_mem _ hOp)⟩
  have hAnswer := (check_of_follows hThen).1
  have hNextMs : (((new max windowMs).after before).check t key).2.windowMs = windowMs := hMs
  have hNextMax : (((new max windowMs).after before).check t key).2.max = max := hMax
  rw [after_max, after_windowMs, hNextMs, hNextMax] at hAnswer
  rw [hMax, hMs] at hDenied
  rw [hMs] at hAnswer
  refine ⟨_, admit_ne_nil _ _ _, hDenied, ?_⟩
  rw [after_append]
  exact hAnswer

/-- Every key is answered as its own counter answers, a denial names the end of its
window, and neither sweeps nor other keys make a difference. -/
theorem rate_limiter_contract (hMax : 1 ≤ max) (key : String) :
    (∀ ops, Ordered ops → decisions key (new max windowMs) ops =
      reference max windowMs [] (requests key ops)) ∧
    (∀ before t between u,
      Ordered (before ++ (t, .check key) :: between ++ [(u, .check key)]) →
      let denied := (((new max windowMs).after before).check t key).1
      let answer :=
        (((new max windowMs).after (before ++ (t, .check key) :: between)).check u key).1
      denied.allowed = false →
        (u < denied.resetAt → answer.allowed = false) ∧
        (denied.resetAt ≤ u → (∀ s ∈ requests key between, s < denied.resetAt) →
          answer.allowed = true)) ∧
    ∀ ops ops', Ordered ops → Ordered ops' → requests key ops = requests key ops' →
      decisions key (new max windowMs) ops = decisions key (new max windowMs) ops' := by
  have hReference : ∀ ops, Ordered ops → decisions key (new max windowMs) ops =
      reference max windowMs [] (requests key ops) := by
    intro ops hOrdered
    cases ops with
    | nil => rfl
    | cons op ops =>
        refine decisions_of_follows _ hOrdered (t := op.1) ?_ follows_new
        intro op' hOp'
        cases hOp' with
        | head => exact le_refl _
        | tail _ hMem => exact (List.pairwise_cons.mp hOrdered).1 op' hMem
  refine ⟨hReference, ?_, ?_⟩
  · intro before t between u hOrdered denied answer hDenied
    obtain ⟨window, hSome, hFirst, hSecond⟩ :=
      @answer_after_denial max windowMs key before between t u hOrdered
    change (((new max windowMs).after before).check t key).1.allowed = false at hDenied
    rw [hFirst] at hDenied
    have hFull : ¬(window.length : Int) ≤ max := by simpa [decisionAt] using hDenied
    have hReset : denied.resetAt = window.headD 0 + windowMs := by
      change (((new max windowMs).after before).check t key).1.resetAt = _
      rw [hFirst]
      cases window with
      | nil => exact absurd rfl hSome
      | cons opened rest => rfl
    have hAnswer : answer = decisionAt max windowMs (admitting windowMs
        ((requests key between).foldl (admitting windowMs) window) u) u := hSecond
    rw [hReset, hAnswer]
    have hBetween : ∀ s ∈ requests key between, s ≤ u := by
      intro s hs
      obtain ⟨op, hOp⟩ := mem_of_mem_requests hs
      exact (List.pairwise_append.mp hOrdered).2.2 _
        (List.mem_append_right _ (List.mem_cons_of_mem _ hOp)) _ List.mem_cons_self
    constructor
    · intro hBefore
      have hOpen : ∀ s ∈ requests key between ++ [u], s < window.headD 0 + windowMs := by
        intro s hs
        cases List.mem_append.mp hs with
        | inl hMem => exact (hBetween s hMem).trans_lt hBefore
        | inr hMem => rwa [List.mem_singleton.mp hMem]
      have hGrown := foldl_admitting hSome hOpen
      rw [List.foldl_append, List.foldl_cons, List.foldl_nil] at hGrown
      rw [hGrown, decisionAt]
      simp only [List.length_append, Nat.cast_add, decide_eq_false_iff_not]
      omega
    · intro hOver hOpen
      rw [foldl_admitting hSome hOpen]
      cases window with
      | nil => exact absurd rfl hSome
      | cons opened rest =>
          rw [List.headD_cons] at hOver
          rw [List.cons_append, admitting, if_pos hOver, decisionAt]
          simpa using hMax
  · intro ops ops' hOrdered hOrdered' hSame
    rw [hReference ops hOrdered, hReference ops' hOrdered', hSame]

/-- One request each 1000 ms: a second one is denied until then, whatever other keys do. -/
theorem rate_limiter_contract_sample :
    decisions "k" (new 1 1000) [(0, .check "k"), (5, .check "j"), (7, .check "k"), (1000, .sweep),
      (1000, .check "k")] = reference 1 1000 [] [0, 7, 1000] := by
  apply (rate_limiter_contract (by decide) "k").1
  simp [Ordered]

end runs

end RateLimiter

end VpnPayment
