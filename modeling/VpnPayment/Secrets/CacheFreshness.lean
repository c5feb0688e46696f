import VpnPayment.Secrets.CachingSecretProvider

/-! What the cache of secrets serves, wherever reads fall between a fetch, the write of its
result and its removal from the map of fetches in flight. -/
namespace VpnPayment

open Collections

namespace SecretRuntime

variable {m : SecretRuntime} {name : String} {now : Int} {i j : Nat} {p : FetchPhase} {result : FetchResult}

/-- Of two fetches of one name, `i` was started after `j`. -/
def Newer (m : SecretRuntime) (i j : Nat) : Prop :=
  ∀ f g : Fetch, m.fetches[i]? = some f → m.fetches[j]? = some g → f.name = g.name → j < i

/-- What holds of a provider whatever calls were made and whatever has settled. -/
structure Invariant (m : SecretRuntime) : Prop where
  inFlight : ∀ name i, (m.provider.inFlight.get? name).map Prod.snd = some i ↔ m.Outstanding name i
  cached : ∀ name, (m.provider.cache.get? name).map (fun row => row.2.value) = m.latest m.delivered name
  delivered : ∀ i, i ∈ m.delivered ↔ ∃ f, m.fetches[i]? = some f ∧ f.phase.isDelivered = true
  settled : ∀ i, i ∈ m.settled ↔ ∃ f, m.fetches[i]? = some f ∧ f.phase ≠ .pending
  /-- A fetch is started when the earlier ones of its name are through. -/
  earlier : ∀ (i j : Nat) (f g : Fetch), i < j → m.fetches[i]? = some f → m.fetches[j]? = some g →
    f.name = g.name → f.phase.isOpen = false
  deliveredOrder : m.delivered.Pairwise m.Newer
  settledOrder : m.settled.Pairwise m.Newer

theorem invariant_start (ttlMs : Int) : (start ttlMs).Invariant := by
  constructor
  · intro name i
    simp [start, Outstanding]
  · intro name
    rfl
  · intro i
    simp [start]
  · intro i
    simp [start]
  · intro i j f g _ hFetch
    simp [start] at hFetch
  · exact .nil
  · exact .nil

/-- The list has the fetches that are in some phases. -/
def Lists (m : SecretRuntime) (log : List Nat) (P : FetchPhase → Prop) : Prop :=
  ∀ i, i ∈ log ↔ ∃ f, m.fetches[i]? = some f ∧ P f.phase

theorem Invariant.lists_delivered (h : m.Invariant) : m.Lists m.delivered (·.isDelivered = true) :=
  h.delivered

theorem Invariant.lists_settled (h : m.Invariant) : m.Lists m.settled (· ≠ .pending) :=
  h.settled

/-- The newest result of a name is the last one that was handed over. -/
theorem latest_cons (m : SecretRuntime) (i : Nat) (log : List Nat) (name : String) :
    m.latest (i :: log) name = ((m.answer i).bind (tells name)).getD (m.latest log name) := by
  rw [latest, List.findSome?_cons]
  cases (m.answer i).bind (tells name) <;> rfl

/-- The latest result depends on the answers of the fetches in the list only. -/
theorem latest_congr {m' : SecretRuntime} {log : List Nat} (h : ∀ i ∈ log, m'.answer i = m.answer i)
    (name : String) : m'.latest log name = m.latest log name := by
  induction log with
  | nil => rfl
  | cons i log ih =>
      have hFirst := h i (List.mem_cons_self ..)
      have hRest := ih fun j hMem => h j (List.mem_cons_of_mem _ hMem)
      simp only [latest, List.findSome?_cons, hFirst] at hRest ⊢
      cases (m.answer i).bind (tells name) with
      | some b => rfl
      | none => exact hRest

theorem Newer.congr {m' : SecretRuntime} (h : ∀ i : Nat, (m'.fetches[i]?).map Fetch.name = (m.fetches[i]?).map Fetch.name)
    (hNewer : m.Newer i j) : m'.Newer i j := by
  intro f g hf hg hName
  have hi := h i
  have hj := h j
  rw [hf] at hi
  rw [hg] at hj
  obtain ⟨f', hf', hNamef⟩ := Option.map_eq_some_iff.mp hi.symm
  obtain ⟨g', hg', hNameg⟩ := Option.map_eq_some_iff.mp hj.symm
  exact hNewer f' g' hf' hg' (by rw [hNamef, hNameg, hName])

section logs

variable {P : FetchPhase → Prop} {log : List Nat}

theorem lt_of_mem_log (hLog : m.Lists log P) (hMem : j ∈ log) :
    j < m.fetches.length := by
  obtain ⟨f, hFetch, -⟩ := (hLog j).mp hMem
  exact (List.getElem?_eq_some_iff.mp hFetch).1

/-- A fetch whose phase is not one of those listed. -/
theorem notMem_log (hFetch : m.fetches[i]? = some ⟨name, p⟩) (hNot : ¬P p)
    (hLog : m.Lists log P) : i ∉ log := by
  intro hMem
  obtain ⟨f, hf, hPhase⟩ := (hLog i).mp hMem
  rw [hFetch] at hf
  cases hf
  exact hNot hPhase

end logs

section refresh

variable {P : FetchPhase → Prop} {log : List Nat}

/-- A new fetch comes last. -/
theorem getElem?_started {fetches : List Fetch} {f : Fetch} :
    (fetches ++ [⟨name, .pending⟩])[i]? = some f ↔
      fetches[i]? = some f ∨ i = fetches.length ∧ f = ⟨name, .pending⟩ := by
  rw [List.getElem?_append]
  split
  · next hLt => exact ⟨.inl, fun h => h.resolve_right fun h => absurd hLt (by omega)⟩
  · next hLe =>
      have hGone : fetches[i]? = none := List.getElem?_eq_none (by omega)
      rw [hGone, List.getElem?_singleton]
      by_cases hLast : i = fetches.length
      · simp [hLast, eq_comm]
      · have hPast : i - fetches.length ≠ 0 := by omega
        simp [hLast, hPast]

/-- A new fetch stands in no list of phases to come. -/
theorem log_started (hNot : ¬P .pending)
    (hLog : m.Lists log P) (j : Nat) :
    j ∈ log ↔ ∃ f, (m.fetches ++ [⟨name, .pending⟩])[j]? = some f ∧ P f.phase := by
  simp only [getElem?_started, hLog j]
  constructor
  · rintro ⟨f, hFetch, hPhase⟩
    exact ⟨f, .inl hFetch, hPhase⟩
  · rintro ⟨f, hFetch | ⟨-, rfl⟩, hPhase⟩
    · exact ⟨f, hFetch, hPhase⟩
    · exact absurd hPhase hNot

/-- The order of older fetches stays. -/
theorem pairwise_started {m' : SecretRuntime} (hStarted : m'.fetches = m.fetches ++ [⟨name, .pending⟩])
    (hOld : ∀ j ∈ log, j < m.fetches.length) (hOrder : log.Pairwise m.Newer) : log.Pairwise m'.Newer := by
  refine hOrder.imp_of_mem fun {i j} hi hj hNewer f g hf hg hName => ?_
  rw [hStarted, List.getElem?_append_left (hOld _ hi)] at hf
  rw [hStarted, List.getElem?_append_left (hOld _ hj)] at hg
  exact hNewer f g hf hg hName

/-- A fetch is started where none of its name is in flight, so the earlier ones are through. -/
theorem earlier_started (h : m.Invariant) (hFree : ∀ i, ¬m.Outstanding name i) (i j : Nat) (f g : Fetch)
    (hLt : i < j) (hf : (m.fetches ++ [⟨name, .pending⟩])[i]? = some f)
    (hg : (m.fetches ++ [⟨name, .pending⟩])[j]? = some g) (hName : f.name = g.name) :
    f.phase.isOpen = false := by
  have hOld : m.fetches[i]? = some f := by
    refine (getElem?_started.mp hf).resolve_right fun hLast => ?_
    have hBound := (List.getElem?_eq_some_iff.mp hg).1
    rw [List.length_append, List.length_singleton] at hBound
    omega
  rcases getElem?_started.mp hg with hg | ⟨rfl, rfl⟩
  · exact h.earlier i j f g hLt hOld hg hName
  · by_contra hOpen
    exact hFree i ⟨f, hOld, hName, by simpa using hOpen⟩

/-- The new fetch is the one in flight. -/
theorem inFlight_started (h : m.Invariant) (hFree : ∀ i, ¬m.Outstanding name i) (other : String) (i : Nat) :
    ((m.provider.inFlight.put (name, m.fetches.length)).get? other).map Prod.snd = some i ↔
      ∃ f, (m.fetches ++ [⟨name, .pending⟩])[i]? = some f ∧ f.name = other ∧ f.phase.isOpen = true := by
  rw [Table.get?_put]
  simp only [getElem?_started]
  constructor
  · intro hGet
    split at hGet
    · next hName =>
        obtain rfl := Option.some.inj hGet
        exact ⟨⟨name, .pending⟩, .inr ⟨rfl, rfl⟩, hName, rfl⟩
    · obtain ⟨f, hFetch, hName, hOpen⟩ := (h.inFlight other i).mp hGet
      exact ⟨f, .inl hFetch, hName, hOpen⟩
  · rintro ⟨f, hFetch | ⟨rfl, rfl⟩, hName, hOpen⟩
    · have hNe : name ≠ other := by
        rintro rfl
        exact hFree i ⟨f, hFetch, hName, hOpen⟩
      rw [if_neg hNe]
      exact (h.inFlight other i).mpr ⟨f, hFetch, hName, hOpen⟩
    · rw [if_pos hName]
      rfl

/-- A fetch is started if none of the name is in flight. -/
theorem refresh_invariant (h : m.Invariant) : (m.refresh name).1.Invariant := by
  unfold refresh
  cases hNone : m.provider.inFlight.get? name with
  | some existing => exact h
  | none =>
      have hFree : ∀ i, ¬m.Outstanding name i := by
        intro i hOpen
        have hSome := (h.inFlight name i).mpr hOpen
        rw [hNone] at hSome
        cases hSome
      constructor
      · exact inFlight_started h hFree
      · intro other
        rw [h.cached other]
        refine (latest_congr (fun j hMem => ?_) other).symm
        simp only [answer, List.getElem?_append_left (lt_of_mem_log h.lists_delivered hMem)]
      · exact log_started (by simp [FetchPhase.isDelivered]) h.lists_delivered
      · exact log_started (by simp) h.lists_settled
      · exact earlier_started h hFree
      · exact pairwise_started rfl (fun _ hMem => lt_of_mem_log h.lists_delivered hMem) h.deliveredOrder
      · exact pairwise_started rfl (fun _ hMem => lt_of_mem_log h.lists_settled hMem) h.settledOrder

/-- Priming starts fetches only. -/
theorem prime_invariant (h : m.Invariant) (names : List String) : (m.prime names).Invariant := by
  induction names generalizing m with
  | nil => exact h
  | cons name names ih => exact ih (refresh_invariant h)

/-- Serving a name may start one fetch. -/
theorem serve_invariant (h : m.Invariant) : (m.serve name now).2.Invariant := by
  unfold serve
  split
  · exact refresh_invariant h
  · show (if _ then _ else _ : SecretRuntime).Invariant
    split
    · exact refresh_invariant h
    · exact h

end refresh

section fetches

variable {q : FetchPhase} {P : FetchPhase → Prop} {log : List Nat}

/-- The fetches after one of them has moved on. -/
theorem getElem?_moved (hFetch : m.fetches[i]? = some ⟨name, p⟩) (j : Nat) (f : Fetch) :
    (m.fetches.set i ⟨name, q⟩)[j]? = some f ↔
      if j = i then f = ⟨name, q⟩ else m.fetches[j]? = some f := by
  have hLt := (List.getElem?_eq_some_iff.mp hFetch).1
  rw [List.getElem?_set]
  by_cases hEq : i = j
  · subst hEq
    simp [hLt, eq_comm]
  · simp [hEq, Ne.symm hEq]

/-- A list of the fetches in some phases stays if the fetch does not enter or leave them, -/
theorem log_kept (hFetch : m.fetches[i]? = some ⟨name, p⟩) (hSame : P p ↔ P q)
    (hLog : m.Lists log P) (j : Nat) :
    j ∈ log ↔ ∃ f, (m.fetches.set i ⟨name, q⟩)[j]? = some f ∧ P f.phase := by
  simp only [getElem?_moved hFetch]
  by_cases hEq : j = i
  · subst hEq
    rw [hLog j]
    simp [hFetch, hSame]
  · simp [hEq, hLog j]

/-- and gets the fetch that enters them. -/
theorem log_grown (hFetch : m.fetches[i]? = some ⟨name, p⟩) (hNew : P q)
    (hLog : m.Lists log P) (j : Nat) :
    j ∈ i :: log ↔ ∃ f, (m.fetches.set i ⟨name, q⟩)[j]? = some f ∧ P f.phase := by
  simp only [getElem?_moved hFetch, List.mem_cons]
  by_cases hEq : j = i
  · subst hEq
    simp [hNew]
  · simp [hEq, hLog j]

/-- The fetches of a name in flight stay as long as the one that moves is open. -/
theorem outstanding_moved {m' : SecretRuntime} (hFetch : m.fetches[i]? = some ⟨name, p⟩)
    (hMoved : m'.fetches = m.fetches.set i ⟨name, q⟩) (hOpen : p.isOpen = q.isOpen) (other : String)
    (j : Nat) : m.Outstanding other j ↔ m'.Outstanding other j := by
  rw [Outstanding, Outstanding, hMoved]
  simp only [getElem?_moved hFetch]
  by_cases hEq : j = i
  · subst hEq
    simp [hFetch, hOpen]
  · simp [hEq]

/-- Only fetches of one name that are both through or the same can stand in the way. -/
theorem newer_of_open (h : m.Invariant) (hFetch : m.fetches[i]? = some ⟨name, p⟩)
    (hOpen : p.isOpen = true) (hNe : j ≠ i) : m.Newer i j := by
  intro f g hf hg hName
  by_contra hNot
  have hLt : i < j := by omega
  have hClosed := h.earlier i j f g hLt hf hg hName
  rw [hFetch] at hf
  cases hf
  rw [hOpen] at hClosed
  cases hClosed

/-- An open fetch is newer than those listed before it. -/
theorem pairwise_grown (h : m.Invariant) (hFetch : m.fetches[i]? = some ⟨name, p⟩)
    (hOpen : p.isOpen = true) (hNew : i ∉ log) (hOrder : log.Pairwise m.Newer) :
    (i :: log).Pairwise m.Newer := by
  refine List.pairwise_cons.mpr ⟨fun j hMem => newer_of_open h hFetch hOpen ?_, hOrder⟩
  rintro rfl
  exact hNew hMem

/-- Names do not change, so the order of the fetches stays. -/
theorem pairwise_moved {m' : SecretRuntime} (hFetch : m.fetches[i]? = some ⟨name, p⟩)
    (hMoved : m'.fetches = m.fetches.set i ⟨name, q⟩) (hOrder : log.Pairwise m.Newer) :
    log.Pairwise m'.Newer := by
  refine hOrder.imp fun hNewer => hNewer.congr fun j => ?_
  rw [hMoved, List.getElem?_set]
  split
  · next hEq =>
      subst hEq
      rw [if_pos (List.getElem?_eq_some_iff.mp hFetch).1, hFetch]
      rfl
  · rfl

/-- The answers of the other fetches stay. -/
theorem answer_moved {m' : SecretRuntime} (hMoved : m'.fetches = m.fetches.set i ⟨name, q⟩)
    (hNe : j ≠ i) : m'.answer j = m.answer j := by
  rw [answer, answer, hMoved, List.getElem?_set_ne (Ne.symm hNe)]

/-- What the fetches of a list told stays if the one that moves is not among them, -/
theorem latest_moved {m' : SecretRuntime} (hMoved : m'.fetches = m.fetches.set i ⟨name, q⟩)
    (hNew : i ∉ log) (other : String) : m'.latest log other = m.latest log other := by
  refine latest_congr (fun j hMem => answer_moved hMoved ?_) other
  rintro rfl
  exact hNew hMem

/-- or keeps its result. -/
theorem latest_kept {m' : SecretRuntime} (hFetch : m.fetches[i]? = some ⟨name, p⟩)
    (hMoved : m'.fetches = m.fetches.set i ⟨name, q⟩) (hSame : q.result? = p.result?) (other : String) :
    m'.latest log other = m.latest log other := by
  refine latest_congr (fun j _ => ?_) other
  by_cases hEq : j = i
  · subst hEq
    rw [answer, answer, hMoved, List.getElem?_set_self (List.getElem?_eq_some_iff.mp hFetch).1, hFetch,
      Option.bind_some, Option.bind_some, hSame]
  · exact answer_moved hMoved hEq

/-- A fetch that stays open: nothing else can have been started since. -/
theorem earlier_moved (h : m.Invariant) (hFetch : m.fetches[i]? = some ⟨name, p⟩)
    (hOpen : q.isOpen = true → p.isOpen = true) (j k : Nat) (f g : Fetch) (hLt : j < k)
    (hf : (m.fetches.set i ⟨name, q⟩)[j]? = some f) (hg : (m.fetches.set i ⟨name, q⟩)[k]? = some g)
    (hName : f.name = g.name) : f.phase.isOpen = false := by
  rw [getElem?_moved hFetch] at hf hg
  have hOld : ∀ g' : Fetch, m.fetches[k]? = some g' → g'.name = g.name → f.phase.isOpen = false := by
    intro g' hg' hName'
    split at hf
    · next hEq =>
        subst hEq
        subst hf
        have hClosed : p.isOpen = false := h.earlier j k _ g' hLt hFetch hg' (hName.trans hName'.symm)
        by_contra hStill
        rw [hOpen (by simpa using hStill)] at hClosed
        cases hClosed
    · exact h.earlier j k f g' hLt hf hg' (hName.trans hName'.symm)
  split at hg
  · next hEq =>
      subst hEq
      subst hg
      exact hOld _ hFetch rfl
  · exact hOld g hg rfl

end fetches

section moves

/-- A fetch that settles has its result. -/
theorem settle_invariant (h : m.Invariant) : (m.settle i result).Invariant := by
  unfold settle
  split
  · next name hFetch =>
      have hDelivered : i ∉ m.delivered := notMem_log hFetch (by simp [FetchPhase.isDelivered]) h.lists_delivered
      have hSettled : i ∉ m.settled := notMem_log hFetch (by simp) h.lists_settled
      constructor
      · exact fun other j => (h.inFlight other j).trans (outstanding_moved hFetch rfl (by rfl) other j)
      · exact fun other => (h.cached other).trans (latest_moved rfl hDelivered other).symm
      · exact log_kept hFetch (by simp [FetchPhase.isDelivered]) h.lists_delivered
      · exact log_grown hFetch (by simp) h.lists_settled
      · exact earlier_moved h hFetch fun _ => rfl
      · exact pairwise_moved hFetch rfl h.deliveredOrder
      · exact pairwise_moved hFetch rfl (pairwise_grown h hFetch rfl hSettled h.settledOrder)
  · exact h

/-- The result that is handed over is what the cache holds now, unless it is a rejection. -/
theorem onFetched_cached {provider : CachingSecretProvider} {m' : SecretRuntime} {log : List Nat}
    (hAnswer : m'.answer i = some (name, result))
    (hCached : ∀ n, (provider.cache.get? n).map (fun row => row.2.value) = m'.latest log n) (n : String) :
    ((onFetched provider name now result).cache.get? n).map (fun row => row.2.value) =
      m'.latest (i :: log) n := by
  rw [latest_cons, hAnswer, Option.bind_some, ← hCached n]
  cases result with
  | value secret =>
      rw [onFetched, Table.get?_put]
      by_cases hName : name = n <;> simp [hName, tells]
  | absent =>
      rw [onFetched, Table.get?_delete]
      by_cases hName : name = n <;> simp [hName, tells]
  | rejected => simp [tells, onFetched]

/-- The first continuation of a settled fetch. -/
theorem resume_settled (hFetch : m.fetches[i]? = some ⟨name, .settled result⟩) :
    m.resume i now = ⟨onFetched m.provider name now result,
      m.fetches.set i ⟨name, .delivered result⟩, m.settled, i :: m.delivered⟩ := by
  rw [resume, hFetch]

/-- The second one. -/
theorem resume_delivered (hFetch : m.fetches[i]? = some ⟨name, .delivered result⟩) :
    m.resume i now = ⟨onFinally m.provider name, m.fetches.set i ⟨name, .done result⟩,
      m.settled, m.delivered⟩ := by
  rw [resume, hFetch]

/-- The result of a settled fetch is handed over. -/
theorem invariant_delivered (h : m.Invariant) (hFetch : m.fetches[i]? = some ⟨name, .settled result⟩) :
    (m.resume i now).Invariant := by
  have hNew : i ∉ m.delivered := notMem_log hFetch (by simp [FetchPhase.isDelivered]) h.lists_delivered
  have hLt := (List.getElem?_eq_some_iff.mp hFetch).1
  have hSame : (onFetched m.provider name now result).inFlight = m.provider.inFlight := by
    cases result <;> rfl
  rw [resume_settled hFetch]
  constructor
  · intro other j
    rw [hSame, h.inFlight other j]
    exact outstanding_moved hFetch rfl (by rfl) other j
  · refine onFetched_cached ?_ fun n => (h.cached n).trans (latest_moved rfl hNew n).symm
    simp [answer, hLt, FetchPhase.result?]
  · exact log_grown hFetch (by simp [FetchPhase.isDelivered]) h.lists_delivered
  · exact log_kept hFetch (by simp) h.lists_settled
  · exact earlier_moved h hFetch fun _ => rfl
  · exact pairwise_moved hFetch rfl (pairwise_grown h hFetch rfl hNew h.deliveredOrder)
  · exact pairwise_moved hFetch rfl h.settledOrder

/-- The last continuation takes the one fetch of its name out of the map. -/
theorem inFlight_finished (h : m.Invariant) (hFetch : m.fetches[i]? = some ⟨name, .delivered result⟩)
    (other : String) (j : Nat) :
    ((onFinally m.provider name).inFlight.get? other).map Prod.snd = some j ↔
      ∃ f, (m.fetches.set i ⟨name, .done result⟩)[j]? = some f ∧ f.name = other ∧ f.phase.isOpen = true := by
  rw [onFinally, Table.get?_delete]
  simp only [getElem?_moved hFetch]
  by_cases hName : name = other
  · subst hName
    rw [if_pos rfl]
    constructor
    · intro hGet
      cases hGet
    · rintro ⟨f, hf, hName, hOpen⟩
      split at hf
      · subst hf
        cases hOpen
      · next hNe =>
          have hThis := (h.inFlight name i).mpr ⟨_, hFetch, rfl, rfl⟩
          rw [(h.inFlight name j).mpr ⟨f, hf, hName, hOpen⟩] at hThis
          exact absurd (Option.some.inj hThis) hNe
  · rw [if_neg hName, h.inFlight other j, Outstanding]
    by_cases hEq : j = i
    · subst hEq
      simp [hFetch, hName]
    · simp [hEq]

/-- A fetch that was handed over is through. -/
theorem invariant_done (h : m.Invariant) (hFetch : m.fetches[i]? = some ⟨name, .delivered result⟩) :
    (m.resume i now).Invariant := by
  rw [resume_delivered hFetch]
  constructor
  · exact inFlight_finished h hFetch
  · exact fun other => (h.cached other).trans (latest_kept hFetch rfl (by rfl) other).symm
  · exact log_kept hFetch (by simp [FetchPhase.isDelivered]) h.lists_delivered
  · exact log_kept hFetch (by simp) h.lists_settled
  · exact earlier_moved h hFetch nofun
  · exact pairwise_moved hFetch rfl h.deliveredOrder
  · exact pairwise_moved hFetch rfl h.settledOrder

/-- A fetch that is resumed runs its next continuation. -/
theorem resume_invariant (h : m.Invariant) : (m.resume i now).Invariant := by
  cases hFetch : m.fetches[i]? with
  | none => rwa [resume, hFetch]
  | some f =>
      obtain ⟨name, phase⟩ := f
      cases phase with
      | pending => rwa [resume, hFetch]
      | settled result => exact invariant_delivered h hFetch
      | delivered result => exact invariant_done h hFetch
      | done result => rwa [resume, hFetch]

/-- Every event keeps the invariant. -/
theorem step_invariant (h : m.Invariant) (event : SecretEvent) : (m.step event).Invariant := by
  cases event with
  | get name now => exact serve_invariant h
  | getRotating name now => exact serve_invariant h
  | refresh name => exact refresh_invariant h
  | prime names => exact prime_invariant h names
  | settle fetch result => exact settle_invariant h
  | resume fetch now => exact resume_invariant h

/-- So does every run. -/
theorem run_invariant (h : m.Invariant) (events : List SecretEvent) : (m.run events).Invariant := by
  induction events generalizing m with
  | nil => exact h
  | cons event events ih => exact ih (step_invariant h event)

end moves

/-- What callers can rely on. -/
structure Fresh (m : SecretRuntime) : Prop where
  /-- At most one fetch of a name is in flight. -/
  single : ∀ name i j, m.Outstanding name i → m.Outstanding name j → i = j
  /-- `get` answers what the newest fetch told whose result has been handed over and was not a
  rejection. -/
  get : ∀ name now, (m.get name now).1 = (m.latest m.delivered name).map Secret.current
  getRotating : ∀ name now, (m.getRotating name now).1 = m.latest m.delivered name
  /-- Results are handed over in the order in which the fetches of a name were started. -/
  inOrder : m.delivered.Pairwise m.Newer
  /-- Those handed over are the fetches that have run their first continuation. -/
  handedOver : ∀ i, i ∈ m.delivered ↔ ∃ f, m.fetches[i]? = some f ∧ f.phase.isDelivered = true
  /-- What the source settles a fetch to is its answer. -/
  settles : ∀ i name result, m.fetches[i]? = some ⟨name, .pending⟩ →
    (m.settle i result).settled = i :: m.settled ∧
      (m.settle i result).answer i = some (name, result)
  /-- The first continuation of a settled fetch hands its result over, -/
  handed : ∀ i name result, m.fetches[i]? = some ⟨name, .settled result⟩ → ∀ now,
    (m.resume i now).delivered = i :: m.delivered ∧
      (m.resume i now).fetches[i]? = some ⟨name, .delivered result⟩
  /-- and from then on it is what is read of the name. A rejection changes nothing, and other
  names are read as before. -/
  served : ∀ i name result, m.fetches[i]? = some ⟨name, .settled result⟩ → ∀ now other later,
    ((m.resume i now).getRotating other later).1 =
      (tells other (name, result)).getD (m.getRotating other later).1
  /-- The second one frees the name. -/
  cleared : ∀ i name result, m.fetches[i]? = some ⟨name, .delivered result⟩ → ∀ now,
    (m.resume i now).provider.inFlight.get? name = none ∧
      ∀ j, ¬(m.resume i now).Outstanding name j
  /-- Once no continuation is queued, every result that has settled is handed over. -/
  caughtUp : (∀ f ∈ m.fetches, f.phase.isQueued = false) →
    ∀ name, m.latest m.settled name = m.latest m.delivered name
  /-- A rejected fetch leaves the cache alone when it settles and in both continuations. -/
  rejected : ∀ (i : Nat) (f : Fetch), m.fetches[i]? = some f → f.phase.result? = some .rejected →
    ∀ now, (m.resume i now).provider.cache = m.provider.cache
  settling : ∀ i result, (m.settle i result).provider = m.provider
  /-- When no fetch is outstanding none is in the map, -/
  idle : (∀ name i, ¬m.Outstanding name i) → m.provider.inFlight.rows = []
  /-- and where none of the name is, a refresh, or a read that misses or is stale, starts one. -/
  starts : ∀ name, (∀ i, ¬m.Outstanding name i) →
    (m.refresh name).1.fetches = m.fetches ++ [⟨name, .pending⟩] ∧
    ∀ now, (∀ row, m.provider.cache.get? name = some row → now ≥ row.2.expiresAt) →
      (m.get name now).2.fetches = m.fetches ++ [⟨name, .pending⟩]
  /-- The promise that `refresh` returns is that of the one open fetch of the name. -/
  shared : ∀ name, (m.refresh name).1.Outstanding name (m.refresh name).2
  primed : ∀ names, ∀ name ∈ names, ∃ i, (m.prime names).Outstanding name i

variable (now) in
/-- A name is served with the newest result handed over. -/
theorem serve_value (h : m.Invariant) : (m.serve name now).1 = m.latest m.delivered name := by
  rw [← h.cached name, serve]
  split
  · next hNone => simp [hNone]
  · next hSome => simp [hSome]

/-- Two lists of fetches with the same members, both newest first. -/
theorem latest_of_mem_iff {log log' : List Nat} (h : log.Pairwise m.Newer) (h' : log'.Pairwise m.Newer)
    (hSame : ∀ i, i ∈ log ↔ i ∈ log') (name : String) : m.latest log name = m.latest log' name := by
  let told : Nat → Option (Option Secret) := fun i => (m.answer i).bind (tells name)
  have hNamed : ∀ i, (told i).isSome = true → ∃ f, m.fetches[i]? = some f ∧ f.name = name := by
    intro i hTold
    cases hFetch : m.fetches[i]? with
    | none => simp [told, answer, hFetch] at hTold
    | some f =>
        refine ⟨f, rfl, ?_⟩
        by_contra hName
        have hNone : told i = none := by
          simp only [told, answer, hFetch, Option.bind_some]
          cases f.phase.result? with
          | none => rfl
          | some result => cases result <;> simp [tells, hName]
        rw [hNone] at hTold
        cases hTold
  have hDescending : ∀ l : List Nat, l.Pairwise m.Newer →
      (l.filter fun i => (told i).isSome).Pairwise (· > ·) := by
    intro l hOrder
    refine (hOrder.filter _).imp_of_mem fun {i j} hi hj hNewer => ?_
    obtain ⟨f, hf, hNamef⟩ := hNamed i (List.mem_filter.mp hi).2
    obtain ⟨g, hg, hNameg⟩ := hNamed j (List.mem_filter.mp hj).2
    exact hNewer f g hf hg (hNamef.trans hNameg.symm)
  have hFilter : ∀ l : List Nat, l.findSome? told = (l.filter fun i => (told i).isSome).findSome? told := by
    intro l
    induction l with
    | nil => rfl
    | cons i l ih => cases hTold : told i <;> simp [hTold, ih]
  have hEq : (log.filter fun i => (told i).isSome) = log'.filter fun i => (told i).isSome := by
    apply List.Perm.eq_of_pairwise (fun i j _ _ (hij : i > j) (hji : j > i) => absurd hij (by omega))
      (hDescending log h) (hDescending log' h')
    refine (List.perm_ext_iff_of_nodup ?_ ?_).mpr fun i => by simp [hSame]
    · exact (hDescending log h).imp fun hLt => by omega
    · exact (hDescending log' h').imp fun hLt => by omega
  show (log.findSome? told).join = (log'.findSome? told).join
  rw [hFilter log, hEq, ← hFilter log']

/-- The rotating variant serves the same. -/
theorem getRotating_value (h : m.Invariant) (name : String) (now : Int) :
    (m.getRotating name now).1 = m.latest m.delivered name := by
  have hValue := @serve_value m name now h
  rw [← hValue, SecretRuntime.getRotating]
  dsimp only
  cases (m.serve name now).1 with
  | none => rfl
  | some secret =>
      obtain ⟨current, _ | previous⟩ := secret
      · rfl
      · rfl

/-- A result that is handed over is what is read next. -/
theorem resume_served (h : m.Invariant) (hFetch : m.fetches[i]? = some ⟨name, .settled result⟩)
    (other : String) (later : Int) : ((m.resume i now).getRotating other later).1 =
      (tells other (name, result)).getD (m.getRotating other later).1 := by
  have hLt := (List.getElem?_eq_some_iff.mp hFetch).1
  have hNew : i ∉ m.delivered := by
    intro hMem
    obtain ⟨f, hf, hPhase⟩ := (h.delivered i).mp hMem
    rw [hFetch] at hf
    cases hf
    cases hPhase
  have hAnswer : (m.resume i now).answer i = some (name, result) := by
    simp [resume_settled hFetch, answer, hLt, FetchPhase.result?]
  have hOthers : ∀ j ∈ m.delivered, (m.resume i now).answer j = m.answer j := by
    intro j hMem
    refine answer_moved (by rw [resume_settled hFetch]) ?_
    rintro rfl
    exact hNew hMem
  have hLog : (m.resume i now).delivered = i :: m.delivered := by rw [resume_settled hFetch]
  rw [getRotating_value (resume_invariant h), getRotating_value h, hLog, latest_cons, hAnswer,
    Option.bind_some, latest_congr hOthers]

/-- Where no fetch of the name is in flight, one is started. -/
theorem refresh_starts (h : m.Invariant) (hFree : ∀ i, ¬m.Outstanding name i) :
    (m.refresh name).1.fetches = m.fetches ++ [⟨name, .pending⟩] := by
  have hNone : m.provider.inFlight.get? name = none := by
    cases hGet : m.provider.inFlight.get? name with
    | none => rfl
    | some row => exact absurd ((h.inFlight name row.2).mp (by rw [hGet]; rfl)) (hFree row.2)
  simp [refresh, hNone]

/-- A refresh joins the fetch in flight. -/
theorem refresh_shared (h : m.Invariant) (name : String) :
    (m.refresh name).1.Outstanding name (m.refresh name).2 := by
  refine ((refresh_invariant h).inFlight name _).mp ?_
  unfold refresh
  cases hGet : m.provider.inFlight.get? name with
  | some existing => simp [hGet]
  | none => simp

/-- A refresh leaves the fetches in flight alone. -/
theorem Outstanding.refresh (h : m.Outstanding name i) (other : String) :
    (m.refresh other).1.Outstanding name i := by
  obtain ⟨f, hFetch, hName, hOpen⟩ := h
  unfold SecretRuntime.refresh
  cases m.provider.inFlight.get? other with
  | some existing => exact ⟨f, hFetch, hName, hOpen⟩
  | none => exact ⟨f, getElem?_started.mpr (.inl hFetch), hName, hOpen⟩

/-- Priming leaves a fetch in flight. -/
theorem Outstanding.prime (h : m.Outstanding name i) (names : List String) :
    (m.prime names).Outstanding name i := by
  induction names generalizing m with
  | nil => exact h
  | cons other names ih => exact ih (h.refresh other)

/-- Every name that is primed has a fetch in flight. -/
theorem prime_outstanding (h : m.Invariant) {names : List String} (hMem : name ∈ names) :
    ∃ i, (m.prime names).Outstanding name i := by
  induction names generalizing m with
  | nil => cases hMem
  | cons other names ih =>
      rcases List.mem_cons.mp hMem with rfl | hMem
      · exact ⟨_, (refresh_shared h name).prime names⟩
      · exact ih (refresh_invariant h) hMem

/-- The four facts are read off the invariant. -/
theorem Invariant.fresh (h : m.Invariant) : m.Fresh := by
  constructor
  · intro name i j hi hj
    have hThis := (h.inFlight name i).mpr hi
    rw [(h.inFlight name j).mpr hj] at hThis
    exact (Option.some.inj hThis).symm
  · intro name now
    rw [← serve_value now h]
    rfl
  · exact getRotating_value h
  · exact h.deliveredOrder
  · exact h.delivered
  · intro i name result hFetch
    have hLt := (List.getElem?_eq_some_iff.mp hFetch).1
    have hSettle : m.settle i result = { m with
        fetches := m.fetches.set i ⟨name, .settled result⟩, settled := i :: m.settled } := by
      rw [settle, hFetch]
    rw [hSettle]
    exact ⟨rfl, by simp [answer, hLt, FetchPhase.result?]⟩
  · intro i name result hFetch now
    rw [resume_settled hFetch]
    exact ⟨rfl, List.getElem?_set_self (List.getElem?_eq_some_iff.mp hFetch).1⟩
  · intro i name result hFetch now other later
    exact resume_served h hFetch other later
  · intro i name result hFetch now
    have hNone : (m.resume i now).provider.inFlight.get? name = none := by
      simp [resume_delivered hFetch, onFinally]
    refine ⟨hNone, fun j hOpen => ?_⟩
    have hAfter : (m.resume i now).Invariant := resume_invariant h
    have hSome := (hAfter.inFlight name j).mpr hOpen
    rw [hNone] at hSome
    cases hSome
  · intro hQuiet name
    refine latest_of_mem_iff h.settledOrder h.deliveredOrder (fun i => ?_) name
    rw [h.settled i, h.delivered i]
    refine exists_congr fun f => and_congr_right fun hFetch => ?_
    have hNot := hQuiet f (List.mem_of_getElem? hFetch)
    cases hPhase : f.phase <;> simp_all [FetchPhase.isQueued, FetchPhase.isDelivered]
  · intro i f hFetch hRejected now
    unfold resume
    split
    · next hPhase =>
        rw [hFetch] at hPhase
        cases hPhase
        cases hRejected
        rfl
    · rfl
    · rfl
  · intro i result
    unfold settle
    split <;> rfl
  · intro hIdle
    cases hRows : m.provider.inFlight.rows with
    | nil => rfl
    | cons row rows =>
        have hMem : row ∈ m.provider.inFlight.rows := by simp [hRows]
        have hGet := Table.get?_of_mem hMem
        exact absurd ((h.inFlight row.1 row.2).mp (by rw [hGet]; rfl)) (hIdle row.1 row.2)
  · intro name hFree
    have hStarts := refresh_starts h hFree
    refine ⟨hStarts, fun now hStale => ?_⟩
    show (m.serve name now).2.fetches = _
    unfold serve
    split
    · exact hStarts
    · next hRow =>
        rw [if_pos (hStale _ hRow)]
        exact hStarts
  · exact refresh_shared h
  · exact fun names name hMem => prime_outstanding h hMem

end SecretRuntime

/-- Whatever calls are made, and whenever fetches settle and their continuations run. -/
theorem secrets_fresh (ttlMs : Int) (events : List SecretEvent) :
    ((SecretRuntime.start ttlMs).run events).Fresh :=
  (SecretRuntime.run_invariant (SecretRuntime.invariant_start ttlMs) events).fresh

/-- A value is fetched and served. A second fetch is rejected, and a third one, started by a
stale read, brings a new value, which is read as soon as it is handed over. -/
theorem secrets_fresh_rotated :
    let events : List SecretEvent :=
      [.prime ["jwt"], .get "jwt" 0, .settle 0 (.value ⟨"first", none⟩), .resume 0 5, .resume 0 5,
        .refresh "jwt", .settle 1 .rejected, .resume 1 40, .resume 1 40, .get "jwt" 120,
        .settle 2 (.value ⟨"second", some "first"⟩)]
    let m := (SecretRuntime.start 100).run events
    m.Fresh ∧ m.fetches[2]? = some ⟨"jwt", .settled (.value ⟨"second", some "first"⟩)⟩ ∧
      (m.get "jwt" 125).1 = some "first" ∧
      ((m.resume 2 130).getRotating "jwt" 130).1 = some ⟨"second", some "first"⟩ := by
  intro events m
  have hFresh : m.Fresh := secrets_fresh 100 events
  exact ⟨hFresh, rfl, rfl, hFresh.served 2 "jwt" _ rfl 130 "jwt" 130⟩

end VpnPayment
