import VpnPayment.Merchants.Records

/-! Suspending a merchant and rotating its key while other calls are in flight. Both
methods read the merchant and write the whole record back. -/
namespace VpnPayment

open Async Collections

def MerchantEvent.done (e : MerchantEvent) : Σ c : MerchantCall, Except AppError (MerchantAns c) :=
  ⟨e.call, e.answer⟩

abbrev merchantPastOf (i : Nat) (trace : List MerchantEvent) : MerchantPast :=
  ownCalls MerchantEvent.task MerchantEvent.done i trace

/-- The trace records what every task has called. -/
def merchantRecording (b : Backend) (audit : Bool) : Recording (merchantSystem b audit) :=
  .ofLog MerchantEvent.task MerchantEvent.done MerchantWorld.trace fun hExec => by
    obtain ⟨applied, hTrace, -⟩ := merchantExec_cases hExec
    exact ⟨_, hTrace, rfl, rfl⟩

/-- Which merchants were read and which were written, by id. -/
def merchantLog : RowLog MerchantEvent String Merchant where
  task := MerchantEvent.task
  reads e id := merchantRead e.done id
  writes e id := e.applied && e.call.stored.any fun x => x.id = id

/-- The key that a rotation gave the merchant. -/
def MerchantEvent.rotation (id : String) (e : MerchantEvent) : Option String :=
  match e.call with
  | .update .rotateKey x => if e.applied = true ∧ x.id = id then some x.apiKey else none
  | _ => none

/-- The call suspended the merchant. -/
def MerchantEvent.suspends (id : String) (e : MerchantEvent) : Bool :=
  match e.call with
  | .update .setStatus x => e.applied && x.id = id && x.status = .suspended
  | _ => false

/-- The keys that rotations gave the merchant, newest first. -/
def rotations (id : String) (trace : List MerchantEvent) : List String :=
  trace.filterMap (MerchantEvent.rotation id)

/-- The calls settled since the task made its last one. -/
def sinceLast (i : Nat) (trace : List MerchantEvent) : List MerchantEvent :=
  trace.takeWhile fun e => e.task ≠ i

/-- The calls settled since the task wrote the merchant. -/
def sinceWrite (i : Nat) (trace : List MerchantEvent) : List MerchantEvent :=
  trace.takeWhile fun e => !(e.task = i && e.call.stored.isSome)

/-- The merchant had the key, as the current or the previous one. -/
def MerchantWorld.EverHad (w : MerchantWorld) (id key : String) : Prop :=
  ∃ e ∈ w.trace, e.applied = true ∧ ∃ x, e.call.stored = some x ∧ x.id = id ∧ key ∈ x.keys

/-- A merchant is updated only while nobody else has written it since it was read. One
that a `setStatus` call has suspended is activated only by a call that was made after
that one had returned. -/
def writesApart (m : Merchants) : Label MerchantReply MerchantRequest → Bool
  | .spawn _ => true
  | .step i _ => match m.nextCall i with
      | some (.update caller x) => (merchantLog.held i x.id m.world.trace).isSome &&
          (caller ≠ .setStatus || x.status ≠ .active || m.world.trace.all fun e =>
            !e.suspends x.id || m.returned e.task && (sinceLast e.task m.world.trace).any fun e' =>
              e'.task = i && e'.call.request.isSome)
      | _ => true

/-- Whoever looks the key up now is answered `found`, unless the lookup fails. -/
def Authenticates (b : Backend) (audit : Bool) (m : Merchants) (apiKey : String)
    (found : Option Merchant) : Prop :=
  ∀ i reply m', m.nextCall i = some (.findByApiKey apiKey) →
    (merchantSystem b audit).step m (.step i reply) = some m' →
    ∃ t result, m'.tasks[i]? = some t ∧ t.prog = .ret result ∧
      (result = .ok found ∨ ∃ applied e, reply = .throws applied e ∧ result = .error e)

/-- What holds of the stored merchants in runs whose updates keep apart. -/
structure MerchantsSound (m : Merchants) : Prop where
  held : ∀ i id r, merchantLog.held i id m.world.trace = some r → m.world.merchant id = some r
  rowKeys : ∀ id row, m.world.merchant id = some row → ∀ key ∈ row.keys, (id, key) ∈ m.world.drawn
  everKeys : ∀ id key, m.world.EverHad id key → (id, key) ∈ m.world.drawn
  unique : (m.world.drawn.map Prod.snd).Nodup
  known : ∀ e ∈ m.world.trace, ∀ id, merchantLog.writes e id = true →
    (m.world.merchant id).isSome = true
  applied : ∀ e ∈ m.world.trace, ∀ caller x, e.done = ⟨.update caller x, .ok x⟩ → e.applied = true
  current : ∀ id row, m.world.merchant id = some row →
    (rotations id m.world.trace).take 2 <+: row.keys
  sticks : ∀ e ∈ m.world.trace, ∀ id row, e.suspends id = true →
    m.world.merchant id = some row → row.status = .active →
    m.returned e.task = true ∧
      ∃ e' ∈ sinceLast e.task m.world.trace, e'.call = .invoke (.setStatus id .active)

/-- What one call makes of the stored merchants, when updates keep apart. -/
inductive MerchantChange (w w' : MerchantWorld) (e : MerchantEvent) : Prop
  | quiet (hSame : w'.merchants = w.merchants) (hWrites : ∀ id, merchantLog.writes e id = false)
      (hRotates : ∀ id, e.rotation id = none) (hSuspends : ∀ id, e.suspends id = false)
  | created (x : Merchant) (key : String) (hPut : w'.merchants = w.merchants.put x)
      (hNew : w.merchant x.id = none) (hCall : e.call = .create x) (hKeys : x.keys = [key])
      (hDrawn : (x.id, key) ∈ w.drawn) (hApplied : e.applied = true)
  | updated (caller : MerchantMethod) (row x : Merchant) (hPut : w'.merchants = w.merchants.put x)
      (hRow : w.merchant x.id = some row) (hCall : e.call = .update caller x)
      (hApplied : e.applied = true)
      (hRotated : caller = .rotateKey → ∃ key now, x = MerchantService.rotated row key now ∧
        (x.id, key) ∈ w.drawn)
      (hSet : caller = .setStatus → x.keys = row.keys ∧
        (merchantPastOf e.task w.trace).requests = [.setStatus x.id x.status])

section step

variable {b : Backend} {audit : Bool} {i : Nat} {c : MerchantCall} {reply : MerchantReply}
  {w w' : MerchantWorld} {answer : Except AppError (MerchantAns c)} {m m' : Merchants}
  {label : Label MerchantReply MerchantRequest}

/-- The keys drawn are the answers of `newMerchantApiKey`. -/
theorem mem_drawn {id key : String} : (id, key) ∈ w.drawn ↔
    ∃ e ∈ w.trace, e.done = ⟨.newMerchantApiKey id, .ok key⟩ := by
  simp only [MerchantWorld.drawn, List.mem_filterMap]
  constructor
  · intro hDrawn
    obtain ⟨e, hMem, hDrew⟩ := hDrawn
    apply Exists.intro e
    apply And.intro hMem
    obtain ⟨task, call, answer, applied⟩ := e
    cases call with
    | newMerchantApiKey forMerchant =>
        cases answer with
        | ok s =>
            cases hDrew
            rfl
        | error e => cases hDrew
    | _ => cases hDrew
  · intro hDrawn
    obtain ⟨e, hMem, hDone⟩ := hDrawn
    apply Exists.intro e
    apply And.intro hMem
    obtain ⟨task, call, answer, applied⟩ := e
    cases hDone
    rfl

/-- What a task has drawn is drawn. -/
theorem drawn_of_past {id key : String}
    (h : ⟨.newMerchantApiKey id, .ok key⟩ ∈ merchantPastOf i w.trace) : (id, key) ∈ w.drawn := by
  obtain ⟨e, hMem, -, hDone⟩ := exists_of_mem_ownCalls h
  exact mem_drawn.mpr ⟨e, hMem, hDone⟩

/-- What a task has read last, in the log and among its own calls. -/
theorem lastRead_past (i : Nat) (id : String) (trace : List MerchantEvent) :
    (merchantPastOf i trace).lastRead id = merchantLog.lastRead i id trace := by
  exact RowLog.lastRead_ownCalls (L := merchantLog) MerchantEvent.done merchantRead fun _ => rfl

/-- A call that reads finds what is stored. -/
theorem stored_of_read (h : merchantExec b i c reply w = some (answer, w')) {id : String}
    {r : Merchant} (hRead : merchantRead ⟨c, answer⟩ id = some r) : w'.merchant id = some r := by
  cases c with
  | findById id' =>
      obtain ⟨e, rfl, rfl, -⟩ | ⟨a, t, hOk, rfl, ⟨rfl, -⟩ | ⟨e, rfl, -⟩⟩ := merchantExec_store h rfl
      · cases hRead
      · cases hOk
        simp only [merchantRead] at hRead
        split at hRead
        · next hId =>
            subst hId
            exact hRead
        · cases hRead
      · cases hRead
  | _ => cases hRead

theorem merchantAnswers_of_exec (h : merchantExec b i c reply w = some (answer, w')) :
    merchantAnswers c answer := by
  cases c with
  | invoke request =>
      obtain ⟨-, ⟨e, -, hMay⟩ | ⟨a, -, rfl⟩⟩ := merchantExec_outside h rfl
      · cases hMay
      · trivial
  | findById id =>
      obtain ⟨e, rfl, rfl, -⟩ | ⟨a, t, hOk, rfl, ⟨rfl, -⟩ | ⟨e, rfl, -⟩⟩ := merchantExec_store h rfl
      · trivial
      · cases hOk
        cases hFound : w.merchants.get? id with
        | none => trivial
        | some found => exact Table.key_of_get? hFound
      · trivial
  | update caller x =>
      obtain ⟨e, rfl, rfl, -⟩ | ⟨a, t, hOk, rfl, ⟨rfl, -⟩ | ⟨e, rfl, -⟩⟩ := merchantExec_store h rfl
      · trivial
      · cases hUpdate : w.merchants.update b x with
        | error e =>
            rw [hUpdate] at hOk
            cases hOk
        | ok t' =>
            rw [hUpdate] at hOk
            cases hOk
            rfl
      · trivial
  | _ => trivial

/-- The inversion of a call that is made as `writesApart` asks. -/
theorem change_of_exec (hExec : merchantExec b i c reply w = some (answer, w'))
    (hHeld : ∀ i id r, merchantLog.held i id w.trace = some r → w.merchant id = some r)
    (hAdmits : MerchantPast.Admits (merchantPastOf i w.trace) c)
    (hApart : ∀ caller x, c = .update caller x → (merchantLog.held i x.id w.trace).isSome = true) :
    ∃ applied, w'.trace = ⟨i, c, answer, applied⟩ :: w.trace ∧
      MerchantChange w w' ⟨i, c, answer, applied⟩ := by
  obtain ⟨applied, hTrace, hSame | ⟨x, rfl, rfl, hCreate⟩ | ⟨caller, x, rfl, rfl, hUpdate⟩⟩ :=
    merchantExec_cases hExec
  · refine ⟨applied, hTrace, .quiet hSame.1 ?_ ?_ ?_⟩
    · intro id
      cases applied with
      | false => rfl
      | true =>
          obtain ⟨hCreate, hUpdate⟩ := hSame.2 rfl
          cases c with
          | create x => exact absurd rfl (hCreate x)
          | update caller x => exact absurd rfl (hUpdate caller x)
          | _ => rfl
    · intro id
      cases c with
      | update caller x =>
          cases applied with
          | false => cases caller <;> simp [MerchantEvent.rotation]
          | true => exact absurd rfl ((hSame.2 rfl).2 caller x)
      | _ => rfl
    · intro id
      cases c with
      | update caller x =>
          cases applied with
          | false => cases caller <;> rfl
          | true => exact absurd rfl ((hSame.2 rfl).2 caller x)
      | _ => rfl
  · obtain ⟨hNew, hPut⟩ := MerchantTable.create_ok hCreate
    obtain ⟨-, key, hKeys, hDrew⟩ := hAdmits
    exact ⟨true, hTrace, .created x key hPut hNew rfl hKeys (drawn_of_past hDrew) rfl⟩
  · obtain ⟨row, hIsHeld⟩ := Option.isSome_iff_exists.mp (hApart caller x rfl)
    have hRow := hHeld i x.id row hIsHeld
    have hLast := RowLog.lastRead_of_held hIsHeld
    obtain ⟨-, hPrepared⟩ := hAdmits
    -- What the method has read last is the stored row.
    have hRead : ∀ r : Merchant, (merchantPastOf i w.trace).lastRead r.id = some r → r.id = x.id →
        r = row := by
      intro r hLastRead hId
      rw [lastRead_past, hId, hLast] at hLastRead
      exact (Option.some.inj hLastRead).symm
    cases caller with
    | rotateKey =>
        obtain ⟨r, key, now, hLastRead, hx, hDrew⟩ := hPrepared
        obtain rfl := hRead r hLastRead (by rw [hx]; rfl)
        refine ⟨true, hTrace, .updated .rotateKey r x ?_ hRow rfl rfl ?_ nofun⟩
        · exact MerchantTable.update_ok hRow (by rw [hx]; rfl) hUpdate
        · intro _
          have hId : x.id = r.id := by rw [hx]; rfl
          exact ⟨key, now, hx, hId ▸ drawn_of_past hDrew⟩
    | setStatus =>
        obtain ⟨r, now, hLastRead, hx, hRequests⟩ := hPrepared
        obtain rfl := hRead r hLastRead (by rw [hx])
        refine ⟨true, hTrace, .updated .setStatus r x ?_ hRow rfl rfl nofun ?_⟩
        · exact MerchantTable.update_ok hRow (by rw [hx]) hUpdate
        · intro _
          have hId : x.id = r.id := by rw [hx]
          exact ⟨by rw [hx]; rfl, by rw [hId]; exact hRequests⟩

variable {e : MerchantEvent}

/-- A call draws one more key, or none. -/
theorem MerchantWorld.drawn_cons (hTrace : w'.trace = e :: w.trace) :
    w'.drawn = (e.call.drew e.answer).toList ++ w.drawn := by
  rw [drawn, hTrace, drawn]
  cases hDrew : e.call.drew e.answer <;> simp [hDrew]

/-- What was drawn stays drawn. -/
theorem drawn_mono (hTrace : w'.trace = e :: w.trace) {entry : String × String}
    (h : entry ∈ w.drawn) : entry ∈ w'.drawn := by
  rw [MerchantWorld.drawn_cons hTrace]
  exact List.mem_append_right _ h

/-- No key is drawn twice. -/
theorem unique_step (hExec : merchantExec b i c reply w = some (answer, w'))
    (h : (w.drawn.map Prod.snd).Nodup) : (w'.drawn.map Prod.snd).Nodup := by
  obtain ⟨applied, hTrace, -⟩ := merchantExec_cases hExec
  rw [MerchantWorld.drawn_cons hTrace]
  cases c with
  | newMerchantApiKey forMerchant =>
      obtain ⟨-, ⟨e, -, hMay⟩ | ⟨key, hAnswer, rfl⟩⟩ := merchantExec_outside hExec rfl
      · cases hMay
      · cases reply with
        | text s =>
            simp only [merchantAnswer, Option.ite_none_left_eq_some, Option.some.injEq] at hAnswer
            obtain ⟨hFresh, rfl⟩ := hAnswer
            have hNew : s ∉ w.drawn.map Prod.snd := fun hMem => hFresh (.inr hMem)
            exact List.nodup_cons.mpr ⟨hNew, h⟩
        | _ => cases hAnswer
  | _ => exact h

/-- A call rotates one more key, or none. -/
theorem rotations_cons (id : String) (e : MerchantEvent) (trace : List MerchantEvent) :
    rotations id (e :: trace) = (e.rotation id).toList ++ rotations id trace := by
  rw [rotations, rotations]
  cases hRotation : e.rotation id <;> simp [hRotation]

theorem sinceLast_cons {j : Nat} {trace : List MerchantEvent} (hNe : e.task ≠ j) :
    sinceLast j (e :: trace) = e :: sinceLast j trace := by
  simp [sinceLast, hNe]

/-- Merchants that are not written stay as they are. -/
theorem MerchantChange.kept {id : String} (h : MerchantChange w w' e)
    (hWrites : merchantLog.writes e id = false) : w'.merchant id = w.merchant id := by
  have hPut : ∀ x, e.call.stored = some x → e.applied = true →
      w'.merchants = w.merchants.put x → w'.merchant id = w.merchant id := by
    intro x hStored hApplied hPut
    have hNe : x.id ≠ id := by simpa [merchantLog, hStored, hApplied] using hWrites
    rw [MerchantWorld.merchant, hPut, Table.get?_put, if_neg hNe]
    rfl
  cases h with
  | quiet hSame => rw [MerchantWorld.merchant, hSame, MerchantWorld.merchant]
  | created x key hSaved _ hCall _ _ hApplied =>
      exact hPut x (by rw [hCall]; rfl) hApplied hSaved
  | updated caller row x hSaved _ hCall hApplied =>
      exact hPut x (by rw [hCall]; rfl) hApplied hSaved

/-- A stored merchant is as it was, created, or updated. -/
theorem MerchantChange.row {id : String} {row' : Merchant} (h : MerchantChange w w' e)
    (hRow' : w'.merchant id = some row') :
    (w.merchant id = some row' ∧ merchantLog.writes e id = false) ∨
    (∃ key, w.merchant id = none ∧ e.call = .create row' ∧ row'.keys = [key] ∧
      (id, key) ∈ w.drawn) ∨
    (∃ row caller, w.merchant id = some row ∧ row'.id = id ∧ e.call = .update caller row' ∧
      e.applied = true ∧
      (caller = .rotateKey → ∃ key now, row' = MerchantService.rotated row key now ∧
        (id, key) ∈ w.drawn) ∧
      (caller = .setStatus → row'.keys = row.keys ∧
        (merchantPastOf e.task w.trace).requests = [.setStatus id row'.status])) := by
  by_cases hWrites : merchantLog.writes e id = true
  · cases h with
    | quiet _ hNone =>
        rw [hNone id] at hWrites
        cases hWrites
    | created x key hPut hNew hCall hKeys hDrawn hApplied =>
        have hId : x.id = id := by
          simpa [merchantLog, hCall, MerchantCall.stored, hApplied] using hWrites
        rw [MerchantWorld.merchant, hPut, Table.get?_put, if_pos hId] at hRow'
        cases hRow'
        subst hId
        exact .inr (.inl ⟨key, hNew, hCall, hKeys, hDrawn⟩)
    | updated caller row x hPut hRow hCall hApplied hRotated hSet =>
        have hId : x.id = id := by
          simpa [merchantLog, hCall, MerchantCall.stored, hApplied] using hWrites
        rw [MerchantWorld.merchant, hPut, Table.get?_put, if_pos hId] at hRow'
        cases hRow'
        subst hId
        exact .inr (.inr ⟨row, caller, hRow, rfl, hCall, hApplied, hRotated, hSet⟩)
  · have hNot : merchantLog.writes e id = false := by simpa using hWrites
    rw [h.kept hNot] at hRow'
    exact .inl ⟨hRow', hNot⟩

/-- Who does not write a merchant neither rotates nor suspends it. -/
theorem rotation_of_not_writes {id : String} (h : merchantLog.writes e id = false) :
    e.rotation id = none ∧ e.suspends id = false := by
  obtain ⟨task, call, answer, applied⟩ := e
  cases call with
  | update caller x =>
      have hNot : ¬(applied = true ∧ x.id = id) := by
        simpa [merchantLog, MerchantCall.stored] using h
      cases caller with
      | rotateKey => exact ⟨by simp [MerchantEvent.rotation, hNot], rfl⟩
      | setStatus =>
          apply And.intro rfl
          cases applied <;> simp_all [MerchantEvent.suspends]
  | _ => exact ⟨rfl, rfl⟩

/-- The keys of the newest two rotations are accepted. -/
theorem current_step (hChange : MerchantChange w w' e) (hTrace : w'.trace = e :: w.trace)
    (hKnown : ∀ e ∈ w.trace, ∀ id, merchantLog.writes e id = true → (w.merchant id).isSome = true)
    (hCurrent : ∀ id row, w.merchant id = some row → (rotations id w.trace).take 2 <+: row.keys)
    {id : String} {row' : Merchant} (hRow' : w'.merchant id = some row') :
    (rotations id w'.trace).take 2 <+: row'.keys := by
  rw [hTrace, rotations_cons]
  rcases hChange.row hRow' with ⟨hRow, hNot⟩ | ⟨key, hNone, hCall, -, -⟩ |
    ⟨row, caller, hRow, hId, hCall, hApplied, hRotated, hSet⟩
  · rw [(rotation_of_not_writes hNot).1]
    exact hCurrent id row' hRow
  · have hNever : rotations id w.trace = [] := by
      apply List.filterMap_eq_nil_iff.mpr
      intro e' hMem
      by_cases hWrites : merchantLog.writes e' id = true
      · have hSome := hKnown e' hMem id hWrites
        rw [hNone] at hSome
        cases hSome
      · exact (rotation_of_not_writes (by simpa using hWrites)).1
    have hHere : e.rotation id = none := by simp [MerchantEvent.rotation, hCall]
    rw [hNever, hHere]
    exact List.nil_prefix
  · have hOld := hCurrent id row hRow
    cases caller with
    | rotateKey =>
        obtain ⟨key, now, hx, -⟩ := hRotated rfl
        have hHere : e.rotation id = some row'.apiKey := by
          simp [MerchantEvent.rotation, hCall, hApplied, hId]
        rw [hHere, hx]
        change (key :: rotations id w.trace).take 2 <+: [key, row.apiKey]
        rw [List.take_succ_cons, List.prefix_cons_inj]
        cases hRotations : rotations id w.trace with
        | nil => exact List.nil_prefix
        | cons newest rest =>
            rw [hRotations, List.take_succ_cons] at hOld
            rw [(List.cons_prefix_cons.mp hOld).1]
            exact List.prefix_rfl
    | setStatus =>
        have hHere : e.rotation id = none := by simp [MerchantEvent.rotation, hCall]
        rw [hHere, (hSet rfl).1]
        exact hOld

/-- Every key that is accepted was drawn for the merchant. -/
theorem rowKeys_step (hChange : MerchantChange w w' e) (hTrace : w'.trace = e :: w.trace)
    (hKeys : ∀ id row, w.merchant id = some row → ∀ key ∈ row.keys, (id, key) ∈ w.drawn)
    {id : String} {row' : Merchant} (hRow' : w'.merchant id = some row') :
    ∀ key ∈ row'.keys, (id, key) ∈ w'.drawn := by
  intro key hKey
  apply drawn_mono hTrace
  rcases hChange.row hRow' with ⟨hRow, -⟩ | ⟨key', -, -, hOne, hDrawn⟩ |
    ⟨row, caller, hRow, -, -, -, hRotated, hSet⟩
  · exact hKeys id row' hRow key hKey
  · rw [hOne] at hKey
    rwa [List.mem_singleton.mp hKey]
  · cases caller with
    | rotateKey =>
        obtain ⟨key', now, hx, hDrawn⟩ := hRotated rfl
        rw [hx] at hKey
        rcases List.mem_cons.mp hKey with rfl | hPrevious
        · exact hDrawn
        · have hOld : key ∈ row.keys := by
            have hSame : key = row.apiKey := by
              simpa [MerchantService.rotated] using hPrevious
            rw [hSame]
            exact List.mem_cons_self
          exact hKeys id row hRow key hOld
    | setStatus =>
        rw [(hSet rfl).1] at hKey
        exact hKeys id row hRow key hKey

/-- A merchant that was written stays stored. -/
theorem known_step (hChange : MerchantChange w w' e) (hTrace : w'.trace = e :: w.trace)
    (hKnown : ∀ e ∈ w.trace, ∀ id, merchantLog.writes e id = true → (w.merchant id).isSome = true)
    {e' : MerchantEvent} (hMem : e' ∈ w'.trace) {id : String}
    (hWrites' : merchantLog.writes e' id = true) : (w'.merchant id).isSome = true := by
  by_cases hWrites : merchantLog.writes e id = true
  · have hPut : ∀ x, e.call.stored = some x → e.applied = true →
        w'.merchants = w.merchants.put x → (w'.merchant id).isSome = true := by
      intro x hStored hApplied hPut
      have hId : x.id = id := by simpa [merchantLog, hStored, hApplied] using hWrites
      rw [MerchantWorld.merchant, hPut, Table.get?_put, if_pos hId]
      rfl
    cases hChange with
    | quiet _ hNone =>
        rw [hNone id] at hWrites
        cases hWrites
    | created x key hSaved _ hCall _ _ hApplied => exact hPut x (by rw [hCall]; rfl) hApplied hSaved
    | updated caller row x hSaved _ hCall hApplied =>
        exact hPut x (by rw [hCall]; rfl) hApplied hSaved
  · rw [hChange.kept (by simpa using hWrites)]
    rw [hTrace] at hMem
    rcases List.mem_cons.mp hMem with rfl | hOld
    · exact absurd hWrites' hWrites
    · exact hKnown e' hOld id hWrites'

/-- Every key that a merchant had was drawn for it. -/
theorem everKeys_step (hChange : MerchantChange w w' e) (hTrace : w'.trace = e :: w.trace)
    (hRowKeys : ∀ id row, w.merchant id = some row → ∀ key ∈ row.keys, (id, key) ∈ w.drawn)
    (hEver : ∀ id key, w.EverHad id key → (id, key) ∈ w.drawn) {id key : String}
    (h : w'.EverHad id key) : (id, key) ∈ w'.drawn := by
  obtain ⟨e', hMem, hApplied', x, hStored, hId, hKey⟩ := h
  rw [hTrace] at hMem
  rcases List.mem_cons.mp hMem with rfl | hOld
  · have hRow : w'.merchant id = some x := by
      have hWrites : merchantLog.writes e' id = true := by
        simp [merchantLog, hStored, hApplied', hId]
      cases hChange with
      | quiet _ hNone =>
          rw [hNone id] at hWrites
          cases hWrites
      | created x' key' hPut _ hCall =>
          rw [hCall] at hStored
          cases hStored
          rw [MerchantWorld.merchant, hPut, Table.get?_put, if_pos hId]
      | updated caller row x' hPut _ hCall =>
          rw [hCall] at hStored
          cases hStored
          rw [MerchantWorld.merchant, hPut, Table.get?_put, if_pos hId]
    exact rowKeys_step hChange hTrace hRowKeys hRow key hKey
  · exact drawn_mono hTrace (hEver id key ⟨e', hOld, hApplied', x, hStored, hId, hKey⟩)

/-- An update that is answered has taken effect. -/
theorem applied_of_ok {applied : Bool} (hExec : merchantExec b i c reply w = some (answer, w'))
    (hTrace : w'.trace = ⟨i, c, answer, applied⟩ :: w.trace) {caller : MerchantMethod} {x : Merchant}
    (hDone : MerchantEvent.done ⟨i, c, answer, applied⟩ = ⟨.update caller x, .ok x⟩) :
    applied = true := by
  cases hDone
  obtain ⟨e, hError, -⟩ | ⟨a, t, -, rfl, -⟩ := merchantExec_store hExec rfl
  · cases hError
  · cases hTrace
    rfl

/-- A merchant that was suspended is activated by a call that came after. -/
theorem called_after_return {x : Merchant} {e : MerchantEvent} (hApart : writesApart m (.step i reply) = true)
    (hCall : m.nextCall i = some (.update .setStatus x)) (hActive : x.status = .active)
    (hMem : e ∈ m.world.trace) (hSuspends : e.suspends x.id = true) :
    m.returned e.task = true ∧ ∃ e' ∈ sinceLast e.task m.world.trace, e'.task = i ∧
      ∃ request, e'.call = .invoke request := by
  simp only [writesApart, hCall, hActive, Bool.and_eq_true, Bool.or_eq_true, List.all_eq_true,
    decide_eq_true_eq] at hApart
  rcases hApart.2 with hNever | hAll
  · exact absurd hNever (by simp)
  rcases hAll e hMem with hNot | ⟨hDone, hAny⟩
  · rw [hSuspends] at hNot
    cases hNot
  obtain ⟨e', hSince, hBoth⟩ := List.any_eq_true.mp hAny
  obtain ⟨hTask, hRequest⟩ := Bool.and_eq_true_iff.mp hBoth
  refine ⟨hDone, e', hSince, by simpa using hTask, ?_⟩
  cases hInvoke : e'.call with
  | invoke request => exact ⟨request, rfl⟩
  | _ =>
      rw [hInvoke] at hRequest
      cases hRequest

/-- The call was `setStatus`, made after the suspension had returned. -/
theorem activation_called {x : Merchant} {e : MerchantEvent}
    (hApart : writesApart m (.step i reply) = true)
    (hCall : m.nextCall i = some (.update .setStatus x)) (hActive : x.status = .active)
    (hRequests : (merchantPastOf i m.world.trace).requests = [.setStatus x.id x.status])
    (hMem : e ∈ m.world.trace) (hSuspends : e.suspends x.id = true) :
    m.returned e.task = true ∧ ∃ e' ∈ sinceLast e.task m.world.trace,
      e'.call = .invoke (.setStatus x.id .active) := by
  obtain ⟨hDone, e', hSince, hTask, request, hInvoke⟩ :=
    called_after_return hApart hCall hActive hMem hSuspends
  refine ⟨hDone, e', hSince, ?_⟩
  have hIn : request ∈ (merchantPastOf i m.world.trace).requests := by
    apply List.mem_filterMap.mpr
    refine ⟨e'.done, List.mem_map_of_mem (List.mem_filter.mpr
      ⟨List.takeWhile_subset _ hSince, by simpa using hTask⟩), ?_⟩
    change e'.call.request = some request
    rw [hInvoke]
    rfl
  rw [hRequests, List.mem_singleton, hActive] at hIn
  rw [hInvoke, hIn]

/-- What followed the return of a call goes on following it. -/
theorem since_step {applied : Bool} {e : MerchantEvent} {P : MerchantEvent → Prop}
    (hCall : m.nextCall i = some c) (hStep : (merchantSystem b audit).step m label = some m')
    (h : m.returned e.task = true ∧ ∃ e' ∈ sinceLast e.task m.world.trace, P e') :
    m'.returned e.task = true ∧
      ∃ e' ∈ sinceLast e.task (⟨i, c, answer, applied⟩ :: m.world.trace), P e' := by
  obtain ⟨hDone, e', hSince, hHolds⟩ := h
  have hNe : i ≠ e.task := by
    intro hEq
    have hBusy := Machine.not_returned_of_nextCall hCall
    rw [hEq, hDone] at hBusy
    cases hBusy
  rw [sinceLast_cons hNe]
  exact ⟨System.returned_of_step hStep hDone, e', List.mem_cons_of_mem _ hSince, hHolds⟩

/-- The call that leaves a merchant active does not suspend it. -/
theorem suspends_before {id : String} {row' : Merchant} {e' : MerchantEvent}
    (hChange : MerchantChange w w' e) (hRow' : w'.merchant id = some row')
    (hActive : row'.status = .active) (hMem : e' ∈ e :: w.trace) (hSuspends : e'.suspends id = true) :
    e' ∈ w.trace := by
  rcases List.mem_cons.mp hMem with rfl | hOld
  · obtain ⟨task, call, answer, applied⟩ := e'
    rcases hChange.row hRow' with ⟨-, hNot⟩ | ⟨key, -, hCreate, -⟩ | ⟨row, caller, -, -, hUpdate, -⟩
    · rw [(rotation_of_not_writes hNot).2] at hSuspends
      cases hSuspends
    · dsimp only at hCreate
      subst hCreate
      cases hSuspends
    · dsimp only at hUpdate
      subst hUpdate
      cases caller with
      | rotateKey => cases hSuspends
      | setStatus => simp [MerchantEvent.suspends, hActive] at hSuspends
  · exact hOld

/-- A merchant that is active although it was suspended has been activated since. -/
theorem sticks_step {applied : Bool} (hSound : MerchantsSound m)
    (hApart : writesApart m (.step i reply) = true) (hCall : m.nextCall i = some c)
    (hChange : MerchantChange m.world m'.world ⟨i, c, answer, applied⟩)
    (hTrace : m'.world.trace = ⟨i, c, answer, applied⟩ :: m.world.trace)
    (hStep : (merchantSystem b audit).step m (.step i reply) = some m') {e : MerchantEvent}
    (hMem : e ∈ m'.world.trace) {id : String} {row' : Merchant} (hSuspends : e.suspends id = true)
    (hRow' : m'.world.merchant id = some row') (hActive : row'.status = .active) :
    m'.returned e.task = true ∧ ∃ e' ∈ sinceLast e.task m'.world.trace,
      e'.call = .invoke (.setStatus id .active) := by
  rw [hTrace] at hMem ⊢
  have hOld : e ∈ m.world.trace := suspends_before hChange hRow' hActive hMem hSuspends
  apply since_step hCall hStep
  rcases hChange.row hRow' with ⟨hRow, -⟩ | ⟨key, hNone, -⟩ |
    ⟨row, caller, hRow, hId, hUpdate, -, hRotated, hSet⟩
  · exact hSound.sticks e hOld id row' hSuspends hRow hActive
  · have hWrites : merchantLog.writes e id = true := by
      by_contra hNot
      rw [(rotation_of_not_writes (by simpa using hNot)).2] at hSuspends
      cases hSuspends
    have hSome := hSound.known e hOld id hWrites
    rw [hNone] at hSome
    cases hSome
  · dsimp only at hUpdate
    subst hUpdate hId
    cases caller with
    | rotateKey =>
        obtain ⟨key, now, hx, -⟩ := hRotated rfl
        exact hSound.sticks e hOld _ row hSuspends hRow (by rw [← hActive, hx]; rfl)
    | setStatus =>
        exact activation_called hApart hCall hActive (hSet rfl).2 hOld hSuspends

/-- Every call of `MerchantService` that keeps apart. -/
theorem MerchantsSound.step (hSound : MerchantsSound m)
    (hFollowing : Following (merchantRecording b audit) merchantAnswers MerchantPast.Admits
      MerchantPast.Returns m)
    (hApart : writesApart m label = true)
    (hStep : (merchantSystem b audit).step m label = some m') : MerchantsSound m' := by
  have hReturned : ∀ j, m.returned j = true → m'.returned j = true := fun j =>
    System.returned_of_step hStep
  obtain hSame | ⟨i, reply, c, answer, rfl, hCall, hExec⟩ := System.world_of_step hStep
  · obtain ⟨hHeld, hRowKeys, hEver, hUnique, hKnown, hApplied, hCurrent, hSticks⟩ := hSound
    rw [← hSame] at hHeld hRowKeys hEver hUnique hKnown hApplied hCurrent hSticks
    refine ⟨hHeld, hRowKeys, hEver, hUnique, hKnown, hApplied, hCurrent, ?_⟩
    intro e hMem id row hSuspends hRow hActive
    obtain ⟨hDone, hSince⟩ := hSticks e hMem id row hSuspends hRow hActive
    exact ⟨hReturned _ hDone, hSince⟩
  have hAdmits := hFollowing.nextCall hCall
  obtain ⟨applied, hTrace, hChange⟩ := change_of_exec hExec hSound.held hAdmits (by
    intro caller x hUpdate
    simp only [writesApart, hCall, hUpdate, Bool.and_eq_true] at hApart
    exact hApart.1)
  constructor
  · intro j id r hHeld
    rw [hTrace] at hHeld
    apply RowLog.stored_of_held hSound.held _ _ hHeld
    · intro k r' hRead
      exact stored_of_read hExec hRead
    · intro k hWrites
      exact hChange.kept hWrites
  · intro id row hRow
    exact rowKeys_step hChange hTrace hSound.rowKeys hRow
  · intro id key hEver
    exact everKeys_step hChange hTrace hSound.rowKeys hSound.everKeys hEver
  · exact unique_step hExec hSound.unique
  · intro e hMem id hWrites
    exact known_step hChange hTrace hSound.known hMem hWrites
  · intro e hMem caller x hDone
    rw [hTrace] at hMem
    rcases List.mem_cons.mp hMem with rfl | hOld
    · exact applied_of_ok hExec hTrace hDone
    · exact hSound.applied e hOld caller x hDone
  · intro id row hRow
    exact current_step hChange hTrace hSound.known hSound.current hRow
  · intro e hMem id row' hSuspends hRow' hActive
    exact sticks_step hSound hApart hCall hChange hTrace hStep hMem hSuspends hRow' hActive

end step

namespace MerchantService

open Prog (perform)

/-- The methods take no locks. -/
theorem only_serve (b : Backend) (audit : Bool) (request : MerchantRequest) :
    ((merchantSystem b audit).entry request).Only (fun _ => True) fun _ => True := by
  have hCall : ∀ c, (perform c : MerchantAction (MerchantAns c)).Only (fun _ => True) fun _ => True :=
    fun c => ⟨trivial, fun _ => trivial⟩
  have hRecord : ∀ input, (record audit input).Only (fun _ => True) fun _ => True := by
    intro input
    unfold record
    split
    · exact hCall _
    · trivial
  have hProvision : ∀ input now id,
      (provision audit input now id).Only (fun _ => True) fun _ => True := fun input now id =>
    Prog.only_bind (hCall _) fun _ => Prog.only_bind (hCall _) fun _ =>
      Prog.only_bind (hRecord _) fun _ => trivial
  apply Prog.only_bind (hCall _)
  intro _
  cases request with
  | ensureDefault =>
      refine Prog.only_bind ?_ fun _ => trivial
      apply Prog.only_bind (hCall _)
      intro existing
      cases existing with
      | some existing => trivial
      | none =>
          exact Prog.only_bind (hCall _) fun _ => Prog.only_bind (hCall _) fun _ => hCall _
  | create input =>
      refine Prog.only_bind ?_ fun _ => trivial
      apply Prog.only_bind (hCall _)
      intro now
      cases input.id with
      | some id => exact hProvision input now id
      | none => exact Prog.only_bind (hCall _) fun id => hProvision input now id
  | authenticate apiKey =>
      change (authenticate apiKey).Only (fun _ => True) fun _ => True
      unfold authenticate
      split
      · trivial
      · exact Prog.only_bind (hCall _) fun _ => trivial
  | rotateKey id =>
      refine Prog.only_bind ?_ fun _ => trivial
      apply Prog.only_bind (hCall _)
      intro found
      cases found with
      | none => trivial
      | some r =>
          exact Prog.only_bind (hCall _) fun _ => Prog.only_bind (hCall _) fun _ =>
            Prog.only_bind (hCall _) fun _ => Prog.only_bind (hRecord _) fun _ => trivial
  | setStatus id status =>
      refine Prog.only_bind ?_ fun _ => trivial
      apply Prog.only_bind (hCall _)
      intro found
      cases found with
      | none => trivial
      | some r =>
          exact Prog.only_bind (hCall _) fun _ => Prog.only_bind (hCall _) fun _ =>
            Prog.only_bind (hRecord _) fun _ => trivial

end MerchantService

section runs

variable {b : Backend} {audit : Bool} {m m' : Merchants}

/-- What holds in every state of a run, whatever the updates do. -/
structure MerchantsServed (b : Backend) (audit : Bool) (m : Merchants) : Prop where
  following : Following (merchantRecording b audit) merchantAnswers MerchantPast.Admits
    MerchantPast.Returns m
  only : ∀ t ∈ m.tasks, t.prog.Only (fun _ => True) fun _ => True

/-- A step extends what its task has done. -/
theorem MerchantsServed.step {label : Label MerchantReply MerchantRequest}
    (h : MerchantsServed b audit m) (hStep : (merchantSystem b audit).step m label = some m') :
    MerchantsServed b audit m' where
  following := by
    apply h.following.step _ _ hStep
    · intro request _
      exact MerchantService.serves_entry b request
    · intro i reply c answer w' _ _ hExec
      exact merchantAnswers_of_exec hExec
  only := System.only_of_step (MerchantService.only_serve b audit) h.only hStep

/-- A lookup by key ends its task, with the active merchant that was found. -/
theorem MerchantsServed.authenticates (h : MerchantsServed b audit m) (apiKey : String) :
    Authenticates b audit m apiKey ((m.world.merchants.findByApiKey apiKey).filter
      fun merchant => merchant.status = .active) := by
  intro i reply m' hCall hStep
  have h' := h.step hStep
  obtain ⟨t, ht, hTask⟩ := Option.bind_eq_some_iff.mp hStep
  obtain ⟨answer, hExec⟩ : ∃ answer, merchantExec b i (.findByApiKey apiKey) reply m.world =
      some (answer, m'.world) := System.exec_of_step hStep hCall
  obtain ⟨applied, hTrace, -⟩ := merchantExec_cases hExec
  have hLt : i < m.tasks.length := (List.getElem?_eq_some_iff.mp ht).1
  have hPast : (merchantRecording b audit).own m'.world i =
      ⟨.findByApiKey apiKey, answer⟩ :: merchantPastOf i m.world.trace := by
    change merchantPastOf i m'.world.trace = _
    rw [hTrace, merchantPastOf, ownCalls_cons, if_pos rfl]
    rfl
  obtain ⟨t', ht'⟩ : ∃ t', m'.tasks[i]? = some t' := by
    obtain ⟨c, next, a, s, -, -, rfl⟩ | ⟨key, next, -, -, rfl⟩ | ⟨next, -, rfl⟩ :=
      System.stepTask_cases hTask <;> exact ⟨_, List.getElem?_set_self hLt⟩
  have hFollows := h'.following.tasks i t' ht'
  have hOnly := h'.only t' (List.mem_of_getElem? ht')
  rw [hPast] at hFollows
  cases hProg : t'.prog with
  | ret result =>
      rw [hProg] at hFollows
      refine ⟨t', result, ht', hProg, ?_⟩
      obtain ⟨-, hResolved⟩ := hFollows
      obtain ⟨e, rfl, -, hError | hReply⟩ | ⟨a, t, hOk, -, ⟨rfl, -⟩ | ⟨e, rfl, hReply⟩⟩ :=
        merchantExec_store hExec rfl
      · cases hError
      · exact .inr ⟨_, _, hReply, hResolved⟩
      · cases hOk
        exact .inl hResolved
      · exact .inr ⟨_, _, hReply, hResolved⟩
  | call c next =>
      rw [hProg] at hFollows
      obtain ⟨hAdmits, -⟩ := hFollows
      cases c <;> first | cases hAdmits.1 | cases hAdmits
  | lock key next =>
      rw [hProg] at hOnly
      exact hOnly.elim
  | unlock next =>
      rw [hProg] at hOnly
      exact hOnly.elim

/-- The state a run leads to, as long as its updates keep apart. -/
theorem sound_of_run (hRun : (merchantSystem b audit).Reaches
      (fun m label => writesApart m label = true) (Machine.start .empty) m) :
    MerchantsSound m ∧ MerchantsServed b audit m := by
  apply hRun.invariant (P := fun m => MerchantsSound m ∧ MerchantsServed b audit m)
  · intro m label m' hApart hStep hHolds
    exact ⟨hHolds.1.step hHolds.2.following hApart hStep, hHolds.2.step hStep⟩
  · constructor
    · constructor
      · intro i id r hHeld
        cases hHeld
      · intro id row hRow
        cases hRow
      · intro id key hEver
        obtain ⟨e, hMem, -⟩ := hEver
        cases hMem
      · exact List.nodup_nil
      · intro e hMem
        cases hMem
      · intro e hMem
        cases hMem
      · intro id row hRow
        cases hRow
      · intro e hMem
        cases hMem
    · constructor
      · exact following_start fun _ => rfl
      · intro t hMem
        cases hMem

/-- A key leads to the merchant it was drawn for. -/
theorem MerchantsSound.owner (hSound : MerchantsSound m) {id key : String}
    (hDrawn : (id, key) ∈ m.world.drawn) {found : Merchant}
    (hFound : m.world.merchants.findByApiKey key = some found) :
    m.world.merchant id = some found := by
  have hRow : m.world.merchant found.id = some found :=
    Table.get?_of_mem (List.mem_of_find?_eq_some hFound)
  have hKey : key ∈ found.keys := by
    have hMatch := List.find?_some hFound
    simp only [Bool.or_eq_true, decide_eq_true_eq] at hMatch
    rcases hMatch with rfl | hPrevious
    · exact List.mem_cons_self
    · simp [Merchant.keys, hPrevious]
  have hOwn := hSound.rowKeys found.id found hRow key hKey
  have hSame := List.inj_on_of_nodup_map hSound.unique hOwn hDrawn rfl
  have hId : found.id = id := congrArg Prod.fst hSame
  rw [← hId]
  exact hRow

/-- The merchant is found under each of its keys. -/
theorem MerchantsSound.findByApiKey (hSound : MerchantsSound m) {id key : String} {row : Merchant}
    (hRow : m.world.merchant id = some row) (hKey : key ∈ row.keys) :
    m.world.merchants.findByApiKey key = some row := by
  have hSome : (m.world.merchants.findByApiKey key).isSome = true := by
    apply List.find?_isSome.mpr
    apply Exists.intro row
    apply And.intro (Table.mem_of_get? hRow)
    rcases List.mem_cons.mp hKey with rfl | hPrevious
    · simp
    · simp [Option.mem_toList.mp hPrevious]
  obtain ⟨found, hFound⟩ := Option.isSome_iff_exists.mp hSome
  have hOwn := hSound.owner (hSound.rowKeys id row hRow key hKey) hFound
  rw [hFound, ← hOwn, hRow]

theorem sinceWrite_cons (i : Nat) (e : MerchantEvent) (trace : List MerchantEvent) :
    sinceWrite i (e :: trace) =
      if e.task = i ∧ e.call.stored.isSome = true then [] else e :: sinceWrite i trace := by
  rw [sinceWrite, List.takeWhile_cons, sinceWrite]
  by_cases hHere : e.task = i ∧ e.call.stored.isSome = true
  · rw [if_pos hHere, hHere.1, hHere.2]
    simp
  · rw [if_neg hHere, if_pos]
    simpa [imp_iff_not_or] using hHere

theorem lastStored_cons (e : MerchantEvent) (past : MerchantPast) :
    MerchantPast.lastStored (e.done :: past) =
      if e.call.stored.isSome then some e.done else past.lastStored := by
  rw [MerchantPast.lastStored, List.find?_cons]
  change (match e.call.stored.isSome with | true => some e.done | false => _) = _
  cases e.call.stored.isSome <;> rfl

/-- The call with which a task stored a merchant last, in the trace. -/
theorem exists_of_lastStored {i : Nat} {trace : List MerchantEvent}
    {h : Σ c : MerchantCall, Except AppError (MerchantAns c)}
    (hLast : (merchantPastOf i trace).lastStored = some h) :
    ∃ e older, trace = sinceWrite i trace ++ e :: older ∧ e.task = i ∧ e.done = h := by
  induction trace with
  | nil => cases hLast
  | cons e older ih =>
      rw [merchantPastOf, ownCalls_cons] at hLast
      by_cases hHere : e.task = i ∧ e.call.stored.isSome = true
      · rw [if_pos hHere.1, lastStored_cons, if_pos hHere.2] at hLast
        refine ⟨e, older, ?_, hHere.1, Option.some.inj hLast⟩
        rw [sinceWrite_cons, if_pos hHere]
        rfl
      · have hOlder : (merchantPastOf i older).lastStored = some h := by
          split at hLast
          · next hTask =>
              have hNone : ¬e.call.stored.isSome = true := fun hStored => hHere ⟨hTask, hStored⟩
              rwa [lastStored_cons, if_neg hNone] at hLast
          · exact hLast
        obtain ⟨e', older', hSplit, hTask, hDone⟩ := ih hOlder
        refine ⟨e', older', ?_, hTask, hDone⟩
        rw [sinceWrite_cons, if_neg hHere, List.cons_append, ← hSplit]

end runs

/-- The task is a call of the method that has returned. -/
def Merchants.HasReturned (m : Merchants) (i : Nat) (request : MerchantRequest)
    (result : Option Merchant) : Prop :=
  ∃ t, m.tasks[i]? = some t ∧ t.prog = .ret (.ok result) ∧
    request ∈ (merchantPastOf i m.world.trace).requests

/-- As long as updates keep apart, a suspension sticks until a later call activates the
merchant, and a key that `rotateKey` returned authenticates its merchant until the
second next rotation. -/
theorem suspension_sticks_while_apart (b : Backend) (audit : Bool) {m : Merchants}
    (hRun : (merchantSystem b audit).Reaches (fun m label => writesApart m label = true)
      (Machine.start .empty) m) (id : String) :
    (∀ i saved, m.HasReturned i (.setStatus id .suspended) saved →
      (∀ e ∈ sinceLast i m.world.trace, e.call ≠ .invoke (.setStatus id .active)) →
      ∀ key, m.world.EverHad id key → Authenticates b audit m key none) ∧
    ∀ i saved, m.HasReturned i (.rotateKey id) (some saved) →
      (rotations id (sinceWrite i m.world.trace)).length < 2 →
      ∀ row, m.world.merchant id = some row → row.status = .active →
        Authenticates b audit m saved.apiKey (some row) := by
  obtain ⟨hSound, hServed⟩ := sound_of_run hRun
  have hDone : ∀ i request result, m.HasReturned i request result →
      request.Done (.ok result) (merchantPastOf i m.world.trace) := by
    intro i request result hReturned
    obtain ⟨t, ht, hProg, hMem⟩ := hReturned
    obtain ⟨⟨request', hOnly, hDone⟩, -⟩ := hServed.following.returned ht hProg
    change (merchantPastOf i m.world.trace).requests = [request'] at hOnly
    rw [hOnly, List.mem_singleton] at hMem
    rw [hMem]
    exact hDone
  constructor
  · intro i saved hReturned hNone key hEver
    obtain ⟨x, hId, hStatus, hLast⟩ := hDone i _ saved hReturned
    obtain ⟨e, older, hSplit, hTask, hCall⟩ := exists_of_lastStored hLast
    have hMem : e ∈ m.world.trace := by
      rw [hSplit]
      simp
    have hApplied := hSound.applied e hMem .setStatus x hCall
    have hSuspends : e.suspends id = true := by
      obtain ⟨task, call, answer, applied⟩ := e
      cases hCall
      simp only at hApplied
      simp [MerchantEvent.suspends, hApplied, hId, hStatus]
    have hNobody : (m.world.merchants.findByApiKey key).filter
        (fun merchant => merchant.status = .active) = none := by
      apply Option.eq_none_iff_forall_not_mem.mpr
      intro row hRow
      obtain ⟨hFound, hActive⟩ := Option.filter_eq_some_iff.mp hRow
      have hOwn := hSound.owner (hSound.everKeys id key hEver) hFound
      obtain ⟨-, e', hSince, hInvoke⟩ :=
        hSound.sticks e hMem id row hSuspends hOwn (by simpa using hActive)
      rw [hTask] at hSince
      exact hNone e' hSince hInvoke
    rw [← hNobody]
    exact hServed.authenticates key
  · intro i saved hReturned hFew row hRow hActive
    obtain ⟨x, hSaved, hId, hLast⟩ := hDone i _ (some saved) hReturned
    cases hSaved
    obtain ⟨e, older, hSplit, hTask, hCall⟩ := exists_of_lastStored hLast
    have hMem : e ∈ m.world.trace := by
      rw [hSplit]
      simp
    have hApplied := hSound.applied e hMem .rotateKey saved hCall
    have hRotation : e.rotation id = some saved.apiKey := by
      obtain ⟨task, call, answer, applied⟩ := e
      cases hCall
      simp only at hApplied
      simp [MerchantEvent.rotation, hApplied, hId]
    have hAll : rotations id m.world.trace =
        rotations id (sinceWrite i m.world.trace) ++ saved.apiKey :: rotations id older := by
      rw [hSplit, rotations, List.filterMap_append, List.filterMap_cons_some hRotation, ← hSplit]
      rfl
    have hNewest : saved.apiKey ∈ (rotations id m.world.trace).take 2 := by
      rw [hAll]
      cases hSince : rotations id (sinceWrite i m.world.trace) with
      | nil => simp
      | cons newest rest =>
          rw [hSince, List.length_cons] at hFew
          obtain rfl := List.length_eq_zero_iff.mp (by omega : rest.length = 0)
          simp
    have hKey := (hSound.current id row hRow).subset hNewest
    have hFound : (m.world.merchants.findByApiKey saved.apiKey).filter
        (fun merchant => merchant.status = .active) = some row := by
      rw [hSound.findByApiKey hRow hKey, Option.filter_some, if_pos (by simpa using hActive)]
    rw [← hFound]
    exact hServed.authenticates saved.apiKey

namespace Sample

/-- A task provisions the merchant `m1`. -/
def provisions (task : Nat) (key : String) : List (Label MerchantReply MerchantRequest) :=
  [.spawn (.create ⟨"Shop", some "m1", none⟩), .step task .normal, .step task (.time 0),
    .step task (.text key), .step task .normal]

/-- A task starts to rotate the key of `m1`, and has read the merchant. -/
def startsRotation (task : Nat) : List (Label MerchantReply MerchantRequest) :=
  [.spawn (.rotateKey "m1"), .step task .normal, .step task .normal]

def finishesRotation (task : Nat) (key : String) : List (Label MerchantReply MerchantRequest) :=
  [.step task (.text key), .step task (.time 1), .step task .normal]

def suspends (task : Nat) : List (Label MerchantReply MerchantRequest) :=
  [.spawn (.setStatus "m1" .suspended), .step task .normal, .step task .normal,
    .step task (.time 2), .step task .normal]

/-- What the task returned, if it has. -/
def returnedBy (m : Merchants) (i : Nat) : Option (Option Merchant) :=
  m.tasks[i]?.bind fun t => match t.prog with
    | .ret (.ok result) => some result
    | _ => none

/-- The task has returned as a call of the method. -/
def hasReturned (m : Merchants) (i : Nat) (request : MerchantRequest) : Bool :=
  (returnedBy m i).isSome && (merchantPastOf i m.world.trace).requests.contains request

theorem returnedBy_eq {m : Merchants} {i : Nat} {result : Option Merchant}
    (h : returnedBy m i = some result) :
    ∃ t, m.tasks[i]? = some t ∧ t.prog = .ret (.ok result) := by
  obtain ⟨t, ht, hRet⟩ := Option.bind_eq_some_iff.mp h
  cases hp : t.prog with
  | ret outcome =>
      rw [hp] at hRet
      cases outcome with
      | ok a =>
          cases hRet
          exact ⟨t, ht, hp⟩
      | error e => cases hRet
  | _ =>
      rw [hp] at hRet
      cases hRet

theorem hasReturned_spec {m : Merchants} {i : Nat} {request : MerchantRequest}
    (h : hasReturned m i request = true) :
    ∃ result, returnedBy m i = some result ∧ m.HasReturned i request result := by
  obtain ⟨hSome, hIn⟩ := Bool.and_eq_true_iff.mp h
  obtain ⟨result, hResult⟩ := Option.isSome_iff_exists.mp hSome
  obtain ⟨t, ht, hp⟩ := returnedBy_eq hResult
  exact ⟨result, hResult, t, ht, hp, by simpa using hIn⟩

/-- The merchant was stored with the key. -/
def had (m : Merchants) (key : String) : Bool :=
  m.world.trace.any fun e => e.applied && e.call.stored.any fun x => x.id = "m1" && x.apiKey = key

theorem everHad_of_had {m : Merchants} {key : String} (h : had m key = true) :
    m.world.EverHad "m1" key := by
  obtain ⟨e, hMem, hBoth⟩ := List.any_eq_true.mp h
  obtain ⟨hApplied, hAny⟩ := Bool.and_eq_true_iff.mp hBoth
  obtain ⟨x, hStored, hFits⟩ := (Option.any_eq_true _ _).mp hAny
  simp only [Bool.and_eq_true, decide_eq_true_eq] at hFits
  exact ⟨e, hMem, hApplied, x, hStored, hFits.1, hFits.2 ▸ List.mem_cons_self⟩

end Sample

/-- A rotation, and then a suspension. -/
theorem suspension_sticks_sample : ∃ m m' : Merchants, ∃ saved saved' row,
    (merchantSystem .sql false).Reaches (fun m label => writesApart m label = true)
      (Machine.start .empty) m ∧
    (merchantSystem .sql false).Reaches (fun m label => writesApart m label = true)
      (Machine.start .empty) m' ∧
    m.HasReturned 1 (.rotateKey "m1") (some saved) ∧ m.world.EverHad "m1" "k2" ∧
    m'.HasReturned 2 (.setStatus "m1" .suspended) saved' ∧ m'.world.EverHad "m1" "k1" ∧
    m.world.merchant "m1" = some row ∧ Authenticates .sql false m "k2" (some row) ∧
    Authenticates .sql false m' "k1" none := by
  obtain ⟨m, hRun, hCheck⟩ := System.exists_reaches (merchantSystem .sql false) writesApart
    (Machine.start .empty)
    (Sample.provisions 0 "k1" ++ Sample.startsRotation 1 ++ Sample.finishesRotation 1 "k2")
    (fun m => Sample.hasReturned m 1 (.rotateKey "m1") &&
      (Sample.returnedBy m 1).any (fun result => result.any fun saved => saved.apiKey = "k2") &&
      Sample.had m "k2" && (rotations "m1" (sinceWrite 1 m.world.trace)).length < 2 &&
      (m.world.merchant "m1").any fun row => row.status = .active) (by decide +kernel)
  obtain ⟨m', hRun', hCheck'⟩ := System.exists_reaches (merchantSystem .sql false) writesApart
    (Machine.start .empty)
    (Sample.provisions 0 "k1" ++ Sample.startsRotation 1 ++ Sample.finishesRotation 1 "k2" ++
      Sample.suspends 2)
    (fun m => Sample.hasReturned m 2 (.setStatus "m1" .suspended) && Sample.had m "k1" &&
      (sinceLast 2 m.world.trace).isEmpty) (by decide +kernel)
  simp only [Bool.and_eq_true, decide_eq_true_eq, Option.any_eq_true] at hCheck hCheck'
  obtain ⟨⟨⟨⟨hReturned, result, hResult, saved, hSaved, hKey⟩, hHadNew⟩, hFew⟩, row, hRow, hActive⟩ :=
    hCheck
  obtain ⟨⟨hReturned', hHad⟩, hSince⟩ := hCheck'
  obtain ⟨_, hSame, hHasReturned⟩ := Sample.hasReturned_spec hReturned
  obtain ⟨saved', -, hHasReturned'⟩ := Sample.hasReturned_spec hReturned'
  rw [hResult, hSaved] at hSame
  cases hSame
  have hEver := Sample.everHad_of_had hHad
  refine ⟨m, m', saved, saved', row, hRun, hRun', hHasReturned, Sample.everHad_of_had hHadNew,
    hHasReturned', hEver, hRow, ?_, ?_⟩
  · rw [← hKey]
    exact (suspension_sticks_while_apart .sql false hRun "m1").2 1 saved hHasReturned hFew row hRow
      hActive
  · apply (suspension_sticks_while_apart .sql false hRun' "m1").1 2 saved' hHasReturned' _ "k1" hEver
    intro e hMem
    rw [List.isEmpty_iff.mp hSince] at hMem
    cases hMem

/-- Task 1 has read the active merchant to rotate its key when task 2 suspends it. After
task 2 has returned, task 1 writes the merchant back as active, and task 3 is let in. -/
theorem rotation_lifts_suspension : ∃ m : Merchants, ∃ saved,
    (merchantSystem .memory false).Reaches (fun _ _ => True) (Machine.start .empty) m ∧
    m.HasReturned 2 (.setStatus "m1" .suspended) saved ∧
    (∀ e ∈ sinceLast 2 m.world.trace, e.call ≠ .invoke (.setStatus "m1" .active)) ∧
    m.world.EverHad "m1" "k1" ∧ ¬Authenticates .memory false m "k1" none := by
  obtain ⟨m, hRun, hCheck⟩ := System.exists_reaches (merchantSystem .memory false)
    (fun _ _ => true) (Machine.start .empty)
    (Sample.provisions 0 "k1" ++ Sample.startsRotation 1 ++ Sample.suspends 2 ++
      Sample.finishesRotation 1 "k2" ++ [.spawn (.authenticate "k1"), .step 3 .normal])
    (fun m => Sample.hasReturned m 2 (.setStatus "m1" .suspended) && Sample.had m "k1" &&
      ((sinceLast 2 m.world.trace).all fun e =>
        e.call ≠ .invoke (.setStatus "m1" .active)) &&
      m.nextCall 3 = some (.findByApiKey "k1") &&
      ((merchantSystem .memory false).step m (.step 3 .normal)).any fun m' =>
        (Sample.returnedBy m' 3).any Option.isSome) (by decide +kernel)
  simp only [Bool.and_eq_true, decide_eq_true_eq, Option.any_eq_true, List.all_eq_true] at hCheck
  obtain ⟨⟨⟨⟨hReturned, hHad⟩, hNone⟩, hCall⟩, m', hStep, result, hResult, hSome⟩ := hCheck
  obtain ⟨saved, -, hHasReturned⟩ := Sample.hasReturned_spec hReturned
  refine ⟨m, saved, hRun.mono fun _ _ _ _ _ => trivial, hHasReturned, hNone,
    Sample.everHad_of_had hHad, ?_⟩
  intro hAuthenticates
  obtain ⟨t, settled, ht, hProg, hNobody | ⟨_, _, hReply, -⟩⟩ :=
    hAuthenticates 3 .normal m' hCall hStep
  · obtain ⟨t', ht', hProg'⟩ := Sample.returnedBy_eq hResult
    cases ht.symm.trans ht'
    rw [hProg, hNobody] at hProg'
    cases hProg'
    cases hSome
  · cases hReply

end VpnPayment
