import VpnPayment.Http.Uri

/-! A response of the HTTP server, and the statements that write it. Once the head
is sent, every further attempt to change it throws. -/
namespace VpnPayment.Http

/-- What a throw statement or a rejected promise carries. -/
inductive Thrown
  | app (code message : String) (httpStatus : Nat)
  | error (message : String)
  /-- `null` or `undefined`, which have no message. -/
  | nullish
deriving DecidableEq

/-- The characters a header value may hold, in the parser and in `setHeader`. -/
def isFieldChar (c : Char) : Bool :=
  c = '\t' || (0x20 ≤ c.toNat && c.toNat ≤ 0x7e) || (0x80 ≤ c.toNat && c.toNat ≤ 0xff)

def validFieldValue (value : String) : Bool :=
  value.toList.all isFieldChar

/-- The value of a header that the parser delivers. -/
structure FieldValue where
  text : String
  valid : validFieldValue text = true

inductive Body
  | json (fields : List (String × String))
  | text (payload : String)
  | empty
deriving DecidableEq

/-- A complete response. -/
structure Reply where
  status : Nat
  headers : List (String × String)
  body : Body
deriving DecidableEq

/-- A response under way. -/
structure ServerResponse where
  statusCode : Nat := 200
  headers : List (String × String) := []
  headersSent : Bool := false
  finished : Bool := false
  replies : List Reply := []
deriving DecidableEq

/-- One line of the access log. -/
structure Access where
  requestId : String
  method : String
  route : String
  status : Nat
  ip : String
deriving DecidableEq

/-- What the statements of the router read and write. -/
structure Exchange where
  res : ServerResponse := {}
  log : List Access := []
deriving DecidableEq

abbrev Act := ExceptT Thrown (StateM Exchange)

namespace Act

variable {α β : Type} {ex ex' : Exchange}

def runOn (x : Act α) (ex : Exchange) : Except Thrown α × Exchange :=
  x.run.run ex

/-- An error skips the second action. -/
theorem runOn_bind (x : Act α) (f : α → Act β) (ex : Exchange) :
    (x >>= f).runOn ex = match x.runOn ex with
      | (.ok a, ex') => (f a).runOn ex'
      | (.error e, ex') => (.error e, ex') := by
  unfold runOn ExceptT.run StateT.run
  simp only [bind, ExceptT.bind, ExceptT.mk, StateT.bind, ExceptT.bindCont]
  cases x ex with
  | mk result next => cases result <;> rfl

theorem runOn_bind_ok {x : Act α} {f : α → Act β} {a : α} (h : x.runOn ex = (.ok a, ex')) :
    (x >>= f).runOn ex = (f a).runOn ex' := by
  rw [runOn_bind, h]

theorem runOn_bind_error {x : Act α} {f : α → Act β} {e : Thrown}
    (h : x.runOn ex = (.error e, ex')) : (x >>= f).runOn ex = (.error e, ex') := by
  rw [runOn_bind, h]

@[simp] theorem runOn_pure (a : α) : (pure a : Act α).runOn ex = (.ok a, ex) := rfl

@[simp] theorem runOn_throw (e : Thrown) : (throw e : Act α).runOn ex = (.error e, ex) := rfl

theorem runOn_get_bind (f : Exchange → Act α) : ((get : Act Exchange) >>= f).runOn ex = (f ex).runOn ex :=
  rfl

@[simp] theorem runOn_set (new : Exchange) : (set new : Act Unit).runOn ex = (.ok (), new) := rfl

/-- An error runs the handler on the exchange it left behind. -/
theorem runOn_tryCatch (x : Act α) (handler : Thrown → Act α) (ex : Exchange) :
    (tryCatch x handler).runOn ex = match x.runOn ex with
      | (.ok a, ex') => (.ok a, ex')
      | (.error e, ex') => (handler e).runOn ex' := by
  unfold runOn ExceptT.run StateT.run
  simp only [tryCatch, tryCatchThe, MonadExceptOf.tryCatch, ExceptT.tryCatch, ExceptT.mk, bind,
    StateT.bind]
  cases x ex with
  | mk result next => cases result <;> rfl

theorem runOn_lift_ok (a : α) (f : α → Act β) :
    ((liftM (Except.ok a : Except Thrown α) : Act α) >>= f).runOn ex = (f a).runOn ex := rfl

theorem runOn_lift_error (e : Thrown) (f : α → Act β) :
    ((liftM (Except.error e : Except Thrown α) : Act α) >>= f).runOn ex = (.error e, ex) := rfl

/-- A `finally` block runs in any case. -/
theorem runOn_tryFinally {x y : Act Unit} {r : Except Thrown Unit} {ex₁ ex₂ : Exchange}
    (hx : x.runOn ex = (r, ex₁)) (hy : y.runOn ex₁ = (.ok (), ex₂)) :
    (tryFinally x y).runOn ex = (r, ex₂) := by
  unfold runOn ExceptT.run StateT.run at *
  cases r <;>
    simp [tryFinally, tryFinally', ExceptT.mk, bind, StateT.bind, Functor.map, ExceptT.map, hx, hy] <;>
    rfl

end Act

def putHeader (headers : List (String × String)) (name value : String) : List (String × String) :=
  headers.filter (·.1 ≠ name) ++ [(name, value)]

def setHeader (name value : String) : Act Unit := do
  let ex ← get
  if ex.res.headersSent then throw (.error "Cannot set headers after they are sent to the client")
  else if !validFieldValue value then throw (.error "Invalid character in header content")
  else set { ex with res := { ex.res with headers := putHeader ex.res.headers name value } }

def writeHead (status : Nat) (fields : List (String × String)) : Act Unit := do
  let ex ← get
  if ex.res.headersSent then throw (.error "Cannot write headers after they are sent to the client")
  else if status < 100 ∨ 999 < status then throw (.error "Invalid status code")
  else if fields.any fun field => !validFieldValue field.2 then
    throw (.error "Invalid character in header content")
  else
    let headers := fields.foldl (fun headers field => putHeader headers field.1 field.2) ex.res.headers
    set { ex with res := { ex.res with statusCode := status, headers, headersSent := true } }

/-- `res.end`, after which the response is complete. -/
def endWith (body : Body) : Act Unit := do
  let ex ← get
  if ex.res.finished then pure ()
  else
    let reply := { status := ex.res.statusCode, headers := ex.res.headers, body }
    set { ex with res := { ex.res with finished := true, replies := ex.res.replies ++ [reply] } }

def sendRaw (status : Nat) (contentType : String) (body : Body) : Act Unit := do
  writeHead status [("Content-Type", contentType)]
  endWith body

def sendJson (status : Nat) (fields : List (String × String)) : Act Unit :=
  sendRaw status "application/json; charset=utf-8" (.json fields)

/-- What the listeners of a request answer by themselves. -/
inductive Event
  | timeout
  | tooLarge
  | streamError
deriving DecidableEq

def Event.reply : Event → Act Unit
  | .timeout => sendJson 503 [("error", "REQUEST_TIMEOUT"), ("message", "request timed out")]
  | .tooLarge => sendJson 413 [("error", "PAYLOAD_TOO_LARGE"), ("message", "request body too large")]
  | .streamError => sendJson 400 [("error", "BAD_REQUEST"), ("message", "stream error")]

/-- A listener answers unless a head was sent before. -/
def onEvent (event : Event) : Act Unit := do
  let ex ← get
  if ex.res.headersSent then pure () else event.reply

/-- What happens while a promise is awaited. -/
def awaiting (events : List Event) : Act Unit :=
  events.forM onEvent

/-- Nothing of the response was sent, or one complete response was. -/
def Stands (sent : Bool) (ex : Exchange) : Prop :=
  ex.res.headersSent = sent ∧ ex.res.finished = sent ∧
    if sent then ∃ reply, ex.res.replies = [reply] else ex.res.replies = []

/-- A statement succeeds, and afterwards the response stands as given. -/
def Succeeds (x : Act Unit) (ex : Exchange) (sent : Bool) : Prop :=
  ∃ ex', x.runOn ex = (.ok (), ex') ∧ Stands sent ex'

/-- A statement throws, and afterwards the response stands as given. -/
def Throws (x : Act Unit) (ex : Exchange) (e : Thrown) (sent : Bool) : Prop :=
  ∃ ex', x.runOn ex = (.error e, ex') ∧ Stands sent ex'

variable {ex : Exchange} {name value : String} {status : Nat}

/-- An action that returns and leaves the response open or sent. -/
theorem Succeeds.intro {x : Act Unit} {ex ex' : Exchange} {sent : Bool}
    (hRun : x.runOn ex = (.ok (), ex')) (hStands : Stands sent ex') : Succeeds x ex sent :=
  ⟨ex', hRun, hStands⟩

/-- Two actions after one another. -/
theorem Succeeds.seq {x y : Act Unit} {sent₁ sent₂ : Bool} (hx : Succeeds x ex sent₁)
    (hy : ∀ ex₁, Stands sent₁ ex₁ → Succeeds y ex₁ sent₂) : Succeeds (do x; y) ex sent₂ := by
  obtain ⟨ex₁, hRun, hStands⟩ := hx
  obtain ⟨ex₂, hRun₂, hStands₂⟩ := hy ex₁ hStands
  exact ⟨ex₂, (Act.runOn_bind_ok hRun).trans hRun₂, hStands₂⟩

theorem Succeeds.pure {sent : Bool} (h : Stands sent ex) : Succeeds (pure ()) ex sent :=
  ⟨ex, rfl, h⟩

/-- Before the head is sent, valid headers can be set. -/
theorem setHeader_unsent (h : Stands false ex) (hValid : validFieldValue value = true) :
    Succeeds (setHeader name value) ex false := by
  refine @Succeeds.intro (setHeader name value) ex { ex with res :=
    { ex.res with headers := putHeader ex.res.headers name value } } _ ?_ h
  unfold setHeader
  rw [Act.runOn_get_bind, if_neg (by simp [h.1]), if_neg (by simp [hValid]), Act.runOn_set]

/-- Node refuses an invalid value. -/
theorem setHeader_invalid (h : Stands false ex) (hInvalid : validFieldValue value = false) :
    Throws (setHeader name value) ex (.error "Invalid character in header content") false := by
  refine ⟨ex, ?_, h⟩
  unfold setHeader
  rw [Act.runOn_get_bind, if_neg (by simp [h.1]), if_pos (by simp [hInvalid]), Act.runOn_throw]

/-- After the head is sent, no header can be set. -/
theorem setHeader_sent (h : Stands true ex) :
    Throws (setHeader name value) ex
      (.error "Cannot set headers after they are sent to the client") true := by
  refine ⟨ex, ?_, h⟩
  unfold setHeader
  rw [Act.runOn_get_bind, if_pos h.1, Act.runOn_throw]

/-- Whether `writeHead` accepts a status and a content type. -/
def validHead (status : Nat) (contentType : String) : Bool :=
  100 ≤ status && status ≤ 999 && validFieldValue contentType

/-- A head that can be written, and an end. -/
theorem respond_unsent {fields : List (String × String)} {body : Body} (h : Stands false ex)
    (hStatus : 100 ≤ status ∧ status ≤ 999)
    (hFields : (fields.any fun field => !validFieldValue field.2) = false) :
    Succeeds (do writeHead status fields; endWith body) ex true := by
  obtain ⟨hHead, hFinished, hReplies⟩ := h
  let headers := fields.foldl (fun headers field => putHeader headers field.1 field.2) ex.res.headers
  let replies := ex.res.replies ++ [⟨status, headers, body⟩]
  have hWrite : (writeHead status fields).runOn ex =
      (.ok (), { ex with res := ⟨status, headers, true, ex.res.finished, ex.res.replies⟩ }) := by
    unfold writeHead
    rw [Act.runOn_get_bind, if_neg (by simp [hHead]), if_neg (by omega),
      if_neg (by simp [hFields]), Act.runOn_set]
  refine @Succeeds.intro _ ex { ex with res := ⟨status, headers, true, true, replies⟩ } _ ?_
    ⟨rfl, rfl, _, congrArg (· ++ [_]) hReplies⟩
  unfold endWith
  rw [Act.runOn_bind_ok hWrite, Act.runOn_get_bind, if_neg (by simp [hFinished]), Act.runOn_set]

/-- A response with a valid head is sent. -/
theorem sendRaw_unsent {contentType : String} {body : Body} (h : Stands false ex)
    (hValid : validHead status contentType = true) :
    Succeeds (sendRaw status contentType body) ex true := by
  simp only [validHead, Bool.and_eq_true, decide_eq_true_eq] at hValid
  exact respond_unsent h hValid.1 (by simp [hValid.2])

/-- A head that cannot be written throws before anything else happens. -/
theorem sendRaw_throws {contentType : String} {body : Body} {sent : Bool} (h : Stands sent ex)
    (hInvalid : sent = true ∨ validHead status contentType = false) :
    ∃ message, Throws (sendRaw status contentType body) ex (.error message) sent := by
  have hWrite : ∃ message, (writeHead status [("Content-Type", contentType)]).runOn ex =
      (.error (.error message), ex) := by
    unfold writeHead
    rw [Act.runOn_get_bind]
    by_cases hHead : ex.res.headersSent = true
    · rw [if_pos hHead]
      exact ⟨_, rfl⟩
    · rw [if_neg hHead]
      by_cases hStatus : status < 100 ∨ 999 < status
      · rw [if_pos hStatus]
        exact ⟨_, rfl⟩
      · have hType : validFieldValue contentType = false := by
          have hBad := hInvalid.resolve_left fun hSent => hHead (h.1.trans hSent)
          simp only [validHead, Bool.and_eq_false_iff, decide_eq_false_iff_not] at hBad
          obtain (hLow | hHigh) | hType := hBad
          · omega
          · omega
          · exact hType
        rw [if_neg hStatus, if_pos (by simp [hType])]
        exact ⟨_, rfl⟩
  obtain ⟨message, hThrow⟩ := hWrite
  exact ⟨message, ex, Act.runOn_bind_error hThrow, h⟩

theorem sendJson_unsent {fields : List (String × String)} (h : Stands false ex)
    (hStatus : 100 ≤ status ∧ status ≤ 999) : Succeeds (sendJson status fields) ex true := by
  have hType : validFieldValue "application/json; charset=utf-8" = true := by decide +kernel
  exact sendRaw_unsent h (by simp [validHead, hStatus, hType])

/-- What happens while a handler waits is recorded, and the client may leave. -/
theorem onEvent_succeeds {sent : Bool} (event : Event) (h : Stands sent ex) :
    Succeeds (onEvent event) ex true := by
  cases sent with
  | true =>
      refine ⟨ex, ?_, h⟩
      unfold onEvent
      rw [Act.runOn_get_bind, if_pos h.1, Act.runOn_pure]
  | false =>
      have hReply : Succeeds event.reply ex true := by
        cases event <;> exact sendJson_unsent h (by decide)
      obtain ⟨ex', hRun, hStands⟩ := hReply
      refine ⟨ex', ?_, hStands⟩
      unfold onEvent
      rw [Act.runOn_get_bind, if_neg (by simp [h.1]), hRun]

/-- Whatever happens while a promise is awaited, one response at most is sent. -/
theorem awaiting_succeeds {sent : Bool} (events : List Event) (h : Stands sent ex) :
    Succeeds (awaiting events) ex (sent || !events.isEmpty) := by
  unfold awaiting
  induction events generalizing ex sent with
  | nil =>
      refine ⟨ex, rfl, ?_⟩
      simpa using h
  | cons event events ih =>
      obtain ⟨ex₁, hRun₁, hStands₁⟩ := onEvent_succeeds event h
      obtain ⟨ex₂, hRun₂, hStands₂⟩ := ih hStands₁
      refine ⟨ex₂, ?_, by simpa using hStands₂⟩
      show (onEvent event >>= fun _ => events.forM onEvent).runOn ex = _
      rw [Act.runOn_bind_ok hRun₁, hRun₂]

end VpnPayment.Http
