import VpnPayment.Http.Router

/-! When the dispatch of a request answers it once and its promise resolves. -/
namespace VpnPayment.Http

/-- One complete response, and a promise that resolves. -/
structure AnsweredOnce (result : Except Thrown Unit × Exchange) : Prop where
  resolves : result.1 = .ok ()
  once : ∃ reply, result.2.res.replies = [reply]

variable {ex ex' : Exchange} {sent : Bool} {r : Except Thrown Unit}

/-- Whether one response was sent, read off the state of the exchange. -/
theorem AnsweredOnce.of_stands (h : Stands sent ex) :
    AnsweredOnce (r, ex) ↔ r = .ok () ∧ sent = true := by
  constructor
  · rintro ⟨hOk, reply, hReplies⟩
    refine ⟨hOk, ?_⟩
    cases sent with
    | true => rfl
    | false =>
        have hNone : ex.res.replies = [] := h.2.2
        rw [hNone] at hReplies
        cases hReplies
  · rintro ⟨hOk, rfl⟩
    exact ⟨hOk, h.2.2⟩

theorem Succeeds.answeredOnce {x : Act Unit} (h : Succeeds x ex true) :
    AnsweredOnce (x.runOn ex) := by
  obtain ⟨ex', hRun, hStands⟩ := h
  rw [hRun]
  exact (AnsweredOnce.of_stands hStands).mpr ⟨rfl, rfl⟩

/-- What is thrown out of the dispatcher answers nobody. -/
theorem not_answeredOnce_of_error {e : Thrown} : ¬AnsweredOnce (.error e, ex) := by
  intro h
  cases h.resolves

section handler

/-- Errors that `reportError` can answer. -/
def Thrown.Reportable : Thrown → Prop
  | .app _ _ httpStatus => 100 ≤ httpStatus ∧ httpStatus ≤ 999
  | .error _ => True
  | .nullish => False

/-- A handler touches its response only while nothing is sent, and then sends one
and resolves, or throws a proper error before that. -/
def HandlerRun.Answers : Bool → HandlerRun → Prop
  | sent, .resolve => sent = true
  | sent, .reject e => sent = false ∧ e.Reportable
  | sent, .setHeader _ value next =>
      sent = false ∧ (validFieldValue value = true → next.Answers false)
  | sent, .send status contentType _ caught next =>
      sent = false ∧ if validHead status contentType then next.Answers true
        else ∀ e ∈ caught, e.Reportable
  | sent, .await events next => next.Answers (sent || !events.isEmpty)

/-- How a handler ends, for the `catch` block around it. -/
def Ends (r : Except Thrown Unit) (sent : Bool) : Prop :=
  match r with
  | .ok () => sent = true
  | .error e => sent = false ∧ e.Reportable

theorem runOn_try_send {status : Nat} {contentType : String} {body : Body} {caught : Option Thrown}
    (h : Stands sent ex) :
    let x : Act Unit := do
      try sendRaw status contentType body
      catch e => throw (caught.getD e)
    if sent = false ∧ validHead status contentType = true then Succeeds x ex true
    else ∃ message, Throws x ex (caught.getD (.error message)) sent := by
  intro x
  split
  · next hSends =>
      obtain ⟨rfl, hValid⟩ := hSends
      obtain ⟨ex', hRun, hStands⟩ := @sendRaw_unsent _ _ _ body h hValid
      refine ⟨ex', ?_, hStands⟩
      rw [Act.runOn_tryCatch, hRun]
  · next hFails =>
      have hBad : sent = true ∨ validHead status contentType = false := by
        cases sent <;> simp_all
      obtain ⟨message, ex', hRun, hStands⟩ := @sendRaw_throws _ _ _ body _ h hBad
      refine ⟨message, ex', ?_, hStands⟩
      rw [Act.runOn_tryCatch, hRun]
      rfl

/-- What a handler leaves behind, whatever it does. -/
theorem exec_spec (run : HandlerRun) (h : Stands sent ex) : ∃ r sent' ex',
    run.exec.runOn ex = (r, ex') ∧ Stands sent' ex' ∧ (run.Answers sent ↔ Ends r sent') := by
  induction run generalizing sent ex with
  | resolve => exact ⟨.ok (), sent, ex, rfl, h, Iff.rfl⟩
  | reject e => exact ⟨.error e, sent, ex, rfl, h, Iff.rfl⟩
  | setHeader name value next ih =>
      cases sent with
      | true =>
          obtain ⟨ex', hRun, hStands⟩ := @setHeader_sent _ name value h
          refine ⟨_, true, ex', Act.runOn_bind_error hRun, hStands, ?_⟩
          simp [HandlerRun.Answers, Ends]
      | false =>
          cases hValid : validFieldValue value with
          | true =>
              obtain ⟨ex₁, hRun₁, hStands₁⟩ := @setHeader_unsent _ name _ h hValid
              obtain ⟨r, sent', ex', hRun, hStands, hIff⟩ := ih hStands₁
              refine ⟨r, sent', ex', (Act.runOn_bind_ok hRun₁).trans hRun, hStands, ?_⟩
              simpa [HandlerRun.Answers, hValid] using hIff
          | false =>
              obtain ⟨ex', hRun, hStands⟩ := @setHeader_invalid _ name _ h hValid
              refine ⟨_, false, ex', Act.runOn_bind_error hRun, hStands, ?_⟩
              simp [HandlerRun.Answers, Ends, hValid, Thrown.Reportable]
  | send status contentType body caught next ih =>
      have hTry := @runOn_try_send _ _ status contentType body caught h
      dsimp only at hTry
      split at hTry
      · next hSends =>
          obtain ⟨rfl, hValid⟩ := hSends
          obtain ⟨ex₁, hRun₁, hStands₁⟩ := hTry
          obtain ⟨r, sent', ex', hRun, hStands, hIff⟩ := ih hStands₁
          refine ⟨r, sent', ex', (Act.runOn_bind_ok hRun₁).trans hRun, hStands, ?_⟩
          simpa [HandlerRun.Answers, hValid] using hIff
      · next hFails =>
          obtain ⟨message, ex', hRun, hStands⟩ := hTry
          refine ⟨_, sent, ex', Act.runOn_bind_error hRun, hStands, ?_⟩
          cases sent with
          | true => simp [HandlerRun.Answers, Ends]
          | false =>
              have hBad : ¬validHead status contentType = true := fun hValid => hFails ⟨rfl, hValid⟩
              cases caught <;> simp [HandlerRun.Answers, Ends, hBad, Thrown.Reportable]
  | await events next ih =>
      obtain ⟨ex₁, hRun₁, hStands₁⟩ := awaiting_succeeds events h
      obtain ⟨r, sent', ex', hRun, hStands, hIff⟩ := ih hStands₁
      exact ⟨r, sent', ex', (Act.runOn_bind_ok hRun₁).trans hRun, hStands, hIff⟩

/-- A record of the access log leaves the response alone. -/
def Records (record : Act Unit) : Prop :=
  ∀ ex, ∃ ex', record.runOn ex = (.ok (), ex') ∧ ex'.res = ex.res

/-- The error handler answers when nothing was sent and the error has a response. -/
theorem reportError_spec {e : Thrown} (h : Stands sent ex) :
    ∃ r ex', (reportError e).runOn ex = (r, ex') ∧
      (AnsweredOnce (r, ex') ↔ sent = false ∧ e.Reportable) := by
  cases e with
  | nullish =>
      refine ⟨_, ex, rfl, ?_⟩
      simp [AnsweredOnce.of_stands h, Thrown.Reportable]
  | error message =>
      cases sent with
      | false =>
          obtain ⟨ex', hRun, hStands⟩ := @sendJson_unsent _ 500
            [("error", "INTERNAL"), ("message", "internal server error")] h (by decide)
          refine ⟨_, ex', hRun, ?_⟩
          simp [AnsweredOnce.of_stands hStands, Thrown.Reportable]
      | true =>
          obtain ⟨_, ex', hRun, -⟩ := @sendRaw_throws _ 500 "application/json; charset=utf-8"
            (.json [("error", "INTERNAL"), ("message", "internal server error")]) _ h (.inl rfl)
          refine ⟨_, ex', hRun, ?_⟩
          simp [not_answeredOnce_of_error]
  | app code message httpStatus =>
      by_cases hSends : sent = false ∧ 100 ≤ httpStatus ∧ httpStatus ≤ 999
      · obtain ⟨rfl, hStatus⟩ := hSends
        obtain ⟨ex', hRun, hStands⟩ := @sendJson_unsent _ httpStatus
          [("error", code), ("message", message)] h hStatus
        refine ⟨_, ex', hRun, ?_⟩
        simp [AnsweredOnce.of_stands hStands, Thrown.Reportable, hStatus]
      · have hBad : sent = true ∨
            validHead httpStatus "application/json; charset=utf-8" = false := by
          cases sent with
          | true => exact .inl rfl
          | false =>
              have hStatus : ¬(100 ≤ httpStatus ∧ httpStatus ≤ 999) := fun h => hSends ⟨rfl, h⟩
              refine .inr ?_
              simp only [validHead, Bool.and_eq_false_iff, decide_eq_false_iff_not]
              exact .inl (by omega)
        obtain ⟨_, ex', hRun, -⟩ := @sendRaw_throws _ httpStatus "application/json; charset=utf-8"
          (.json [("error", code), ("message", message)]) _ h hBad
        refine ⟨_, ex', hRun, ?_⟩
        simpa [not_answeredOnce_of_error, Thrown.Reportable] using hSends

/-- The outcome of a handler decides whether the request is answered. -/
theorem runHandler_iff {record : Act Unit} (hRecord : Records record) (run : HandlerRun)
    (h : Stands sent ex) : AnsweredOnce ((Router.runHandler run record).runOn ex) ↔
      run.Answers sent := by
  obtain ⟨r, sent', ex₁, hRun, hStands, hIff⟩ := exec_spec run h
  rw [hIff]
  have hCaught : ∃ r' ex₂, (do try run.exec catch e => reportError e : Act Unit).runOn ex =
      (r', ex₂) ∧ (AnsweredOnce (r', ex₂) ↔ Ends r sent') := by
    cases r with
    | ok u =>
        refine ⟨.ok u, ex₁, ?_, ?_⟩
        · rw [Act.runOn_tryCatch, hRun]
        · simp [AnsweredOnce.of_stands hStands, Ends]
    | error e =>
        obtain ⟨r', ex₂, hReport, hAnswered⟩ := @reportError_spec _ _ e hStands
        refine ⟨r', ex₂, ?_, hAnswered⟩
        rw [Act.runOn_tryCatch, hRun]
        exact hReport
  obtain ⟨r', ex₂, hCatch, hAnswered⟩ := hCaught
  obtain ⟨ex₃, hLog, hRes⟩ := hRecord ex₂
  have hAll := Act.runOn_tryFinally hCatch hLog
  show AnsweredOnce ((tryFinally _ record : Act Unit).runOn ex) ↔ _
  rw [hAll, ← hAnswered]
  constructor
  · rintro ⟨hOk, hOnce⟩
    exact ⟨hOk, hRes ▸ hOnce⟩
  · rintro ⟨hOk, hOnce⟩
    exact ⟨hOk, hRes.symm ▸ hOnce⟩

end handler
section headers

variable {router : Router}

/-- Numbers are valid header values. -/
theorem validFieldValue_toString (n : Nat) : validFieldValue (toString n) = true := by
  refine List.all_eq_true.mpr fun c hc => ?_
  have hDigit : c.isDigit = true := by
    rw [Nat.toString_eq_ofList_toDigits, String.toList_ofList] at hc
    exact Nat.isDigit_of_mem_toDigits (by decide) (by decide) hc
  simp only [Char.isDigit, Bool.and_eq_true, decide_eq_true_eq] at hDigit
  have hLow : 48 ≤ c.toNat := hDigit.1
  have hHigh : c.toNat ≤ 57 := hDigit.2
  simp only [isFieldChar, Bool.or_eq_true, Bool.and_eq_true, decide_eq_true_eq]
  omega

/-- A header that was received is a valid value. -/
theorem header_valid {req : IncomingMessage} {name value : String}
    (h : req.header name = some value) : validFieldValue value = true := by
  obtain ⟨field, -, rfl⟩ := Option.map_eq_some_iff.mp h
  exact field.valid

/-- The hardening headers are set, and nothing is sent. -/
theorem hardeningHeaders_unsent (h : Stands false ex) :
    Succeeds Router.hardeningHeaders ex false := by
  refine (setHeader_unsent h (by decide +kernel)).seq fun ex₁ h₁ => ?_
  refine (setHeader_unsent h₁ (by decide +kernel)).seq fun ex₂ h₂ => ?_
  refine (setHeader_unsent h₂ (by decide +kernel)).seq fun ex₃ h₃ => ?_
  exact setHeader_unsent h₃ (by decide +kernel)

theorem allowOrigin_unsent {sec : SecurityOptions} {origin : Option String} (h : Stands false ex)
    (hOrigin : ∀ value, origin = some value → validFieldValue value = true) :
    Succeeds (Router.allowOrigin sec origin) ex false := by
  unfold Router.allowOrigin
  split
  · exact setHeader_unsent h (by decide +kernel)
  · cases origin with
    | none => exact Succeeds.pure h
    | some value =>
        dsimp only
        split
        · refine (setHeader_unsent h (hOrigin value rfl)).seq fun ex₁ h₁ => ?_
          exact setHeader_unsent h₁ (by decide +kernel)
        · exact Succeeds.pure h

/-- The security headers are set, and nothing is sent. -/
theorem applySecurityHeaders_unsent {origin : Option String} (h : Stands false ex)
    (hOrigin : ∀ value, origin = some value → validFieldValue value = true) :
    Succeeds (router.applySecurityHeaders origin) ex false := by
  unfold Router.applySecurityHeaders
  refine (setHeader_unsent h (by decide +kernel)).seq fun ex₁ h₁ => ?_
  cases router.security with
  | none => exact Succeeds.pure h₁
  | some sec =>
      dsimp only
      have hHardening : Succeeds (if sec.securityHeaders then Router.hardeningHeaders else pure ())
          ex₁ false := by
        split
        · exact hardeningHeaders_unsent h₁
        · exact Succeeds.pure h₁
      refine hHardening.seq fun ex₂ h₂ => ?_
      split
      · exact allowOrigin_unsent h₂ hOrigin
      · exact Succeeds.pure h₂

/-- A preflight is answered. -/
theorem answerPreflight_unsent (h : Stands false ex) : Succeeds Router.answerPreflight ex true := by
  refine (setHeader_unsent h (by decide +kernel)).seq fun ex₁ h₁ => ?_
  refine (setHeader_unsent h₁ (by decide +kernel)).seq fun ex₂ h₂ => ?_
  refine (setHeader_unsent h₂ (by decide +kernel)).seq fun ex₃ h₃ => ?_
  exact respond_unsent h₃ (by decide) rfl

/-- The date of a deprecated route can be sent. -/
def SunsetValid (router : Router) (pattern : String) : Prop :=
  ∀ sunset, router.deprecated.lookup pattern = some (some sunset) → validFieldValue sunset = true

/-- The deprecation headers are set when the sunset date is a valid value. -/
theorem advertise_unsent {pattern : String} (h : Stands false ex)
    (hSunset : SunsetValid router pattern) : Succeeds (router.advertise pattern) ex false := by
  unfold Router.advertise
  cases hLookup : router.deprecated.lookup pattern with
  | none => exact Succeeds.pure h
  | some sunset =>
      refine (setHeader_unsent h (by decide +kernel)).seq fun ex₁ h₁ => ?_
      cases sunset with
      | none => exact Succeeds.pure h₁
      | some sunset =>
          dsimp only
          split
          · exact setHeader_unsent h₁ (hSunset sunset hLookup)
          · exact Succeeds.pure h₁

/-- Node refuses any other value. -/
theorem advertise_fails {pattern : String} (h : Stands false ex)
    (hSunset : ¬SunsetValid router pattern) :
    ∃ e ex', (router.advertise pattern).runOn ex = (.error e, ex') := by
  simp only [SunsetValid, not_forall] at hSunset
  obtain ⟨sunset, hLookup, hInvalid⟩ := hSunset
  have hNonempty : sunset ≠ "" := by
    rintro rfl
    exact hInvalid rfl
  obtain ⟨ex₁, hRun₁, h₁⟩ := @setHeader_unsent _ "Deprecation" "true" h (by decide +kernel)
  obtain ⟨ex₂, hRun₂, -⟩ := @setHeader_invalid _ "Sunset" sunset h₁ (by simpa using hInvalid)
  unfold Router.advertise
  rw [hLookup]
  dsimp only
  rw [Act.runOn_bind_ok hRun₁, if_pos hNonempty, hRun₂]
  exact ⟨_, _, rfl⟩

/-- The limiter answers before anything is sent. -/
def LimiterRun.Decides (run : LimiterRun) (decision : RateLimitDecision) : Prop :=
  run.events = [] ∧ run.result = .ok decision

/-- A limiter that decides lets the request through, or answers it with 429. -/
theorem limit_decided {run : LimiterRun} {record : Act Unit} {decision : RateLimitDecision}
    (h : Stands false ex) (hRecord : Records record) (hDecides : run.Decides decision) :
    ∃ ex', (Router.limit run record).runOn ex = (.ok decision.allowed, ex') ∧
      Stands (!decision.allowed) ex' := by
  obtain ⟨hEvents, hResult⟩ := hDecides
  obtain ⟨ex₀, hRun₀, h₀⟩ := awaiting_succeeds run.events h
  rw [hEvents] at h₀
  obtain ⟨ex₁, hRun₁, h₁⟩ := @setHeader_unsent _ "X-RateLimit-Limit" _ h₀
    (validFieldValue_toString decision.limit)
  obtain ⟨ex₂, hRun₂, h₂⟩ := @setHeader_unsent _ "X-RateLimit-Remaining" _ h₁
    (validFieldValue_toString decision.remaining)
  obtain ⟨ex₃, hRun₃, h₃⟩ := @setHeader_unsent _ "X-RateLimit-Reset" _ h₂
    (validFieldValue_toString ((decision.resetAt + 999) / 1000))
  have hDecision : (liftM run.result : Act RateLimitDecision).runOn ex₀ = (.ok decision, ex₀) := by
    rw [hResult]
    rfl
  unfold Router.limit
  rw [Act.runOn_bind_ok hRun₀, Act.runOn_bind_ok hDecision, Act.runOn_bind_ok hRun₁,
    Act.runOn_bind_ok hRun₂, Act.runOn_bind_ok hRun₃]
  cases hAllowed : decision.allowed with
  | true => exact ⟨ex₃, rfl, h₃⟩
  | false =>
      obtain ⟨ex₄, hRun₄, h₄⟩ := @setHeader_unsent _ "Retry-After" _ h₃
        (validFieldValue_toString decision.retryAfterSec)
      obtain ⟨ex₅, hRun₅, h₅⟩ := @sendJson_unsent _ 429
        [("error", "RATE_LIMITED"), ("message", "too many requests")] h₄ (by decide)
      obtain ⟨ex₆, hRun₆, hRes⟩ := hRecord ex₅
      refine ⟨ex₆, ?_, ?_⟩
      · rw [if_neg (by simp), Act.runOn_bind_ok hRun₄, Act.runOn_bind_ok hRun₅,
          Act.runOn_bind_ok hRun₆]
        rfl
      · unfold Stands at h₅ ⊢
        rw [hRes]
        exact h₅

/-- A limiter that fails throws. -/
theorem limit_undecided {run : LimiterRun} {record : Act Unit} (h : Stands false ex)
    (hUndecided : ∀ decision, ¬run.Decides decision) :
    ∃ e ex', (Router.limit run record).runOn ex = (.error e, ex') := by
  obtain ⟨ex₁, hRun₁, h₁⟩ := awaiting_succeeds run.events h
  unfold Router.limit
  rw [Act.runOn_bind_ok hRun₁]
  cases hResult : run.result with
  | error e => exact ⟨e, ex₁, rfl⟩
  | ok decision =>
      cases hEvents : run.events with
      | nil => exact absurd ⟨hEvents, hResult⟩ (hUndecided decision)
      | cons event events =>
          rw [hEvents] at h₁
          obtain ⟨ex₂, hRun₂, -⟩ := @setHeader_sent _ "X-RateLimit-Limit" (toString decision.limit) h₁
          exact ⟨_, ex₂, (Act.runOn_bind_ok rfl).trans (Act.runOn_bind_error hRun₂)⟩

end headers
section matching

/-- A parameter that cannot be decoded stands before the first segment that differs. -/
def Refuses : List String → List String → Prop
  | seg :: segs, part :: parts =>
      if startsWith seg ":" then decodeURIComponent part = none ∨ Refuses segs parts
      else seg = part ∧ Refuses segs parts
  | _, _ => False

/-- Every parameter can be decoded, and the other segments are equal. -/
def Fits : List String → List String → Prop
  | seg :: segs, part :: parts =>
      (if startsWith seg ":" then decodeURIComponent part ≠ none else seg = part) ∧ Fits segs parts
  | _, _ => True

/-- What the parameters of a route come to. -/
theorem bindParams_cases (segs parts : List String) (params : List (String × String)) :
    (Refuses segs parts ∧ ∃ e, bindParams segs parts params = .error e) ∨
      (¬Refuses segs parts ∧ Fits segs parts ∧
        ∃ bound, bindParams segs parts params = .ok (some bound)) ∨
      (¬Refuses segs parts ∧ ¬Fits segs parts ∧ bindParams segs parts params = .ok none) := by
  induction segs generalizing parts params with
  | nil => exact .inr (.inl ⟨id, trivial, params, rfl⟩)
  | cons seg segs ih =>
      cases parts with
      | nil => exact .inr (.inl ⟨id, trivial, params, rfl⟩)
      | cons part parts =>
          unfold Refuses Fits bindParams
          by_cases hParam : startsWith seg ":" = true
          · simp only [hParam, if_true]
            cases hDecoded : decodeURIComponent part with
            | none => exact .inl ⟨.inl rfl, _, rfl⟩
            | some value => simpa using ih parts (putParam params (slice seg 1) value)
          · simp only [hParam]
            by_cases hSame : seg = part
            · simpa [hSame] using ih parts params
            · exact .inr (.inr ⟨by simp [hSame], by simp [hSame], by simp [hSame]⟩)

/-- A route of the method with as many segments. -/
def Route.Candidate (route : Route) (method : String) (parts : List String) : Prop :=
  route.method = method ∧ route.segments.length = parts.length

/-- A candidate refuses the path before any route fits it. -/
def RefusesMatch (method : String) (parts : List String) : List Route → Prop
  | [] => False
  | route :: routes =>
      (route.Candidate method parts ∧ Refuses route.segments parts) ∨
        (¬(route.Candidate method parts ∧ Fits route.segments parts) ∧
          RefusesMatch method parts routes)

/-- Matching fails on a path part that cannot be decoded. -/
theorem matchRoutes_error_iff (method : String) (parts : List String) (routes : List Route) :
    (∃ e, matchRoutes method parts routes = .error e) ↔ RefusesMatch method parts routes := by
  induction routes with
  | nil => simp [matchRoutes, RefusesMatch]
  | cons route routes ih =>
      unfold matchRoutes RefusesMatch Route.Candidate
      by_cases hOther : route.method ≠ method ∨ route.segments.length ≠ parts.length
      · have hNot : ¬(route.method = method ∧ route.segments.length = parts.length) := by tauto
        rw [if_pos hOther, ih]
        simp [hNot]
      · have hCandidate : route.method = method ∧ route.segments.length = parts.length := by tauto
        rw [if_neg hOther]
        obtain ⟨hRefuses, e, hBind⟩ | ⟨hRefuses, hFits, bound, hBind⟩ | ⟨hRefuses, hFits, hBind⟩ :=
          bindParams_cases route.segments parts []
        · simp [hBind, hRefuses, hCandidate]
        · simp [hBind, hRefuses, hCandidate, hFits]
        · simp [hBind, hRefuses, hFits, ih]

/-- Routes that are added later are tried last. -/
theorem matchRoutes_append (method : String) (parts : List String) (routes more : List Route) :
    matchRoutes method parts (routes ++ more) =
      match matchRoutes method parts routes with
      | .ok none => matchRoutes method parts more
      | settled => settled := by
  induction routes with
  | nil => rfl
  | cons route routes ih =>
      rw [List.cons_append, matchRoutes, matchRoutes, ih]
      split
      · rfl
      · split <;> rfl

end matching
section dispatch

variable {router : Router} {parseUrl : String → Option Url} {uuid : FieldValue}
  {req : IncomingMessage} {rawBody : String}

/-- The route that a request is matched with answers it. -/
def RouteAnswers (router : Router) (req : IncomingMessage) (route : Route) (run : HandlerRun) : Prop :=
  SunsetValid router route.pattern ∧
    match router.limiter route.pattern with
    | none => run.Answers false
    | some options => ∃ decision,
        (options.check (clientIp req ++ "|" ++ route.pattern)).Decides decision ∧
          (decision.allowed = true → run.Answers false)

/-- Nothing goes wrong outside the `try` block, nothing is sent while a promise is
awaited, and the handler sends its response as the last thing it does to it. -/
def Answerable (router : Router) (parseUrl : String → Option Url) (uuid : FieldValue)
    (req : IncomingMessage) (rawBody : String) (before : List Event) : Prop :=
  before = [] ∧ ∃ url, parseUrl (req.url.getD "/") = some url ∧
    (router.preflight (req.method.getD "GET") = true ∨
      ¬RefusesMatch (req.method.getD "GET") (segments url.pathname) router.routes ∧
        ∀ route params, router.matchRoute (req.method.getD "GET") url.pathname =
            .ok (some (route, params)) →
          RouteAnswers router req route (route.handler (contextOf req rawBody uuid url params)))

theorem recordOf_records {routeLabel : String} : Records (recordOf req uuid routeLabel) :=
  fun _ => ⟨_, rfl, rfl⟩

theorem recordOf_succeeds {routeLabel : String} (h : Stands sent ex) :
    Succeeds (recordOf req uuid routeLabel) ex sent :=
  ⟨_, rfl, h⟩

/-- A first part that sends nothing leaves the answer to the second. -/
theorem answeredOnce_seq {x y : Act Unit} (hx : Succeeds x ex sent) {P : Prop}
    (hy : ∀ ex₁, Stands sent ex₁ → (AnsweredOnce (y.runOn ex₁) ↔ P)) :
    AnsweredOnce ((do x; y : Act Unit).runOn ex) ↔ P := by
  obtain ⟨ex₁, hRun, hStands⟩ := hx
  rw [Act.runOn_bind_ok hRun]
  exact hy ex₁ hStands

/-- An error in the first part is thrown. -/
theorem not_answeredOnce_seq {α : Type} {x : Act α} {y : α → Act Unit} {e : Thrown}
    (hx : x.runOn ex = (.error e, ex')) : ¬AnsweredOnce ((x >>= y).runOn ex) := by
  rw [Act.runOn_bind_error hx]
  exact not_answeredOnce_of_error

/-- The request id is a valid header value. -/
theorem requestIdOf_valid : validFieldValue (requestIdOf req uuid) = true := by
  unfold requestIdOf orElse
  cases hHeader : req.header "x-request-id" with
  | none => exact uuid.valid
  | some value =>
      dsimp only
      split
      · exact uuid.valid
      · exact header_valid hHeader

/-- After a route is matched. -/
theorem route_iff {route : Route} {run : HandlerRun} (h : Stands false ex) :
    AnsweredOnce ((do
      router.advertise route.pattern
      match router.limiter route.pattern with
      | none => Router.runHandler run (recordOf req uuid route.pattern)
      | some options => do
          let goesOn ← Router.limit (options.check (clientIp req ++ "|" ++ route.pattern))
            (recordOf req uuid route.pattern)
          if goesOn then Router.runHandler run (recordOf req uuid route.pattern)
          else pure () : Act Unit).runOn ex) ↔ RouteAnswers router req route run := by
  unfold RouteAnswers
  by_cases hSunset : SunsetValid router route.pattern
  · rw [answeredOnce_seq (advertise_unsent h hSunset), and_iff_right hSunset]
    intro ex₁ h₁
    cases router.limiter route.pattern with
    | none => exact runHandler_iff recordOf_records run h₁
    | some options =>
        dsimp only
        by_cases hDecides : ∃ decision,
            (options.check (clientIp req ++ "|" ++ route.pattern)).Decides decision
        · obtain ⟨decision, hDecision⟩ := hDecides
          obtain ⟨ex₂, hRun₂, h₂⟩ := @limit_decided _ _ (recordOf req uuid route.pattern) _ h₁
            recordOf_records hDecision
          rw [Act.runOn_bind_ok hRun₂]
          have hOnly : (∃ decided,
              (options.check (clientIp req ++ "|" ++ route.pattern)).Decides decided ∧
                (decided.allowed = true → run.Answers false)) ↔
              (decision.allowed = true → run.Answers false) := by
            constructor
            · rintro ⟨decided, hDecided, hAnswers⟩
              have hSame : decided = decision :=
                Except.ok.inj (hDecided.2.symm.trans hDecision.2)
              exact hSame ▸ hAnswers
            · exact fun hAnswers => ⟨decision, hDecision, hAnswers⟩
          rw [hOnly]
          cases hAllowed : decision.allowed with
          | true =>
              rw [hAllowed] at h₂
              rw [if_pos rfl, runHandler_iff recordOf_records run h₂]
              simp
          | false =>
              rw [hAllowed] at h₂
              have hDone := (Succeeds.pure h₂).answeredOnce
              simpa using hDone
        · obtain ⟨e, ex₂, hRun₂⟩ := @limit_undecided _ _ (recordOf req uuid route.pattern) h₁
            (not_exists.mp hDecides)
          rw [Act.runOn_bind_error hRun₂]
          refine iff_of_false not_answeredOnce_of_error ?_
          rintro ⟨decision, hDecision, -⟩
          exact hDecides ⟨decision, hDecision⟩
  · obtain ⟨e, ex₁, hThrow⟩ := advertise_fails h hSunset
    exact iff_of_false (not_answeredOnce_seq hThrow) fun hAnswers => hSunset hAnswers.1

/-- Nobody answers a request whose path cannot be decoded. -/
theorem not_answeredOnce_of_refused {url : Url} {method path : String} {e : Thrown} (h : Stands false ex)
    (hUrl : parseUrl (req.url.getD "/") = some url) (hMethod : req.method.getD "GET" = method)
    (hPath : url.pathname = path) (hPreflight : router.preflight method = false)
    (hMatch : router.matchRoute method path = .error e) :
    ¬AnsweredOnce ((router.dispatch parseUrl uuid req rawBody).runOn ex) := by
  unfold Router.dispatch
  rw [hUrl]
  dsimp only
  rw [hMethod, hPath]
  rw [answeredOnce_seq (P := False)]
  · exact id
  · exact applySecurityHeaders_unsent h fun value => header_valid
  intro ex₁ h₁
  rw [answeredOnce_seq (setHeader_unsent h₁ requestIdOf_valid)]
  intro ex₂ _
  rw [if_neg (by simp [hPreflight]), hMatch]
  show AnsweredOnce ((liftM (Except.error e) >>= _ : Act Unit).runOn ex₂) ↔ False
  rw [Act.runOn_lift_error]
  exact iff_of_false not_answeredOnce_of_error id

/-- The dispatcher sends one response exactly in the cases that the condition names. -/
theorem dispatch_answeredOnce_iff (router : Router) (parseUrl : String → Option Url)
    (uuid : FieldValue) (req : IncomingMessage) (rawBody : String) (before : List Event) :
    AnsweredOnce ((do
      awaiting before
      router.dispatch parseUrl uuid req rawBody : Act Unit).runOn {}) ↔
      Answerable router parseUrl uuid req rawBody before := by
  have hFresh : Stands false ({} : Exchange) := ⟨rfl, rfl, rfl⟩
  rw [answeredOnce_seq (awaiting_succeeds before hFresh)]
  intro ex h
  unfold Answerable Router.dispatch
  cases hUrl : parseUrl (req.url.getD "/") with
  | none =>
      refine iff_of_false not_answeredOnce_of_error ?_
      rintro ⟨-, url, hSome, -⟩
      cases hSome
  | some url =>
      cases before with
      | cons event events =>
          -- the first header throws
          obtain ⟨ex₁, hThrow, -⟩ := @setHeader_sent _ "X-API-Version" API_VERSION h
          refine iff_of_false (not_answeredOnce_seq (Act.runOn_bind_error hThrow)) ?_
          rintro ⟨hBefore, -⟩
          cases hBefore
      | nil =>
          dsimp only
          rw [answeredOnce_seq (applySecurityHeaders_unsent h fun value => header_valid)]
          intro ex₁ h₁
          rw [answeredOnce_seq (setHeader_unsent h₁ requestIdOf_valid)]
          intro ex₂ h₂
          have hUrlOnly : ∀ P : Url → Prop, (([] : List Event) = [] ∧ ∃ u, some url = some u ∧ P u) ↔
              P url := by
            simp
          rw [hUrlOnly]
          by_cases hPreflight : router.preflight (req.method.getD "GET") = true
          · rw [if_pos hPreflight]
            exact iff_of_true (answerPreflight_unsent h₂).answeredOnce (.inl hPreflight)
          · rw [if_neg hPreflight, or_iff_right hPreflight, ← matchRoutes_error_iff]
            show AnsweredOnce ((liftM (router.matchRoute (req.method.getD "GET") url.pathname) >>=
              _ : Act Unit).runOn ex₂) ↔ (¬∃ e, router.matchRoute (req.method.getD "GET")
                url.pathname = .error e) ∧ _
            cases router.matchRoute (req.method.getD "GET") url.pathname with
            | error e =>
                rw [Act.runOn_lift_error]
                exact iff_of_false not_answeredOnce_of_error fun hAnswers => hAnswers.1 ⟨e, rfl⟩
            | ok matched =>
                rw [Act.runOn_lift_ok, and_iff_right (by simp)]
                cases matched with
                | none =>
                    have hSent : Succeeds (do
                        sendJson 404 [("error", "NOT_FOUND"), ("message",
                          "no route for " ++ req.method.getD "undefined" ++ " " ++ url.pathname)]
                        recordOf req uuid "unmatched") ex₂ true :=
                      (sendJson_unsent h₂ (by decide)).seq fun ex₃ h₃ => recordOf_succeeds h₃
                    exact iff_of_true hSent.answeredOnce fun route params hFound => by cases hFound
                | some found =>
                    obtain ⟨route, params⟩ := found
                    simp only [Except.ok.injEq, Option.some.injEq, Prod.mk.injEq]
                    refine (route_iff h₂).trans ⟨?_, fun hAll => hAll route params ⟨rfl, rfl⟩⟩
                    rintro hAnswers _ _ ⟨rfl, rfl⟩
                    exact hAnswers

end dispatch
end VpnPayment.Http
