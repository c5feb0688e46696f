import VpnPayment.Http.Response

/-! The router: route table, path parameters, and the dispatch of a request. The
promises that a request awaits are inputs: what the rate limiter answers, and what
a handler does with its response until it ends. -/
namespace VpnPayment.Http

/-- A request as the parser delivers it: names in lower case, the values of a
repeated header joined. -/
structure IncomingMessage where
  method : Option String := some "GET"
  url : Option String
  headers : List (String × FieldValue) := []
  remoteAddress : Option String := none

def IncomingMessage.header (req : IncomingMessage) (name : String) : Option String :=
  (req.headers.lookup name).map FieldValue.text

/-- The parts of a parsed URL. -/
structure Url where
  pathname : String
  searchParams : List (String × String) := []

structure ReqContext where
  method : String
  path : String
  params : List (String × String)
  query : List (String × String)
  rawBody : String
  headers : List (String × String)
  requestId : String

/-- What a handler does until its promise settles. A response is sent inside a
`try` block whose `catch` block throws `caught`, if that is given. -/
inductive HandlerRun
  | resolve
  | reject (e : Thrown)
  | setHeader (name value : String) (next : HandlerRun)
  | send (status : Nat) (contentType : String) (body : Body) (caught : Option Thrown)
      (next : HandlerRun)
  | await (events : List Event) (next : HandlerRun)

def HandlerRun.exec : HandlerRun → Act Unit
  | .resolve => pure ()
  | .reject e => throw e
  | .setHeader name value next => do
      Http.setHeader name value
      next.exec
  | .send status contentType body caught next => do
      try sendRaw status contentType body
      catch e => throw (caught.getD e)
      next.exec
  | .await events next => do
      awaiting events
      next.exec

structure Route where
  method : String
  pattern : String
  segments : List String
  handler : ReqContext → HandlerRun

structure RateLimitDecision where
  allowed : Bool
  limit : Nat
  remaining : Nat
  resetAt : Nat
  retryAfterSec : Nat

/-- What happens while the limiter is awaited, and how its promise settles. -/
structure LimiterRun where
  events : List Event := []
  result : Except Thrown RateLimitDecision

structure RateLimitOptions where
  check : String → LimiterRun
  skipRoutes : List String

structure SecurityOptions where
  corsOrigins : List String
  securityHeaders : Bool

structure Router where
  routes : List Route := []
  rateLimit : Option RateLimitOptions := none
  security : Option SecurityOptions := none
  deprecated : List (String × Option String) := []

def API_VERSION : String := "v1"

/-- `s.startsWith(start)`. -/
def startsWith (s start : String) : Bool :=
  start.toList.isPrefixOf s.toList

/-- `s.slice(n)`. -/
def slice (s : String) (n : Nat) : String :=
  String.ofList (s.toList.drop n)

namespace Router

def add (router : Router) (method pattern : String) (handler : ReqContext → HandlerRun) : Router :=
  let route :=
    { method := String.ofList (method.toList.map Char.toUpper)
      pattern := if startsWith pattern "/" then pattern else "/" ++ pattern
      segments := Http.segments pattern
      handler }
  { router with routes := router.routes ++ [route] }

/-- Register the routes under a path once more under another one. -/
def aliasPrefix (router : Router) (source target : String) : Router :=
  router.routes.foldl (fun aliased route =>
    if route.pattern = source ∨ startsWith route.pattern (source ++ "/") then
      aliased.add route.method (target ++ slice route.pattern source.length) route.handler
    else aliased) router

end Router

/-- `params[name] = value`. -/
def putParam (params : List (String × String)) (name value : String) : List (String × String) :=
  params.filter (·.1 ≠ name) ++ [(name, value)]

/-- The parameters of a route, for a path with as many segments. -/
def bindParams : List String → List String → List (String × String) →
    Except Thrown (Option (List (String × String)))
  | seg :: segs, part :: parts, params =>
      if startsWith seg ":" then
        match decodeURIComponent part with
        | none => .error (.error "URI malformed")
        | some value => bindParams segs parts (putParam params (slice seg 1) value)
      else if seg ≠ part then .ok none
      else bindParams segs parts params
  | _, _, params => .ok (some params)

def matchRoutes (method : String) (parts : List String) :
    List Route → Except Thrown (Option (Route × List (String × String)))
  | [] => .ok none
  | route :: routes =>
      if route.method ≠ method ∨ route.segments.length ≠ parts.length then
        matchRoutes method parts routes
      else
        match bindParams route.segments parts [] with
        | .error e => .error e
        | .ok (some params) => .ok (some (route, params))
        | .ok none => matchRoutes method parts routes

/-- White space that a header value can hold. -/
def isBlank (c : Char) : Bool :=
  c = ' ' || c = '\t' || c = '\u00a0'

/-- `value.split(',')[0].trim()`. -/
def firstHop (value : String) : String :=
  let hop := (value.toList.takeWhile (· ≠ ',')).dropWhile isBlank
  String.ofList (hop.reverse.dropWhile isBlank).reverse

/-- `a || b`. -/
def orElse (a : Option String) (b : String) : String :=
  match a with
  | some a => if a = "" then b else a
  | none => b

def clientIp (req : IncomingMessage) : String :=
  match req.header "x-forwarded-for" with
  | some xff => if xff = "" then req.remoteAddress.getD "unknown" else firstHop xff
  | none => req.remoteAddress.getD "unknown"

/-- The correlation id: the one of the request, or else a new one. -/
def requestIdOf (req : IncomingMessage) (uuid : FieldValue) : String :=
  orElse (req.header "x-request-id") uuid.text

def contextOf (req : IncomingMessage) (rawBody : String) (uuid : FieldValue) (url : Url)
    (params : List (String × String)) : ReqContext :=
  { method := req.method.getD "GET"
    path := url.pathname
    params
    query := url.searchParams
    rawBody
    headers := req.headers.map fun h => (h.1, h.2.text)
    requestId := requestIdOf req uuid }

/-- Write the access log. -/
def recordOf (req : IncomingMessage) (uuid : FieldValue) (routeLabel : String) : Act Unit :=
  modify fun ex =>
    let hop := (req.header "x-forwarded-for").map firstHop
    { ex with log := ex.log ++
      [{ requestId := requestIdOf req uuid
         method := req.method.getD "GET"
         route := routeLabel
         status := ex.res.statusCode
         ip := orElse hop (orElse req.remoteAddress "unknown") }] }

/-- Answer an error that a handler threw. The message of `null` cannot be read. -/
def reportError (e : Thrown) : Act Unit :=
  match e with
  | .app code message httpStatus => sendJson httpStatus [("error", code), ("message", message)]
  | .error _ => sendJson 500 [("error", "INTERNAL"), ("message", "internal server error")]
  | .nullish => throw (.error "Cannot read properties of null (reading 'message')")

namespace Router

variable (router : Router)

def matchRoute (method path : String) : Except Thrown (Option (Route × List (String × String))) :=
  matchRoutes method (segments path) router.routes

def hardeningHeaders : Act Unit := do
  setHeader "X-Content-Type-Options" "nosniff"
  setHeader "X-Frame-Options" "DENY"
  setHeader "Referrer-Policy" "no-referrer"
  setHeader "X-DNS-Prefetch-Control" "off"

def allowOrigin (sec : SecurityOptions) (origin : Option String) : Act Unit :=
  if sec.corsOrigins.contains "*" then setHeader "Access-Control-Allow-Origin" "*"
  else
    match origin with
    | none => pure ()
    | some origin =>
        if origin ≠ "" ∧ sec.corsOrigins.contains origin then do
          setHeader "Access-Control-Allow-Origin" origin
          setHeader "Vary" "Origin"
        else pure ()

/-- Set security response headers and the CORS allow-origin for the request. -/
def applySecurityHeaders (origin : Option String) : Act Unit := do
  setHeader "X-API-Version" API_VERSION
  match router.security with
  | none => pure ()
  | some sec =>
      (if sec.securityHeaders then hardeningHeaders else pure ())
      if sec.corsOrigins.length > 0 then allowOrigin sec origin else pure ()

/-- Whether a request is answered as a CORS preflight. -/
def preflight (method : String) : Bool :=
  method = "OPTIONS" && router.security.any fun sec => sec.corsOrigins.length > 0

def answerPreflight : Act Unit := do
  setHeader "Access-Control-Allow-Methods" "GET, POST, OPTIONS"
  setHeader "Access-Control-Allow-Headers" "Content-Type, Authorization, Idempotency-Key"
  setHeader "Access-Control-Max-Age" "600"
  writeHead 204 []
  endWith .empty

/-- Advertise a deprecated route. -/
def advertise (pattern : String) : Act Unit :=
  match router.deprecated.lookup pattern with
  | none => pure ()
  | some sunset => do
      setHeader "Deprecation" "true"
      match sunset with
      | some sunset => if sunset ≠ "" then setHeader "Sunset" sunset else pure ()
      | none => pure ()

/-- The limiter that a route is checked with. -/
def limiter (pattern : String) : Option RateLimitOptions :=
  router.rateLimit.filter fun options => !options.skipRoutes.contains pattern

/-- Await the rate limiter. The request goes on unless it is refused. -/
def limit (run : LimiterRun) (record : Act Unit) : Act Bool := do
  awaiting run.events
  let decision ← (run.result : Except Thrown RateLimitDecision)
  setHeader "X-RateLimit-Limit" (toString decision.limit)
  setHeader "X-RateLimit-Remaining" (toString decision.remaining)
  setHeader "X-RateLimit-Reset" (toString ((decision.resetAt + 999) / 1000))
  if decision.allowed then pure true
  else
    setHeader "Retry-After" (toString decision.retryAfterSec)
    sendJson 429 [("error", "RATE_LIMITED"), ("message", "too many requests")]
    record
    pure false

/-- Run the handler, answer what it throws, and write the access log. -/
def runHandler (run : HandlerRun) (record : Act Unit) : Act Unit := do
  try run.exec
  catch e => reportError e
  finally record

def dispatch (parseUrl : String → Option Url) (uuid : FieldValue) (req : IncomingMessage)
    (rawBody : String) : Act Unit := do
  let httpMethod := req.method.getD "GET"
  match parseUrl (req.url.getD "/") with
  | none => throw (.error "Invalid URL")
  | some url =>
      router.applySecurityHeaders (req.header "origin")
      setHeader "X-Request-Id" (requestIdOf req uuid)
      if router.preflight httpMethod then answerPreflight
      else
        let matched ← (router.matchRoute httpMethod url.pathname : Except Thrown _)
        match matched with
        | none =>
            let message := "no route for " ++ req.method.getD "undefined" ++ " " ++ url.pathname
            sendJson 404 [("error", "NOT_FOUND"), ("message", message)]
            recordOf req uuid "unmatched"
        | some (route, params) =>
            let routeLabel := route.pattern
            let record := recordOf req uuid routeLabel
            router.advertise routeLabel
            let run := route.handler (contextOf req rawBody uuid url params)
            match router.limiter routeLabel with
            | none => runHandler run record
            | some options =>
                let goesOn ← limit (options.check (clientIp req ++ "|" ++ routeLabel)) record
                if goesOn then runHandler run record else pure ()

end Router
end VpnPayment.Http
