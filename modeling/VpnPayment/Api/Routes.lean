import VpnPayment.Http.Dispatch

/-! The route table of the service. -/
namespace VpnPayment.Api

open Http

/-- What the table is built from: how the handler of each route runs. -/
structure ApiDeps where
  rateLimit : Option RateLimitOptions := none
  security : Option SecurityOptions := none
  handler : String → String → ReqContext → HandlerRun

/-- Method and pattern of the routes, in the order in which they are added. -/
def endpoints : List (String × String) :=
  [("GET", "/healthz"),
   ("GET", "/version"),
   ("GET", "/readyz"),
   ("GET", "/metrics"),
   ("GET", "/api/plans"),
   ("GET", "/api/pricing/quote"),
   ("POST", "/api/users/register"),
   ("POST", "/api/users/login"),
   ("GET", "/api/users/me"),
   ("POST", "/api/users/me/rotate-key"),
   ("POST", "/api/orders"),
   ("GET", "/api/orders/:id"),
   ("GET", "/api/merchant/orders"),
   ("GET", "/api/orders/:id/qrcode.svg"),
   ("POST", "/api/orders/:id/sync"),
   ("POST", "/api/orders/:id/refund"),
   ("GET", "/api/orders/:id/refunds"),
   ("POST", "/api/notify/wechat"),
   ("POST", "/api/notify/alipay"),
   ("POST", "/api/notify/wechat/refund"),
   ("POST", "/internal/usdt/reconcile"),
   ("POST", "/internal/maintenance/sweep"),
   ("POST", "/internal/webhooks/process"),
   ("GET", "/openapi.json"),
   ("GET", "/docs"),
   ("GET", "/admin/reports/summary"),
   ("GET", "/admin/reports/orders-summary"),
   ("GET", "/admin/orders"),
   ("GET", "/admin/refunds"),
   ("POST", "/admin/merchants"),
   ("GET", "/admin/merchants"),
   ("POST", "/admin/merchants/:id/rotate-key"),
   ("POST", "/admin/merchants/:id/status"),
   ("GET", "/admin/sweeps"),
   ("POST", "/admin/sweeps/:orderId/retry"),
   ("GET", "/admin/orders.csv"),
   ("GET", "/admin/refunds.csv"),
   ("POST", "/admin/expiry/run"),
   ("POST", "/admin/reconciliation"),
   ("GET", "/admin/webhooks"),
   ("POST", "/admin/webhooks/:id/retry")]

def addEndpoint (deps : ApiDeps) (router : Router) (endpoint : String × String) : Router :=
  router.add endpoint.1 endpoint.2 (deps.handler endpoint.1 endpoint.2)

/-- The audit log is added after the aliases. -/
def buildRouter (deps : ApiDeps) : Router :=
  let router := endpoints.foldl (addEndpoint deps)
    { rateLimit := deps.rateLimit, security := deps.security }
  addEndpoint deps (router.aliasPrefix "/api" "/api/v1") ("GET", "/admin/audit")

/-- The routes of the endpoints, without aliases. -/
def endpointRoutes (deps : ApiDeps) : List Route :=
  endpoints.flatMap fun endpoint => (addEndpoint deps {} endpoint).routes

theorem routes_addEndpoint (deps : ApiDeps) (router : Router) (endpoint : String × String) :
    (addEndpoint deps router endpoint).routes = router.routes ++ (addEndpoint deps {} endpoint).routes :=
  rfl

theorem routes_foldl_addEndpoint (deps : ApiDeps) (router : Router) (added : List (String × String)) :
    (added.foldl (addEndpoint deps) router).routes =
      router.routes ++ added.flatMap fun endpoint => (addEndpoint deps {} endpoint).routes := by
  induction added generalizing router with
  | nil => simp
  | cons endpoint added ih =>
      rw [List.foldl_cons, ih, routes_addEndpoint, List.append_assoc, List.flatMap_cons]

/-- Aliases are added behind the routes. -/
theorem routes_prefix_aliasPrefix (router : Router) (source target : String) :
    router.routes <+: (router.aliasPrefix source target).routes := by
  have hAdded : ∀ (routes : List Route) (aliased : Router), router.routes <+: aliased.routes →
      router.routes <+: (routes.foldl (fun aliased route =>
        if route.pattern = source ∨ startsWith route.pattern (source ++ "/") then
          aliased.add route.method (target ++ slice route.pattern source.length) route.handler
        else aliased) aliased).routes := by
    intro routes
    induction routes with
    | nil => exact fun _ h => h
    | cons route routes ih =>
        intro aliased h
        apply ih
        dsimp only
        split
        · exact h.trans (List.prefix_append _ _)
        · exact h
  exact hAdded router.routes router (List.prefix_refl _)

/-- The endpoints are tried first. -/
theorem endpointRoutes_prefix (deps : ApiDeps) : endpointRoutes deps <+: (buildRouter deps).routes := by
  have hEndpoints : (endpoints.foldl (addEndpoint deps)
      { rateLimit := deps.rateLimit, security := deps.security }).routes = endpointRoutes deps := by
    rw [routes_foldl_addEndpoint, List.nil_append]
    rfl
  rw [buildRouter, routes_addEndpoint, ← hEndpoints]
  exact (routes_prefix_aliasPrefix _ _ _).trans (List.prefix_append _ _)

/-- What the endpoints settle, the router settles. -/
theorem matchRoute_buildRouter {deps : ApiDeps} {method path : String}
    (h : matchRoutes method (segments path) (endpointRoutes deps) ≠ .ok none) :
    (buildRouter deps).matchRoute method path =
      matchRoutes method (segments path) (endpointRoutes deps) := by
  obtain ⟨more, hMore⟩ := endpointRoutes_prefix deps
  rw [Router.matchRoute, ← hMore, matchRoutes_append]
  split
  · next hNone => exact absurd hNone h
  · rfl

/-- Any text is a handler's complete answer. -/
def Sample.answer (_method _pattern : String) (_ctx : ReqContext) : HandlerRun :=
  .send 200 "application/json; charset=utf-8" (.json []) none .resolve

/-- A path without escapes or dots is its own pathname. -/
def Sample.parseUrl (target : String) : Option Url :=
  some { pathname := target }

def Sample.uuid : FieldValue :=
  ⟨"00000000-0000-4000-8000-000000000000", by decide +kernel⟩

/-- An order id with a cut-off percent escape. -/
theorem malformed_escape_unanswered :
    ¬∀ (deps : ApiDeps) (parseUrl : String → Option Url) (uuid : FieldValue)
      (req : IncomingMessage) (rawBody : String) (before : List Event),
      AnsweredOnce ((do
        awaiting before
        (buildRouter deps).dispatch parseUrl uuid req rawBody : Act Unit).runOn {}) := by
  intro hAll
  have hOnce := hAll ⟨none, none, Sample.answer⟩ Sample.parseUrl Sample.uuid
    { url := some "/api/orders/%zz" } "" []
  have hRefused : (matchRoutes "GET" (segments "/api/orders/%zz")
      (endpointRoutes ⟨none, none, Sample.answer⟩)).isOk = false := by
    decide +kernel
  cases hMatch : matchRoutes "GET" (segments "/api/orders/%zz")
      (endpointRoutes ⟨none, none, Sample.answer⟩) with
  | ok found =>
      rw [hMatch] at hRefused
      cases hRefused
  | error e =>
      have hSettled := @matchRoute_buildRouter ⟨none, none, Sample.answer⟩ "GET" "/api/orders/%zz"
        (by simp [hMatch])
      have hFresh : Stands false ({} : Exchange) := ⟨rfl, rfl, rfl⟩
      refine (answeredOnce_seq (P := False) (awaiting_succeeds [] hFresh) fun ex h => ?_).mp hOnce
      exact iff_of_false (not_answeredOnce_of_refused h rfl rfl rfl (by simp [Router.preflight])
        (hSettled.trans hMatch)) id

end VpnPayment.Api
