import EventLedger.Metrics
import EventLedger.ServiceRuns
import EventLedger.Tracing
import Mathlib.Data.Rat.Floor

/-!
# The observability middleware

Both services wrap their application in `ObservabilityMiddleware`.  Around every HTTP
request it begins a span, wraps the server's `send` so that the status is noted and the
trace headers are added, runs the application, and in a `finally` block updates the
metrics, logs and resets the trace context.

The wrapped application is any program that sends messages, sets the route and does
anything else (`App`); it returns or raises.  The middleware is a program over the
operations of `MiddlewareOp`, so that any number of requests can run interleaved.
-/
namespace EventLedger

open Program Prog OrderedDict TextExposition DecimalDigits

/-! ## What the application does -/

/-- The bytes of a text, in UTF-8. -/
def encode (s : String) : List UInt8 := s.toUTF8.toList

/-- Header names and values, as bytes. -/
abbrev Headers := List (List UInt8 × List UInt8)

/-- An ASGI message to the client: the start of a response, or anything else. -/
inductive Message where
  | responseStart (status : ℕ) (headers : Option Headers)
  | other (type : String) (body : List UInt8)

/-- What a call of `send` comes to. -/
inductive SendResult where
  | sent
  | raised
  deriving DecidableEq

/-- A route of the application: its template, if it has one, and the methods it is registered
for. -/
structure Route where
  path : Option String
  methods : List String
  deriving DecidableEq

/-- What the application does between two steps of its own: it sends a message, the router sets
`scope["route"]`, or it does something else that gives it some information. -/
inductive AppOp where
  | send (message : Message)
  | setRoute (route : Route)
  | ambient

/-- What the application learns from it. -/
abbrev AppOp.Ret : AppOp → Type
  | send _ => SendResult
  | setRoute _ => Unit
  | ambient => ℕ

/-- How the application ends. -/
inductive AppEnd where
  | returned
  | raised
  deriving DecidableEq

/-- The application, serving one request. -/
abbrev App := Prog AppOp AppOp.Ret AppEnd

/-- The ASGI scope of a request, before the router has set `scope["route"]`. -/
structure Scope where
  type : String
  method : Option String
  path : Option String
  headers : Headers

/-- A request as the server hands it over, with what the application does with it. -/
structure HttpCall where
  scope : Scope
  app : App

/-! ## What the middleware does -/

/-- `method=…, path=…`. -/
def pathLabels (method path : String) : Labels :=
  ⟨[(methodLabel, method), (pathLabel, path)], by
    show [methodLabel, pathLabel].Nodup
    decide⟩

/-- `str(status)`. -/
def statusText (status : ℕ) : String := String.ofList (natDigits status)

/-- `method=…, path=…, status=str(…)`. -/
def statusLabels (method path : String) (status : ℕ) : Labels :=
  ⟨[(methodLabel, method), (pathLabel, path), (statusLabel, statusText status)], by
    show [methodLabel, pathLabel, statusLabel].Nodup
    decide⟩

/-- An update of one of the metrics. -/
inductive MetricUpdate where
  | requestsTotal (labels : Labels)
  | requestLatency (duration : ℚ) (labels : Labels)
  | errorsTotal (labels : Labels)

/-- `inc()` or `observe()` on the registry. -/
def MetricsRegistry.update (r : MetricsRegistry ℚ) : MetricUpdate → MetricsRegistry ℚ
  | .requestsTotal labels => { r with requestsTotal := r.requestsTotal.inc 1 labels }
  | .requestLatency duration labels =>
    { r with requestLatency := r.requestLatency.observe duration labels }
  | .errorsTotal labels => { r with errorsTotal := r.errorsTotal.inc 1 labels }

/-- The `extra` fields of the log line `request.completed`. -/
structure AccessRecord where
  httpMethod : String
  httpPath : Option String
  httpRoute : String
  httpStatus : ℕ
  durationMs : ℚ

/-- What a context variable's `set` returns: enough to restore the value before. -/
abbrev Token := Option TraceContext

/-- The operations of the middleware.  The context variable belongs to the task that serves the
request; the registry is shared. -/
inductive MiddlewareOp where
  | startSpan (incoming : Option String)
  | setContext (ctx : Option TraceContext)
  | resetContext (token : Token)
  | perfCounter
  | send (message : Message)
  | setRoute (route : Route)
  | ambient
  | update (u : MetricUpdate)
  | log (record : AccessRecord)

/-- What they return. -/
abbrev MiddlewareOp.Ret : MiddlewareOp → Type
  | startSpan _ => TraceContext
  | setContext _ => Token
  | perfCounter => ℚ
  | send _ => SendResult
  | ambient => ℕ
  | _ => Unit

/-- Code of the middleware. -/
abbrev MiddlewareProg := Prog MiddlewareOp MiddlewareOp.Ret

/-- `_header`: the first header of the name, decoded as Latin-1. -/
def Scope.header (scope : Scope) (name : List UInt8) : Option String :=
  (scope.headers.find? (·.1 = name)).map fun (_, value) =>
    String.ofList (value.map fun b => Char.ofNat b.toNat)

/-- The number nearest to `x`, the even one of two. -/
def nearestEven (x : ℚ) : ℤ :=
  let n := ⌊x⌋
  if x - n < 1 / 2 then n else if x - n > 1 / 2 then n + 1 else if Even n then n else n + 1

/-- `round(x, 2)`. -/
def round2 (x : ℚ) : ℚ := nearestEven (x * 100) / 100

/-- What one call keeps: `state["status"]`, and `scope["route"]` as the router sets it. -/
structure CallState where
  status : ℕ
  route : Option Route

/-- `send_wrapper`. -/
def sendWrapper (ctx : TraceContext) (state : CallState) :
    Message → MiddlewareProg (CallState × SendResult)
  | .responseStart status headers => do
    let state := { state with status := status }
    let headers := headers.getD [] ++
      [(encode "traceparent", encode (formatTraceparent ctx)),
        (encode "x-trace-id", encode ctx.traceId)]
    let result ← perform (.send (.responseStart status (some headers)))
    return (state, result)
  | message => do
    let result ← perform (.send message)
    return (state, result)

/-- `await self.app(scope, receive, send_wrapper)`. -/
def runApp (ctx : TraceContext) : App → CallState → MiddlewareProg (CallState × AppEnd)
  | .done result, state => .done (state, result)
  | .act (.send message) k, state => do
    let (state, result) ← sendWrapper ctx state message
    runApp ctx (k result) state
  | .act (.setRoute route) k, state =>
    .act (.setRoute route) fun _ => runApp ctx (k ()) { state with route := some route }
  | .act .ambient k, state => .act .ambient fun n => runApp ctx (k n) state

/-- `getattr(route, "path", None) or scope.get("path", "unknown")`. -/
def routeLabel (scope : Scope) (route : Option Route) : String :=
  match route.bind Route.path with
  | none => scope.path.getD "unknown"
  | some template => if template = "" then scope.path.getD "unknown" else template

/-- The method a request is counted under. -/
def Scope.methodOf (scope : Scope) : String := scope.method.getD "GET"

/-- The `finally` block. -/
def finish (scope : Scope) (start : ℚ) (token : Token) (state : CallState) :
    MiddlewareProg Unit := do
  let now ← perform .perfCounter
  let duration := now - start
  let path := routeLabel scope state.route
  let _ ← perform (.update (.requestsTotal (statusLabels scope.methodOf path state.status)))
  let _ ← perform (.update (.requestLatency duration (pathLabels scope.methodOf path)))
  if 500 ≤ state.status then
    perform (MiddlewareOp.update (.errorsTotal (pathLabels scope.methodOf path)))
  let _ ← perform (.log
    { httpMethod := scope.methodOf
      httpPath := scope.path
      httpRoute := path
      httpStatus := state.status
      durationMs := round2 (duration * 1000) })
  perform (MiddlewareOp.resetContext token)

/-- What the application does, on the server's own `send`. -/
def plainOp : (o : AppOp) → MiddlewareProg o.Ret
  | .send message => perform (MiddlewareOp.send message)
  | .setRoute route => perform (MiddlewareOp.setRoute route)
  | .ambient => perform MiddlewareOp.ambient

/-- `ObservabilityMiddleware.__call__`: what it comes to is what the application comes to. -/
def ObservabilityMiddleware.call (c : HttpCall) : MiddlewareProg AppEnd :=
  if c.scope.type ≠ "http" then c.app.interpret plainOp
  else do
    let incoming := c.scope.header (encode "traceparent")
    let ctx ← perform (.startSpan incoming)
    let token ← perform (.setContext (some ctx))
    let start ← perform .perfCounter
    let (state, result) ← runApp ctx c.app ⟨500, none⟩
    let _ ← finish c.scope start token state
    return result

/-! ## Requests on a shared registry -/

/-- What the surroundings choose at an operation: random bytes, what the task's context variable
holds, the clock, and what becomes of a message or of anything else the application does. -/
structure MiddlewareEnv where
  entropy : Entropy
  current : Option TraceContext
  clock : ℚ
  sent : SendResult
  choice : ℕ

/-- Operations on the registry. -/
def middlewareExec (env : MiddlewareEnv) (r : MetricsRegistry ℚ) :
    (o : MiddlewareOp) → Option (MetricsRegistry ℚ × o.Ret)
  | .startSpan incoming => some (r, ((startSpan incoming env.entropy).run env.current).1)
  | .setContext _ => some (r, env.current)
  | .resetContext _ => some (r, ())
  | .perfCounter => some (r, env.clock)
  | .send _ => some (r, env.sent)
  | .setRoute _ => some (r, ())
  | .ambient => some (r, env.choice)
  | .update u => some (r.update u, ())
  | .log _ => some (r, ())

/-- The middleware of a service, for any number of requests at a time. -/
def middlewareService :
    Service HttpCall MiddlewareOp MiddlewareOp.Ret AppEnd (MetricsRegistry ℚ) MiddlewareEnv where
  handle := ObservabilityMiddleware.call
  exec := middlewareExec

end EventLedger
