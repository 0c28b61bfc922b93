import EventLedger.Gateway
import EventLedger.LabelledRun
import Mathlib.Logic.Function.Basic

/-!
# The composed system

Both services, any number of concurrent submissions, and the network between
them.  A submission is a Gateway thread running `submitEvent`; each attempt it
sends is a message that the Account Service may receive at any time or never,
and each received attempt is a handler thread running `serve`.  A step is one
operation of one thread; which thread moves, what the clocks read and what
happens to messages is in the label, so a run is a list of labels.

An attempt may be lost before delivery (never delivered), applied with its
response lost (the client's wait fails after the handler's insert), or delivered
late (after the client gave up); a handler may die with a 500 at any point, also
after its commit.  Neither store is ever restarted.

The other endpoints are left out, and with them what they add to the audit trails:
the entries of requests that fail validation, and those of the fault switch.  None
of them names an account or an event.
-/
namespace EventLedger

open Program LabelledRun

/-- What is fixed during a run: the configuration, and what code outside the repository computes. -/
structure Deployment where
  breaker : BreakerConfig
  maxRetries : ℕ
  /-- `json.loads`. -/
  loads : String → Option Json
  /-- What the framework reports about an invalid payload. -/
  validationDetail : TxPayload → Json

/-- A request the Gateway sent to the Account Service. -/
structure Attempt where
  submission : ℕ
  accountId : String
  payload : TxPayload
  deriving DecidableEq, Repr

/-- Everything the threads share.  The last three fields are history: the code never reads them. -/
structure Shared where
  gateway : GatewayDB
  account : AccountDB
  circuit : CircuitBreaker
  fault : Option Fault
  /-- The attempts sent so far; an attempt is known by its position. -/
  attempts : List Attempt
  /-- The answers the Account Service has given. -/
  replies : ℕ → Option AccountAnswer
  /-- The submissions received so far. -/
  bodies : ℕ → Option EventRequest
  /-- Which submission inserted which event. -/
  creators : List (String × ℕ)
  /-- The attempts whose answer the Gateway has read. -/
  received : List ℕ

/-- What happens to a response the client waits for. -/
inductive Network where
  /-- It arrives. -/
  | responds
  /-- A timeout or a transport error. -/
  | fails
  /-- Reading it raises something else. -/
  | raises
  deriving DecidableEq

/-- What one step reads from outside. -/
structure Choice where
  surroundings : Surroundings
  clock : ℚ
  network : Network

/-- One operation of the Gateway thread of submission `i`; waiting for a response that has not been
given can only fail. -/
def gatewayExec (dep : Deployment) (i : ℕ) (c : Choice) (s : Shared) :
    (o : GatewayOp) → Option (Shared × o.Ret)
  | .getEvent eventId => some (s, s.gateway.getEvent eventId)
  | .insertEvent event =>
    match s.gateway.insertEvent event with
    | some db => some ({ s with gateway := db, creators := (event.eventId, i) :: s.creators }, true)
    | none => some (s, false)
  | .now => some (s, c.surroundings.now)
  | .traceId => some (s, c.surroundings.traceId)
  | .audit outcome accountId eventId detail =>
    let entry := AuditTrail.entry "event-gateway" c.surroundings "EVENT_SUBMIT" outcome
      (some accountId) (some eventId) detail
    some ({ s with gateway := s.gateway.appendAudit entry }, ())
  | .allowRequest =>
    let (ok, b) := s.circuit.allowRequest dep.breaker c.clock
    some ({ s with circuit := b }, ok)
  | .recordSuccess => some ({ s with circuit := s.circuit.recordSuccess dep.breaker c.clock }, ())
  | .recordFailure => some ({ s with circuit := s.circuit.recordFailure dep.breaker c.clock }, ())
  | .circuitState => some (s, s.circuit.state)
  | .fault => some (s, s.fault)
  | .send accountId payload =>
    if accountRoute accountId = .invalidUrl then some (s, none)
    else some ({ s with attempts := s.attempts ++ [⟨i, accountId, payload⟩] },
      some s.attempts.length)
  | .receive attempt =>
    match c.network with
    | .fails => some (s, .transportError)
    | .raises => some (s, .raised)
    | .responds =>
      match s.replies attempt, s.attempts[attempt]? with
      | some answer, some sent =>
        some ({ s with received := attempt :: s.received },
          .response (answer.toHttp (dep.validationDetail sent.payload)))
      | _, _ => none
  | .sleepBackoff _ => some (s, ())

/-- One operation of a handler of the Account Service. -/
def accountExec (env : Surroundings) (s : Shared) : (o : AccountOp) → Option (Shared × o.Ret)
  | .getTransaction eventId => some (s, s.account.getTransaction eventId)
  | .insertTransaction tx =>
    match s.account.insertTransaction tx with
    | some db => some ({ s with account := db }, true)
    | none => some (s, false)
  | .now => some (s, env.now)
  | .traceId => some (s, env.traceId)
  | .audit outcome accountId eventId detail =>
    let entry := AuditTrail.entry "account-service" env "TRANSACTION_APPLY" outcome
      (some accountId) (some eventId) detail
    some ({ s with account := s.account.appendAudit entry }, ())

/-- The shared state and the threads: one for each submission, one for each attempt received. -/
structure World where
  shared : Shared
  threads : ℕ → Option (GatewayProg Answer)
  handlers : ℕ → Option (AccountProg AccountAnswer)

/-- One step of the system. -/
inductive Label where
  /-- A submission is received under a number not used before. -/
  | submit (i : ℕ) (body : EventRequest)
  /-- The thread of submission `i` performs its next operation. -/
  | gateway (i : ℕ) (c : Choice)
  /-- The Account Service receives attempt `a`. -/
  | deliver (a : ℕ)
  /-- The handler of attempt `a` performs its next operation, or sends its answer. -/
  | account (a : ℕ) (env : Surroundings)
  /-- The handler of attempt `a` dies with an unhandled exception. -/
  | crash (a : ℕ) (env : Surroundings)
  /-- The injected fault is set or cleared; the entry about it is left out. -/
  | setFault (fault : Option Fault)

namespace World

/-- Both services just started: empty stores, no request. -/
def initial : World where
  shared :=
    { gateway := GatewayDB.new, account := AccountDB.new, circuit := {}, fault := none,
      attempts := [], replies := fun _ => none, bodies := fun _ => none, creators := [],
      received := [] }
  threads := fun _ => none
  handlers := fun _ => none

/-- Executing one step; `none` when it is not possible. -/
def step (dep : Deployment) (w : World) : Label → Option World
  | .submit i body =>
    match w.shared.bodies i with
    | some _ => none
    | none => some
      { w with shared := { w.shared with bodies := Function.update w.shared.bodies i (some body) }
               threads := Function.update w.threads i
                 (some (submitEvent dep.loads dep.maxRetries body)) }
  | .gateway i c =>
    match w.threads i with
    | some (.act o k) =>
      (gatewayExec dep i c w.shared o).map fun (shared, r) =>
        { w with shared := shared, threads := Function.update w.threads i (some (k r)) }
    | _ => none
  | .deliver a =>
    match w.handlers a, w.shared.attempts[a]? with
    | none, some sent => some
      { w with handlers := Function.update w.handlers a
                 (some (serve sent.accountId sent.payload)) }
    | _, _ => none
  | .account a env =>
    match w.handlers a with
    | some (.act o k) =>
      (accountExec env w.shared o).map fun (shared, r) =>
        { w with shared := shared, handlers := Function.update w.handlers a (some (k r)) }
    | some (.done answer) =>
      match w.shared.replies a with
      | some _ => none
      | none => some
        { w with shared :=
            { w.shared with replies := Function.update w.shared.replies a (some answer) } }
    | none => none
  | .crash a env =>
    match w.handlers a with
    | some (.act _ _) => some
      { w with handlers := Function.update w.handlers a
                 (some (.done (.internalError env.traceId))) }
    | _ => none
  | .setFault fault => some { w with shared := { w.shared with fault := fault } }

/-- Submission `i` has been answered. -/
def Answered (w : World) (i : ℕ) (answer : Answer) : Prop := w.threads i = some (.done answer)

/-- The worlds that runs reach. -/
def Reachable (dep : Deployment) (w : World) : Prop := ∃ ls, Run (step dep) initial ls w

end World

end EventLedger
