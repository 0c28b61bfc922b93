import EventLedger.AccountApi
import EventLedger.GatewayApi

/-!
# Which operations the handlers perform

`_call` only touches the breaker, the network and the fault switch, and most
endpoints of both services only read.  What a service writes is therefore
decided by the handlers of the remaining requests.

The lemmas are about programs, not about runs: each says that every operation a
program can come to, whatever its operations have answered, is of a certain kind
(`Prog.All`).  Results that concern writing only need to look at `submit_event` and
`apply_transaction` after that, and get the other endpoints from here.
-/
namespace EventLedger

open Program Prog

/-! ## What operations return -/

/-- Every operation can return. -/
instance ApiOp.nonempty_ret (o : ApiOp) : Nonempty o.Ret := by
  cases o with
  | core op =>
    cases op with
    | now => exact ⟨sampleTimestamp⟩
    | circuitState => exact ⟨CircuitState.closed⟩
    | receive attempt => exact ⟨Outcome.raised⟩
    | _ => infer_instance
  | fetch path => exact ⟨Outcome.raised⟩
  | metrics => exact ⟨(Json.null, "")⟩
  | _ => infer_instance

instance AccountApiOp.nonempty_ret (o : AccountApiOp) : Nonempty o.Ret := by
  cases o with
  | core op =>
    cases op with
    | now => exact ⟨sampleTimestamp⟩
    | _ => infer_instance
  | metrics => exact ⟨(Json.null, "")⟩
  | _ => infer_instance

/-! ## The client -/

section
variable {req : GatewayProg Outcome} {maxRetries left : ℕ}

/-- The operations of `_call`: on the breaker, the network and the fault switch. -/
def GatewayOp.OfCall : GatewayOp → Prop
  | .getEvent _ => False
  | .insertEvent _ => False
  | .now => False
  | .traceId => False
  | .audit _ _ _ _ => False
  | .circuitState => False
  | .allowRequest => True
  | .recordSuccess => True
  | .recordFailure => True
  | .fault => True
  | .send _ _ => True
  | .receive _ => True
  | .sleepBackoff _ => True

theorem request_all (accountId : String) (payload : TxPayload) :
    (request accountId payload).All GatewayOp.OfCall := by
  refine ⟨trivial, ?_⟩
  intro attempt
  cases attempt with
  | none => trivial
  | some attempt => exact ⟨trivial, fun _ => trivial⟩

theorem retryLoop_all (hreq : req.All GatewayOp.OfCall) :
    (retryLoop req maxRetries left).All GatewayOp.OfCall := by
  induction left with
  | zero => exact ⟨trivial, fun _ => trivial⟩
  | succ left ih =>
    have hattempt : (attemptOnce req).All GatewayOp.OfCall := by
      simp only [attemptOnce, GatewayProg.fault, perform_bind, pure_eq]
      refine all_act.mpr ⟨trivial, fun fault₁ => ?_⟩
      split
      · trivial
      · refine all_act.mpr ⟨trivial, fun fault₂ => ?_⟩
        split
        · trivial
        · exact hreq
    have hbackoff : (backoffAndRetry maxRetries (maxRetries - left)
        (retryLoop req maxRetries left)).All GatewayOp.OfCall := by
      unfold backoffAndRetry
      split
      · split
        · trivial
        · exact ⟨trivial, fun _ => ih⟩
      · exact ih
    refine All.bind hattempt fun o => ?_
    cases o with
    | raised => trivial
    | transportError => exact hbackoff
    | response resp =>
      by_cases hok : resp.status < 400
      · simp only [if_pos hok]
        exact ⟨trivial, fun _ => trivial⟩
      · by_cases hclient : resp.status < 500
        · simp only [if_neg hok, if_pos hclient]
          exact ⟨trivial, fun _ => trivial⟩
        · simp only [if_neg hok, if_neg hclient]
          exact hbackoff

theorem call_all (hreq : req.All GatewayOp.OfCall) :
    (call req maxRetries).All GatewayOp.OfCall := by
  refine ⟨trivial, fun ok => ?_⟩
  cases ok with
  | true => exact retryLoop_all hreq
  | false => trivial

theorem clientApplyTransaction_all (accountId : String) (payload : TxPayload) :
    (clientApplyTransaction maxRetries accountId payload).All GatewayOp.OfCall :=
  All.bind (call_all (request_all accountId payload)) fun _ => all_done _

end

/-! ## The Gateway -/

/-- The operations that write neither an event nor an audit entry. -/
def ApiOp.Reads : ApiOp → Prop
  | .core (.insertEvent _) => False
  | .core (.audit _ _ _ _) => False
  | .record _ _ _ => False
  | _ => True

/-- The requests whose handlers write. -/
def ApiRequest.Writes : ApiRequest → Prop
  | .submit _ => True
  | .invalid _ _ => True
  | .setFault _ => True
  | _ => False

theorem GatewayOp.OfCall.reads {op : GatewayOp} (h : op.OfCall) : (ApiOp.core op).Reads := by
  cases op with
  | insertEvent event => exact absurd h id
  | audit outcome accountId eventId detail => exact absurd h id
  | _ => trivial

theorem unhandledError_all : ApiProg.unhandledError.All ApiOp.Reads :=
  ⟨trivial, fun _ => trivial⟩

theorem render_all (status : ℕ) (body : Option Json) :
    (ApiProg.render status body).All ApiOp.Reads := by
  cases body with
  | some value => trivial
  | none => exact unhandledError_all

theorem renderJson_all (status : ℕ) (value : Json) :
    (ApiProg.renderJson status value).All ApiOp.Reads :=
  render_all status value.rendered

theorem getCall_all (path : String) : (getCall maxRetries path).All ApiOp.Reads := by
  refine All.interpret (call_all ⟨trivial, fun _ => trivial⟩) fun op hop => ?_
  cases op with
  | receive attempt => exact ⟨trivial, fun _ => trivial⟩
  | insertEvent event => exact absurd hop id
  | audit outcome accountId eventId detail => exact absurd hop id
  | _ => exact ⟨trivial, fun _ => trivial⟩

theorem clientGetBalance_all (accountId : String) :
    (clientGetBalance maxRetries accountId).All ApiOp.Reads :=
  All.bind (getCall_all _) fun _ => all_done _

theorem clientGetAccount_all (accountId : String) :
    (clientGetAccount maxRetries accountId).All ApiOp.Reads :=
  All.bind (getCall_all _) fun _ => all_done _

theorem readHandler_all {client : ApiProg CallResult} (h : client.All ApiOp.Reads) :
    (readHandler client).All ApiOp.Reads := by
  refine All.bind h fun result => ?_
  cases result with
  | response resp => exact render_all _ _
  | unavailable => exact render_all _ _
  | clientError resp => exact render_all _ _
  | raised => exact unhandledError_all

theorem getFaultHandler_all : getFaultHandler.All ApiOp.Reads :=
  ⟨trivial, fun _ => ⟨trivial, fun _ => renderJson_all _ _⟩⟩

/-- **The Gateway's readers.** -/
theorem handleApi_all (cfg : GatewaySettings) {req : ApiRequest} (h : ¬ req.Writes) :
    (handleApi cfg req).All ApiOp.Reads := by
  cases req with
  | submit body => exact absurd trivial h
  | invalid endpoint errors => exact absurd trivial h
  | setFault mode => exact absurd trivial h
  | unparseable => exact (renderJson_all _ _ : unparseableHandler.All ApiOp.Reads)
  | getEvent eventId =>
    refine All.bind ⟨trivial, all_done⟩ fun event => ?_
    split
    · exact render_all _ _
    · split
      · exact render_all _ _
      · exact unhandledError_all
  | listEvents account =>
    refine All.bind ⟨trivial, all_done⟩ fun events => ?_
    split
    · exact render_all _ _
    · exact unhandledError_all
  | getBalance accountId => exact readHandler_all (clientGetBalance_all accountId)
  | getAccount accountId => exact readHandler_all (clientGetAccount_all accountId)
  | health => exact ⟨trivial, fun _ => ⟨trivial, fun _ => ⟨trivial, fun _ => renderJson_all _ _⟩⟩⟩
  | ui => trivial
  | metrics => exact ⟨trivial, fun _ => trivial⟩
  | getAudit account limit bounds =>
    refine All.bind ⟨trivial, all_done⟩ fun entries => ?_
    split
    · exact render_all _ _
    · exact unhandledError_all
  | getFault => exact getFaultHandler_all

/-! ## The Account Service -/

/-- The operations that write neither a transaction nor an audit entry. -/
def AccountApiOp.Reads : AccountApiOp → Prop
  | .core (.insertTransaction _) => False
  | .core (.audit _ _ _ _) => False
  | _ => True

/-- **The Account Service's readers.** -/
theorem handleAccount_all {req : AccountRequest}
    (h : ∀ accountId payload, req ≠ .post accountId payload) :
    (handleAccount req).All AccountApiOp.Reads := by
  cases req with
  | post accountId payload => exact absurd rfl (h accountId payload)
  | malformed => trivial
  | balance accountId =>
    refine ⟨trivial, fun txs => ⟨trivial, fun total => ?_⟩⟩
    cases total with
    | some total => trivial
    | none => exact ⟨trivial, fun _ => trivial⟩
  | account accountId =>
    refine ⟨trivial, fun txs => ⟨trivial, fun total => ?_⟩⟩
    cases total with
    | some total => trivial
    | none => exact ⟨trivial, fun _ => trivial⟩
  | health => exact ⟨trivial, fun _ => ⟨trivial, fun _ => trivial⟩⟩
  | metrics => exact ⟨trivial, fun _ => trivial⟩
  | audit account limit =>
    refine ⟨trivial, fun entries => ?_⟩
    cases entries with
    | some entries => trivial
    | none => exact ⟨trivial, fun _ => trivial⟩

end EventLedger
