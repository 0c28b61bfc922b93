import EventLedger.LedgerRuns
import EventLedger.ProgramTraces
import EventLedger.Tracing

/-!
# The composed system with its spans

The composed system once more, with the spans its requests run in.  A service
begins a span on the `traceparent` header a request arrives with; what an
operation reads from the context variable is that span, and every attempt of a
submission carries the span of the submission.

An operation leaves a mark in the shared state that stays: an entry under the
trace of the span it runs in, an attempt, a response that was given.  What a step
can add to each part of the state is stated once at the end.
-/
namespace EventLedger

open Program LabelledRun

/-- The composed system, with the span of each submission and of each handler. -/
structure TracedWorld where
  world : World
  spans : ℕ → Option TraceContext
  handlerSpans : ℕ → Option TraceContext

/-- One step of the system; what the context variable holds is no choice. -/
inductive TracedLabel where
  /-- A submission is received, with or without a `traceparent` header. -/
  | submit (i : ℕ) (incoming : Option String) (e : Entropy) (body : EventRequest)
  | gateway (i : ℕ) (now : DateTime) (clock : ℚ) (network : Network)
  | deliver (a : ℕ) (e : Entropy)
  | account (a : ℕ) (now : DateTime)
  | crash (a : ℕ) (now : DateTime)
  | setFault (fault : Option Fault)

/-- The span the middleware begins for a request. -/
def beginSpan (incoming : Option String) (e : Entropy) : TraceContext :=
  ((startSpan incoming e).run none).1

theorem beginSpan_eq (incoming : Option String) (e : Entropy) :
    beginSpan incoming e = spanContext incoming e := rfl

/-- What `get_trace_id` returns in a span. -/
def traceIdIn (current : Option TraceContext) : Option String := (getTraceId.run current).1

/-- The `traceparent` header of a request that is sent in a span. -/
def outboundTraceparent (current : Option TraceContext) : Option String :=
  (outboundHeaders.run current).1.lookup "traceparent"

namespace TracedWorld

/-- Both services just started. -/
def initial : TracedWorld := ⟨World.initial, fun _ => none, fun _ => none⟩

/-- The step as the services take it. -/
def plain (w : TracedWorld) : TracedLabel → Label
  | .submit i _ _ body => .submit i body
  | .gateway i now clock network => .gateway i ⟨⟨now, traceIdIn (w.spans i)⟩, clock, network⟩
  | .deliver a _ => .deliver a
  | .account a now => .account a ⟨now, traceIdIn (w.handlerSpans a)⟩
  | .crash a now => .crash a ⟨now, traceIdIn (w.handlerSpans a)⟩
  | .setFault fault => .setFault fault

/-- The header an attempt carries. -/
def header (w : TracedWorld) (a : ℕ) : Option String :=
  w.world.shared.attempts[a]?.bind fun sent => outboundTraceparent (w.spans sent.submission)

/-- The spans of the submissions after a step. -/
def spansAfter (w : TracedWorld) : TracedLabel → ℕ → Option TraceContext
  | .submit i incoming e _ => Function.update w.spans i (some (beginSpan incoming e))
  | _ => w.spans

/-- The spans of the handlers after a step. -/
def handlerSpansAfter (w : TracedWorld) : TracedLabel → ℕ → Option TraceContext
  | .deliver a e => Function.update w.handlerSpans a (some (beginSpan (w.header a) e))
  | _ => w.handlerSpans

/-- Executing one step; `none` when it is not possible. -/
def step (dep : Deployment) (w : TracedWorld) (l : TracedLabel) : Option TracedWorld :=
  (World.step dep w.world (w.plain l)).map fun world =>
    ⟨world, w.spansAfter l, w.handlerSpansAfter l⟩

end TracedWorld

/-! ## What operations leave in the shared state -/

/-- The log has an entry with this outcome about the event, under this trace. -/
def Finds (log : List AuditRow) (outcome eventId traceId : String) : Prop :=
  ∃ row ∈ log, row.outcome = outcome ∧ row.eventId = some eventId ∧ row.traceId = some traceId

theorem Finds.mono {log log' : List AuditRow} {outcome eventId traceId : String}
    (h : Finds log outcome eventId traceId) (hlog : log <+: log') :
    Finds log' outcome eventId traceId := by
  obtain ⟨row, hrow, hfields⟩ := h
  exact ⟨row, hlog.subset hrow, hfields⟩

/-- Nothing is taken from the ledger or out of the logs. -/
structure Shared.Extends (s s' : Shared) : Prop where
  ledger : Evolves s.ledger s'.ledger
  gatewayLog : s.gateway.auditLog <+: s'.gateway.auditLog
  accountLog : s.account.auditLog <+: s'.account.auditLog

theorem Shared.Extends.refl (s : Shared) : s.Extends s :=
  ⟨Evolves.refl _, List.prefix_rfl, List.prefix_rfl⟩

theorem Shared.Extends.trans {s s' s'' : Shared} (h : s.Extends s') (h' : s'.Extends s'') :
    s.Extends s'' :=
  ⟨h.ledger.trans h'.ledger, h.gatewayLog.trans h'.gatewayLog, h.accountLog.trans h'.accountLog⟩

/-- What an operation of a Gateway thread has left behind. -/
def GatewayMark (dep : Deployment) (i : ℕ) (ctx : TraceContext) (s : Shared) :
    Event GatewayOp GatewayOp.Ret → Prop
  | ⟨.audit outcome _ eventId _, _⟩ => Finds s.gateway.auditLog outcome eventId ctx.traceId
  | ⟨.traceId, id⟩ => id = some ctx.traceId
  | ⟨.send accountId payload, some a⟩ => s.attempts[a]? = some ⟨i, accountId, payload⟩
  | ⟨.receive a, .response resp⟩ => ∃ answer sent, s.replies a = some answer ∧
      s.attempts[a]? = some sent ∧ resp = answer.toHttp (dep.validationDetail sent.payload)
  | _ => True

/-- What an operation of a handler has left behind. -/
def AccountMark (ctx : TraceContext) (s : Shared) : Event AccountOp AccountOp.Ret → Prop
  | ⟨.audit outcome _ eventId _, _⟩ => Finds s.account.auditLog outcome eventId ctx.traceId
  | ⟨.traceId, id⟩ => id = some ctx.traceId
  | _ => True

section
variable {dep : Deployment} {i : ℕ} {c : Choice} {env : Surroundings} {ctx : TraceContext}
  {s s' : Shared}

theorem GatewayMark.mono {e : Event GatewayOp GatewayOp.Ret} (h : GatewayMark dep i ctx s e)
    (hext : s.Extends s') : GatewayMark dep i ctx s' e := by
  obtain ⟨o, r⟩ := e
  cases o with
  | audit outcome accountId eventId detail => exact Finds.mono h hext.gatewayLog
  | traceId => exact h
  | send accountId payload =>
    cases r with
    | none => trivial
    | some a => exact hext.ledger.attempt h
  | receive a =>
    cases r with
    | response resp =>
      obtain ⟨answer, sent, hreply, hsent, hresp⟩ := h
      exact ⟨answer, sent, hext.ledger.replies a answer hreply, hext.ledger.attempt hsent, hresp⟩
    | transportError => trivial
    | raised => trivial
  | _ => trivial

theorem AccountMark.mono {e : Event AccountOp AccountOp.Ret} (h : AccountMark ctx s e)
    (hext : s.Extends s') : AccountMark ctx s' e := by
  obtain ⟨o, r⟩ := e
  cases o with
  | audit outcome accountId eventId detail => exact Finds.mono h hext.accountLog
  | traceId => exact h
  | _ => trivial

/-- What an operation of a Gateway thread does to the two logs. -/
theorem gatewayExec_logs {o : GatewayOp} {r : o.Ret}
    (h : gatewayExec dep i c s o = some (s', r)) : s'.account.auditLog = s.account.auditLog ∧
      (s'.gateway.auditLog = s.gateway.auditLog ∨
        ∃ outcome accountId eventId detail row, o = .audit outcome accountId eventId detail ∧
          s'.gateway.auditLog = s.gateway.auditLog ++ [row] ∧ row.outcome = outcome ∧
          row.accountId = some accountId ∧ row.eventId = some eventId ∧
          row.traceId = c.surroundings.traceId) := by
  cases o with
  | audit outcome accountId eventId detail =>
    cases h
    exact ⟨rfl, .inr ⟨outcome, accountId, eventId, detail, _, rfl, rfl, rfl, rfl, rfl, rfl⟩⟩
  | insertEvent event =>
    simp only [gatewayExec] at h
    split at h
    · rename_i db hdb
      obtain ⟨events, -, rfl⟩ := Option.map_eq_some_iff.mp hdb
      cases h
      exact ⟨rfl, .inl rfl⟩
    · cases h
      exact ⟨rfl, .inl rfl⟩
  | send accountId payload =>
    simp only [gatewayExec] at h
    split at h
    · cases h
      exact ⟨rfl, .inl rfl⟩
    · cases h
      exact ⟨rfl, .inl rfl⟩
  | receive a =>
    simp only [gatewayExec] at h
    split at h
    · cases h
      exact ⟨rfl, .inl rfl⟩
    · cases h
      exact ⟨rfl, .inl rfl⟩
    · split at h
      · cases h
        exact ⟨rfl, .inl rfl⟩
      · cases h
  | _ =>
    cases h
    exact ⟨rfl, .inl rfl⟩

/-- What an operation of a handler does to the two logs. -/
theorem accountExec_logs {o : AccountOp} {r : o.Ret}
    (h : accountExec env s o = some (s', r)) : s'.gateway.auditLog = s.gateway.auditLog ∧
      (s'.account.auditLog = s.account.auditLog ∨
        ∃ outcome accountId eventId detail row, o = .audit outcome accountId eventId detail ∧
          s'.account.auditLog = s.account.auditLog ++ [row] ∧ row.outcome = outcome ∧
          row.eventId = some eventId ∧ row.traceId = env.traceId) := by
  cases o with
  | audit outcome accountId eventId detail =>
    cases h
    exact ⟨rfl, .inr ⟨outcome, accountId, eventId, detail, _, rfl, rfl, rfl, rfl, rfl⟩⟩
  | insertTransaction tx =>
    simp only [accountExec] at h
    split at h
    · rename_i db hdb
      obtain ⟨transactions, -, rfl⟩ := Option.map_eq_some_iff.mp hdb
      cases h
      exact ⟨rfl, .inl rfl⟩
    · cases h
      exact ⟨rfl, .inl rfl⟩
  | _ =>
    cases h
    exact ⟨rfl, .inl rfl⟩

theorem gatewayExec_extends {o : GatewayOp} {r : o.Ret}
    (h : gatewayExec dep i c s o = some (s', r)) : s.Extends s' := by
  obtain ⟨haccount, hgateway | ⟨_, _, _, _, row, -, hgateway, -⟩⟩ := gatewayExec_logs h
  · exact ⟨gatewayExec_evolves h, hgateway ▸ List.prefix_rfl, haccount ▸ List.prefix_rfl⟩
  · exact ⟨gatewayExec_evolves h, hgateway ▸ List.prefix_append _ _, haccount ▸ List.prefix_rfl⟩

theorem accountExec_extends {o : AccountOp} {r : o.Ret}
    (h : accountExec env s o = some (s', r)) : s.Extends s' := by
  obtain ⟨hgateway, haccount | ⟨_, _, _, _, row, -, haccount, -⟩⟩ := accountExec_logs h
  · exact ⟨accountExec_evolves h, hgateway ▸ List.prefix_rfl, haccount ▸ List.prefix_rfl⟩
  · exact ⟨accountExec_evolves h, hgateway ▸ List.prefix_rfl, haccount ▸ List.prefix_append _ _⟩

/-- **The mark of an operation**, in the span it runs in. -/
theorem gatewayExec_mark {o : GatewayOp} {r : o.Ret} (h : gatewayExec dep i c s o = some (s', r))
    (hid : c.surroundings.traceId = some ctx.traceId) : GatewayMark dep i ctx s' ⟨o, r⟩ := by
  cases o with
  | audit outcome accountId eventId detail =>
    cases h
    exact ⟨_, List.mem_append_right _ List.mem_cons_self, rfl, rfl, hid⟩
  | traceId =>
    cases h
    exact hid
  | send accountId payload =>
    rcases gatewayExec_send h with ⟨rfl, -⟩ | ⟨rfl, hledger⟩
    · trivial
    · show s'.ledger.attempts[s.ledger.attempts.length]? = _
      rw [hledger, List.getElem?_append_right (le_refl _), Nat.sub_self]
      rfl
  | receive a =>
    cases r with
    | response resp =>
      rcases gatewayExec_receive h with
        ⟨-, hnone⟩ | ⟨-, answer, sent, hreply, hsent, hresp, hledger⟩
      · exact absurd rfl (hnone resp)
      · cases hresp
        refine ⟨answer, sent, ?_, ?_, rfl⟩
        · show s'.ledger.replies a = _
          rw [hledger]
          exact hreply
        · show s'.ledger.attempts[a]? = _
          rw [hledger]
          exact hsent
    | transportError => trivial
    | raised => trivial
  | _ => trivial

theorem accountExec_mark {o : AccountOp} {r : o.Ret} (h : accountExec env s o = some (s', r))
    (hid : env.traceId = some ctx.traceId) : AccountMark ctx s' ⟨o, r⟩ := by
  cases o with
  | audit outcome accountId eventId detail =>
    cases h
    exact ⟨_, List.mem_append_right _ List.mem_cons_self, rfl, rfl, hid⟩
  | traceId =>
    cases h
    exact hid
  | _ => trivial

end

/-! ## What a step can add -/

namespace World

variable {dep : Deployment} {w w' : World} {l : Label}

/-- A program a thread runs was there, is started now, or is what its operation leaves. -/
theorem step_threads {i : ℕ} {p : GatewayProg Answer} (hstep : step dep w l = some w')
    (hp : w'.threads i = some p) : w.threads i = some p ∨
      (∃ body, l = .submit i body ∧ w'.shared.bodies i = some body ∧
        p = submitEvent dep.loads dep.maxRetries body) ∨
      ∃ c o k r, l = .gateway i c ∧ w.threads i = some (.act o k) ∧
        gatewayExec dep i c w.shared o = some (w'.shared, r) ∧ p = k r := by
  cases step_cases hstep with
  | submit hfresh =>
    rcases eq_some_of_update hp with ⟨rfl, rfl⟩ | hp
    · exact .inr (.inl ⟨_, rfl, Function.update_self _ _ _, rfl⟩)
    · exact .inl hp
  | gateway hthread hexec =>
    rcases eq_some_of_update hp with ⟨rfl, rfl⟩ | hp
    · exact .inr (.inr ⟨_, _, _, _, rfl, hthread, hexec, rfl⟩)
    · exact .inl hp
  | _ => exact .inl hp

/-- A program a handler runs was there, is started now, is what its operation leaves, or has
died. -/
theorem step_handlers {a : ℕ} {p : AccountProg AccountAnswer} (hstep : step dep w l = some w')
    (hp : w'.handlers a = some p) : w.handlers a = some p ∨
      (∃ sent, l = .deliver a ∧ w.shared.attempts[a]? = some sent ∧
        p = serve sent.accountId sent.payload) ∨
      (∃ env o k r, l = .account a env ∧ w.handlers a = some (.act o k) ∧
        accountExec env w.shared o = some (w'.shared, r) ∧ p = k r) ∨
      ∃ env o k, l = .crash a env ∧ w.handlers a = some (.act o k) ∧
        p = .done (.internalError env.traceId) := by
  cases step_cases hstep with
  | deliver hsent =>
    rcases eq_some_of_update hp with ⟨rfl, rfl⟩ | hp
    · exact .inr (.inl ⟨_, rfl, hsent, rfl⟩)
    · exact .inl hp
  | account hhandler hexec =>
    rcases eq_some_of_update hp with ⟨rfl, rfl⟩ | hp
    · exact .inr (.inr (.inl ⟨_, _, _, _, rfl, hhandler, hexec, rfl⟩))
    · exact .inl hp
  | crash hhandler =>
    rcases eq_some_of_update hp with ⟨rfl, rfl⟩ | hp
    · exact .inr (.inr (.inr ⟨_, _, _, rfl, hhandler, rfl⟩))
    · exact .inl hp
  | _ => exact .inl hp

/-- A reply was there, or is the answer of a handler that has finished. -/
theorem step_replies {a : ℕ} {answer : AccountAnswer} (hstep : step dep w l = some w')
    (hreply : w'.ledger.replies a = some answer) :
    w.ledger.replies a = some answer ∨ w.handlers a = some (.done answer) := by
  have hmoved := step_moved hstep
  generalize w'.ledger = ledger at hmoved hreply
  cases hmoved with
  | reply hhandler hfresh =>
    rcases eq_some_of_update hreply with ⟨rfl, rfl⟩ | hreply
    · exact .inr hhandler
    · exact .inl hreply
  | _ => exact .inl hreply

/-- An entry of the Gateway was there, or a thread appends it now. -/
theorem step_gatewayLog {row : AuditRow} (hstep : step dep w l = some w')
    (hrow : row ∈ w'.shared.gateway.auditLog) : row ∈ w.shared.gateway.auditLog ∨
      ∃ i c outcome accountId eventId detail k, l = .gateway i c ∧
        w.threads i = some (.act (.audit outcome accountId eventId detail) k) ∧
        row.accountId = some accountId ∧ row.eventId = some eventId ∧
        row.traceId = c.surroundings.traceId := by
  cases step_cases hstep with
  | gateway hthread hexec =>
    obtain ⟨-, hlog | ⟨outcome, accountId, eventId, detail, entry, rfl, hlog, -, hfields⟩⟩ :=
      gatewayExec_logs hexec
    · exact .inl (hlog ▸ hrow)
    · have hrow : row ∈ w.shared.gateway.auditLog ++ [entry] := hlog ▸ hrow
      rcases List.mem_append.mp hrow with hrow | hrow
      · exact .inl hrow
      · rw [List.mem_singleton.mp hrow]
        exact .inr ⟨_, _, outcome, accountId, eventId, detail, _, rfl, hthread, hfields⟩
  | account hhandler hexec => exact .inl ((accountExec_logs hexec).1 ▸ hrow)
  | _ => exact .inl hrow

/-- An entry of the Account Service was there, or a handler appends it now. -/
theorem step_accountLog {row : AuditRow} (hstep : step dep w l = some w')
    (hrow : row ∈ w'.shared.account.auditLog) : row ∈ w.shared.account.auditLog ∨
      ∃ a env outcome accountId eventId detail k, l = .account a env ∧
        w.handlers a = some (.act (.audit outcome accountId eventId detail) k) ∧
        row.eventId = some eventId ∧ row.traceId = env.traceId := by
  cases step_cases hstep with
  | gateway hthread hexec => exact .inl ((gatewayExec_logs hexec).1 ▸ hrow)
  | account hhandler hexec =>
    obtain ⟨-, hlog | ⟨outcome, accountId, eventId, detail, entry, rfl, hlog, -, hfields⟩⟩ :=
      accountExec_logs hexec
    · exact .inl (hlog ▸ hrow)
    · have hrow : row ∈ w.shared.account.auditLog ++ [entry] := hlog ▸ hrow
      rcases List.mem_append.mp hrow with hrow | hrow
      · exact .inl hrow
      · rw [List.mem_singleton.mp hrow]
        exact .inr ⟨_, _, outcome, accountId, eventId, detail, _, rfl, hhandler, hfields⟩
  | _ => exact .inl hrow

theorem fresh_of_update {α : Type} {f : ℕ → Option α} {i j : ℕ} {x : α}
    (h : Function.update f i (some x) j = none) : j ≠ i := by
  rintro rfl
  rw [Function.update_self] at h
  cases h

/-- A handler stays one. -/
theorem step_handler_none {a : ℕ} (hstep : step dep w l = some w') (hnone : w'.handlers a = none) :
    w.handlers a = none ∧ l ≠ .deliver a := by
  cases step_cases hstep with
  | deliver hsent =>
    have hne := fresh_of_update hnone
    exact ⟨(Function.update_of_ne hne _ _).symm.trans hnone, fun h => by cases h; exact hne rfl⟩
  | account hhandler hexec =>
    exact ⟨(Function.update_of_ne (fresh_of_update hnone) _ _).symm.trans hnone,
      fun h => by cases h⟩
  | crash hhandler =>
    exact ⟨(Function.update_of_ne (fresh_of_update hnone) _ _).symm.trans hnone,
      fun h => by cases h⟩
  | _ => exact ⟨hnone, fun h => by cases h⟩

/-- An attempt is delivered once. -/
theorem handler_fresh {a : ℕ} (h : step dep w (.deliver a) = some w') : w.handlers a = none := by
  simp only [step] at h
  split at h
  · rename_i hnone hsent
    exact hnone
  · cases h

end World

end EventLedger
