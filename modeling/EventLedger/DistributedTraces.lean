import EventLedger.Agreement
import EventLedger.HandlerTrails
import EventLedger.TracedSystem

/-!
# One trace for every submission

The trail of a submission is spread over two databases and tied together by
nothing but the trace id.  The invariant is about provenance: each thread has
come to where it is by operations that have left their marks, and each entry has
a submission.  What is said about one trace is read off it (`traces_connect`).

It is said of the entries that name an event.  Both trails also have entries of the
other endpoints — a request that fails validation, a fault that is injected — which
are about no submission, and which the composed system leaves out.
-/
namespace EventLedger

open Program Prog LabelledRun

/-! ## Where everything comes from -/

namespace TracedWorld

variable {dep : Deployment} {w w' : TracedWorld}

/-- The submission, and the span it runs in. -/
def Submitted (w : TracedWorld) (i : ℕ) (body : EventRequest) (ctx : TraceContext) : Prop :=
  w.world.shared.bodies i = some body ∧ w.spans i = some ctx

/-- The handler of the attempt runs under the span of the submission that sent it. -/
structure Serves (w : TracedWorld) (a : ℕ) (sent : Attempt) (ctx own : TraceContext) : Prop where
  attempt : w.world.shared.attempts[a]? = some sent
  span : w.spans sent.submission = some ctx
  handlerSpan : w.handlerSpans a = some own
  traceId : own.traceId = ctx.traceId
  parent : own.parentSpanId = some ctx.spanId

/-- What is shared only grows, and spans stay as they are. -/
structure Extends (w w' : TracedWorld) : Prop where
  shared : w.world.shared.Extends w'.world.shared
  spans : ∀ i ctx, w.spans i = some ctx → w'.spans i = some ctx
  handlerSpans : ∀ a ctx, w.handlerSpans a = some ctx → w'.handlerSpans a = some ctx

theorem Extends.refl (w : TracedWorld) : w.Extends w :=
  ⟨Shared.Extends.refl _, fun _ _ h => h, fun _ _ h => h⟩

theorem Extends.trans {w'' : TracedWorld} (h : w.Extends w') (h' : w'.Extends w'') :
    w.Extends w'' :=
  ⟨h.shared.trans h'.shared, fun i ctx hi => h'.spans i ctx (h.spans i ctx hi),
    fun a ctx ha => h'.handlerSpans a ctx (h.handlerSpans a ctx ha)⟩

theorem Submitted.mono {i : ℕ} {body : EventRequest} {ctx : TraceContext}
    (h : w.Submitted i body ctx) (hext : w.Extends w') : w'.Submitted i body ctx :=
  ⟨hext.shared.ledger.bodies i body h.1, hext.spans i ctx h.2⟩

theorem Serves.mono {a : ℕ} {sent : Attempt} {ctx own : TraceContext}
    (h : w.Serves a sent ctx own) (hext : w.Extends w') : w'.Serves a sent ctx own :=
  ⟨hext.shared.ledger.attempt h.attempt, hext.spans _ ctx h.span,
    hext.handlerSpans a own h.handlerSpan, h.traceId, h.parent⟩

/-- The thread has come to where it is in the span of its submission. -/
def ThreadTraced (dep : Deployment) (w : TracedWorld) (i : ℕ) (p : GatewayProg Answer) : Prop :=
  ∃ body ctx, w.Submitted i body ctx ∧
    (submitEvent dep.loads dep.maxRetries body).Reached (GatewayMark dep i ctx w.world.shared) p

/-- The handler has come to where it is under the span of the submission, or has died. -/
def HandlerTraced (w : TracedWorld) (a : ℕ) (p : AccountProg AccountAnswer) : Prop :=
  ∃ sent ctx own, w.Serves a sent ctx own ∧
    ((serve sent.accountId sent.payload).Reached (AccountMark own w.world.shared) p ∨
      p = .done (.internalError (some own.traceId)))

/-- The entry of the Gateway is about a submission, under its trace. -/
def GatewayRow (w : TracedWorld) (row : AuditRow) : Prop :=
  ∃ i body ctx, w.Submitted i body ctx ∧ row.accountId = some body.accountId ∧
    row.eventId = some body.eventId ∧ row.traceId = some ctx.traceId

/-- The entry of the Account Service is about the submission of a handler's attempt, under its
trace. -/
def AccountRow (w : TracedWorld) (row : AuditRow) : Prop :=
  ∃ a sent body ctx own, w.Serves a sent ctx own ∧ w.Submitted sent.submission body ctx ∧
    row.eventId = some body.eventId ∧ row.traceId = some ctx.traceId

theorem ThreadTraced.mono {i : ℕ} {p : GatewayProg Answer} (h : ThreadTraced dep w i p)
    (hext : w.Extends w') : ThreadTraced dep w' i p := by
  obtain ⟨body, ctx, hsubmitted, hreached⟩ := h
  exact ⟨body, ctx, hsubmitted.mono hext, hreached.mono fun e he => he.mono hext.shared⟩

theorem HandlerTraced.mono {a : ℕ} {p : AccountProg AccountAnswer} (h : HandlerTraced w a p)
    (hext : w.Extends w') : HandlerTraced w' a p := by
  obtain ⟨sent, ctx, own, hserves, hreached⟩ := h
  exact ⟨sent, ctx, own, hserves.mono hext,
    hreached.imp_left (·.mono fun e he => he.mono hext.shared)⟩

theorem GatewayRow.mono {row : AuditRow} (h : w.GatewayRow row) (hext : w.Extends w') :
    w'.GatewayRow row := by
  obtain ⟨i, body, ctx, hsubmitted, hfields⟩ := h
  exact ⟨i, body, ctx, hsubmitted.mono hext, hfields⟩

theorem AccountRow.mono {row : AuditRow} (h : w.AccountRow row) (hext : w.Extends w') :
    w'.AccountRow row := by
  obtain ⟨a, sent, body, ctx, own, hserves, hsubmitted, hfields⟩ := h
  exact ⟨a, sent, body, ctx, own, hserves.mono hext, hsubmitted.mono hext, hfields⟩

/-- **The invariant.** -/
structure Traced (dep : Deployment) (w : TracedWorld) : Prop where
  ok : World.Ok dep w.world
  span : ∀ i body, w.world.shared.bodies i = some body →
    ∃ ctx, w.spans i = some ctx ∧ ctx.WellFormed
  span_fresh : ∀ i, w.world.shared.bodies i = none → w.spans i = none
  handlerSpan_fresh : ∀ a, w.world.handlers a = none → w.handlerSpans a = none
  thread : ∀ i p, w.world.threads i = some p → ThreadTraced dep w i p
  handler : ∀ a p, w.world.handlers a = some p → HandlerTraced w a p
  reply : ∀ a answer, w.world.shared.replies a = some answer → HandlerTraced w a (.done answer)
  gatewayLog : ∀ row ∈ w.world.shared.gateway.auditLog, w.GatewayRow row
  accountLog : ∀ row ∈ w.world.shared.account.auditLog, w.AccountRow row

theorem initial_traced : Traced dep initial where
  ok := World.initial_ok
  span _ _ h := by cases h
  span_fresh _ _ := rfl
  handlerSpan_fresh _ _ := rfl
  thread _ _ h := by cases h
  handler _ _ h := by cases h
  reply _ _ h := by cases h
  gatewayLog _ h := absurd h List.not_mem_nil
  accountLog _ h := absurd h List.not_mem_nil

/-- A span that is begun on the header of an attempt is under the span of its submission. -/
theorem Traced.serves (h : Traced dep w) {a : ℕ} {sent : Attempt} (e : Entropy)
    (hsent : w.world.shared.attempts[a]? = some sent) : ∃ ctx,
      w.spans sent.submission = some ctx ∧ (beginSpan (w.header a) e).traceId = ctx.traceId ∧
        (beginSpan (w.header a) e).parentSpanId = some ctx.spanId := by
  obtain ⟨body, hbody, -⟩ :=
    h.ok.consistent.attempt_origin sent (List.mem_of_getElem? hsent)
  obtain ⟨ctx, hctx, hwell⟩ := h.span sent.submission body hbody
  have hheader : w.header a = some (formatTraceparent ctx) := by
    rw [header, hsent, Option.bind_some, hctx]
    rfl
  rw [hheader, beginSpan_eq]
  exact ⟨ctx, hctx, spanContext_of_carries e (carries_formatTraceparent hwell)⟩

/-! ## Steps and runs -/

theorem Traced.extends (h : Traced dep w) {l : TracedLabel} (hstep : step dep w l = some w') :
    w.Extends w' := by
  obtain ⟨world, hworld, rfl⟩ := Option.map_eq_some_iff.mp hstep
  have hspans : ∀ i ctx, w.spans i = some ctx → w.spans i = some ctx := fun _ _ hi => hi
  have hhandlers : ∀ a ctx, w.handlerSpans a = some ctx → w.handlerSpans a = some ctx :=
    fun _ _ ha => ha
  cases l with
  | submit i incoming e body =>
    cases World.step_cases hworld with
    | submit hfresh =>
      exact ⟨⟨evolves_submit body hfresh, List.prefix_rfl, List.prefix_rfl⟩,
        fun j ctx hj => update_of_some (h.span_fresh i hfresh) hj, hhandlers⟩
  | gateway i now clock network =>
    cases World.step_cases hworld with
    | gateway hthread hexec => exact ⟨gatewayExec_extends hexec, hspans, hhandlers⟩
  | deliver a e =>
    have hfresh := h.handlerSpan_fresh a (World.handler_fresh hworld)
    cases World.step_cases hworld with
    | deliver hsent =>
      exact ⟨Shared.Extends.refl _, hspans, fun b ctx hb => update_of_some hfresh hb⟩
  | account a now =>
    cases World.step_cases hworld with
    | account hhandler hexec => exact ⟨accountExec_extends hexec, hspans, hhandlers⟩
    | reply hhandler hfresh =>
      exact ⟨⟨evolves_reply _ hfresh, List.prefix_rfl, List.prefix_rfl⟩, hspans, hhandlers⟩
  | crash a now =>
    cases World.step_cases hworld with
    | crash hhandler => exact ⟨Shared.Extends.refl _, hspans, hhandlers⟩
  | setFault fault =>
    cases World.step_cases hworld with
    | setFault => exact ⟨⟨Evolves.refl _, List.prefix_rfl, List.prefix_rfl⟩, hspans, hhandlers⟩

theorem Traced.thread_step (h : Traced dep w) {l : TracedLabel}
    (hstep : step dep w l = some w') {i : ℕ} {p : GatewayProg Answer}
    (hp : w'.world.threads i = some p) : ThreadTraced dep w' i p := by
  have hext := h.extends hstep
  obtain ⟨world, hworld, rfl⟩ := Option.map_eq_some_iff.mp hstep
  rcases World.step_threads hworld hp with hold | ⟨body, hl, hbody, rfl⟩ |
    ⟨c, o, k, r, hl, hthread, hexec, rfl⟩
  · exact (h.thread i p hold).mono hext
  · cases l <;> cases hl
    exact ⟨body, _, ⟨hbody, Function.update_self _ _ _⟩, .refl _⟩
  · cases l <;> cases hl
    obtain ⟨body, ctx, hsubmitted, hreached⟩ := (h.thread i _ hthread)
    have hid : traceIdIn (w.spans i) = some ctx.traceId := by
      rw [hsubmitted.2]
      rfl
    refine ⟨body, ctx, hsubmitted.mono hext, ?_⟩
    exact (hreached.mono fun e he => he.mono hext.shared).act (gatewayExec_mark hexec hid)

theorem Traced.handler_step (h : Traced dep w) {l : TracedLabel}
    (hstep : step dep w l = some w') {a : ℕ} {p : AccountProg AccountAnswer}
    (hp : w'.world.handlers a = some p) : HandlerTraced w' a p := by
  have hext := h.extends hstep
  obtain ⟨world, hworld, rfl⟩ := Option.map_eq_some_iff.mp hstep
  have hid : ∀ {own : TraceContext}, w.handlerSpans a = some own →
      traceIdIn (w.handlerSpans a) = some own.traceId := by
    intro own hown
    rw [hown]
    rfl
  rcases World.step_handlers hworld hp with hold | ⟨sent, hl, hsent, rfl⟩ |
    ⟨env, o, k, r, hl, hhandler, hexec, rfl⟩ | ⟨env, o, k, hl, hhandler, rfl⟩
  · exact (h.handler a p hold).mono hext
  · cases l <;> cases hl
    rename_i e
    obtain ⟨ctx, hctx, htrace, hparent⟩ := h.serves e hsent
    exact ⟨sent, ctx, _, ⟨hext.shared.ledger.attempt hsent, hctx, Function.update_self _ _ _,
      htrace, hparent⟩, .inl (.refl _)⟩
  · cases l <;> cases hl
    obtain ⟨sent, ctx, own, hserves, hreached | hdied⟩ := h.handler a _ hhandler
    · refine ⟨sent, ctx, own, hserves.mono hext, .inl ?_⟩
      exact (hreached.mono fun e he => he.mono hext.shared).act
        (accountExec_mark hexec (hid hserves.handlerSpan))
    · cases hdied
  · cases l <;> cases hl
    obtain ⟨sent, ctx, own, hserves, -⟩ := h.handler a _ hhandler
    refine ⟨sent, ctx, own, hserves.mono hext, .inr ?_⟩
    rw [hid hserves.handlerSpan]

/-- An entry of the Gateway is about the submission of the thread that appends it. -/
theorem Traced.gatewayLog_step (h : Traced dep w) {l : TracedLabel}
    (hstep : step dep w l = some w') {row : AuditRow}
    (hrow : row ∈ w'.world.shared.gateway.auditLog) : w'.GatewayRow row := by
  have hext := h.extends hstep
  obtain ⟨world, hworld, rfl⟩ := Option.map_eq_some_iff.mp hstep
  rcases World.step_gatewayLog hworld hrow with hold |
    ⟨i, c, outcome, accountId, eventId, detail, k, hl, hthread, haccount, hevent, htrace⟩
  · exact (h.gatewayLog row hold).mono hext
  · cases l <;> cases hl
    obtain ⟨body, ctx, hsubmitted, es, hsteps, -⟩ := h.thread i _ hthread
    obtain ⟨⟨rfl, rfl⟩, -⟩ := (submitEvent_about _ _ body).of_steps hsteps
    refine ⟨i, body, ctx, hsubmitted.mono hext, haccount, hevent, ?_⟩
    rw [htrace]
    show traceIdIn (w.spans i) = _
    rw [hsubmitted.2]
    rfl

/-- An entry of the Account Service is about the attempt of the handler that appends it. -/
theorem Traced.accountLog_step (h : Traced dep w) {l : TracedLabel}
    (hstep : step dep w l = some w') {row : AuditRow}
    (hrow : row ∈ w'.world.shared.account.auditLog) : w'.AccountRow row := by
  have hext := h.extends hstep
  obtain ⟨world, hworld, rfl⟩ := Option.map_eq_some_iff.mp hstep
  rcases World.step_accountLog hworld hrow with hold |
    ⟨a, env, outcome, accountId, eventId, detail, k, hl, hhandler, hevent, htrace⟩
  · exact (h.accountLog row hold).mono hext
  · cases l <;> cases hl
    obtain ⟨sent, ctx, own, hserves, ⟨es, hsteps, -⟩ | hdied⟩ := h.handler a _ hhandler
    · obtain ⟨rfl, -⟩ := (serve_about _ _).of_steps hsteps
      obtain ⟨body, hbody, hforwards⟩ :=
        h.ok.consistent.attempt_origin sent (List.mem_of_getElem? hserves.attempt)
      have hsubmitted : w.Submitted sent.submission body ctx := ⟨hbody, hserves.span⟩
      refine ⟨a, sent, body, ctx, own, hserves.mono hext, hsubmitted.mono hext,
        hevent.trans (congrArg some hforwards.eventId), ?_⟩
      rw [htrace, ← hserves.traceId]
      show traceIdIn (w.handlerSpans a) = _
      rw [hserves.handlerSpan]
      rfl
    · cases hdied

/-- **One step** leaves what is new with its origin. -/
theorem Traced.step (h : Traced dep w) {l : TracedLabel}
    (hstep : TracedWorld.step dep w l = some w') : Traced dep w' where
  ok := by
    obtain ⟨world, hworld, rfl⟩ := Option.map_eq_some_iff.mp hstep
    exact (h.ok.step hworld).1
  span i body hbody := by
    have hext := h.extends hstep
    obtain ⟨world, hworld, rfl⟩ := Option.map_eq_some_iff.mp hstep
    rcases World.step_bodies hworld hbody with hold | hl
    · obtain ⟨ctx, hctx, hwell⟩ := h.span i body hold
      exact ⟨ctx, hext.spans i ctx hctx, hwell⟩
    · cases l <;> cases hl
      exact ⟨_, Function.update_self _ _ _, spanContext_wellFormed _ _⟩
  span_fresh i hnone := by
    have hext := h.extends hstep
    obtain ⟨world, hworld, rfl⟩ := Option.map_eq_some_iff.mp hstep
    have hold : w.spans i = none := h.span_fresh i (Option.eq_none_iff_forall_ne_some.mpr
      fun body hbody => by cases hnone.symm.trans (hext.shared.ledger.bodies i body hbody))
    cases l with
    | submit j incoming e body =>
      cases World.step_cases hworld with
      | submit hfresh => exact (Function.update_of_ne (World.fresh_of_update hnone) _ _).trans hold
    | _ => exact hold
  handlerSpan_fresh a hnone := by
    obtain ⟨world, hworld, rfl⟩ := Option.map_eq_some_iff.mp hstep
    obtain ⟨hold, hother⟩ := World.step_handler_none hworld hnone
    cases l with
    | deliver b e =>
      have hne : a ≠ b := by
        rintro rfl
        exact hother rfl
      exact (Function.update_of_ne hne _ _).trans (h.handlerSpan_fresh a hold)
    | _ => exact h.handlerSpan_fresh a hold
  thread _ _ hp := h.thread_step hstep hp
  handler _ _ hp := h.handler_step hstep hp
  reply a answer hreply := by
    have hext := h.extends hstep
    obtain ⟨world, hworld, rfl⟩ := Option.map_eq_some_iff.mp hstep
    rcases World.step_replies hworld hreply with hold | hdone
    · exact (h.reply a answer hold).mono hext
    · exact (h.handler a _ hdone).mono hext
  gatewayLog _ hrow := h.gatewayLog_step hstep hrow
  accountLog _ hrow := h.accountLog_step hstep hrow

/-- **Runs** keep the invariant, and nothing is taken away along them. -/
theorem run_traced {ls : List TracedLabel} (h : Traced dep w)
    (hrun : Run (TracedWorld.step dep) w ls w') : Traced dep w' ∧ w.Extends w' := by
  have keep : ∀ u l v, Traced dep u → TracedWorld.step dep u l = some v → Traced dep v :=
    fun _ _ _ hu hstep => hu.step hstep
  exact ⟨hrun.preserves keep h, hrun.relates Extends.refl (fun _ _ _ => Extends.trans) keep
    (fun _ _ _ hu hstep => hu.extends hstep) h⟩

/-- A run of the traced system is one of the composed system. -/
theorem plain_run {ls : List TracedLabel} (hrun : Run (TracedWorld.step dep) w ls w') :
    ∃ ls', Run (World.step dep) w.world ls' w'.world := by
  induction ls generalizing w with
  | nil => exact ⟨[], run_nil.mpr (congrArg TracedWorld.world (run_nil.mp hrun))⟩
  | cons l ls ih =>
    obtain ⟨u, hstep, hrest⟩ := run_cons.mp hrun
    obtain ⟨world, hworld, rfl⟩ := Option.map_eq_some_iff.mp hstep
    obtain ⟨ls', hrun'⟩ := ih hrest
    exact ⟨w.plain l :: ls', run_cons.mpr ⟨world, hworld, hrun'⟩⟩

/-- A submission runs in the span begun on its header. -/
theorem submitted_of_mem {ls : List TracedLabel} {i : ℕ} {incoming : Option String} {e : Entropy}
    {body : EventRequest} (h : Traced dep w) (hrun : Run (TracedWorld.step dep) w ls w')
    (hmem : .submit i incoming e body ∈ ls) :
    w'.Submitted i body (beginSpan incoming e) := by
  induction ls generalizing w with
  | nil => exact absurd hmem List.not_mem_nil
  | cons l ls ih =>
    obtain ⟨u, hstep, hrest⟩ := run_cons.mp hrun
    rcases List.mem_cons.mp hmem with rfl | hmem
    · refine Submitted.mono ?_ (run_traced (h.step hstep) hrest).2
      obtain ⟨world, hworld, rfl⟩ := Option.map_eq_some_iff.mp hstep
      cases World.step_cases hworld with
      | submit hfresh => exact ⟨Function.update_self _ _ _, Function.update_self _ _ _⟩
    · exact ih (h.step hstep) hrest hmem

/-! ## What is found under a trace -/

/-- The Gateway has an entry about the event under the trace. -/
def Entered (w : TracedWorld) (outcome : String) (body : EventRequest) (ctx : TraceContext) :
    Prop :=
  Finds w.world.shared.gateway.auditLog outcome body.eventId ctx.traceId

/-- The Account Service has an entry about the event under the trace. -/
def Applied (w : TracedWorld) (body : EventRequest) (ctx : TraceContext) : Prop :=
  ∃ outcome, (outcome = "APPLIED" ∨ outcome = "DUPLICATE") ∧
    Finds w.world.shared.account.auditLog outcome body.eventId ctx.traceId

/-- What is found about a submission, given its answer. -/
def Tells (w : TracedWorld) (body : EventRequest) (ctx : TraceContext) : Answer → Prop
  | .recorded status _ =>
    (status = 201 ∧ w.Entered "ACCEPTED" body ctx ∧ w.Applied body ctx) ∨
      (status = 200 ∧ (w.Entered "DUPLICATE" body ctx ∨ w.Applied body ctx))
  | .unavailable => w.Entered "DOWNSTREAM_UNAVAILABLE" body ctx
  | .rejected _ _ => w.Entered "DOWNSTREAM_REJECTED" body ctx
  | .internalError traceId => traceId = some ctx.traceId

/-- A response that was read comes from a handler that has left its entry. -/
theorem Traced.applied (h : Traced dep w) {i : ℕ} {body : EventRequest} {ctx : TraceContext}
    {es : List (Event GatewayOp GatewayOp.Ret)} (hsubmitted : w.Submitted i body ctx)
    (hforwarded : Forwarded body es) (hmarks : ∀ e ∈ es, GatewayMark dep i ctx w.world.shared e) :
    w.Applied body ctx := by
  obtain ⟨amount, resp, hstatus, hjson, a, hsend, hreceive⟩ := hforwarded
  have hsent : w.world.shared.attempts[a]? = some ⟨i, body.accountId, body.payload amount⟩ :=
    hmarks _ hsend
  obtain ⟨answer, sent, hreply, hsent', rfl⟩ := hmarks _ hreceive
  obtain ⟨status, response, rfl⟩ := AccountAnswer.transaction_of_accepted hstatus hjson
  obtain ⟨sent', ctx', own, hserves, hreached | hdied⟩ := h.reply a _ hreply
  · cases hserves.attempt.symm.trans hsent
    cases hserves.span.symm.trans hsubmitted.2
    obtain ⟨es', hleaves, hmarks'⟩ := (serve_leaves _ _).of_reached hreached
    obtain ⟨outcome, accountId, detail, houtcome, hentry⟩ := hleaves status response rfl
    refine ⟨outcome, houtcome, ?_⟩
    rw [← hserves.traceId]
    exact hmarks' _ hentry
  · cases hdied

/-- What an answered submission has left behind is found. -/
theorem Traced.tells (h : Traced dep w) {i : ℕ} {body : EventRequest} {ctx : TraceContext}
    {answer : Answer} (hsubmitted : w.Submitted i body ctx)
    (hanswered : w.world.Answered i answer) : w.Tells body ctx answer := by
  obtain ⟨body', ctx', hsubmitted', hreached⟩ := h.thread i _ hanswered
  cases hsubmitted'.1.symm.trans hsubmitted.1
  cases hsubmitted'.2.symm.trans hsubmitted.2
  obtain ⟨es, hleaves, hmarks⟩ := (submitEvent_leaves _ _ body).of_reached hreached
  have hentered : ∀ outcome, AuditsAs body outcome es → w.Entered outcome body ctx := by
    rintro outcome ⟨detail, hentry⟩
    exact hmarks _ hentry
  have happlied : Forwarded body es → w.Applied body ctx :=
    fun hforwarded => h.applied hsubmitted hforwarded hmarks
  cases answer with
  | recorded status response =>
    exact hleaves.imp (fun h => ⟨h.1, hentered _ h.2.1, happlied h.2.2⟩)
      fun h => ⟨h.1, h.2.imp (hentered _) happlied⟩
  | unavailable => exact hentered _ hleaves
  | rejected status detail => exact hentered _ hleaves
  | internalError traceId => exact hmarks _ hleaves

/-- **One trace for every submission.**  In every run of both services with the spans of their
requests: every entry of either trail that names an event is about a submission of the run and
carries the trace id of its span; every handler runs in a span of its own, under the span of the
submission that sent the attempt; the span of a submission continues the trace of the header it
arrived with, if that is valid; and whatever a submission has been answered, its entries are found
under its trace — in both trails if it was created — or the answer is an internal error that names
the trace. -/
theorem traces_connect (dep : Deployment) (ls : List TracedLabel) (w : TracedWorld)
    (hrun : Run (step dep) initial ls w) :
    World.Reachable dep w.world ∧
      (∀ row ∈ w.world.shared.gateway.auditLog, row.eventId.isSome → w.GatewayRow row) ∧
      (∀ row ∈ w.world.shared.account.auditLog, row.eventId.isSome → w.AccountRow row) ∧
      (∀ a p, w.world.handlers a = some p → ∃ sent ctx own, w.Serves a sent ctx own) ∧
      ∀ i incoming e body, .submit i incoming e body ∈ ls → ∃ ctx, w.Submitted i body ctx ∧
        (∀ header traceId spanId, incoming = some header → Carries header traceId spanId →
          ctx.traceId = traceId ∧ ctx.parentSpanId = some spanId) ∧
        ∀ answer, w.world.Answered i answer → w.Tells body ctx answer := by
  have h := (run_traced initial_traced hrun).1
  refine ⟨plain_run hrun, fun row hrow _ => h.gatewayLog row hrow,
    fun row hrow _ => h.accountLog row hrow, fun a p hp => ?_, fun i incoming e body hmem => ?_⟩
  · obtain ⟨sent, ctx, own, hserves, -⟩ := h.handler a p hp
    exact ⟨sent, ctx, own, hserves⟩
  · have hsubmitted := submitted_of_mem initial_traced hrun hmem
    refine ⟨_, hsubmitted, ?_, fun answer hanswered => h.tells hsubmitted hanswered⟩
    rintro header traceId spanId rfl hcarries
    rw [beginSpan_eq]
    exact spanContext_of_carries e hcarries

/-- A submission with a header is forwarded, applied and recorded. -/
def headedRun (header : String) (e : Entropy) (body : EventRequest) : List TracedLabel :=
  .submit 0 (some header) e body ::
    List.replicate 5 (.gateway 0 sampleTimestamp 0 .responds) ++
      .deliver 0 e :: List.replicate 5 (.account 0 sampleTimestamp) ++
        List.replicate 5 (.gateway 0 sampleTimestamp 0 .responds)

/-- The entries of both services are found under the trace of the header. -/
theorem traces_connect_created : ∃ ls w, Run (step defaultDeployment) initial ls w ∧
    w.world.statusOf 0 = some 201 ∧ ∃ ctx, ctx.traceId = "4bf92f3577b34da6a3ce929d0e0e4736" ∧
      w.Entered "ACCEPTED" World.firstVersion ctx ∧ w.Applied World.firstVersion ctx := by
  have hcarries : Carries "00-4bf92f3577b34da6a3ce929d0e0e4736-00f067aa0ba902b7-01"
      "4bf92f3577b34da6a3ce929d0e0e4736" "00f067aa0ba902b7" :=
    ⟨"00", "01", ⟨rfl, List.all_eq_true.mp (by decide)⟩,
      ⟨rfl, List.all_eq_true.mp (by decide)⟩, ⟨rfl, List.all_eq_true.mp (by decide)⟩,
      ⟨rfl, List.all_eq_true.mp (by decide)⟩, by decide +kernel⟩
  have hsome : (((headedRun "00-4bf92f3577b34da6a3ce929d0e0e4736-00f067aa0ba902b7-01"
      sampleHop.entropy World.firstVersion).foldlM (step defaultDeployment) initial).map
        fun w => w.world.statusOf 0) = some (some 201) := by
    decide +kernel
  obtain ⟨w, hrun, hstatus⟩ := Option.map_eq_some_iff.mp hsome
  obtain ⟨answer, hanswered, h201⟩ := World.statusOf_eq_some.mp hstatus
  obtain ⟨hreachable, -, -, -, hsubmissions⟩ := traces_connect defaultDeployment _ w hrun
  obtain ⟨ctx, hsubmitted, hheader, htells⟩ :=
    hsubmissions 0 _ _ World.firstVersion List.mem_cons_self
  obtain ⟨-, response, -, hrecorded, -⟩ :=
    hreachable.ok.recorded hanswered hsubmitted.1 (by rw [h201]; decide)
  have htold := htells answer hanswered
  rw [hrecorded] at htold
  rcases htold with ⟨-, hentered, happlied⟩ | ⟨h200, -⟩
  · exact ⟨_, w, hrun, hstatus, ctx, (hheader _ _ _ rfl hcarries).1, hentered, happlied⟩
  · rw [h201] at h200
    cases h200

end TracedWorld

end EventLedger
