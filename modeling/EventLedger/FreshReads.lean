import EventLedger.DownstreamErrors
import EventLedger.ReadingSystem
import EventLedger.Reconciliation

/-!
# Reads that see what was recorded before

A read through the Gateway that ends in a success shows what the Account Service
has answered to one of the read's own fetches, and the handler of that fetch has
read its tables after the read began (`answered_since`).  So whoever has been told
that an event is recorded finds its transaction counted in everything it reads
later, whichever attempts, responses and handlers are lost on the way
(`reads_own_writes`).
-/
namespace EventLedger

open Program Prog Service LabelledRun KeyedTable

/-! ## What a read at the Gateway shows -/

section
variable {es : List (Event ApiOp ApiOp.Ret)} {resp : HttpResponse} {maxRetries : ℕ}

/-- A response among the outcomes of a call that sends nothing was fetched. -/
theorem fetched_of_outcome
    (hops : ∀ e ∈ es, ∀ attempt, e.1 ≠ .core (.receive attempt))
    (h : .response resp ∈ outcomes (callSteps es)) :
    ∃ path, (⟨.fetch path, .response resp⟩ : Event ApiOp ApiOp.Ret) ∈ es := by
  obtain ⟨⟨o, r⟩, hmem, hstep⟩ := List.mem_filterMap.mp (step_mem_of_outcome h)
  cases o with
  | fetch path =>
    cases r with
    | response resp' =>
      cases hstep
      exact ⟨path, hmem⟩
    | _ => cases hstep
  | core op =>
    cases op with
    | receive attempt => exact absurd rfl (hops _ hmem attempt)
    | send accountId payload =>
      cases r with
      | none => cases hstep
      | some attempt => cases hstep
    | _ => cases hstep
  | _ => cases hstep

/-- What `json()` returns is in the body. -/
theorem HttpResponse.body_of_json {value : Json} (hjson : resp.jsonRaises = false)
    (hsafe : resp.safeJson = some value) : resp.body = .json value := by
  obtain ⟨status, body⟩ := resp
  cases body with
  | json value' =>
    cases hsafe
    rfl
  | text s => cases hjson
  | _ => cases hsafe

/-- The program fetches from nowhere else. -/
def ApiOp.FetchesFrom (path : String) (o : ApiOp) : Prop := ∀ path', o = .fetch path' → path' = path

theorem getCall_fetchesFrom (path : String) :
    (getCall maxRetries path).All (ApiOp.FetchesFrom path) := by
  have hcall : (call (GatewayProg.receive 0) maxRetries).All GatewayOp.OfCall :=
    call_all ⟨trivial, fun _ => trivial⟩
  refine All.interpret hcall fun op _ => ?_
  cases op with
  | receive attempt => exact ⟨fun _ h => (by cases h; rfl), fun _ => trivial⟩
  | _ => exact ⟨fun _ h => (by cases h), fun _ => trivial⟩

theorem handle_fetchesFrom (req : AccountRead) :
    (req.handle maxRetries).All (ApiOp.FetchesFrom req.path) := by
  have hunhandled : ApiProg.unhandledError.All (ApiOp.FetchesFrom req.path) :=
    ⟨fun _ h => (by cases h), fun _ => trivial⟩
  have hrender : ∀ status body,
      (ApiProg.render status body).All (ApiOp.FetchesFrom req.path) := by
    intro status body
    cases body with
    | some value => trivial
    | none => exact hunhandled
  have hread : ∀ client : ApiProg CallResult, client.All (ApiOp.FetchesFrom req.path) →
      (readHandler client).All (ApiOp.FetchesFrom req.path) := by
    intro client hclient
    refine All.bind hclient fun result => ?_
    cases result with
    | raised => exact hunhandled
    | _ => exact hrender _ _
  cases req with
  | balance accountId =>
    exact hread _ (All.bind (getCall_fetchesFrom _) fun _ => all_done _)
  | account accountId =>
    exact hread _ (All.bind (getCall_fetchesFrom _) fun _ => all_done _)

/-- A read that ends in a success shows the JSON of a success that was fetched. -/
theorem readHandler_shows {client : ApiProg CallResult}
    (h : client.Ensures fun result es => MethodEnds maxRetries (callSteps es) result) :
    (readHandler client).Ensures fun answer es => answer.status = 200 →
      ∃ resp value, .response resp ∈ outcomes (callSteps es) ∧ resp.status < 400 ∧
        resp.body = .json value ∧ answer = ⟨200, .json value⟩ := by
  refine Ensures.bind h fun result es hends => ?_
  cases result with
  | response resp =>
    obtain ⟨called, hcall, hparsed⟩ := hends
    obtain ⟨rfl, hjson⟩ := parsed_eq_response.mp hparsed.symm
    obtain ⟨-, hdecisive, hstatus⟩ := hcall.settled
    refine render_ensures.mono ?_
    rintro answer es' ⟨htrace, ⟨value, hvalue, rfl⟩ | ⟨-, h500⟩⟩ h200
    · obtain ⟨value, hsafe, hrendered⟩ := Option.bind_eq_some_iff.mp hvalue
      obtain ⟨-, rfl⟩ := Json.rendered_eq_some_iff.mp hrendered
      refine ⟨resp, value, ?_, hstatus, HttpResponse.body_of_json hjson hsafe, rfl⟩
      rw [callSteps_append_traceId htrace]
      exact hdecisive.1
    · omega
  | unavailable =>
    refine render_ensures.mono ?_
    rintro answer es' ⟨-, ⟨value, -, rfl⟩ | ⟨-, h500⟩⟩ h200
    · cases h200
    · omega
  | clientError resp =>
    have h400 := hends.of_clientError.2.1
    refine render_ensures.mono ?_
    rintro answer es' ⟨-, ⟨value, -, rfl⟩ | ⟨-, h500⟩⟩ h200
    · exact absurd h400 (by rw [show resp.status = 200 from h200]; decide)
    · omega
  | raised => exact ensures_act.mpr fun t => ensures_done.mpr fun h200 => by cases h200

theorem handle_shows (req : AccountRead) :
    (req.handle maxRetries).Ensures fun answer es => answer.status = 200 →
      ∃ resp value, .response resp ∈ outcomes (callSteps es) ∧ resp.status < 400 ∧
        resp.body = .json value ∧ answer = ⟨200, .json value⟩ := by
  cases req with
  | balance accountId =>
    exact readHandler_shows (ClientMethod.run_ends maxRetries (.getBalance accountId))
  | account accountId =>
    exact readHandler_shows (ClientMethod.run_ends maxRetries (.getAccount accountId))

end

namespace ReadingWorld

/-! ## What has happened since a state -/

variable {dep : Deployment} {s t t' : ReadingWorld}

/-- A response was given to a message sent since. -/
def AnsweredSince (s t : ReadingWorld) (path : String) (resp : HttpResponse) : Prop :=
  ∃ n, s.fetches.length ≤ n ∧ t.fetches[n]? = some path ∧
    (t.handlers n).bind ReadHandler.response = some resp

/-- What a read has done since: every response it has fetched was given since. -/
def EventSince (s t : ReadingWorld) (e : Event ApiOp ApiOp.Ret) : Prop :=
  (∀ attempt, e.1 ≠ .core (.receive attempt)) ∧
    ∀ path resp, e = ⟨.fetch path, .response resp⟩ → AnsweredSince s t path resp

/-- What a handler has done since: it has read its tables since. -/
def ReadSince (dep : Deployment) (s t : ReadingWorld) (e : Event AccountApiOp AccountApiOp.Ret) :
    Prop :=
  (∀ accountId txs, e = ⟨.listTransactions accountId, txs⟩ → ∃ u, Passes (step dep) s u t ∧
      txs = u.world.shared.account.listTransactions accountId) ∧
    ∀ accountId total, e = ⟨.balance accountId, total⟩ → ∃ u, Passes (step dep) s u t ∧
      total = u.world.shared.account.balance accountId

/-- A read that has arrived since. -/
structure ReaderSince (dep : Deployment) (s t : ReadingWorld) (r : Reader) : Prop where
  ran : Steps (r.thread.request.handle dep.maxRetries) r.thread.events r.thread.rest
  events : ∀ e ∈ r.thread.events, EventSince s t e
  waiting : ∀ n, r.waiting = some n → s.fetches.length ≤ n ∧
    ∃ path k, r.thread.rest = .act (.fetch path) k ∧ t.fetches[n]? = some path

/-- A handler of a message sent since. -/
inductive HandlerSince (dep : Deployment) (s t : ReadingWorld) (path : String) :
    ReadHandler → Prop
  | running (th : AccountThread) (hendpoint : (readRoute path).endpoint = some th.request)
    (hran : th.Ran accountService) (hevents : ∀ e ∈ th.events, ReadSince dep s t e) :
    HandlerSince dep s t path (.running th)
  | elsewhere (resp : HttpResponse) (hnone : (readRoute path).endpoint = none) :
    HandlerSince dep s t path (.other resp)
  | crashed (resp : HttpResponse) (h500 : resp.status = 500) :
    HandlerSince dep s t path (.other resp)

/-- **The invariant.**  What has arrived or been sent since a state has only seen what came after
it. -/
structure Since (dep : Deployment) (s t : ReadingWorld) : Prop where
  readers : s.readers.length ≤ t.readers.length
  fetches : s.fetches.length ≤ t.fetches.length
  reader : ∀ j r, s.readers.length ≤ j → t.readers[j]? = some r → ReaderSince dep s t r
  handler : ∀ n h, s.fetches.length ≤ n → t.handlers n = some h →
    ∃ path, t.fetches[n]? = some path ∧ HandlerSince dep s t path h

/-- Only messages that were sent are handled. -/
def Sound (w : ReadingWorld) : Prop := ∀ n h, w.handlers n = some h → n < w.fetches.length

/-- What was sent and answered stays. -/
structure Grown (t t' : ReadingWorld) : Prop where
  fetches : t.fetches <+: t'.fetches
  answered : ∀ n resp, (t.handlers n).bind ReadHandler.response = some resp →
    (t'.handlers n).bind ReadHandler.response = some resp

theorem Grown.getElem {n : ℕ} {path : String} (h : Grown t t') (hn : t.fetches[n]? = some path) :
    t'.fetches[n]? = some path := by
  obtain ⟨rest, hrest⟩ := h.fetches
  rw [← hrest, List.getElem?_append_left (List.getElem?_eq_some_iff.mp hn).1]
  exact hn

theorem step_grown {l : ReadingLabel} (hstep : step dep t l = some t') : Grown t t' := by
  have hsame : ∀ n h, t.handlers n = h → h.bind ReadHandler.response = none →
      ∀ h' m resp, (t.handlers m).bind ReadHandler.response = some resp →
        (Function.update t.handlers n h' m).bind ReadHandler.response = some resp := by
    intro n h hn hnone h' m resp hresp
    have hne : m ≠ n := by
      rintro rfl
      rw [hn, hnone] at hresp
      cases hresp
    rw [Function.update_of_ne hne]
    exact hresp
  cases step_cases hstep with
  | sent hreader => exact ⟨List.prefix_append _ _, fun _ _ h => h⟩
  | deliver hfresh hsent => exact ⟨List.prefix_rfl, hsame _ _ hfresh rfl _⟩
  | handler hhandler hexec => exact ⟨List.prefix_rfl, hsame _ _ hhandler rfl _⟩
  | crash hhandler => exact ⟨List.prefix_rfl, hsame _ _ hhandler rfl _⟩
  | _ => exact ⟨List.prefix_rfl, fun _ _ h => h⟩

theorem EventSince.grown {e : Event ApiOp ApiOp.Ret} (h : EventSince s t e) (hgrown : Grown t t') :
    EventSince s t' e := by
  refine ⟨h.1, fun path resp he => ?_⟩
  obtain ⟨n, hn, hsent, hanswered⟩ := h.2 path resp he
  exact ⟨n, hn, hgrown.getElem hsent, hgrown.answered n resp hanswered⟩

theorem ReaderSince.grown {r : Reader} (h : ReaderSince dep s t r) (hgrown : Grown t t') :
    ReaderSince dep s t' r where
  ran := h.ran
  events e he := (h.events e he).grown hgrown
  waiting n hn := by
    obtain ⟨hlength, path, k, hrest, hsent⟩ := h.waiting n hn
    exact ⟨hlength, path, k, hrest, hgrown.getElem hsent⟩

theorem ReadSince.step {e : Event AccountApiOp AccountApiOp.Ret} {l : ReadingLabel}
    (h : ReadSince dep s t e) (hstep : step dep t l = some t') : ReadSince dep s t' e := by
  refine ⟨fun accountId txs he => ?_, fun accountId total he => ?_⟩
  · obtain ⟨u, hpasses, htxs⟩ := h.1 accountId txs he
    exact ⟨u, hpasses.snoc hstep, htxs⟩
  · obtain ⟨u, hpasses, htotal⟩ := h.2 accountId total he
    exact ⟨u, hpasses.snoc hstep, htotal⟩

theorem HandlerSince.step {h : ReadHandler} {path : String} {l : ReadingLabel}
    (hsince : HandlerSince dep s t path h) (hstep : step dep t l = some t') :
    HandlerSince dep s t' path h := by
  cases hsince with
  | running th hendpoint hran hevents =>
    exact .running th hendpoint hran fun e he => (hevents e he).step hstep
  | elsewhere resp hnone => exact .elsewhere resp hnone
  | crashed resp h500 => exact .crashed resp h500

/-- Nothing has happened yet. -/
theorem Sound.since (h : Sound s) : Since dep s s where
  readers := le_rfl
  fetches := le_rfl
  reader _ _ hj hr := absurd hj (not_le.mpr (List.getElem?_eq_some_iff.mp hr).1)
  handler n handler hn hhandler := absurd hn (not_le.mpr (h n handler hhandler))

/-- The responses an operation of a read fetches: none. -/
theorem eventSince_of_readerExec {c : Choice} {shared shared' : Shared} {o : ApiOp} {r : o.Ret}
    (h : readerExec dep c shared o = some (shared', r)) : EventSince s t ⟨o, r⟩ := by
  constructor
  · rintro attempt rfl
    cases h
  · intro path resp he
    cases he
    cases h

theorem readSince_of_readExec {env : Surroundings} {o : AccountApiOp} {r : o.Ret}
    (hpasses : Passes (step dep) s t t')
    (h : readExec env t.world.shared.account o = some r) : ReadSince dep s t' ⟨o, r⟩ := by
  constructor
  · intro accountId txs he
    cases he
    cases h
    exact ⟨t, hpasses, rfl⟩
  · intro accountId total he
    cases he
    cases h
    exact ⟨t, hpasses, rfl⟩

/-- What has arrived or been sent since stays so in a step that replaces one read. -/
theorem Since.setReader (h : Since dep s t) (hgrown : Grown t t') {j : ℕ} {r r' : Reader}
    (hhandlers : t'.handlers = t.handlers) (hreaders : t'.readers = t.readers.set j r')
    (hr : t.readers[j]? = some r)
    (hnew : ReaderSince dep s t r → ReaderSince dep s t' r') {l : ReadingLabel}
    (hstep : step dep t l = some t') : Since dep s t' where
  readers := by
    rw [hreaders, List.length_set]
    exact h.readers
  fetches := h.fetches.trans hgrown.fetches.length_le
  reader i q hi hq := by
    rw [hreaders] at hq
    by_cases hij : j = i
    · subst hij
      rw [List.getElem?_set_self (List.getElem?_eq_some_iff.mp hr).1] at hq
      cases hq
      exact hnew (h.reader j r hi hr)
    · rw [List.getElem?_set_ne hij] at hq
      exact (h.reader i q hi hq).grown hgrown
  handler n handler hn hhandler := by
    rw [hhandlers] at hhandler
    obtain ⟨path, hsent, hsince⟩ := h.handler n handler hn hhandler
    exact ⟨path, hgrown.getElem hsent, hsince.step hstep⟩

/-- The same for a step that replaces one handler. -/
theorem Since.setHandler (h : Since dep s t) (hgrown : Grown t t') {m : ℕ} {new : ReadHandler}
    (hreaders : t'.readers = t.readers)
    (hhandlers : t'.handlers = Function.update t.handlers m (some new))
    (hnew : s.fetches.length ≤ m → ∃ path, t'.fetches[m]? = some path ∧
      HandlerSince dep s t' path new) {l : ReadingLabel}
    (hstep : step dep t l = some t') : Since dep s t' where
  readers := by
    rw [hreaders]
    exact h.readers
  fetches := h.fetches.trans hgrown.fetches.length_le
  reader i q hi hq := by
    rw [hreaders] at hq
    exact (h.reader i q hi hq).grown hgrown
  handler n handler hn hhandler := by
    rw [hhandlers] at hhandler
    rcases eq_some_of_update hhandler with ⟨rfl, rfl⟩ | hhandler
    · exact hnew hn
    · obtain ⟨path, hsent, hsince⟩ := h.handler n handler hn hhandler
      exact ⟨path, hgrown.getElem hsent, hsince.step hstep⟩

/-- **One step.**  What a read fetches was answered since, what a handler reads is what there is
now. -/
theorem Since.step (h : Since dep s t) (hleads : Leads (ReadingWorld.step dep) s t)
    {l : ReadingLabel} (hstep : ReadingWorld.step dep t l = some t') : Since dep s t' := by
  have hgrown := step_grown hstep
  have hhandlers : t'.handlers = t.handlers → ∀ n handler, s.fetches.length ≤ n →
      t'.handlers n = some handler →
      ∃ path, t'.fetches[n]? = some path ∧ HandlerSince dep s t' path handler := by
    intro hsame n handler hn hhandler
    rw [hsame] at hhandler
    obtain ⟨path, hsent, hsince⟩ := h.handler n handler hn hhandler
    exact ⟨path, hgrown.getElem hsent, hsince.step hstep⟩
  cases step_cases hstep with
  | world hworld =>
    exact ⟨h.readers, h.fetches, fun j r hj hr => (h.reader j r hj hr).grown hgrown,
      hhandlers rfl⟩
  | read request =>
    refine ⟨?_, h.fetches, fun j r hj hr => ?_, hhandlers rfl⟩
    · rw [List.length_append]
      exact h.readers.trans (Nat.le_add_right _ _)
    · by_cases hold : j < t.readers.length
      · rw [List.getElem?_append_left hold] at hr
        exact (h.reader j r hj hr).grown hgrown
      · rw [List.getElem?_append_right (not_lt.mp hold)] at hr
        rw [List.mem_singleton.mp (List.mem_of_getElem? hr)]
        exact ⟨.refl _, fun e he => absurd he List.not_mem_nil, fun n hn => by cases hn⟩
  | operation hreader hexec =>
    refine h.setReader hgrown rfl rfl hreader (fun hold => ?_) hstep
    refine ⟨hold.ran.snoc _, fun e he => ?_, fun n hn => ?_⟩
    · rcases List.mem_append.mp he with he | he
      · exact (hold.events e he).grown hgrown
      · rw [List.mem_singleton.mp he]
        exact eventSince_of_readerExec hexec
    · -- a read that waits is at its fetch
      obtain ⟨-, path, k', hrest, -⟩ := hold.waiting n hn
      cases hrest
      cases hexec
  | sent hreader =>
    rename_i path k
    refine h.setReader hgrown rfl rfl hreader (fun hold => ?_) hstep
    refine ⟨hold.ran, fun e he => (hold.events e he).grown hgrown, fun n hn => ?_⟩
    cases hn
    exact ⟨h.fetches, path, k, rfl, List.getElem?_concat_length⟩
  | fetched hreader hfrom =>
    rename_i outcome
    refine h.setReader hgrown rfl rfl hreader (fun hold => ?_) hstep
    refine ⟨hold.ran.snoc outcome, fun e he => ?_, fun n hn => by cases hn⟩
    rcases List.mem_append.mp he with he | he
    · exact (hold.events e he).grown hgrown
    · rw [List.mem_singleton.mp he]
      refine ⟨fun attempt hattempt => (by cases hattempt), fun path' resp he' => ?_⟩
      cases he'
      obtain ⟨n, hwaiting, hanswered⟩ := hfrom resp rfl
      obtain ⟨hlength, path'', k', hrest, hsent⟩ := hold.waiting n hwaiting
      cases hrest
      exact ⟨n, hlength, hsent, hanswered⟩
  | deliver hfresh hsent =>
    rename_i n other path
    refine h.setHandler hgrown rfl rfl (fun hn => ⟨path, hsent, ?_⟩) hstep
    rw [receiveRead]
    cases hendpoint : (readRoute path).endpoint with
    | some req =>
      exact .running _ hendpoint (.refl _) fun e he => absurd he List.not_mem_nil
    | none => exact .elsewhere other hendpoint
  | handler hhandler hexec =>
    rename_i n env req es o k r
    refine h.setHandler hgrown rfl rfl (fun hn => ?_) hstep
    obtain ⟨path, hsent, hsince⟩ := h.handler n _ hn hhandler
    refine ⟨path, hsent, ?_⟩
    cases hsince with
    | running th hendpoint hran hevents =>
      refine .running _ hendpoint (hran.snoc r) fun e he => ?_
      rcases List.mem_append.mp he with he | he
      · exact (hevents e he).step hstep
      · rw [List.mem_singleton.mp he]
        exact readSince_of_readExec (hleads.passes.snoc hstep) hexec
  | crash hhandler =>
    rename_i n env req es o k
    refine h.setHandler hgrown rfl rfl (fun hn => ?_) hstep
    obtain ⟨path, hsent, -⟩ := h.handler n _ hn hhandler
    exact ⟨path, hsent, .crashed _ rfl⟩

theorem run_since {ls : List ReadingLabel} (hs : Sound s) (h : Run (step dep) s ls t) :
    Since dep s t :=
  h.preserves_since (I := Since dep s) (fun _ _ _ hleads hu hstep => hu.step hleads hstep) hs.since

/-- **Soundness.** -/
theorem step_sound {l : ReadingLabel} (h : Sound t) (hstep : step dep t l = some t') :
    Sound t' := by
  have hlength := (step_grown hstep).fetches.length_le
  cases step_cases hstep with
  | deliver hfresh hsent =>
    intro n handler hhandler
    rcases eq_some_of_update hhandler with ⟨rfl, -⟩ | hhandler
    · exact (List.getElem?_eq_some_iff.mp hsent).1
    · exact h n handler hhandler
  | handler hold hexec =>
    intro n handler hhandler
    rcases eq_some_of_update hhandler with ⟨rfl, -⟩ | hhandler
    · exact h _ _ hold
    · exact h n handler hhandler
  | crash hold =>
    intro n handler hhandler
    rcases eq_some_of_update hhandler with ⟨rfl, -⟩ | hhandler
    · exact h _ _ hold
    · exact h n handler hhandler
  | _ => exact fun n handler hhandler => lt_of_lt_of_le (h n handler hhandler) hlength

theorem run_sound {ls : List ReadingLabel} (h : Run (step dep) initial ls t) : Sound t :=
  h.preserves (fun _ _ _ hu hstep => step_sound hu hstep) fun _ _ hhandler => by cases hhandler

/-! ## Answers -/

/-- The `j`-th read is this one, and it has been answered so. -/
def ReadAnswered (t : ReadingWorld) (j : ℕ) (req : AccountRead) (answer : HttpResponse) : Prop :=
  ∃ r, t.readers[j]? = some r ∧ r.thread.request = req ∧ r.thread.Answered answer

/-- The JSON a read is answered with, from a listing and a balance. -/
def readBody (req : AccountRead) (txs : List StoredTransaction) (total : DecimalFloat.Decimal) :
    Json :=
  match req with
  | .balance accountId => (balanceResponse accountId txs total).toJson
  | .account accountId => (accountDetail accountId txs total).toJson

theorem endpoint_of_routable {req : AccountRead} (h : Routable balanceRoom req.accountId) :
    (readRoute req.path).endpoint = some req.endpoint := by
  cases req with
  | balance accountId =>
    have hroute : readRoute (balancePath accountId) = .balance accountId :=
      readRoute_balance_self_iff.mpr h
    rw [AccountRead.path, hroute]
    rfl
  | account accountId =>
    have hroute : readRoute (accountPath accountId) = .account accountId :=
      readRoute_account_self_iff.mpr (h.mono (by decide))
    rw [AccountRead.path, hroute]
    rfl

/-- A success of the endpoint of a read was made of a listing and a balance. -/
theorem readBody_of_trace {req : AccountRead} {es : List (Event AccountApiOp AccountApiOp.Ret)}
    {reply : AccountReply} {resp : HttpResponse} {value : Json}
    (h : (handleAccount req.endpoint).Trace es reply) (hresp : reply.readResponse = some resp)
    (hstatus : resp.status < 400) (hbody : resp.body = .json value) :
    ∃ txs total, value = readBody req txs total ∧
      es = [⟨.listTransactions req.accountId, txs⟩, ⟨.balance req.accountId, some total⟩] := by
  have hreply : (∃ response, reply = .balance response) ∨
      ∃ response, reply = .account response := by
    cases reply with
    | balance response => exact Or.inl ⟨response, rfl⟩
    | account response => exact Or.inr ⟨response, rfl⟩
    | internalError traceId =>
      cases hresp
      exact absurd (show 500 < 400 from hstatus) (by decide)
    | _ => cases hresp
  obtain ⟨accountId, txs, total, hread, hevents⟩ := read_trace h hreply
  cases req with
  | balance accountId' =>
    rcases hread with ⟨hreq, rfl⟩ | ⟨hreq, -⟩
    · cases hreq
      cases hresp
      cases hbody
      exact ⟨txs, total, rfl, hevents⟩
    · cases hreq
  | account accountId' =>
    rcases hread with ⟨hreq, -⟩ | ⟨hreq, rfl⟩
    · cases hreq
    · cases hreq
      cases hresp
      cases hbody
      exact ⟨txs, total, rfl, hevents⟩

/-- A success that was given since comes from a listing and a balance read since. -/
theorem HandlerSince.shows {req : AccountRead} {handler : ReadHandler} {resp : HttpResponse}
    {value : Json} (h : HandlerSince dep s t req.path handler)
    (hroutable : Routable balanceRoom req.accountId)
    (hresp : handler.response = some resp) (hstatus : resp.status < 400)
    (hbody : resp.body = .json value) :
    ∃ u v total, Passes (ReadingWorld.step dep) s u t ∧
      Passes (ReadingWorld.step dep) s v t ∧
      v.world.shared.account.balance req.accountId = some total ∧
      value = readBody req (u.world.shared.account.listTransactions req.accountId) total := by
  have hendpoint := endpoint_of_routable hroutable
  cases h with
  | running th hrouted hran hevents =>
    obtain ⟨request, es, rest⟩ := th
    cases rest with
    | act o k => cases hresp
    | done reply =>
      cases hendpoint.symm.trans hrouted
      obtain ⟨txs, total, hvalue, rfl⟩ := readBody_of_trace hran hresp hstatus hbody
      obtain ⟨u, hu, htxs⟩ := (hevents _ List.mem_cons_self).1 req.accountId txs rfl
      obtain ⟨v, hv, htotal⟩ :=
        (hevents _ (List.mem_cons_of_mem _ List.mem_cons_self)).2 req.accountId (some total) rfl
      exact ⟨u, v, total, hu, hv, htotal.symm, htxs ▸ hvalue⟩
  | elsewhere resp hnone =>
    rw [hendpoint] at hnone
    cases hnone
  | crashed resp h500 =>
    cases hresp
    omega

/-- **An answered read.**  It shows a listing and a balance of its account that were read while it
was in progress. -/
theorem answered_since {ls : List ReadingLabel} (hs : Sound s) (hrun : Run (step dep) s ls t)
    {j : ℕ} {req : AccountRead} {answer : HttpResponse} (hj : s.readers.length ≤ j)
    (hroutable : Routable balanceRoom req.accountId)
    (hanswered : ReadAnswered t j req answer) (h200 : answer.status = 200) :
    ∃ u v total, Passes (step dep) s u t ∧ Passes (step dep) s v t ∧
      v.world.shared.account.balance req.accountId = some total ∧
      answer = ⟨200, .json (readBody req
        (u.world.shared.account.listTransactions req.accountId) total)⟩ := by
  have hsince := run_since hs hrun
  obtain ⟨r, hr, rfl, hdone⟩ := hanswered
  have hreader := hsince.reader j r hj hr
  have hran := hreader.ran
  have htrace : (r.thread.request.handle dep.maxRetries).Trace r.thread.events answer := by
    rwa [hdone] at hran
  obtain ⟨resp, value, houtcome, hstatus, hbody, rfl⟩ :=
    ensures_iff.mp (handle_shows r.thread.request) _ _ htrace h200
  obtain ⟨path, hfetch⟩ := fetched_of_outcome (fun e he => (hreader.events e he).1) houtcome
  have hpath : path = r.thread.request.path :=
    ((handle_fetchesFrom r.thread.request).keeps _ _ hran).1 _ hfetch path rfl
  subst hpath
  obtain ⟨n, hn, hsent, hgiven⟩ := (hreader.events _ hfetch).2 _ resp rfl
  obtain ⟨handler, hhandler, hresp⟩ := Option.bind_eq_some_iff.mp hgiven
  obtain ⟨path', hsent', hhandled⟩ := hsince.handler n handler hn hhandler
  cases hsent.symm.trans hsent'
  obtain ⟨u, v, total, hu, hv, htotal, rfl⟩ := hhandled.shows hroutable hresp hstatus hbody
  exact ⟨u, v, total, hu, hv, htotal, rfl⟩

/-! ## What was recorded before -/

/-- A listing only grows. -/
theorem listTransactions_subperm {w w' : World} (h : Evolves w.ledger w'.ledger)
    (accountId : String) :
    (w.shared.account.listTransactions accountId).Subperm
      (w'.shared.account.listTransactions accountId) := by
  have hnodup : (w.shared.account.listTransactions accountId).Nodup := by
    rw [(listTransactions_perm _ _).nodup_iff]
    exact (List.Nodup.of_map _ w.shared.account.transactions.nodup).filter _
  refine List.subperm_of_subset hnodup fun tx htx => ?_
  obtain ⟨hrows, haccount⟩ := mem_listTransactions.mp htx
  exact mem_listTransactions.mpr ⟨h.transactions.mem hrows, haccount⟩

/-- Whatever has been recorded with a success is an event of its own account, which requests reach,
and is in the account's listing. -/
theorem World.Ok.counted {w : World} (h : w.Ok dep) (hone : w.OneContent)
    (hplain : w.PlainAccounts) {i : ℕ} {body : EventRequest} {answer : Answer}
    (hbody : w.shared.bodies i = some body) (hanswered : w.Answered i answer)
    (hsuccess : answer.status < 400) :
    Routable transactionsRoom body.accountId ∧
      ∃ row tx, w.shared.gateway.getEvent body.eventId = some row ∧
        tx ∈ w.shared.account.listTransactions body.accountId ∧ tx.fields = row.fields := by
  obtain ⟨⟨row, hrow⟩, -⟩ := h.rows_of_success hanswered hbody hsuccess
  have hmem := Table.mem_of_get hrow
  have hid : row.eventId = body.eventId := Table.key_of_get hrow
  obtain ⟨tx, htx, hfields⟩ := h.fields_of_event hplain hone row hmem
  have hsame : ∀ sent ∈ w.shared.attempts, ∀ body', w.shared.bodies sent.submission = some body' →
      body'.eventId = body.eventId → body'.accountId = body.accountId :=
    fun sent _ body' hbody' hid' => (hone _ _ body' body hbody' hbody hid').1
  have hroutable : Routable transactionsRoom body.accountId := by
    obtain ⟨sent, hsent, hstores⟩ := h.consistent.transaction_origin tx htx
    obtain ⟨body', hbody', hforwards⟩ := h.consistent.attempt_origin sent hsent
    have haccount : body'.accountId = body.accountId := by
      refine hsame sent hsent body' hbody' ?_
      rw [← hforwards.eventId, ← hstores.eventId, ← hid]
      exact congrArg LedgerFields.eventId hfields
    obtain ⟨-, -, hto, -⟩ := hforwards
    obtain ⟨routed, -, -, hroute, -⟩ := hstores
    rw [hto, haccount] at hroute
    refine accountRoute_self_iff.mp ?_
    rwa [routed_of_plain (hplain i body hbody) hroute] at hroute
  have haccount : row.accountId = body.accountId := by
    obtain ⟨sent, body', -, hbody', -, hrecords⟩ := h.consistent.event_origin row hmem
    have hto := (hone _ _ body' body hbody' hbody (hrecords.eventId.symm.trans hid)).1
    obtain ⟨amount, now, -, rfl⟩ := hrecords
    exact hto
  refine ⟨hroutable, row, tx, hrow, mem_listTransactions.mpr ⟨htx, ?_⟩, hfields⟩
  rw [← haccount]
  exact congrArg LedgerFields.accountId hfields

/-- **Read your writes.**  Once a submission has been answered with a success, every read of its
account through the Gateway that begins later and succeeds shows a listing and a balance that the
Account Service has read since, and in every state since the transaction of the recorded event is
listed, and so counted. -/
theorem reads_own_writes (dep : Deployment) (s t : ReadingWorld) (ls ls' : List ReadingLabel)
    (hs : Run (step dep) initial ls s) (ht : Run (step dep) s ls' t)
    (hone : s.world.OneContent) (hplain : s.world.PlainAccounts)
    (i : ℕ) (body : EventRequest) (answer : Answer) (hbody : s.world.shared.bodies i = some body)
    (hanswered : s.world.Answered i answer) (hsuccess : answer.status < 400)
    (j : ℕ) (req : AccountRead) (reply : HttpResponse) (hlater : s.readers.length ≤ j)
    (hreq : req.accountId = body.accountId) (hreply : ReadAnswered t j req reply)
    (h200 : reply.status = 200) :
    (∃ u v total, Passes (step dep) s u t ∧ Passes (step dep) s v t ∧
      v.world.shared.account.balance body.accountId = some total ∧
      reply = ⟨200, .json (readBody req
        (u.world.shared.account.listTransactions body.accountId) total)⟩) ∧
    ∃ row tx, s.world.shared.gateway.getEvent body.eventId = some row ∧ tx.fields = row.fields ∧
      ∀ u, Passes (step dep) s u t →
        tx ∈ u.world.shared.account.listTransactions body.accountId := by
  have hok := (run_ok World.initial_ok hs).1
  obtain ⟨hroutable, row, tx, hrow, htx, hfields⟩ :=
    World.Ok.counted hok hone hplain hbody hanswered hsuccess
  constructor
  · rw [← hreq] at hroutable ⊢
    exact answered_since (run_sound hs) ht hlater (hroutable.mono (by decide)) hreply h200
  · refine ⟨row, tx, hrow, hfields, ?_⟩
    rintro u ⟨⟨ls₁, hu⟩, -⟩
    exact (listTransactions_subperm (run_ok hok hu).2 body.accountId).subset htx

/-- **Monotonic reads.**  Both reads show listings and balances that the Account Service had in
states of the run, the later one in states after the answer to the earlier one; and what the earlier
read has listed is in the listing the later one shows, and in the one its balance is the sum of. -/
theorem reads_monotonic (dep : Deployment) (s t : ReadingWorld) (ls ls' : List ReadingLabel)
    (hs : Run (step dep) initial ls s) (ht : Run (step dep) s ls' t)
    (i j : ℕ) (req req' : AccountRead) (reply reply' : HttpResponse)
    (hroutable : Routable balanceRoom req.accountId) (haccount : req'.accountId = req.accountId)
    (hreply : ReadAnswered s i req reply) (h200 : reply.status = 200)
    (hlater : s.readers.length ≤ j) (hreply' : ReadAnswered t j req' reply')
    (h200' : reply'.status = 200) :
    ∃ u v u' v' total total', Passes (step dep) initial u s ∧ Passes (step dep) initial v s ∧
      Passes (step dep) s u' t ∧ Passes (step dep) s v' t ∧
      v.world.shared.account.balance req.accountId = some total ∧
      v'.world.shared.account.balance req.accountId = some total' ∧
      reply = ⟨200, .json (readBody req
        (u.world.shared.account.listTransactions req.accountId) total)⟩ ∧
      reply' = ⟨200, .json (readBody req'
        (u'.world.shared.account.listTransactions req.accountId) total')⟩ ∧
      (u.world.shared.account.listTransactions req.accountId).Subperm
        (u'.world.shared.account.listTransactions req.accountId) ∧
      (u.world.shared.account.listTransactions req.accountId).Subperm
        (v'.world.shared.account.listTransactions req.accountId) := by
  have hsound : Sound initial := fun _ _ h => by cases h
  obtain ⟨u, v, total, hpasses, hv, htotal, hshown⟩ :=
    answered_since hsound hs (Nat.zero_le i) hroutable hreply h200
  obtain ⟨⟨ls₀, hu⟩, ls₁, hus⟩ := hpasses
  obtain ⟨u', v', total', hu', hv', htotal', hshown'⟩ :=
    answered_since (run_sound hs) ht hlater (haccount ▸ hroutable) hreply' h200'
  -- what the earlier read has listed is there in `s`, and so in every state that comes after
  have hgrows : ∀ w, Passes (step dep) s w t →
      (u.world.shared.account.listTransactions req.accountId).Subperm
        (w.world.shared.account.listTransactions req.accountId) := by
    rintro w ⟨⟨ls, hw⟩, -⟩
    have hok := (run_ok (w := initial) World.initial_ok hu).1
    exact listTransactions_subperm (run_ok hok (hus.append hw)).2 req.accountId
  rw [haccount] at htotal' hshown'
  exact ⟨u, v, u', v', total, total', ⟨⟨ls₀, hu⟩, ls₁, hus⟩, hv, hu', hv', htotal, htotal', hshown,
    hshown', hgrows u' hu', hgrows v' hv'⟩

/-! ## A run -/

/-- The `j`-th read fetches message `n`, which is handled and answered. -/
def readingRun (j n : ℕ) (req : AccountRead) : List ReadingLabel :=
  .read req :: List.replicate 4 (.reader j calm) ++ .deliver n ⟨404, .text ""⟩ ::
    List.replicate 2 (.handler n calm.surroundings) ++ List.replicate 2 (.reader j calm)

/-- The `j`-th read and the status it has been answered with. -/
def readStatus (w : ReadingWorld) (j : ℕ) : Option (AccountRead × ℕ) :=
  match w.readers[j]? with
  | some ⟨⟨req, _, .done answer⟩, _⟩ => some (req, answer.status)
  | _ => none

theorem readAnswered_of_status {w : ReadingWorld} {j status : ℕ} {req : AccountRead}
    (h : w.readStatus j = some (req, status)) :
    ∃ answer, ReadAnswered w j req answer ∧ answer.status = status := by
  unfold readStatus at h
  split at h
  · rename_i req' es answer waiting hreader
    cases h
    exact ⟨answer, ⟨_, hreader, rfl, rfl⟩, rfl⟩
  · cases h

/-- A submission, and two reads after it. -/
def recordedRun : List ReadingLabel := (recordingRun 0 0 World.firstVersion).map .world

theorem run_world {ls : List Label} {w w' : ReadingWorld}
    (h : Run (step dep) w (ls.map .world) w') : Run (World.step dep) w.world ls w'.world := by
  induction ls generalizing w with
  | nil =>
    rw [List.map_nil, run_nil] at h
    rw [h]
    exact run_nil.mpr rfl
  | cons l ls ih =>
    obtain ⟨u, hstep, hrest⟩ := run_cons.mp h
    obtain ⟨world, hworld, rfl⟩ := Option.map_eq_some_iff.mp hstep
    exact run_cons.mpr ⟨world, hworld, ih hrest⟩

theorem recorded_then_read : ∃ s t u, Run (step defaultDeployment) initial recordedRun s ∧
    Run (step defaultDeployment) s (readingRun 0 0 (.balance "acct123")) t ∧
    Run (step defaultDeployment) t (readingRun 1 1 (.account "acct123")) u ∧
    s.world.statusOf 0 = some 201 ∧ s.readers.length = 0 ∧
    t.readStatus 0 = some (.balance "acct123", 200) ∧ t.readers.length = 1 ∧
    u.readStatus 1 = some (.account "acct123", 200) := by
  have hsome : ((recordedRun.foldlM (step defaultDeployment) initial).bind fun s =>
      ((readingRun 0 0 (.balance "acct123")).foldlM (step defaultDeployment) s).bind fun t =>
        ((readingRun 1 1 (.account "acct123")).foldlM (step defaultDeployment) t).map fun u =>
          decide (s.world.statusOf 0 = some 201 ∧ s.readers.length = 0 ∧
            t.readStatus 0 = some (.balance "acct123", 200) ∧ t.readers.length = 1 ∧
            u.readStatus 1 = some (.account "acct123", 200))) = some true := by
    decide +kernel
  obtain ⟨s, hs, hrest⟩ := Option.bind_eq_some_iff.mp hsome
  obtain ⟨t, ht, hrest⟩ := Option.bind_eq_some_iff.mp hrest
  obtain ⟨u, hu, hfacts⟩ := Option.map_eq_some_iff.mp hrest
  exact ⟨s, t, u, hs, ht, hu, of_decide_eq_true hfacts⟩

theorem reads_own_writes_recorded : ∃ (t : ReadingWorld) (reply : HttpResponse) (total : _)
    (txs : List StoredTransaction), ReadAnswered t 0 (.balance "acct123") reply ∧
      reply = ⟨200, .json (readBody (.balance "acct123") txs total)⟩ ∧
      ∃ tx ∈ t.world.shared.account.listTransactions "acct123", tx.eventId = "evt-001" := by
  obtain ⟨s, t, -, hs, ht, -, hstatus, hnone, hread, -, -⟩ := recorded_then_read
  obtain ⟨answer, hanswered, h201⟩ := World.statusOf_eq_some.mp hstatus
  obtain ⟨reply, hreply, h200⟩ := readAnswered_of_status hread
  have hbodies := World.bodies_of_labels (P := fun i body => i = 0 ∧ body = World.firstVersion)
    (run_world hs) fun i body h => by simpa [recordingRun] using h
  obtain ⟨body, hbody, -⟩ := World.Ok.answer_true (run_ok (w := initial) World.initial_ok hs).1
    hanswered
  have hfirst := (hbodies 0 body hbody).2
  subst hfirst
  have hone : s.world.OneContent := by
    intro i j body body' hbody hbody' _
    rw [(hbodies i body hbody).2, (hbodies j body' hbody').2]
    exact ⟨rfl, rfl, rfl, rfl, rfl⟩
  have hplain : s.world.PlainAccounts := by
    intro i body hbody
    rw [(hbodies i body hbody).2]
    decide
  obtain ⟨⟨u, v, total, -, -, -, hshown⟩, row, tx, hrow, hfields, hlisted⟩ :=
    reads_own_writes defaultDeployment s t _ _ hs ht hone hplain 0 World.firstVersion answer hbody
      hanswered (by rw [h201]; decide) 0 (.balance "acct123") reply (by rw [hnone]) rfl hreply h200
  have hid : row.eventId = "evt-001" := Table.key_of_get hrow
  exact ⟨t, reply, total, _, hreply, hshown, tx, hlisted t ⟨⟨_, ht⟩, .refl t⟩,
    (congrArg LedgerFields.eventId hfields).trans hid⟩

theorem reads_monotonic_recorded : ∃ (reply reply' : HttpResponse) (total total' : _)
    (txs txs' : List StoredTransaction),
      reply = ⟨200, .json (readBody (.balance "acct123") txs total)⟩ ∧
      reply' = ⟨200, .json (readBody (.account "acct123") txs' total')⟩ ∧ txs.Subperm txs' := by
  obtain ⟨s, t, u, hs, ht, hu, -, -, hread, hone, hread'⟩ := recorded_then_read
  obtain ⟨reply, hreply, h200⟩ := readAnswered_of_status hread
  obtain ⟨reply', hreply', h200'⟩ := readAnswered_of_status hread'
  obtain ⟨x, y, x', y', total, total', -, -, -, -, -, -, hshown, hshown', hgrows, -⟩ :=
    reads_monotonic defaultDeployment t u _ _ (hs.append ht) hu 0 1 (.balance "acct123")
      (.account "acct123") reply reply' (by decide +kernel) rfl hreply h200 (by rw [hone]) hreply'
      h200'
  exact ⟨reply, reply', total, total', _, _, hshown, hshown', hgrows⟩

end ReadingWorld

end EventLedger
