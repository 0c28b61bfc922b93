import EventLedger.LedgerInvariant
import EventLedger.Linearization
import EventLedger.Metadata
import EventLedger.SharedConnection

/-!
# The Gateway is one register of events

To its clients the Gateway is a register: the first submission of an event that
succeeds fixes its row, and later submissions, lookups and listings show the rows
that are there.  The handlers of the Gateway do this in several operations each,
and write audit entries through the connection the events are in, some of which
fail.  In every interleaving all requests take effect as if one at a time, in an
order that no client can tell from the real one (`gateway_linearizable`).
-/
namespace EventLedger

open Program Prog Service LabelledRun KeyedTable TableEvent

/-! ## The register -/

/-- What a request comes to. -/
inductive EventResult where
  /-- A submission: the event on record, and whether it was there. -/
  | shown (event : StoredEvent) (duplicate : Bool)
  | found (event : Option StoredEvent)
  | listed (events : List StoredEvent)

/-- A table of events. -/
abbrev EventTable := Table StoredEvent.eventId

/-- One request at a time. -/
inductive RegisterMoves : EventTable → ApiRequest → EventResult → EventTable → Prop
  | created {t t' : EventTable} {body : EventRequest} {event : StoredEvent}
      (hrecords : body.Records event) (hinsert : t.insert event = some t') :
      RegisterMoves t (.submit body) (.shown event false) t'
  | duplicate {t : EventTable} {body : EventRequest} {event : StoredEvent}
      (hget : t.get body.eventId = some event) :
      RegisterMoves t (.submit body) (.shown event true) t
  | found (t : EventTable) (eventId : String) :
      RegisterMoves t (.getEvent eventId) (.found (t.get eventId)) t
  | listed (t : EventTable) (account : String) :
      RegisterMoves t (.listEvents account) (.listed (eventsSchema.listing t.rows account)) t

/-- The register of events. -/
def eventRegister : Object ApiRequest EventResult := ⟨EventTable, RegisterMoves⟩

theorem RegisterMoves.grows {t t' : EventTable} {req : ApiRequest} {result : EventResult}
    (h : RegisterMoves t req result t') : t.Grows t' := by
  cases h with
  | created hrecords hinsert => exact Table.grows_insert hinsert
  | duplicate hget => exact Table.Grows.refl t
  | found eventId => exact Table.Grows.refl t
  | listed account => exact Table.Grows.refl t

/-! ## What the clients are told -/

/-- The body of an answer that shows the event; `none` if it cannot be shown. -/
def foundBody (cfg : GatewaySettings) (event : StoredEvent) : Option Json :=
  (event.toResponse cfg.loads false).bind (·.serialized cfg.serializes)

/-- The body of an answer that lists the events; `none` if one of them cannot be listed. -/
def listedBody (cfg : GatewaySettings) (account : String) (events : List StoredEvent) :
    Option Json :=
  (events.mapM fun (e : StoredEvent) => (e.toResponse cfg.loads false).bind
    (·.modelDump cfg.serializes)).bind fun dumps => (Json.obj [("accountId", .str account),
      ("count", .number (toString events.length)), ("events", .arr dumps)]).rendered

/-- The answer to a lookup. -/
def ShowsFound (cfg : GatewaySettings) (eventId : String) (found : Option StoredEvent)
    (reply : HttpResponse) : Prop :=
  match found with
  | none => reply = ⟨404, .json (.obj [("error", .str "not_found"),
      ("message", .str ("No event '" ++ eventId ++ "'"))])⟩
  | some event => Rendered 200 (foundBody cfg event) reply

/-- The answer to a listing. -/
def ShowsListed (cfg : GatewaySettings) (account : String) (events : List StoredEvent)
    (reply : HttpResponse) : Prop :=
  Rendered 200 (listedBody cfg account events) reply

/-- The answer tells the result.  A submission that has none is refused; other requests have one
if they are about events. -/
def RegisterTells (cfg : GatewaySettings) (req : ApiRequest) (reply : HttpResponse)
    (result : Option EventResult) : Prop :=
  match req, result with
  | .submit _, some (.shown event duplicate) => reply.Shows cfg (some (event, duplicate))
  | .submit _, none => 400 ≤ reply.status
  | .getEvent eventId, some (.found found) => ShowsFound cfg eventId found reply
  | .listEvents account, some (.listed events) => ShowsListed cfg account events reply
  | .submit _, _ => False
  | .getEvent _, _ => False
  | .listEvents _, _ => False
  | _, result => result = none

/-! ## Where requests take effect -/

/-- The operation at which a request takes effect: the lookup or the insert that comes upon the
row, or the one read. -/
def registerPoint : ApiRequest → Event ApiOp ApiOp.Ret → Option EventResult
  | .submit _, e =>
    ((gatewayTableEvent e).bind shown?).map fun (event, duplicate) => .shown event duplicate
  | .getEvent _, ⟨.core (.getEvent _), found⟩ => some (.found found)
  | .listEvents _, ⟨.listEvents _, events⟩ => some (.listed events)
  | _, _ => none

/-- The operations of `submit_event` on the events are on its own event. -/
def OnOwn (body : EventRequest) : GatewayOp → Prop
  | .getEvent eventId => eventId = body.eventId
  | .insertEvent event => body.Records event
  | _ => True

/-- The operations a request may need. -/
def RegisterPerforms : ApiRequest → ApiOp → Prop
  | .submit body, .core op => OnOwn body op
  | .submit _, _ => True
  | .getEvent eventId, o => o = .core (.getEvent eventId) ∨ o = .core .traceId
  | .listEvents account, o => o = .listEvents account ∨ o = .core .traceId
  | _, o => o.InsertsNothing

section
variable {loads : String → Option Json} {body : EventRequest} {maxRetries : ℕ}

theorem GatewayOp.OfCall.onOwn {op : GatewayOp} (h : op.OfCall) : OnOwn body op := by
  cases op with
  | getEvent eventId => exact absurd h id
  | insertEvent event => exact absurd h id
  | _ => trivial

theorem respond_onOwn (status : ℕ) (event : StoredEvent) (duplicate : Bool) :
    (respond loads status event duplicate).All (OnOwn body) := by
  unfold respond
  split
  · trivial
  · exact ⟨trivial, fun _ => trivial⟩

theorem persistEvent_onOwn {amount : String} (hamount : amountStr body.amount = some amount) :
    (persistEvent loads body amount).All (OnOwn body) := by
  refine ⟨trivial, fun now => ⟨⟨amount, now, hamount, rfl⟩, fun created => ?_⟩⟩
  cases created with
  | true => exact ⟨trivial, fun _ => respond_onOwn 201 _ false⟩
  | false =>
    refine ⟨rfl, fun existing => ?_⟩
    cases existing with
    | some existing => exact respond_onOwn 200 existing true
    | none => exact ⟨trivial, fun _ => trivial⟩

theorem submitEvent_onOwn : (submitEvent loads maxRetries body).All (OnOwn body) := by
  simp only [submitEvent, GatewayProg.getEvent, perform_bind]
  refine ⟨rfl, fun existing => ?_⟩
  cases existing with
  | some existing => exact ⟨trivial, fun _ => respond_onOwn 200 existing true⟩
  | none =>
    dsimp only
    cases hamount : amountStr body.amount with
    | none => exact ⟨trivial, fun _ => trivial⟩
    | some amount =>
      have hcall : (clientApplyTransaction maxRetries body.accountId (body.payload amount)).All
          (OnOwn body) := (clientApplyTransaction_all _ _).mono fun _ => GatewayOp.OfCall.onOwn
      refine All.bind hcall fun result => ?_
      cases result with
      | unavailable => exact ⟨trivial, fun _ => ⟨trivial, fun _ => trivial⟩⟩
      | clientError resp =>
        refine ⟨trivial, fun _ => ?_⟩
        cases resp.safeJson with
        | some detail => trivial
        | none => exact ⟨trivial, fun _ => trivial⟩
      | raised => exact ⟨trivial, fun _ => trivial⟩
      | response resp => exact persistEvent_onOwn hamount

end

variable {cfg : GatewaySettings}

theorem performs_traceId (req : ApiRequest) : RegisterPerforms req (.core .traceId) := by
  cases req with
  | getEvent eventId => exact Or.inr rfl
  | listEvents account => exact Or.inr rfl
  | _ => trivial

theorem render_performs (req : ApiRequest) (status : ℕ) (body : Option Json) :
    (ApiProg.render status body).All (RegisterPerforms req) := by
  cases body with
  | some value => trivial
  | none => exact ⟨performs_traceId req, fun _ => trivial⟩

/-- `get_event` renders the body of the event that is found. -/
theorem getEventHandler_eq (eventId : String) :
    getEventHandler cfg eventId = .act (.core (.getEvent eventId)) fun found : Option StoredEvent =>
      match found with
      | none => .done ⟨404, .json (.obj [("error", .str "not_found"),
          ("message", .str ("No event '" ++ eventId ++ "'"))])⟩
      | some event => ApiProg.render 200 (foundBody cfg event) := by
  unfold getEventHandler ApiProg.core
  rw [perform_bind]
  refine congrArg (Prog.act _) (funext fun found => ?_)
  cases found with
  | none => rfl
  | some event =>
    dsimp only [foundBody]
    cases event.toResponse cfg.loads false with
    | some response => rfl
    | none => rfl

/-- `list_events` renders the body of the events that are listed. -/
theorem listEventsHandler_eq (account : String) :
    listEventsHandler cfg account = .act (.listEvents account) fun events : List StoredEvent =>
      ApiProg.render 200 (listedBody cfg account events) := by
  unfold listEventsHandler ApiProg.listEvents
  rw [perform_bind]
  refine congrArg (Prog.act _) (funext fun events => ?_)
  unfold listedBody
  cases events.mapM fun e => (e.toResponse cfg.loads false).bind (·.modelDump cfg.serializes) with
  | some dumps => rfl
  | none => rfl

theorem handleApi_performs (req : ApiRequest) :
    (handleApi cfg req).All (RegisterPerforms req) := by
  cases req with
  | submit body =>
    exact All.bind (All.interpret submitEvent_onOwn fun op hop => ⟨hop, fun _ => trivial⟩)
      fun answer => render_performs _ _ _
  | getEvent eventId =>
    show (getEventHandler cfg eventId).All _
    rw [getEventHandler_eq]
    refine ⟨Or.inl rfl, fun found => ?_⟩
    cases found with
    | none => trivial
    | some event => exact render_performs _ _ _
  | listEvents account =>
    show (listEventsHandler cfg account).All _
    rw [listEventsHandler_eq]
    exact ⟨Or.inl rfl, fun events => render_performs _ _ _⟩
  | _ => exact (handleApi_insertsNothing cfg fun body h => by cases h).mono fun _ h => h

/-! ## What an answer tells -/

/-- What a handler's events and its answer say about the register. -/
def Registers (cfg : GatewaySettings) (req : ApiRequest) (reply : HttpResponse)
    (es : List (Event ApiOp ApiOp.Ret)) : Prop :=
  (es.filterMap (registerPoint req)).length ≤ 1 ∧
    RegisterTells cfg req reply (es.filterMap (registerPoint req)).head?

/-- After a read only the trace id is read. -/
theorem registers_of_read {req : ApiRequest} {reply : HttpResponse} {e : Event ApiOp ApiOp.Ret}
    {es : List (Event ApiOp ApiOp.Ret)} (result : EventResult)
    (hpoint : registerPoint req e = some result)
    (hother : ∀ r, registerPoint req ⟨.core .traceId, r⟩ = none)
    (hes : ∀ e ∈ es, e.1 = .core .traceId)
    (htells : RegisterTells cfg req reply (some result)) :
    Registers cfg req reply (e :: es) := by
  have hnone : es.filterMap (registerPoint req) = [] := by
    rw [List.filterMap_eq_nil_iff]
    rintro ⟨o, r⟩ he
    cases hes _ he
    exact hother r
  unfold Registers
  rw [List.filterMap_cons_some hpoint, hnone]
  exact ⟨le_refl 1, htells⟩

theorem getEventHandler_registers (eventId : String) :
    (getEventHandler cfg eventId).Ensures (Registers cfg (.getEvent eventId)) := by
  rw [getEventHandler_eq]
  refine ensures_act.mpr fun found => ?_
  have hread : ∀ {reply es}, (∀ e ∈ es, e.1 = .core .traceId) →
      ShowsFound cfg eventId found reply → Registers cfg (.getEvent eventId) reply
        (⟨.core (.getEvent eventId), found⟩ :: es) :=
    fun hes hshows => registers_of_read (.found found) rfl (fun _ => rfl) hes hshows
  cases found with
  | none => exact ensures_done.mpr (hread (List.forall_mem_nil _) rfl)
  | some event => exact render_ensures.mono fun reply es h => hread h.1 h.2

theorem listEventsHandler_registers (account : String) :
    (listEventsHandler cfg account).Ensures (Registers cfg (.listEvents account)) := by
  rw [listEventsHandler_eq]
  refine ensures_act.mpr fun events => ?_
  have hread : ∀ {reply es}, (∀ e ∈ es, e.1 = .core .traceId) →
      ShowsListed cfg account events reply → Registers cfg (.listEvents account) reply
        (⟨.listEvents account, events⟩ :: es) :=
    fun hes hshows => registers_of_read (.listed events) rfl (fun _ => rfl) hes hshows
  exact render_ensures.mono fun reply es h => hread h.1 h.2

/-- A submission takes effect where it comes upon the row it goes on with. -/
theorem registers_of_tells {body : EventRequest} {reply : HttpResponse}
    {es : List (Event ApiOp ApiOp.Ret)} (h : GatewayTells cfg (.submit body) reply es) :
    Registers cfg (.submit body) reply es := by
  obtain ⟨result, hstory, hshows⟩ := h
  have hpoints : es.filterMap (registerPoint (.submit body)) =
      result.toList.map fun p => .shown p.1 p.2 := by
    rw [← hstory.filterMap_shown?, List.filterMap_filterMap, List.map_filterMap]
    rfl
  unfold Registers
  rw [hpoints]
  cases result with
  | none => exact ⟨Nat.zero_le 1, hshows⟩
  | some p => exact ⟨le_refl 1, hshows⟩

/-- **Handlers.**  Every request takes effect at one operation at most, and is answered by its
result. -/
theorem handleApi_registers (req : ApiRequest) :
    (handleApi cfg req).Ensures (Registers cfg req) := by
  have hother : ∀ req : ApiRequest, (∀ e, registerPoint req e = none) →
      (∀ reply, RegisterTells cfg req reply none) →
        (handleApi cfg req).Ensures (Registers cfg req) := by
    intro req hpoint htells
    refine ensures_of_forall fun reply es => ?_
    unfold Registers
    rw [show es.filterMap (registerPoint req) = [] from
      List.filterMap_eq_nil_iff.mpr fun e _ => hpoint e]
    exact ⟨Nat.zero_le 1, htells reply⟩
  cases req with
  | submit body => exact (postEvent_story cfg body).mono fun _ _ => registers_of_tells
  | getEvent eventId => exact getEventHandler_registers eventId
  | listEvents account => exact listEventsHandler_registers account
  | _ => exact hother _ (fun _ => rfl) fun _ => rfl

/-! ## Databases the Gateway can be run over -/

/-- The Gateway over a database of another kind. -/
def gatewayOver {σ ε : Type} (cfg : GatewaySettings)
    (exec : ε → σ → (o : ApiOp) → Option (σ × o.Ret)) :
    Service ApiRequest ApiOp ApiOp.Ret HttpResponse σ ε where
  handle := handleApi cfg
  exec := exec

/-- The database keeps a table of events and lists what is in it. -/
structure KeepsEvents {σ ε : Type} (exec : ε → σ → (o : ApiOp) → Option (σ × o.Ret))
    (events : σ → EventTable) : Prop where
  moves : ∀ env s o s' r, exec env s o = some (s', r) →
    Moves (events s) (events s') (gatewayTableEvent ⟨o, r⟩)
  lists : ∀ env s account s' listed, exec env s (.listEvents account) = some (s', listed) →
    listed = eventsSchema.listing (events s).rows account

section
variable {σ ε : Type} {exec : ε → σ → (o : ApiOp) → Option (σ × o.Ret)} {events : σ → EventTable}

/-- What an operation of a submission does to the register. -/
theorem submit_effect {body : EventRequest} {t t' : EventTable} {o : ApiOp} {r : o.Ret}
    (hperforms : RegisterPerforms (.submit body) o)
    (hmoves : Moves t t' (gatewayTableEvent ⟨o, r⟩)) :
    (registerPoint (.submit body) ⟨o, r⟩).elim (t' = t)
      fun result => RegisterMoves t (.submit body) result t' := by
  cases o with
  | core op =>
    cases op with
    | getEvent eventId =>
      obtain ⟨rfl, hget⟩ := hmoves
      cases r with
      | none => rfl
      | some event =>
        cases hperforms
        exact .duplicate hget
    | insertEvent event =>
      cases r with
      | true => exact .created hperforms hmoves
      | false => exact hmoves.1
    | _ => exact hmoves
  | _ => exact hmoves

/-- What an operation of any request does to the register. -/
theorem register_effect (hkeeps : KeepsEvents exec events) (req : ApiRequest) (env : ε) (s : σ)
    (o : ApiOp) (s' : σ) (r : o.Ret) (hperforms : RegisterPerforms req o)
    (hexec : exec env s o = some (s', r)) :
    (registerPoint req ⟨o, r⟩).elim (events s' = events s)
      fun result => RegisterMoves (events s) req result (events s') := by
  have hmoves := hkeeps.moves env s o s' r hexec
  have hsame : o.InsertsNothing → events s' = events s := by
    intro hnothing
    cases o with
    | core op =>
      cases op with
      | insertEvent event => exact absurd hnothing id
      | getEvent eventId => exact hmoves.1
      | _ => exact hmoves
    | _ => exact hmoves
  cases req with
  | submit body => exact submit_effect hperforms hmoves
  | getEvent eventId =>
    rcases hperforms with rfl | rfl
    · obtain ⟨hstore, rfl⟩ := hmoves
      show RegisterMoves (events s) (.getEvent eventId) _ (events s')
      rw [hstore]
      exact .found (events s) eventId
    · exact hmoves
  | listEvents account =>
    rcases hperforms with rfl | rfl
    · show RegisterMoves (events s) (.listEvents account) (.listed r) (events s')
      rw [show events s' = events s from hmoves, hkeeps.lists env s account s' r hexec]
      exact .listed (events s) account
    · exact hmoves
  | _ => exact hsame hperforms

/-- The Gateway stands for the register. -/
def registerPoints (cfg : GatewaySettings) (hkeeps : KeepsEvents exec events) :
    Points (gatewayOver cfg exec) eventRegister where
  abs := events
  performs := RegisterPerforms
  point := registerPoint
  tells := RegisterTells cfg
  handle_performs := handleApi_performs
  effect := register_effect hkeeps
  once req := by
    refine Keeps.mono (I := fun es => (es.filterMap (registerPoint req)).length ≤ 1)
      ((handleApi_registers req).keeps fun reply es es' h => ?_) (fun _ h => h) fun _ _ _ h => h.2
    have hlength := h.1
    rw [List.filterMap_append, List.length_append] at hlength
    omega

end

end EventLedger
