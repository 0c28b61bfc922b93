import EventLedger.JsonDecoder
import EventLedger.OneStory

/-!
# Metadata

The metadata of a submission is stored as JSON text unless Python takes it to be false,
which an empty object is, and a stored text is read back in every answer that shows the
event: to its submitter, to those who submit it again, by itself and in a listing.  An
answer is dumped in JSON mode, which has null for a number JSON does not have; a listing
with such a number is none.  So the answers show what was submitted exactly when that is
not the empty object and has only finite numbers in it (`metadata_reads_back_iff`).
-/
namespace EventLedger

open Program Prog Service LabelledRun KeyedTable TableEvent

/-! ## What an answer shows -/

/-- The value under a name of an object. -/
def Json.field (name : String) : Json → Option Json
  | .obj fields => OrderedDict.Dict.lookup name fields
  | _ => none

/-- The items of an array. -/
def Json.items : Json → List Json
  | .arr items => items
  | _ => []

/-- The events an answer of the Gateway shows. -/
def shownEvents (req : ApiRequest) (reply : HttpResponse) : List Json :=
  match reply.body with
  | .json value =>
    if 300 ≤ reply.status then []
    else match req with
      | .submit _ | .getEvent _ => [value]
      | .listEvents _ => ((value.field "events").map Json.items).getD []
      | _ => []
  | _ => []

/-- The event is shown with the metadata that was submitted, null if there was none. -/
structure ReadsBack (metadata : Option (List (String × Json))) (shown : Json) : Prop where
  value : shown.field "metadata" = some (metadata.elim .null .obj)
  null_iff : shown.field "metadata" = some .null ↔ metadata = none

/-- Submitted metadata that an answer can show as it is: no empty object, and no number in it that
JSON does not have. -/
def Showable (metadata : Option (List (String × Json))) : Prop :=
  ∀ fields, metadata = some fields → fields ≠ [] ∧ (Json.obj fields).finite

/-- An event is shown under its own id. -/
theorem shown_eventId {loads : String → Option Json} {event : StoredEvent} {duplicate : Bool}
    {response : EventResponse} (h : event.toResponse loads duplicate = some response) :
    response.shown.field "eventId" = some (.str event.eventId) := by
  rw [← (StoredEvent.toResponse_fields h).1]
  rfl

/-! ## Stored metadata -/

section
variable {loads : String → Option Json} {body : EventRequest} {maxRetries : ℕ}

/-- **Storing and reading.**  Whatever is submitted reads back, but for the empty object. -/
theorem readMetadata_stored (hloads : ∀ fields, body.metadata = some fields →
      loads (Json.dumps (.obj fields)) = some (.obj fields)) (amount : String) (now : DateTime) :
    readMetadata loads (body.stored amount now).metadataJson =
      some (body.metadata.filter fun fields => !fields.isEmpty) := by
  simp only [EventRequest.stored]
  cases hmetadata : body.metadata with
  | none => rfl
  | some fields =>
    cases fields with
    | nil => rfl
    | cons field fields =>
      show readMetadata loads (some (Json.dumps (.obj (field :: fields)))) = _
      rw [readMetadata, if_neg (Json.dumps_obj_ne_empty (field :: fields)), hloads _ hmetadata]
      rfl

/-- What a response shows of it. -/
theorem readsBack_stored (hloads : ∀ fields, body.metadata = some fields →
      loads (Json.dumps (.obj fields)) = some (.obj fields)) {amount : String} {now : DateTime}
    {duplicate : Bool} {response : EventResponse}
    (h : (body.stored amount now).toResponse loads duplicate = some response) :
    ReadsBack body.metadata response.shown ↔ Showable body.metadata := by
  rw [StoredEvent.toResponse, readMetadata_stored hloads, Option.map_some] at h
  have hshown : response.shown.field "metadata" = some
      ((body.metadata.filter fun fields => !fields.isEmpty).elim .null .obj : Json).nulled := by
    rw [← Option.some.inj h]
    rfl
  cases hmetadata : body.metadata with
  | none =>
    rw [hmetadata] at hshown
    exact iff_of_true ⟨hshown, iff_of_true hshown rfl⟩ (fun _ h => by cases h)
  | some fields =>
    rw [hmetadata] at hshown
    cases fields with
    | nil =>
      -- the empty object is stored as none, and shown as null
      refine iff_of_false (fun hreads => ?_) fun h => (h [] rfl).1 rfl
      have hvalue := hreads.value
      rw [hshown] at hvalue
      cases hvalue
    | cons field fields =>
      -- any other is read back, and what is shown differs where a number is nulled
      replace hshown : response.shown.field "metadata" =
        some (Json.obj (field :: fields)).nulled := hshown
      have hnull : response.shown.field "metadata" ≠ some .null := by
        rw [hshown, Json.nulled]
        simp
      constructor
      · rintro hreads _ ⟨⟩
        refine ⟨by simp, (Json.nulled_eq_iff _).mp (Option.some.inj ?_)⟩
        rw [← hshown]
        exact hreads.value
      · intro h
        refine ⟨?_, iff_of_false hnull (by simp)⟩
        rw [hshown, (Json.nulled_eq_iff _).mpr (h _ rfl).2]
        rfl

/-- The only rows a submission inserts are its own. -/
def StoresOnly (body : EventRequest) : GatewayOp → Prop
  | .insertEvent event => ∃ amount now, event = body.stored amount now
  | _ => True

theorem GatewayOp.OfCall.storesOnly {op : GatewayOp} (h : op.OfCall) : StoresOnly body op := by
  cases op with
  | insertEvent event => exact absurd h id
  | _ => trivial

theorem respond_storesOnly (status : ℕ) (event : StoredEvent) (duplicate : Bool) :
    (respond loads status event duplicate).All (StoresOnly body) := by
  unfold respond
  split
  · trivial
  · exact ⟨trivial, fun _ => trivial⟩

theorem unhandled_storesOnly : unhandled.All (StoresOnly body) :=
  ⟨trivial, fun _ => trivial⟩

theorem persistEvent_storesOnly (amount : String) :
    (persistEvent loads body amount).All (StoresOnly body) := by
  refine ⟨trivial, fun now => ⟨⟨amount, now, rfl⟩, fun created => ?_⟩⟩
  cases created with
  | true => exact ⟨trivial, fun _ => respond_storesOnly 201 _ false⟩
  | false =>
    refine ⟨trivial, fun existing => ?_⟩
    cases existing with
    | some existing => exact respond_storesOnly 200 existing true
    | none => exact unhandled_storesOnly

theorem submitEvent_storesOnly : (submitEvent loads maxRetries body).All (StoresOnly body) := by
  simp only [submitEvent, GatewayProg.getEvent, perform_bind]
  refine ⟨trivial, fun existing => ?_⟩
  cases existing with
  | some existing => exact ⟨trivial, fun _ => respond_storesOnly 200 existing true⟩
  | none =>
    dsimp only
    cases amountStr body.amount with
    | none => exact unhandled_storesOnly
    | some amount =>
      have hcall : (clientApplyTransaction maxRetries body.accountId (body.payload amount)).All
          (StoresOnly body) :=
        (clientApplyTransaction_all _ _).mono fun _ => GatewayOp.OfCall.storesOnly
      refine All.bind hcall fun result => ?_
      cases result with
      | unavailable => exact ⟨trivial, fun _ => ⟨trivial, fun _ => trivial⟩⟩
      | clientError resp =>
        refine ⟨trivial, fun _ => ?_⟩
        dsimp only
        split
        · trivial
        · exact unhandled_storesOnly
      | raised => exact unhandled_storesOnly
      | response resp => exact persistEvent_storesOnly amount

end

/-! ## Rows that have been seen -/

/-- The rows an operation has read or inserted. -/
def rowsSeen : Event ApiOp ApiOp.Ret → List StoredEvent
  | ⟨.core (.getEvent _), found⟩ => Option.toList found
  | ⟨.core (.insertEvent event), created⟩ => if created then [event] else []
  | ⟨.listEvents _, events⟩ => events
  | _ => []

theorem apiExec_rowsSeen {env : GatewayEnv} {db db' : GatewayDB} {o : ApiOp} {r : o.Ret}
    (h : apiExec env db o = some (db', r)) :
    ∀ event ∈ rowsSeen ⟨o, r⟩, db'.getEvent event.eventId = some event := by
  cases o with
  | core op =>
    cases op with
    | getEvent eventId =>
      cases h
      intro event hevent
      have hget : db.events.get eventId = some event := Option.mem_toList.mp hevent
      show db.events.get event.eventId = some event
      rwa [Table.key_of_get hget]
    | insertEvent row =>
      intro event hevent
      rcases apiExec_insert h with ⟨rfl, hrows, -⟩ | ⟨rfl, -, -⟩
      · cases List.mem_singleton.mp hevent
        refine Table.get_of_mem ?_
        rw [hrows]
        exact List.mem_append_right _ (List.mem_singleton_self row)
      · cases hevent
    | _ => exact fun event hevent => absurd hevent List.not_mem_nil
  | listEvents accountId =>
    cases h
    intro event hevent
    have hmem : event ∈ db.rowsOf accountId := (List.mem_insertionSort _).mp hevent
    exact Table.get_of_mem (List.mem_of_mem_filter hmem)
  | _ => exact fun event hevent => absurd hevent List.not_mem_nil

variable {cfg : GatewaySettings} {db : GatewayDB} {t : GatewayState} {ls : List GatewayLabel}

/-- **Rows stay.**  Whatever a thread has read or inserted is still the row of its event. -/
theorem rowsSeen_stay (h : Run (gatewayService cfg).step (.initial db) ls t) :
    ∀ th ∈ t.threads, ∀ e ∈ th.events, ∀ event ∈ rowsSeen e,
      t.store.getEvent event.eventId = some event := by
  refine Run.preserves (I := fun s : GatewayState => ∀ th ∈ s.threads, ∀ e ∈ th.events,
    ∀ event ∈ rowsSeen e, s.store.getEvent event.eventId = some event) ?_ h
    fun th hth => absurd hth List.not_mem_nil
  intro s a t hs hstep
  have hcases := step_cases hstep
  have hgrows : s.store.events.Grows t.store.events := by
    cases hcases with
    | arrive req => exact Table.Grows.refl _
    | act i env req es o k store r hthread hexec =>
      exact (gateway_onTable cfg _ _ _ _ _ hexec).grows
  refine forall_threads_step hcases
    (fun th hth e he event hevent => hgrows _ _ (hs th hth e he event hevent)) ?_ ?_
  · exact fun req _ e he => absurd he List.not_mem_nil
  · rintro i env req es o k store r - hthread hexec rfl hold e he
    rcases List.mem_append.mp he with hmem | hmem
    · exact hold e hmem
    · rw [List.mem_singleton.mp hmem]
      exact apiExec_rowsSeen hexec

/-! ## What answers show has been seen -/

/-- Whatever the answer shows is a row that the handler has read or inserted. -/
def ShowsSeen (cfg : GatewaySettings) (req : ApiRequest) (reply : HttpResponse)
    (es : List (Event ApiOp ApiOp.Ret)) : Prop :=
  ∀ shown ∈ shownEvents req reply, ∃ event duplicate response, (∃ e ∈ es, event ∈ rowsSeen e) ∧
    event.toResponse cfg.loads duplicate = some response ∧ shown = response.shown

section
variable {req : ApiRequest} {reply : HttpResponse} {es : List (Event ApiOp ApiOp.Ret)}

theorem shownEvents_error (h : 300 ≤ reply.status) : shownEvents req reply = [] := by
  unfold shownEvents
  split
  · rw [if_pos h]
  · rfl

theorem shownEvents_submit {body : EventRequest} {value : Json} (hbody : reply.body = .json value)
    (h : reply.status < 300) : shownEvents (.submit body) reply = [value] := by
  simp only [shownEvents, hbody, if_neg (not_le.mpr h)]

theorem showsSeen_error (h : 300 ≤ reply.status) : ShowsSeen cfg req reply es := by
  intro shown hshown
  rw [shownEvents_error h] at hshown
  cases hshown

/-- The row a handler goes on with is one that it has seen. -/
theorem seen_of_result {eventId : String} {event : StoredEvent} {duplicate : Bool}
    (h : GetOrCreate StoredEvent.eventId eventId (es.filterMap gatewayTableEvent)
      (some (event, duplicate))) : ∃ e ∈ es, event ∈ rowsSeen e := by
  have hmem : .looked eventId (some event) ∈ es.filterMap gatewayTableEvent ∨
      .added event true ∈ es.filterMap gatewayTableEvent := by
    generalize es.filterMap gatewayTableEvent = seen at h
    cases h with
    | found => exact .inl (by simp)
    | created _ hk => exact .inr (by simp)
    | raced _ _ hk => exact .inl (by simp)
  rcases hmem with hlooked | hadded
  · exact ⟨_, getEvent_of_looked hlooked, List.mem_singleton_self event⟩
  · exact ⟨_, insertEvent_of_added hadded, List.mem_singleton_self event⟩

theorem postEvent_showsSeen (body : EventRequest) :
    (postEvent cfg body).Ensures (ShowsSeen cfg (.submit body)) := by
  refine (postEvent_story cfg body).mono ?_
  rintro reply es ⟨result, hstory, hshows⟩
  by_cases hsuccess : 300 ≤ reply.status
  · exact showsSeen_error hsuccess
  cases result with
  | none =>
    have herror : 400 ≤ reply.status := hshows
    omega
  | some pair =>
    obtain ⟨event, duplicate⟩ := pair
    obtain ⟨response, hresponse, -, rfl⟩ := hshows.of_success (not_le.mp hsuccess)
    intro shown hshown
    refine ⟨event, duplicate, { response with duplicate := duplicate }, seen_of_result hstory,
      ?_, ?_⟩
    · rw [toResponse_duplicate, hresponse]
      rfl
    · rw [shownEvents_submit rfl (not_le.mp hsuccess)] at hshown
      exact List.mem_singleton.mp hshown

/-- What a lookup of an event shows. -/
def FindsOwn (cfg : GatewaySettings) (eventId : String) (reply : HttpResponse)
    (es : List (Event ApiOp ApiOp.Ret)) : Prop :=
  ∃ event response, ⟨.core (.getEvent eventId), some event⟩ ∈ es ∧
    event.toResponse cfg.loads false = some response ∧ reply = ⟨200, .json response.shown⟩

theorem getEventHandler_finds (eventId : String) :
    (getEventHandler cfg eventId).Ensures fun reply es =>
      reply.status < 300 → FindsOwn cfg eventId reply es := by
  simp only [getEventHandler, ApiProg.core, perform_bind]
  refine ensures_act.mpr fun found => ?_
  cases found with
  | none =>
    refine render_ensures.mono ?_
    rintro reply es ⟨-, hrendered⟩ hsuccess
    have herror := hrendered.status_of_error (by decide)
    omega
  | some event =>
    dsimp only
    cases hresponse : event.toResponse cfg.loads false with
    | none =>
      refine ensures_act.mpr fun traceId => ensures_done.mpr fun hsuccess => ?_
      have herror : 500 < 300 := hsuccess
      omega
    | some response =>
      refine render_ensures.mono ?_
      rintro reply es ⟨-, ⟨value, hvalue, rfl⟩ | ⟨-, h500⟩⟩ hsuccess
      · obtain ⟨-, rfl⟩ := EventResponse.serialized_eq_some_iff.mp hvalue
        exact ⟨event, response, List.mem_cons_self, hresponse, rfl⟩
      · omega

theorem getEventHandler_showsSeen (eventId : String) :
    (getEventHandler cfg eventId).Ensures (ShowsSeen cfg (.getEvent eventId)) := by
  refine (getEventHandler_finds eventId).mono fun reply es hfinds => ?_
  by_cases hsuccess : 300 ≤ reply.status
  · exact showsSeen_error hsuccess
  obtain ⟨event, response, he, hresponse, rfl⟩ := hfinds (not_le.mp hsuccess)
  intro shown hshown
  exact ⟨event, false, response, ⟨_, he, List.mem_singleton_self event⟩, hresponse,
    List.mem_singleton.mp hshown⟩

/-- A function that may fail is mapped over a list if it fails on no item. -/
theorem mapM_eq_some_iff {α β : Type} {f : α → Option β} {l : List α} {l' : List β} :
    l.mapM f = some l' ↔ l.map f = l'.map some := by
  induction l generalizing l' with
  | nil => cases l' <;> simp
  | cons a l ih =>
    rw [List.mapM_cons, List.map_cons]
    cases hfa : f a with
    | none => cases l' <;> simp
    | some b =>
      show (l.mapM f).bind (fun bs => some (b :: bs)) = some l' ↔ _
      rw [Option.bind_eq_some_iff]
      cases l' with
      | nil => simp
      | cons b' bs => simp [← ih, and_comm, eq_comm]

theorem mem_of_mapM {α β : Type} {f : α → Option β} {l : List α} {l' : List β}
    (h : l.mapM f = some l') {b : β} (hb : b ∈ l') : ∃ a ∈ l, f a = some b := by
  have hmem := List.mem_map_of_mem (f := some) hb
  rw [← mapM_eq_some_iff.mp h] at hmem
  exact List.mem_map.mp hmem

theorem listEventsHandler_showsSeen (account : String) :
    (listEventsHandler cfg account).Ensures (ShowsSeen cfg (.listEvents account)) := by
  simp only [listEventsHandler, ApiProg.listEvents, perform_bind]
  refine ensures_act.mpr fun events => ?_
  split
  · rename_i dumps hdumps
    refine render_ensures.mono ?_
    rintro reply es ⟨-, ⟨value, hvalue, rfl⟩ | ⟨-, h500⟩⟩
    · obtain ⟨hfinite, rfl⟩ := Json.rendered_eq_some_iff.mp hvalue
      intro shown hshown
      replace hshown : shown ∈ dumps := hshown
      obtain ⟨event, hevent, hdump⟩ := mem_of_mapM hdumps hshown
      obtain ⟨response, hresponse, hdump⟩ := Option.bind_eq_some_iff.mp hdump
      refine ⟨event, false, response, ⟨_, List.mem_cons_self, hevent⟩, hresponse, ?_⟩
      -- a listing is written as it is, so that there is nothing in it to be nulled
      have hitems : Json.finiteItems dumps = true := by
        simp only [Json.finite, Json.finiteFields, Bool.and_eq_true] at hfinite
        exact hfinite.2.2.1
      rw [EventResponse.shown, ← EventResponse.toJson_of_modelDump hdump]
      exact ((Json.nulled_eq_iff shown).mpr (Json.finiteItems_iff.mp hitems shown hshown)).symm
    · exact showsSeen_error (by omega)
  · refine ensures_act.mpr fun traceId => ensures_done.mpr (showsSeen_error ?_)
    exact show 300 ≤ 500 by decide

end

/-- **Handlers.** -/
theorem handleApi_showsSeen (req : ApiRequest) :
    (handleApi cfg req).Ensures (ShowsSeen cfg req) := by
  have hother : ∀ req : ApiRequest, (∀ reply, shownEvents req reply = []) →
      (handleApi cfg req).Ensures (ShowsSeen cfg req) := by
    intro req hnone
    refine ensures_of_forall fun reply es shown hshown => ?_
    rw [hnone] at hshown
    cases hshown
  cases req with
  | submit body => exact postEvent_showsSeen body
  | getEvent eventId => exact getEventHandler_showsSeen eventId
  | listEvents account => exact listEventsHandler_showsSeen account
  | _ =>
    refine hother _ fun reply => ?_
    unfold shownEvents
    split
    · exact ite_self _
    · rfl

/-! ## Runs -/

theorem postEvent_storesOnly (body : EventRequest) :
    (postEvent cfg body).All fun o => ∀ op, o = .core op → StoresOnly body op := by
  refine All.bind (All.interpret submitEvent_storesOnly fun op hop => ?_) fun answer => ?_
  · refine ⟨?_, fun _ => trivial⟩
    rintro _ ⟨⟩
    exact hop
  · refine (render_all answer.status (answer.body cfg.serializes)).mono ?_
    rintro _ hreads op rfl
    cases op with
    | insertEvent event => exact absurd hreads id
    | _ => trivial

/-- The row that is inserted for a submission is its own. -/
theorem stored_of_creates (h : Run (gatewayService cfg).step (.initial db) ls t)
    {th : GatewayThread} (hth : th ∈ t.threads) {body : EventRequest}
    (hrequest : th.request = .submit body) {event : StoredEvent}
    (hadded : .added event true ∈ th.events.filterMap gatewayTableEvent) :
    ∃ amount now, event = body.stored amount now := by
  have hkeeps : ∀ req, (handleApi cfg req).Keeps
      (fun es => ∀ body, req = .submit body → ∀ e ∈ es, ∀ op, e.1 = .core op → StoresOnly body op)
      fun _ _ => True := by
    intro req es q hsteps
    refine ⟨?_, fun _ _ => trivial⟩
    rintro body rfl
    exact ((postEvent_storesOnly body).keeps es q hsteps).1
  exact (run_keeps hkeeps h th hth).1 body hrequest _ (insertEvent_of_added hadded) _ rfl

/-- The request is for one event, to record it or to show it. -/
def ApiRequest.AsksFor (eventId : String) : ApiRequest → Prop
  | .submit body => body.eventId = eventId
  | .getEvent sought => sought = eventId
  | _ => False

/-- A success for a submission shows its event. -/
theorem submission_shows_own (h : Run (gatewayService cfg).step (.initial db) ls t)
    {th : GatewayThread} (hth : th ∈ t.threads) {body : EventRequest}
    (hrequest : th.request = .submit body) {reply : HttpResponse} (hanswered : th.Answered reply)
    (hsuccess : reply.status < 300) :
    ∃ shown ∈ shownEvents (.submit body) reply,
      shown.field "eventId" = some (.str body.eventId) := by
  have hstory := (run_keeps (gateway_tells cfg) h th hth).2 reply hanswered
  rw [hrequest] at hstory
  obtain ⟨result, hresult, hshows⟩ := hstory
  cases result with
  | none =>
    have herror : 400 ≤ reply.status := hshows
    omega
  | some pair =>
    obtain ⟨row, duplicate⟩ := pair
    obtain ⟨response, hresponse, -, rfl⟩ := hshows.of_success hsuccess
    have hrow := ((run_onTable (gateway_onTable cfg) h).2 th hth).get_of_result hresult rfl
    have hid := shown_eventId hresponse
    rw [shownEvents_submit rfl hsuccess, ← Table.key_of_get hrow]
    exact ⟨_, List.mem_singleton_self _, hid⟩

/-- A lookup's success shows the event that was looked up. -/
theorem lookup_shows_own (h : Run (gatewayService cfg).step (.initial db) ls t)
    {th : GatewayThread} (hth : th ∈ t.threads) {eventId : String}
    (hrequest : th.request = .getEvent eventId) {reply : HttpResponse}
    (hanswered : th.Answered reply) (hsuccess : reply.status < 300) :
    ∃ shown ∈ shownEvents (.getEvent eventId) reply,
      shown.field "eventId" = some (.str eventId) := by
  have hfinds : ∀ req, (handleApi cfg req).Ensures fun reply es =>
      ∀ sought, req = .getEvent sought → reply.status < 300 → FindsOwn cfg sought reply es := by
    intro req
    cases req with
    | getEvent sought =>
      refine (getEventHandler_finds sought).mono fun reply es hfinds => ?_
      rintro _ ⟨⟩
      exact hfinds
    | _ => exact ensures_of_forall fun reply es sought hother => nomatch hother
  obtain ⟨event, response, he, hresponse, rfl⟩ :=
    (run_keeps hfinds h th hth).2 reply hanswered eventId hrequest hsuccess
  have hkey : event.eventId = eventId :=
    Table.key_of_get (((run_onTable (gateway_onTable cfg) h).2 th hth).holds
      (.looked eventId (some event)) (List.mem_filterMap.mpr ⟨_, he, rfl⟩))
  rw [← hkey]
  exact ⟨_, List.mem_singleton_self _, shown_eventId hresponse⟩

/-- A success shows the event that was asked for. -/
theorem shows_own (h : Run (gatewayService cfg).step (.initial db) ls t) {th : GatewayThread}
    (hth : th ∈ t.threads) {eventId : String} (hasks : th.request.AsksFor eventId)
    {reply : HttpResponse} (hanswered : th.Answered reply) (hsuccess : reply.status < 300) :
    ∃ shown ∈ shownEvents th.request reply, shown.field "eventId" = some (.str eventId) := by
  cases hrequest : th.request with
  | submit body =>
    rw [hrequest] at hasks
    obtain rfl : body.eventId = eventId := hasks
    exact submission_shows_own h hth hrequest hanswered hsuccess
  | getEvent sought =>
    rw [hrequest] at hasks
    obtain rfl : sought = eventId := hasks
    exact lookup_shows_own h hth hrequest hanswered hsuccess
  | _ =>
    rw [hrequest] at hasks
    exact absurd hasks id

/-- **Rows and answers.**  What is shown of a recorded event is the row of its submission. -/
theorem shown_readsBack_iff (h : Run (gatewayService cfg).step (.initial db) ls t)
    {creator : GatewayThread} (hcreator : creator ∈ t.threads) {body : EventRequest}
    (hrequest : creator.request = .submit body)
    (hcreates : creator.Creates gatewayTableEvent StoredEvent.eventId body.eventId)
    (hloads : ∀ fields, body.metadata = some fields →
      cfg.loads (Json.dumps (.obj fields)) = some (.obj fields))
    {th : GatewayThread} (hth : th ∈ t.threads) {reply : HttpResponse}
    (hanswered : th.Answered reply) {shown : Json} (hshown : shown ∈ shownEvents th.request reply)
    (hid : shown.field "eventId" = some (.str body.eventId)) :
    ReadsBack body.metadata shown ↔ Showable body.metadata := by
  obtain ⟨row, hadded, hkey⟩ := hcreates
  obtain ⟨amount, now, rfl⟩ := stored_of_creates h hcreator hrequest hadded
  have hrow : t.store.getEvent body.eventId = some (body.stored amount now) :=
    rowsSeen_stay h creator hcreator _ (insertEvent_of_added hadded) _ (List.mem_singleton_self _)
  obtain ⟨event, duplicate, response, ⟨e, he, hseen⟩, hresponse, rfl⟩ :=
    (run_keeps handleApi_showsSeen h th hth).2 reply hanswered shown hshown
  have hevent : event.eventId = body.eventId := by
    rw [shown_eventId hresponse] at hid
    exact Json.str.inj (Option.some.inj hid)
  -- there is one row of the event
  have hsame := rowsSeen_stay h th hth e he event hseen
  rw [hevent, hrow] at hsame
  cases hsame
  exact readsBack_stored hloads hresponse

/-- A Gateway that reads stored metadata, keeping numbers as they are written. -/
def readingSettings : GatewaySettings := ⟨2, Json.loads some, "", fun _ => true⟩

theorem readingSettings_loads {fields : List (String × Json)}
    (h : (Json.obj fields).Printed some) :
    readingSettings.loads (Json.dumps (.obj fields)) = some (.obj fields) := by
  show Json.loads some (Json.dumps (.obj fields)) = some (.obj fields)
  exact Json.loads_dumps h

/-- An event is submitted and then asked for. -/
def submittedAndRead (body : EventRequest) : List GatewayLabel :=
  .arrive (.submit body) :: acts 0 10 ++ .arrive (.getEvent body.eventId) :: acts 1 1

/-- Whether the first request has recorded the event and the second has been answered with it. -/
def recordedAndRead (eventId : String) (t : GatewayState) : Bool :=
  match t.threads with
  | [creator, reader] =>
    match reader.rest with
    | .done reply => GatewayThread.saysCreated eventId creator && decide (reply.status < 300)
    | .act _ _ => false
  | _ => false

theorem exists_shown (body : EventRequest)
    (hend : ((submittedAndRead body).foldlM (gatewayService readingSettings).step
      (.initial GatewayDB.new)).map (recordedAndRead body.eventId) = some true) :
    ∃ t creator th reply,
      Run (gatewayService readingSettings).step (.initial GatewayDB.new) (submittedAndRead body) t ∧
      creator ∈ t.threads ∧ creator.request = .submit body ∧
      creator.Creates gatewayTableEvent StoredEvent.eventId body.eventId ∧ th ∈ t.threads ∧
      th.Answered reply ∧ th.request.AsksFor body.eventId ∧ reply.status < 300 := by
  obtain ⟨t, hrun, hend⟩ := Option.map_eq_some_iff.mp hend
  have harrived : ∀ th ∈ t.threads,
      th.request = .submit body ∨ th.request = .getEvent body.eventId := by
    intro th hth
    rcases request_arrived hrun th hth with ⟨th', hth', -⟩ | hmem
    · cases hth'
    · simpa [submittedAndRead, acts] using hmem
  unfold recordedAndRead at hend
  split at hend
  · rename_i creator reader hthreads
    have hcreator : creator ∈ t.threads := by simp [hthreads]
    have hreader : reader ∈ t.threads := by simp [hthreads]
    split at hend
    · rename_i reply hreply
      obtain ⟨hcreated, hsuccess⟩ := (Bool.and_eq_true _ _).mp hend
      obtain ⟨reply', hsucceeds, h201⟩ := saysCreated_succeeds hcreated
      have hcreates := ((gateway_one_story _ _ _ _ hrun).created_iff creator hcreator _ reply'
        hsucceeds).mp h201
      have hrequest : creator.request = .submit body := by
        rcases harrived creator hcreator with hsubmit | hget
        · exact hsubmit
        · obtain ⟨body', hsubmit, -⟩ := hsucceeds.1
          cases hget.symm.trans hsubmit
      refine ⟨t, creator, reader, reply, hrun, hcreator, hrequest, hcreates, hreader, hreply, ?_,
        of_decide_eq_true hsuccess⟩
      rcases harrived reader hreader with hsubmit | hget
      · rw [hsubmit]
        exact rfl
      · rw [hget]
        exact rfl
    · cases hend
  · cases hend

/-- The sample submission with metadata of every kind. -/
def annotatedEvent : EventRequest :=
  { sampleEvent with metadata := some [("source", .str "mainframe"), ("line", .number "3"),
      ("tags", .arr [.obj [("reviewed", .bool true)], .null, .obj []])] }

/-- The sample submission with empty metadata. -/
def bareEvent : EventRequest := { sampleEvent with metadata := some [] }

end EventLedger
