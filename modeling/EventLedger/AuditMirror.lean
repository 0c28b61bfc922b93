import EventLedger.AuditLines
import EventLedger.ServiceRuns
import EventLedger.SharedConnection
import Mathlib.Data.List.Flatten
import Mathlib.Data.List.Perm.Subperm

/-!
# The audit trail in the log stream

`AuditTrail.record` as a program: the database first, which may raise, and then
the log.  A process runs any number of such calls at once, inserts records, logs
other things in between, and configures logging again.  The stream is the trail
that does not lose entries: whatever the database refuses or takes back and
however the threads interleave, the entries rebuilt from it are those of the calls,
and every row of the database is one of them (`audit_mirrored`).
-/
namespace EventLedger

open Program Prog Service LabelledRun OrderedDict

/-! ## The process -/

/-- One operation of a thread. -/
inductive AuditOp (S : Schema) where
  | now
  /-- The sink of the trail. -/
  | sink (entry : AuditEntry)
  | insert (row : S.Row)
  | logging (action : LogAction)

/-- What each operation returns; the sink returns what it raises. -/
@[reducible] def AuditOp.Ret {S : Schema} : AuditOp S → Type
  | .now => DateTime
  | .sink _ => Option String
  | .insert _ => Reply S
  | .logging _ => Unit

/-- What a thread does. -/
abbrev AuditProg (S : Schema) := Prog (AuditOp S) AuditOp.Ret

variable {S : Schema}

namespace AuditProg

/-- `datetime.now(tz=utc)`. -/
def now : AuditProg S DateTime := perform AuditOp.now

/-- `self._sink(entry)`. -/
def sink (entry : AuditEntry) : AuditProg S (Option String) := perform (AuditOp.sink entry)

/-- A call of a logging method. -/
def log (call : LogCall) (ctx : Option TraceContext) : AuditProg S Unit :=
  perform (AuditOp.logging (.log call ctx))

end AuditProg

open AuditProg in
/-- `AuditTrail.record`. -/
def AuditTrail.record (service : String) (ctx : Option TraceContext) (c : AuditCall) :
    AuditProg S Unit := do
  let entry := AuditTrail.entry service ⟨← now, (getTraceId.run ctx).1⟩ c.action c.outcome
    c.accountId c.eventId c.detail.items
  match ← sink entry with
  | some raised =>
    -- auditing must never break the request path
    log (c.persistFailed (← now) raised) ctx
    log (c.line (← now)) ctx
  | none => log (c.line (← now)) ctx

/-- What a thread of the process is asked to do. -/
inductive ProcessRequest (S : Schema) where
  | record (c : AuditCall) (ctx : Option TraceContext)
  | insert (row : S.Row)
  /-- Any other call of a logging method. -/
  | log (call : LogCall) (ctx : Option TraceContext) (other : ¬ call.IsAudit)
  /-- Logging is configured again, with a level that lets the trail pass. -/
  | configure (level : LogLevel) (enabled : level.number ≤ LogLevel.info.number)

/-- The facts a row and an entry of the stream have in common. -/
structure AuditFacts where
  service : String
  action : String
  outcome : String
  accountId : Option String
  eventId : Option String
  traceId : Option String
  detailJson : Option String

/-- What a row tells. -/
def AuditRow.facts (row : AuditRow) : AuditFacts :=
  ⟨row.service, row.action, row.outcome, row.accountId, row.eventId, row.traceId, row.detailJson⟩

/-- What an entry of the stream tells, its detail as the text a row has. -/
def AuditStory.facts (s : AuditStory) : AuditFacts :=
  ⟨s.service, s.action, s.outcome, s.accountId, s.eventId, s.traceId,
    if s.detail.isEmpty then none else some (Json.dumps (.obj s.detail))⟩

/-- The connection and the log; and, as history, what the sink was given and what was done to the
log. -/
structure ProcessState (S : Schema) where
  db : Connection S
  log : LogState
  sunk : List AuditFacts
  actions : List LogAction

/-- What an operation reads from outside, and the failure it meets. -/
structure ProcessEnv where
  now : DateTime
  failure : Option Failure
  /-- `formatException` of what the failure raises. -/
  raised : String

/-- The facts of the rows an entry makes. -/
def AuditEntry.rowFacts (entry : AuditEntry) : List AuditFacts :=
  (appendAudit [] entry).map AuditRow.facts

/-- What a caller of the sink catches. -/
def Reply.caught (raised : String) : Reply S → Option String
  | .raised => some raised
  | _ => none

/-- One operation. -/
def processExec (env : ProcessEnv) (s : ProcessState S) :
    (o : AuditOp S) → Option (ProcessState S × o.Ret)
  | .now => some (s, env.now)
  | .sink entry =>
    some ({ s with db := (s.db.appendAudit entry env.failure).1, sunk := s.sunk ++ entry.rowFacts },
      (s.db.appendAudit entry env.failure).2.caught env.raised)
  | .insert row =>
    some ({ s with db := (s.db.insertRow row env.failure).1 }, (s.db.insertRow row env.failure).2)
  | .logging action =>
    some ({ s with log := s.log.step action, actions := s.actions ++ [action] }, ())

/-- The process. -/
def auditProcess (S : Schema) (service : String) :
    Service (ProcessRequest S) (AuditOp S) AuditOp.Ret Unit (ProcessState S) ProcessEnv where
  handle
    | .record c ctx => AuditTrail.record service ctx c
    | .insert row => perform (AuditOp.insert row) >>= fun _ => pure ()
    | .log call ctx _ => AuditProg.log call ctx
    | .configure level _ => perform (AuditOp.logging (.configure service level))
  exec := processExec

/-- The process when it has opened its database and configured logging. -/
def ProcessState.started (contents : Contents S) (service : String) (level : LogLevel)
    (loggers : Loggers) : ProcessState S :=
  ⟨Connection.opened contents, LogState.step ⟨loggers, ""⟩ (.configure service level), [], []⟩

/-! ## What is told -/

/-- The entries a request records. -/
def ProcessRequest.stories (service : String) : ProcessRequest S → List AuditStory
  | .record c ctx => [c.story service ctx]
  | _ => []

/-- The entry an action writes to the stream. -/
def actionStory (service : String) : LogAction → List AuditStory
  | .configure _ _ => []
  | .log call ctx => (⟨service, call, ctx⟩ : LogEntry).story.toList

/-- The entries an operation writes to the stream. -/
def streamed (service : String) : Event (AuditOp S) AuditOp.Ret → List AuditStory
  | ⟨.logging action, _⟩ => actionStory service action
  | _ => []

/-- What an operation does to the log. -/
def performed : Event (AuditOp S) AuditOp.Ret → List LogAction
  | ⟨.logging action, _⟩ => [action]
  | _ => []

/-- The rows an operation gives to the database. -/
def sunk : Event (AuditOp S) AuditOp.Ret → List AuditFacts
  | ⟨.sink entry, _⟩ => entry.rowFacts
  | _ => []

section
variable {service : String} {c : AuditCall} {ctx : Option TraceContext}

theorem persistFailed_other (created : DateTime) (raised : String) :
    ¬ (c.persistFailed created raised).IsAudit := by
  rintro ⟨-, hmessage⟩
  have hne : "audit.persist_failed" ≠ "audit" := by decide
  exact hne hmessage

theorem streamed_cons (e : Event (AuditOp S) AuditOp.Ret)
    (es : List (Event (AuditOp S) AuditOp.Ret)) :
    (e :: es).flatMap (streamed service) = streamed service e ++ es.flatMap (streamed service) :=
  List.flatMap_cons

/-- What `record` leaves behind: at every time at most its entry in the stream, and when it is done
just that, whatever the sink has raised. -/
theorem record_keeps (service : String) (ctx : Option TraceContext) (c : AuditCall) :
    (AuditTrail.record (S := S) service ctx c).Keeps
      (fun es => (es.flatMap (streamed service)).Sublist [c.story service ctx])
      fun _ es => es.flatMap (streamed service) = [c.story service ctx] ∧
        es.flatMap sunk = [(c.story service ctx).facts] := by
  have hline : ∀ created r, streamed (S := S) service ⟨.logging (.log (c.line created) ctx), r⟩ =
      [c.story service ctx] := by
    intro created r
    rw [streamed, actionStory, LogEntry.story_line]
    rfl
  have hfailed : ∀ created raised r, streamed (S := S) service
      ⟨.logging (.log (c.persistFailed created raised) ctx), r⟩ = [] := by
    intro created raised r
    rw [streamed, actionStory, LogEntry.story_other (persistFailed_other created raised)]
    rfl
  have hnil : List.Sublist [] [c.story service ctx] := List.nil_sublist _
  simp only [AuditTrail.record, AuditProg.now, AuditProg.sink, AuditProg.log, perform_bind]
  refine keeps_act.mpr ⟨hnil, fun now => keeps_act.mpr ⟨hnil, fun raised => ?_⟩⟩
  cases raised with
  | some raised =>
    refine keeps_act.mpr ⟨hnil, fun created => keeps_act.mpr ⟨hnil, fun r => ?_⟩⟩
    refine keeps_act.mpr ⟨?_, fun created' => keeps_act.mpr ⟨?_, fun r' => keeps_done.mpr ?_⟩⟩
    · rw [streamed_cons, streamed_cons, streamed_cons, streamed_cons, hfailed]
      exact hnil
    · rw [streamed_cons, streamed_cons, streamed_cons, streamed_cons, streamed_cons, hfailed]
      exact hnil
    · rw [streamed_cons, streamed_cons, streamed_cons, streamed_cons, streamed_cons, streamed_cons,
        hfailed, hline]
      exact ⟨List.Sublist.refl _, rfl, rfl⟩
  | none =>
    refine keeps_act.mpr ⟨hnil, fun created => keeps_act.mpr ⟨hnil, fun r => keeps_done.mpr ?_⟩⟩
    rw [streamed_cons, streamed_cons, streamed_cons, streamed_cons, hline]
    exact ⟨List.Sublist.refl _, rfl, rfl⟩

/-- What the handler of a request leaves behind. -/
theorem handle_keeps (service : String) (req : ProcessRequest S) :
    ((auditProcess S service).handle req).Keeps
      (fun es => (es.flatMap (streamed service)).Sublist (req.stories service))
      fun _ es => es.flatMap (streamed service) = req.stories service ∧
        es.flatMap sunk = (req.stories service).map AuditStory.facts := by
  cases req with
  | record c ctx => exact record_keeps service ctx c
  | insert row =>
    exact keeps_act.mpr ⟨List.Sublist.refl [], fun r =>
      keeps_done.mpr ⟨List.Sublist.refl [], rfl, rfl⟩⟩
  | configure level enabled =>
    exact keeps_act.mpr ⟨List.Sublist.refl [], fun r =>
      keeps_done.mpr ⟨List.Sublist.refl [], rfl, rfl⟩⟩
  | log call ctx other =>
    have hnil : ∀ r, [(⟨.logging (.log call ctx), r⟩ : Event (AuditOp S) AuditOp.Ret)].flatMap
        (streamed service) = [] := by
      intro r
      rw [streamed_cons, streamed, actionStory, LogEntry.story_other other]
      rfl
    refine keeps_act.mpr ⟨List.Sublist.refl [], fun r => keeps_done.mpr ?_⟩
    rw [hnil]
    exact ⟨List.Sublist.refl [], rfl, rfl⟩

end

/-! ## The log -/

/-- What a request logs is what `json.dumps` prints so that it can be read. -/
def ProcessRequest.Printed (repr : String → Option String) : ProcessRequest S → Prop
  | .record c _ => ∀ item ∈ c.detail.items, item.2.Printed repr
  | .log call _ _ => call.Printed repr
  | _ => True

/-- What the requests do to the log. -/
def LogAction.Served (service : String) (repr : String → Option String) : LogAction → Prop
  | .configure service' level => service' = service ∧ level.number ≤ LogLevel.info.number
  | .log call _ =>
    call.Printed repr ∧ (call.IsAudit → ∃ (c : AuditCall) (created : DateTime),
      call = c.line created)

/-- The operation is no other one on the log. -/
def AuditOp.Served (service : String) (repr : String → Option String) : AuditOp S → Prop
  | .logging action => action.Served service repr
  | _ => True

section
variable {service : String} {repr : String → Option String}

theorem line_printed {c : AuditCall} (h : ∀ item ∈ c.detail.items, item.2.Printed repr)
    (created : DateTime) : (c.line created).Printed repr := by
  intro item hitem
  rw [AuditCall.line, AuditCall.extra_items, List.mem_append] at hitem
  rcases hitem with hbase | hdetail
  · simp only [AuditCall.baseItems, List.mem_cons, List.not_mem_nil, or_false] at hbase
    rcases hbase with rfl | rfl | rfl | rfl | rfl
    · trivial
    · trivial
    · trivial
    · exact LogCall.printed_jsonText _
    · exact LogCall.printed_jsonText _
  · obtain ⟨detail, hmem, rfl⟩ := List.mem_map.mp hdetail
    exact h detail hmem

theorem persistFailed_printed (c : AuditCall) (created : DateTime) (raised : String) :
    (c.persistFailed created raised).Printed repr := by
  intro item hitem
  rw [List.mem_singleton.mp hitem]
  trivial

theorem handle_served {req : ProcessRequest S} (h : req.Printed repr) :
    ((auditProcess S service).handle req).All (AuditOp.Served service repr) := by
  cases req with
  | record c ctx =>
    have hline : ∀ created, (LogAction.log (c.line created) ctx).Served service repr :=
      fun created => ⟨line_printed h created, fun _ => ⟨c, created, rfl⟩⟩
    have hfailed : ∀ created raised,
        (LogAction.log (c.persistFailed created raised) ctx).Served service repr :=
      fun created raised => ⟨persistFailed_printed c created raised,
        fun h => absurd h (persistFailed_other created raised)⟩
    refine ⟨trivial, fun now => ⟨trivial, fun raised => ?_⟩⟩
    cases raised with
    | some raised =>
      exact ⟨trivial, fun created => ⟨hfailed created raised, fun _ =>
        ⟨trivial, fun created' => ⟨hline created', fun _ => trivial⟩⟩⟩⟩
    | none => exact ⟨trivial, fun created => ⟨hline created, fun _ => trivial⟩⟩
  | insert row => exact ⟨trivial, fun _ => trivial⟩
  | log call ctx other => exact ⟨⟨h, fun haudit => absurd haudit other⟩, fun _ => trivial⟩
  | configure level enabled => exact ⟨⟨rfl, enabled⟩, fun _ => trivial⟩

/-- The trail passes: nothing but the root has a say in the level of its logger. -/
structure AbstractLog.PassesAudit (l : AbstractLog) (service : String) : Prop where
  service : l.service = service
  logger : l.levels ["audit"] = none
  root : (l.levels []).elim 0 LogLevel.number ≤ LogLevel.info.number

theorem AbstractLog.PassesAudit.step {l : AbstractLog} (h : l.PassesAudit service)
    {action : LogAction} (hserved : action.Served service repr) :
    (l.step action).PassesAudit service := by
  cases action with
  | configure service' level => exact ⟨hserved.1, h.logger, hserved.2⟩
  | log call ctx =>
    rw [AbstractLog.step]
    split
    · exact h
    · exact ⟨h.service, h.logger, h.root⟩

/-- **The log's entries** tell of what the actions have recorded. -/
theorem AbstractLog.stories_step {l : AbstractLog} (h : l.PassesAudit service) {action : LogAction}
    (hserved : action.Served service repr) : (l.step action).entries.filterMap LogEntry.story =
      l.entries.filterMap LogEntry.story ++ actionStory service action := by
  cases action with
  | configure service' level => exact (List.append_nil _).symm
  | log call ctx =>
    rw [AbstractLog.step]
    split
    · rename_i hdropped
      have hother : ¬ call.IsAudit := by
        intro haudit
        obtain ⟨c, created, rfl⟩ := hserved.2 haudit
        rcases hdropped with hlevel | hoverwrites
        · rw [AuditCall.line, effectiveLevel, h.logger] at hlevel
          exact absurd h.root (Nat.not_le.mpr hlevel)
        · exact c.line_accepted created hoverwrites
      rw [actionStory, LogEntry.story_other hother]
      exact (List.append_nil _).symm
    · rw [actionStory, ← h.service]
      exact List.filterMap_append

theorem AbstractLog.stories_run {l : AbstractLog} (h : l.PassesAudit service)
    {actions : List LogAction} (hserved : ∀ action ∈ actions, action.Served service repr) :
    (l.run actions).entries.filterMap LogEntry.story =
      l.entries.filterMap LogEntry.story ++ actions.flatMap (actionStory service) := by
  induction actions generalizing l with
  | nil => exact (List.append_nil _).symm
  | cons action actions ih =>
    have haction := hserved action List.mem_cons_self
    rw [AbstractLog.run, List.foldl_cons, ← AbstractLog.run,
      ih (h.step haction) fun a ha => hserved a (List.mem_cons_of_mem _ ha),
      AbstractLog.stories_step h haction, List.flatMap_cons, List.append_assoc]

/-- Reading the stream and rebuilding gives the stories of the log's entries. -/
theorem Logs.rebuilt {s : LogState} {l : AbstractLog} (h : Logs s l)
    (hprinted : ∀ e ∈ l.entries, e.call.Printed repr) :
    (s.readLines repr).filterMap (fun object => object.bind readStory) =
      l.entries.filterMap LogEntry.story := by
  rw [h.reads hprinted, List.map_map, List.filterMap_map]
  rfl

end

/-! ## The database -/

theorem appendAudit_facts (log : List AuditRow) (entry : AuditEntry) :
    (appendAudit log entry).map AuditRow.facts = log.map AuditRow.facts ++ entry.rowFacts :=
  List.map_append

/-- Every row is one there was at first or one the sink was given. -/
def ProcessState.Sunk (contents : Contents S) (s : ProcessState S) : Prop :=
  ∀ rows ∈ [s.db.visible.auditLog, s.db.saved.auditLog],
    (rows.map AuditRow.facts).Sublist (contents.auditLog.map AuditRow.facts ++ s.sunk)

/-- What an operation of the connection leaves of the trail: what there was, saved or not, and the
entry it appends. -/
theorem appendAudit_logs (c : Connection S) (entry : AuditEntry) (failure : Option Failure) :
    ∀ rows ∈ [(c.appendAudit entry failure).1.visible.auditLog,
        (c.appendAudit entry failure).1.saved.auditLog],
      rows ∈ [c.visible.auditLog, c.saved.auditLog] ∨
        rows = EventLedger.appendAudit c.visible.auditLog entry := by
  rw [Connection.appendAudit]
  split
  · exact fun rows hrows => .inl hrows
  · dsimp only
    split
    · intro rows hrows
      rcases List.mem_pair.mp hrows with rfl | rfl
      · exact .inr rfl
      · exact .inl (List.mem_cons_of_mem _ List.mem_cons_self)
    · intro rows hrows
      rcases List.mem_pair.mp hrows with rfl | rfl
      · exact .inr rfl
      · exact .inr rfl

theorem insertRow_logs (c : Connection S) (row : S.Row) (failure : Option Failure) :
    ∀ rows ∈ [(c.insertRow row failure).1.visible.auditLog,
        (c.insertRow row failure).1.saved.auditLog],
      rows ∈ [c.visible.auditLog, c.saved.auditLog] := by
  have hvisible : c.visible.auditLog ∈ [c.visible.auditLog, c.saved.auditLog] :=
    List.mem_cons_self
  have hsaved : c.saved.auditLog ∈ [c.visible.auditLog, c.saved.auditLog] :=
    List.mem_cons_of_mem _ List.mem_cons_self
  intro rows hrows
  obtain ⟨h, -⟩ | ⟨h, -⟩ | ⟨table, -, ⟨h, -⟩ | ⟨h, -⟩⟩ := insertRow_cases c row failure
  · rw [h] at hrows
    exact hrows
  · rw [h] at hrows
    rcases List.mem_pair.mp hrows with rfl | rfl
    · exact hsaved
    · exact hsaved
  · rw [h] at hrows
    exact hrows
  · rw [h] at hrows
    rcases List.mem_pair.mp hrows with rfl | rfl
    · exact hvisible
    · exact hvisible

/-- One operation. -/
theorem processExec_sunk {contents : Contents S} {env : ProcessEnv} {s s' : ProcessState S}
    {o : AuditOp S} {r : o.Ret} (hs : s.Sunk contents) (h : processExec env s o = some (s', r)) :
    s'.Sunk contents := by
  cases o with
  | now =>
    cases h
    exact hs
  | logging action =>
    cases h
    exact hs
  | insert row =>
    cases h
    exact fun rows hrows => hs rows (insertRow_logs s.db row env.failure rows hrows)
  | sink entry =>
    cases h
    intro rows hrows
    dsimp only
    rw [← List.append_assoc]
    rcases appendAudit_logs s.db entry env.failure rows hrows with hold | rfl
    · exact (hs rows hold).trans (List.sublist_append_left _ _)
    · rw [appendAudit_facts]
      exact (hs _ List.mem_cons_self).append_right _

/-! ## The history -/

theorem processExec_actions (env : ProcessEnv) (s : ProcessState S) (o : AuditOp S)
    (s' : ProcessState S) (r : o.Ret) (h : processExec env s o = some (s', r)) :
    s'.actions = s.actions ++ performed ⟨o, r⟩ := by
  cases o with
  | logging action =>
    cases h
    rfl
  | _ =>
    cases h
    exact (List.append_nil _).symm

theorem processExec_sinks (env : ProcessEnv) (s : ProcessState S) (o : AuditOp S)
    (s' : ProcessState S) (r : o.Ret) (h : processExec env s o = some (s', r)) :
    s'.sunk = s.sunk ++ sunk ⟨o, r⟩ := by
  cases o with
  | sink entry =>
    cases h
    rfl
  | _ =>
    cases h
    exact (List.append_nil _).symm

theorem performed_stories (service : String) (e : Event (AuditOp S) AuditOp.Ret) :
    (performed e).flatMap (actionStory service) = streamed service e := by
  obtain ⟨o, r⟩ := e
  cases o with
  | logging action => exact List.flatMap_singleton ..
  | _ => rfl

/-! ## The mirror -/

section
variable {service : String} {repr : String → Option String} {contents : Contents S}
  {level : LogLevel} {loggers : Loggers} {ls : List (Label (ProcessRequest S) ProcessEnv)}
  {t : State (ProcessRequest S) (AuditOp S) AuditOp.Ret Unit (ProcessState S)}

/-- What a run does to the database and to the log. -/
theorem process_invariant (h : Run (auditProcess S service).step
      (.initial (.started contents service level loggers)) ls t) :
    t.store.Sunk contents ∧ t.store.log =
      (LogState.step ⟨loggers, ""⟩ (.configure service level)).run t.store.actions := by
  refine Run.preserves (I := fun s => s.store.Sunk contents ∧ s.store.log =
    (LogState.step ⟨loggers, ""⟩ (.configure service level)).run s.store.actions) ?_ h
    ⟨fun rows hrows => ?_, rfl⟩
  · rintro s a t ⟨hsunk, hlog⟩ hstep
    cases step_cases hstep with
    | arrive req => exact ⟨hsunk, hlog⟩
    | act i env req es o k store r hthread hexec =>
      refine ⟨processExec_sunk hsunk hexec, ?_⟩
      cases o with
      | logging action =>
        cases hexec
        show LogState.step s.store.log action = _
        rw [hlog, LogState.run, LogState.run, List.foldl_append]
        rfl
      | _ =>
        cases hexec
        exact hlog
  · rcases List.mem_pair.mp hrows with rfl | rfl
    · exact List.sublist_append_left _ _
    · exact List.sublist_append_left _ _

/-- Only requests that were served have done anything to the log. -/
theorem process_served (h : Run (auditProcess S service).step
      (.initial (.started contents service level loggers)) ls t)
    (hprinted : ∀ req, .arrive req ∈ ls → req.Printed repr) :
    ∀ action ∈ t.store.actions, action.Served service repr := by
  have haccount : t.store.actions.Perm ([] ++ t.emitted performed) :=
    accounted processExec_actions h
  intro action haction
  obtain ⟨th, hth, hevents⟩ := List.mem_flatMap.mp (haccount.mem_iff.mp haction)
  obtain ⟨⟨o, r⟩, hevent, hemit⟩ := List.mem_flatMap.mp hevents
  have hrequest : th.request.Printed repr := by
    rcases request_arrived h th hth with ⟨_, hmem, -⟩ | harrive
    · exact absurd hmem List.not_mem_nil
    · exact hprinted _ harrive
  have hran := run_ran h (fun _ hmem => absurd hmem List.not_mem_nil) th hth
  have hserved := ((handle_served hrequest).keeps _ _ hran).1 _ hevent
  cases o with
  | logging action' =>
    rw [List.mem_singleton.mp hemit]
    exact hserved
  | _ => exact absurd hemit List.not_mem_nil

/-- What is rebuilt from the stream is what the threads have written to it. -/
theorem rebuilt_perm (huntouched : loggers.Untouched) (haudit : (loggers ["audit"]).level = none)
    (hlevel : level.number ≤ LogLevel.info.number)
    (h : Run (auditProcess S service).step
      (.initial (.started contents service level loggers)) ls t)
    (hprinted : ∀ req, .arrive req ∈ ls → req.Printed repr) :
    ((t.store.log.readLines repr).filterMap fun object => object.bind readStory).Perm
      (t.emitted (streamed service)) := by
  have hserved := process_served h hprinted
  have hstarted : Logs (LogState.step ⟨loggers, ""⟩ (.configure service level))
      (AbstractLog.started service level loggers) :=
    ⟨configureLogging_routed huntouched, configureLogging_levels, rfl,
      fun e he => absurd he List.not_mem_nil⟩
  have hlogs : Logs t.store.log
      ((AbstractLog.started service level loggers).run t.store.actions) := by
    rw [(process_invariant h).2]
    exact hstarted.run t.store.actions
  have hentries : ∀ e ∈ ((AbstractLog.started service level loggers).run t.store.actions).entries,
      e.call.Printed repr := by
    intro e he
    rcases AbstractLog.mem_entries he with hold | hmem
    · exact absurd hold List.not_mem_nil
    · exact (hserved _ hmem).1
  have hpasses : (AbstractLog.started service level loggers).PassesAudit service :=
    ⟨rfl, haudit, hlevel⟩
  have haccount : (t.store.actions.flatMap (actionStory service)).Perm
      ([] ++ t.emitted (streamed service)) := by
    have hview : ∀ env (s : ProcessState S) o s' r, processExec env s o = some (s', r) →
        s'.actions.flatMap (actionStory service) =
          s.actions.flatMap (actionStory service) ++ streamed service ⟨o, r⟩ := by
      intro env s o s' r hexec
      rw [processExec_actions env s o s' r hexec, List.flatMap_append, performed_stories]
    exact accounted hview h
  rw [hlogs.rebuilt hentries, AbstractLog.stories_run hpasses hserved]
  exact haccount

/-- **The stream is a mirror of the trail.**  However calls of `record`, inserts of records, other
logging and new configurations of it interleave, and whatever the database refuses or takes back:
the entries rebuilt from the log stream are always entries that were recorded, no more often than
they were; when every request has been answered they are exactly those, and then every row of the
trail that can be read or is saved is one there was before or has the facts of one of them. -/
theorem audit_mirrored (repr : String → Option String) (contents : Contents S) (service : String)
    (level : LogLevel) (loggers : Loggers) (huntouched : loggers.Untouched)
    (haudit : (loggers ["audit"]).level = none) (hlevel : level.number ≤ LogLevel.info.number)
    (ls : List (Label (ProcessRequest S) ProcessEnv))
    (t : State (ProcessRequest S) (AuditOp S) AuditOp.Ret Unit (ProcessState S))
    (h : Run (auditProcess S service).step
      (.initial (.started contents service level loggers)) ls t)
    (hprinted : ∀ req, .arrive req ∈ ls → req.Printed repr) :
    let rebuilt := (t.store.log.readLines repr).filterMap fun object => object.bind readStory
    let recorded := t.threads.flatMap fun th => th.request.stories service
    rebuilt.Subperm recorded ∧
      (t.Quiet → rebuilt.Perm recorded ∧
        ∀ rows ∈ [t.store.db.visible.auditLog, t.store.db.saved.auditLog],
          (rows.map AuditRow.facts).Subperm
            (contents.auditLog.map AuditRow.facts ++ rebuilt.map AuditStory.facts)) := by
  intro rebuilt recorded
  have hrebuilt : rebuilt.Perm (t.emitted (streamed service)) :=
    rebuilt_perm huntouched haudit hlevel h hprinted
  have hkeeps := run_keeps (handle_keeps service) h
  constructor
  · refine hrebuilt.subperm.trans (List.Sublist.subperm ?_)
    exact List.Sublist.flatMap_right t.threads fun th hth => (hkeeps th hth).1
  · intro hquiet
    have hpost : ∀ th ∈ t.threads,
        th.events.flatMap (streamed service) = th.request.stories service ∧
          th.events.flatMap sunk = (th.request.stories service).map AuditStory.facts := by
      intro th hth
      obtain ⟨answer, hanswer⟩ := hquiet th hth
      exact (hkeeps th hth).2 answer hanswer
    have hrecorded : rebuilt.Perm recorded := by
      refine hrebuilt.trans (.of_eq ?_)
      exact List.flatMap_congr fun th hth => (hpost th hth).1
    refine ⟨hrecorded, fun rows hrows => ?_⟩
    have hsunk : t.store.sunk.Perm ([] ++ t.emitted sunk) := accounted processExec_sinks h
    have hemitted : t.emitted sunk = recorded.map AuditStory.facts := by
      rw [List.map_flatMap]
      exact List.flatMap_congr fun th hth => (hpost th hth).2
    refine ((process_invariant h).1 rows hrows).subperm.trans (List.Perm.subperm ?_)
    refine List.Perm.append_left _ (hsunk.trans ?_)
    rw [List.nil_append, hemitted]
    exact (hrecorded.map _).symm

/-- A call with a detail. -/
def sampleAuditCall : AuditCall where
  action := "EVENT_SUBMIT"
  outcome := "conflict"
  accountId := some "acct-1"
  eventId := some "evt-1"
  detail := Dict.empty.set "reason" (.str "payload mismatch")
  keywords := by decide

/-- The requests and the steps of a run in which the database is locked. -/
def lockedSteps : List (Label (ProcessRequest eventsSchema) ProcessEnv) :=
  .arrive (.record sampleAuditCall none) ::
    List.replicate 6 (.act 0 ⟨sampleTimestamp, some .insert, "database is locked"⟩)

theorem audit_mirrored_locked : ∃ t, Run (auditProcess eventsSchema "event-gateway").step
      (.initial (.started ⟨KeyedTable.Table.empty, []⟩ "event-gateway" .info servedLoggers))
      lockedSteps t ∧ t.store.db.visible.auditLog = [] ∧
    ((t.store.log.readLines some).filterMap fun object => object.bind readStory).Perm
      [sampleAuditCall.story "event-gateway" none] := by
  have hprinted : ∀ req, .arrive req ∈ lockedSteps → req.Printed some := by
    intro req hmem
    rcases List.mem_cons.mp hmem with hrequest | hacts
    · cases hrequest
      intro item hitem
      rw [List.mem_singleton.mp hitem]
      trivial
    · cases (List.mem_replicate.mp hacts).2
  have hrun : ∃ t, Run (auditProcess eventsSchema "event-gateway").step
      (.initial (.started ⟨KeyedTable.Table.empty, []⟩ "event-gateway" .info servedLoggers))
      lockedSteps t ∧ t.store.db.visible.auditLog = [] ∧ t.Quiet ∧
        t.threads.map Thread.request = [.record sampleAuditCall none] :=
    ⟨_, rfl, rfl, fun th hth => ⟨(), by rw [List.mem_singleton.mp hth]; rfl⟩, rfl⟩
  obtain ⟨t, hrun, hlog, hquiet, hrequests⟩ := hrun
  have hmirrored := audit_mirrored some ⟨KeyedTable.Table.empty, []⟩ "event-gateway" .info
    servedLoggers servedLoggers_untouched rfl (by decide) lockedSteps t hrun hprinted
  refine ⟨t, hrun, hlog, ?_⟩
  have hrecorded : t.threads.flatMap (fun th => th.request.stories "event-gateway") =
      [sampleAuditCall.story "event-gateway" none] := by
    rw [← List.flatMap_map, hrequests]
    rfl
  rw [← hrecorded]
  exact (hmirrored.2 hquiet).1

end

end EventLedger
