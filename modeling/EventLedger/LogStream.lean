import EventLedger.LogRecords
import Mathlib.Logic.Function.Basic

/-!
# The log stream

Loggers form a tree, and a record is handled by the handlers on the way from its
logger to the root.  `configure_logging` leaves one handler in that tree, on the
root, however often it is called and whatever handlers the server put there; so
the stream refines an abstract log, one entry for each call that is enabled, and
reading it line by line gives that log back (`log_stream`).
-/
namespace EventLedger

open OrderedDict

/-! ## The tree of loggers -/

/-- A handler: the one of `configure_logging`, or one that writes elsewhere. -/
inductive LogHandler where
  | ours (service : String)
  | other (id : ℕ)

/-- A `Logger`; no level is `NOTSET`. -/
structure LoggerConfig where
  level : Option LogLevel
  handlers : List LogHandler
  propagate : Bool

/-- All loggers, by their names; the root has no parts. -/
abbrev Loggers : Type := List String → LoggerConfig

/-- `Logger.getEffectiveLevel`: the nearest level on the way to the root. -/
def effectiveLevel (levels : List String → Option LogLevel) : List String → ℕ
  | [] => (levels []).elim 0 LogLevel.number
  | part :: parent =>
    match levels (part :: parent) with
    | some level => level.number
    | none => effectiveLevel levels parent

namespace Loggers

/-- The levels of the loggers. -/
def levels (loggers : Loggers) : List String → Option LogLevel := fun name => (loggers name).level

/-- The handlers that get a record, in order. -/
def handlersFor (loggers : Loggers) : List String → List LogHandler
  | [] => (loggers []).handlers
  | part :: parent =>
    (loggers (part :: parent)).handlers ++
      if (loggers (part :: parent)).propagate then handlersFor loggers parent else []

end Loggers

/-- The loggers of the server. -/
def serverLoggers : List (List String) := [["uvicorn"], ["error", "uvicorn"], ["access", "uvicorn"]]

/-- The loggers of the HTTP client. -/
def clientLoggers : List (List String) := [["httpx"], ["httpcore"]]

/-- `configure_logging`. -/
def configureLogging (service : String) (level : LogLevel) (loggers : Loggers) : Loggers :=
  let loggers := Function.update loggers []
    { loggers [] with level := some level, handlers := [.ours service] }
  -- uvicorn installs its own handlers; route them through ours instead.
  let loggers := serverLoggers.foldl (fun loggers name => Function.update loggers name
    { loggers name with handlers := [], propagate := true }) loggers
  clientLoggers.foldl (fun loggers name => Function.update loggers name
    { loggers name with level := some .warning }) loggers

/-! ## Logging -/

/-- What happens in a process that logs. -/
inductive LogAction where
  | configure (service : String) (level : LogLevel)
  /-- A logging method is called, in a span. -/
  | log (call : LogCall) (ctx : Option TraceContext)

/-- The loggers, and what has been written to `sys.stderr`. -/
structure LogState where
  loggers : Loggers
  stream : String

/-- `StreamHandler.emit`, for the handlers that write to the stream. -/
def emit (record : LogRecord) (ctx : Option TraceContext) (stream : String) : LogHandler → String
  | .ours service => stream ++ JsonFormatter.format service (record.inSpan ctx) ++ "\n"
  | .other _ => stream

/-- `Logger.callHandlers`; a record no handler gets is left to the handler of last resort. -/
def callHandlers (handlers : List LogHandler) (record : LogRecord) (ctx : Option TraceContext)
    (stream : String) : String :=
  match handlers with
  | [] => if LogLevel.warning.number ≤ record.level.number then stream ++ record.message ++ "\n"
    else stream
  | handlers => handlers.foldl (emit record ctx) stream

namespace LogState

/-- One action; a call that is not enabled makes no record, and a refused one raises. -/
def step (s : LogState) : LogAction → LogState
  | .configure service level => { s with loggers := configureLogging service level s.loggers }
  | .log call ctx =>
    if call.level.number < effectiveLevel s.loggers.levels call.logger then s
    else
      match call.makeRecord with
      | none => s
      | some record =>
        { s with stream := callHandlers (s.loggers.handlersFor call.logger) record ctx s.stream }

/-- Any number of actions. -/
def run (s : LogState) (actions : List LogAction) : LogState := actions.foldl step s

/-- The lines of the stream, read. -/
def readLines (repr : String → Option String) (s : LogState) : List (Option Json) :=
  (s.stream.toList.splitOn '\n').dropLast.map fun line => Json.loads repr (String.ofList line)

end LogState

/-! ## The abstract log -/

/-- A call that was logged: for which service, and in which span. -/
structure LogEntry where
  service : String
  call : LogCall
  ctx : Option TraceContext

/-- What a process that has configured logging logs: there are no handlers here. -/
structure AbstractLog where
  service : String
  levels : List String → Option LogLevel
  entries : List LogEntry

/-- The levels `configure_logging` leaves. -/
def configuredLevels (level : LogLevel) (levels : List String → Option LogLevel)
    (name : List String) : Option LogLevel :=
  if name ∈ clientLoggers then some .warning
  else if name = [] then some level
  else levels name

namespace AbstractLog

/-- One action. -/
def step (l : AbstractLog) : LogAction → AbstractLog
  | .configure service level =>
    { l with service := service, levels := configuredLevels level l.levels }
  | .log call ctx =>
    if call.level.number < effectiveLevel l.levels call.logger ∨ call.Overwrites then l
    else { l with entries := l.entries ++ [⟨l.service, call, ctx⟩] }

/-- Any number of actions. -/
def run (l : AbstractLog) (actions : List LogAction) : AbstractLog := actions.foldl step l

/-- The log of a process that begins by configuring it. -/
def started (service : String) (level : LogLevel) (loggers : Loggers) : AbstractLog :=
  ⟨service, configuredLevels level loggers.levels, []⟩

end AbstractLog

/-! ## One handler -/

section
variable {service : String} {level : LogLevel} {loggers : Loggers} {name : List String}

/-- Only the root and the server's loggers may have been given handlers. -/
def Loggers.Untouched (loggers : Loggers) : Prop :=
  ∀ name, name ≠ [] → name ∉ serverLoggers →
    (loggers name).handlers = [] ∧ (loggers name).propagate = true

/-- There is one handler, on the root. -/
structure Loggers.Routed (service : String) (loggers : Loggers) : Prop where
  root : (loggers []).handlers = [.ours service]
  handlers : ∀ name, name ≠ [] → (loggers name).handlers = []
  propagate : ∀ name, name ≠ [] → (loggers name).propagate = true

theorem Loggers.Routed.untouched (h : loggers.Routed service) : loggers.Untouched :=
  fun name hname _ => ⟨h.handlers name hname, h.propagate name hname⟩

/-- What `configure_logging` leaves of each logger. -/
theorem configureLogging_apply : configureLogging service level loggers name =
    if name = [] then { loggers [] with level := some level, handlers := [.ours service] }
    else if name ∈ serverLoggers then { loggers name with handlers := [], propagate := true }
    else if name ∈ clientLoggers then { loggers name with level := some .warning }
    else loggers name := by
  simp only [configureLogging, serverLoggers, clientLoggers, List.foldl_cons, List.foldl_nil,
    List.mem_cons, List.not_mem_nil, or_false]
  by_cases hroot : name = []
  · subst hroot
    rfl
  · by_cases h₁ : name = ["uvicorn"]
    · subst h₁
      rfl
    · by_cases h₂ : name = ["error", "uvicorn"]
      · subst h₂
        rfl
      · by_cases h₃ : name = ["access", "uvicorn"]
        · subst h₃
          rfl
        · by_cases h₄ : name = ["httpx"]
          · subst h₄
            rfl
          · by_cases h₅ : name = ["httpcore"]
            · subst h₅
              rfl
            · simp only [Function.update_of_ne, ne_eq, hroot, h₁, h₂, h₃, h₄, h₅,
                not_false_eq_true, or_self, if_false]

/-- **Configuring** leaves one handler. -/
theorem configureLogging_routed (h : loggers.Untouched) :
    (configureLogging service level loggers).Routed service where
  root := by rw [configureLogging_apply, if_pos rfl]
  handlers name hname := by
    rw [configureLogging_apply, if_neg hname]
    by_cases hserver : name ∈ serverLoggers
    · rw [if_pos hserver]
    · rw [if_neg hserver]
      split
      · exact (h name hname hserver).1
      · exact (h name hname hserver).1
  propagate name hname := by
    rw [configureLogging_apply, if_neg hname]
    by_cases hserver : name ∈ serverLoggers
    · rw [if_pos hserver]
    · rw [if_neg hserver]
      split
      · exact (h name hname hserver).2
      · exact (h name hname hserver).2

theorem configureLogging_levels :
    (configureLogging service level loggers).levels = configuredLevels level loggers.levels := by
  funext name
  have hdisjoint : ∀ name ∈ clientLoggers, name ≠ [] ∧ name ∉ serverLoggers := by decide
  rw [Loggers.levels, configureLogging_apply, configuredLevels]
  by_cases hclient : name ∈ clientLoggers
  · obtain ⟨hroot, hserver⟩ := hdisjoint name hclient
    rw [if_neg hroot, if_neg hserver, if_pos hclient, if_pos hclient]
  · rw [if_neg hclient, if_neg hclient]
    by_cases hroot : name = []
    · rw [if_pos hroot, if_pos hroot]
    · rw [if_neg hroot, if_neg hroot]
      split
      · rfl
      · rfl

/-- Every record reaches that handler, and no other. -/
theorem Loggers.Routed.handlersFor (h : loggers.Routed service) (name : List String) :
    loggers.handlersFor name = [.ours service] := by
  induction name with
  | nil => exact h.root
  | cons part parent ih =>
    have hne : part :: parent ≠ [] := List.cons_ne_nil _ _
    rw [Loggers.handlersFor, h.handlers _ hne, h.propagate _ hne, if_pos rfl, ih]
    rfl

end

/-! ## The stream is the log -/

/-- The line for an entry. -/
def LogEntry.line (e : LogEntry) : String :=
  match e.call.makeRecord with
  | some record => JsonFormatter.format e.service (record.inSpan e.ctx)
  | none => ""

/-- The text of some lines. -/
def linesText (lines : List String) : List Char := lines.flatMap fun line => line.toList ++ ['\n']

/-- **Reading lines.**  Lines without a line end in them are read as they were written. -/
theorem splitOn_linesText {lines : List String} (h : ∀ line ∈ lines, '\n' ∉ line.toList) :
    (linesText lines).splitOn '\n' = lines.map String.toList ++ [[]] := by
  induction lines with
  | nil => rfl
  | cons line lines ih =>
    have hline := h line List.mem_cons_self
    rw [linesText, List.flatMap_cons, List.append_assoc, List.singleton_append,
      List.splitOn_append_cons_self, List.splitOn_eq_singleton hline, List.map_cons]
    exact congrArg (line.toList :: ·) (ih fun line' h' => h line' (List.mem_cons_of_mem _ h'))

/-- The process and its abstract log. -/
structure Logs (s : LogState) (l : AbstractLog) : Prop where
  routed : s.loggers.Routed l.service
  levels : s.loggers.levels = l.levels
  stream : s.stream.toList = linesText (l.entries.map LogEntry.line)
  accepted : ∀ e ∈ l.entries, ¬ e.call.Overwrites

theorem callHandlers_ours {service : String} {record : LogRecord} {ctx : Option TraceContext}
    {stream : String} : callHandlers [.ours service] record ctx stream =
      stream ++ JsonFormatter.format service (record.inSpan ctx) ++ "\n" := rfl

/-- **One action** keeps the two together. -/
theorem Logs.step {s : LogState} {l : AbstractLog} (h : Logs s l) (action : LogAction) :
    Logs (s.step action) (l.step action) := by
  cases action with
  | configure service level =>
    exact ⟨configureLogging_routed h.routed.untouched,
      configureLogging_levels.trans (congrArg _ h.levels), h.stream, h.accepted⟩
  | log call ctx =>
    simp only [LogState.step, AbstractLog.step, ← h.levels]
    by_cases hlevel : call.level.number < effectiveLevel s.loggers.levels call.logger
    · rw [if_pos hlevel, if_pos (.inl hlevel)]
      exact h
    · rw [if_neg hlevel]
      cases hrecord : call.makeRecord with
      | none =>
        have hoverwrites : call.Overwrites := by
          by_contra hnot
          rw [LogCall.makeRecord, dif_neg hnot] at hrecord
          cases hrecord
        rw [if_pos (.inr hoverwrites)]
        exact h
      | some record =>
        have hnot : ¬ call.Overwrites := (LogCall.makeRecord_eq_some.mp hrecord).1
        rw [if_neg (not_or.mpr ⟨hlevel, hnot⟩)]
        refine ⟨h.routed, rfl, ?_, fun e he => ?_⟩
        · have hline : (⟨l.service, call, ctx⟩ : LogEntry).line =
              JsonFormatter.format l.service (record.inSpan ctx) := by
            rw [LogEntry.line, hrecord]
          dsimp only
          rw [h.routed.handlersFor, callHandlers_ours, List.map_append, linesText,
            List.flatMap_append, ← linesText, ← h.stream, String.toList_append,
            String.toList_append, ← hline, List.append_assoc, List.map_singleton,
            List.flatMap_singleton]
          rfl
        · rcases List.mem_append.mp he with he | he
          · exact h.accepted e he
          · rw [List.mem_singleton.mp he]
            exact hnot

theorem Logs.run {s : LogState} {l : AbstractLog} (h : Logs s l) (actions : List LogAction) :
    Logs (s.run actions) (l.run actions) := by
  induction actions generalizing s l with
  | nil => exact h
  | cons action actions ih => exact ih (h.step action)

/-- The calls that are logged were made. -/
theorem AbstractLog.mem_entries {l : AbstractLog} {actions : List LogAction} {e : LogEntry}
    (h : e ∈ (l.run actions).entries) : e ∈ l.entries ∨ .log e.call e.ctx ∈ actions := by
  induction actions generalizing l with
  | nil => exact .inl h
  | cons action actions ih =>
    rcases ih h with hstep | hmem
    · cases action with
      | configure service level => exact .inl hstep
      | log call ctx =>
        rw [AbstractLog.step] at hstep
        split at hstep
        · exact .inl hstep
        · rcases List.mem_append.mp hstep with hold | hnew
          · exact .inl hold
          · rw [List.mem_singleton.mp hnew]
            exact .inr List.mem_cons_self
    · exact .inr (List.mem_cons_of_mem _ hmem)

/-- An object is what an entry was printed as. -/
structure LogEntry.PrintedAs (e : LogEntry) (object : Dict String Json) : Prop where
  fields : ∀ field ∈ e.call.fields e.service e.ctx, object.get field.1 = some field.2
  value : ∀ key, object.get key = e.call.fieldValue e.service e.ctx key

/-- The object an entry is printed as. -/
def LogEntry.object (e : LogEntry) : Dict String Json :=
  match e.call.makeRecord with
  | some record => JsonFormatter.payload e.service (record.inSpan e.ctx)
  | none => Dict.empty

theorem LogEntry.printedAs (e : LogEntry) {record : LogRecord}
    (h : e.call.makeRecord = some record) : e.PrintedAs e.object := by
  have hobject : e.object = JsonFormatter.payload e.service (record.inSpan e.ctx) := by
    rw [LogEntry.object, h]
  refine ⟨fun field hfield => ?_, fun key => ?_⟩
  · rw [hobject, LogCall.payload_value h]
    exact LogCall.fieldValue_field hfield
  · rw [hobject, LogCall.payload_value h]

/-- The stream reads back as the objects of its entries. -/
theorem Logs.reads {repr : String → Option String} {s : LogState} {l : AbstractLog}
    (h : Logs s l) (hprinted : ∀ e ∈ l.entries, e.call.Printed repr) :
    s.readLines repr = (l.entries.map LogEntry.object).map fun object =>
      some (.obj object.items) := by
  have hrecord : ∀ e ∈ l.entries, ∃ record, e.call.makeRecord = some record :=
    fun e he => ⟨_, dif_neg (h.accepted e he)⟩
  have hline : ∀ line ∈ l.entries.map LogEntry.line, '\n' ∉ line.toList := by
    intro line hline
    obtain ⟨e, he, rfl⟩ := List.mem_map.mp hline
    obtain ⟨record, hrecord⟩ := hrecord e he
    rw [LogEntry.line, hrecord]
    exact LogCall.format_line (hprinted e he) hrecord
  rw [LogState.readLines, h.stream, splitOn_linesText hline, List.dropLast_concat, List.map_map,
    List.map_map, List.map_map]
  refine List.map_congr_left fun e he => ?_
  obtain ⟨record, hrecord⟩ := hrecord e he
  show Json.loads repr (String.ofList e.line.toList) = some (.obj e.object.items)
  rw [String.ofList_toList, LogEntry.line, LogEntry.object, hrecord]
  exact LogCall.format_reads (hprinted e he) hrecord

/-- **The log stream.**  In a process that configures logging, and again as often as it likes, with
whatever handlers the server had put on the root and on its own loggers: what is written to the
stream is one line for each call that is enabled and not refused, in order; every line reads back
as a JSON object that has the fields of its call, among them the ids of the span it was made in,
and under every other key the exception, or the extra that was passed. -/
theorem log_stream (repr : String → Option String) (loggers : Loggers)
    (huntouched : loggers.Untouched) (service : String) (level : LogLevel)
    (actions : List LogAction)
    (hprinted : ∀ call ctx, .log call ctx ∈ actions → call.Printed repr) :
    ∃ objects : List (Dict String Json),
      (LogState.run ⟨loggers, ""⟩ (.configure service level :: actions)).readLines repr =
        objects.map (fun object => some (.obj object.items)) ∧
      List.Forall₂ LogEntry.PrintedAs
        ((AbstractLog.started service level loggers).run actions).entries objects := by
  have hstarted : Logs (LogState.step ⟨loggers, ""⟩ (.configure service level))
      (AbstractLog.started service level loggers) :=
    ⟨configureLogging_routed huntouched, configureLogging_levels, rfl,
      fun e he => absurd he List.not_mem_nil⟩
  have hlogs := hstarted.run actions
  have hcalls : ∀ e ∈ ((AbstractLog.started service level loggers).run actions).entries,
      e.call.Printed repr ∧ ∃ record, e.call.makeRecord = some record := by
    intro e he
    refine ⟨?_, ⟨_, dif_neg (hlogs.accepted e he)⟩⟩
    rcases AbstractLog.mem_entries he with hold | hmem
    · exact absurd hold List.not_mem_nil
    · exact hprinted _ _ hmem
  refine ⟨_, hlogs.reads fun e he => (hcalls e he).1, ?_⟩
  rw [List.forall₂_map_right_iff, List.forall₂_same]
  intro e he
  obtain ⟨-, record, hrecord⟩ := hcalls e he
  exact e.printedAs hrecord

/-- The loggers as the server leaves them. -/
def servedLoggers : Loggers := fun name =>
  if name = ["uvicorn"] then ⟨some .info, [.other 0], false⟩
  else if name = ["access", "uvicorn"] then ⟨some .info, [.other 1], false⟩
  else ⟨none, [], true⟩

theorem servedLoggers_untouched : servedLoggers.Untouched := by
  intro name hname hserver
  rw [servedLoggers, if_neg, if_neg]
  · exact ⟨rfl, rfl⟩
  · rintro rfl
    exact hserver (by decide)
  · rintro rfl
    exact hserver (by decide)

/-- A call with a line end and quotes in its message, and an extra under a field's name. -/
def forgingCall : LogCall where
  created := sampleTimestamp
  logger := ["access", "uvicorn"]
  level := .info
  message := "GET /\n\x7b\"service\": \"account-service\"\x7d"
  exception := none
  extra := Dict.empty.set "service" (.str "account-service")

theorem log_stream_forging : ∃ object : Dict String Json,
    (LogState.run ⟨servedLoggers, ""⟩ [.configure "event-gateway" .info,
      .configure "event-gateway" .info, .log forgingCall none]).readLines some =
        [some (.obj object.items)] ∧
      object.get "service" = some (.str "event-gateway") ∧
      object.get "message" = some (.str forgingCall.message) := by
  have hprinted : ∀ call ctx, LogAction.log call ctx ∈ [.configure "event-gateway" .info,
      .log forgingCall none] → call.Printed some := by
    intro call ctx hmem
    simp only [List.mem_cons, reduceCtorEq, LogAction.log.injEq, List.not_mem_nil, or_false,
      false_or] at hmem
    rw [hmem.1]
    rintro ⟨key, value⟩ hitem
    rw [List.mem_singleton.mp hitem]
    trivial
  obtain ⟨objects, hread, hobjects⟩ := log_stream some servedLoggers servedLoggers_untouched
    "event-gateway" .info [.configure "event-gateway" .info, .log forgingCall none] hprinted
  have hentries : ((AbstractLog.started "event-gateway" .info servedLoggers).run
      [.configure "event-gateway" .info, .log forgingCall none]).entries =
        [⟨"event-gateway", forgingCall, none⟩] := rfl
  rw [hentries] at hobjects
  cases hobjects with
  | cons hobject hrest =>
    cases hrest
    exact ⟨_, hread, (hobject.value "service").trans rfl, (hobject.value "message").trans rfl⟩

end EventLedger
