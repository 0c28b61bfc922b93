import EventLedger.Audit
import EventLedger.LogStream

/-!
# Lines of the audit trail

`AuditTrail.record` writes an entry twice, as a row of the database and as a line
of the log.  The details of the entry are extras of the line, under keys of their
own, so a line is never refused and never mistaken for another, and the entry can
be rebuilt from it (`line_rebuilds`).

A reader of the log knows a line of the trail by its logger.  What it rebuilds is the
story of the entry: action, outcome, ids and details, as the call was given them.
-/
namespace EventLedger

open OrderedDict

/-! ## Recording -/

/-- A call of `AuditTrail.record`; a keyword that is a parameter is no detail. -/
structure AuditCall where
  action : String
  outcome : String
  accountId : Option String
  eventId : Option String
  detail : Dict String Json
  keywords : ∀ key ∈ detail.keys,
    key ∉ ["self", "action", "outcome", "account_id", "event_id"]

/-- `f"audit_{key}"`. -/
def auditKey (key : String) : String := "audit_" ++ key

/-- The `extra` of the line. -/
def AuditCall.extra (c : AuditCall) : Dict String Json :=
  c.detail.items.foldl (fun extra item => extra.set (auditKey item.1) item.2)
    (((((Dict.empty.set "audit" (.bool true)).set
      "audit_action" (.str c.action)).set
      "audit_outcome" (.str c.outcome)).set
      "account_id" (jsonText c.accountId)).set
      "event_id" (jsonText c.eventId))

/-- `logger.info("audit", extra=…)`. -/
def AuditCall.line (c : AuditCall) (created : DateTime) : LogCall where
  created := created
  logger := ["audit"]
  level := .info
  message := "audit"
  exception := none
  extra := c.extra

/-- `logger.exception("audit.persist_failed", …)`. -/
def AuditCall.persistFailed (c : AuditCall) (created : DateTime) (exception : String) :
    LogCall where
  created := created
  logger := ["audit"]
  level := .error
  message := "audit.persist_failed"
  exception := some exception
  extra := Dict.empty.set "audit_action" (.str c.action)

/-! ## What the line says -/

theorem auditKey_toList (key : String) :
    (auditKey key).toList = "audit_".toList ++ key.toList := String.toList_append

theorem auditKey_injective : Function.Injective auditKey := by
  intro a b h
  have hchars := congrArg String.toList h
  rw [auditKey_toList, auditKey_toList] at hchars
  exact String.toList_injective (List.append_cancel_left hchars)

/-- Items under new keys are appended. -/
theorem foldl_set_items {items : List (String × Json)} {f : String → String} {d : Dict String Json}
    (hinjective : Function.Injective f) (hnodup : (items.map Prod.fst).Nodup)
    (hnew : ∀ item ∈ items, f item.1 ∉ d.keys) :
    (items.foldl (fun d item => d.set (f item.1) item.2) d).items =
      d.items ++ items.map fun item => (f item.1, item.2) := by
  induction items generalizing d with
  | nil => exact (List.append_nil _).symm
  | cons item items ih =>
    rw [List.map_cons, List.nodup_cons] at hnodup
    have hset : (d.set (f item.1) item.2).items = d.items ++ [(f item.1, item.2)] :=
      Dict.assign_of_notMem (hnew item List.mem_cons_self) item.2
    rw [List.foldl_cons, ih hnodup.2, hset, List.append_assoc]
    · rfl
    · intro item' hitem' hmem
      rcases Dict.mem_keys_set.mp hmem with hsame | hold
      · rw [← hinjective hsame] at hnodup
        exact hnodup.1 (List.mem_map_of_mem (f := Prod.fst) hitem')
      · exact hnew item' (List.mem_cons_of_mem _ hitem') hold

/-- The key of a detail starts as no other key does. -/
theorem auditKey_notMem {keys : List String}
    (h : ∀ key ∈ keys, "audit_".toList.isPrefixOf key.toList = false) (key : String) :
    auditKey key ∉ keys := by
  intro hmem
  have hprefix := h _ hmem
  rw [auditKey_toList, List.isPrefixOf_iff_prefix.mpr (List.prefix_append _ _)] at hprefix
  cases hprefix

namespace AuditCall

variable {c : AuditCall} {service : String} {ctx : Option TraceContext} {created : DateTime}
  {record : LogRecord}

/-- The items every line of the trail has. -/
def baseItems (c : AuditCall) : List (String × Json) :=
  [("audit", .bool true), ("audit_action", .str c.action), ("audit_outcome", .str c.outcome),
    ("account_id", jsonText c.accountId), ("event_id", jsonText c.eventId)]

/-- A detail is none of them. -/
theorem auditKey_ne (hkey : key ∈ c.detail.keys) :
    auditKey key ∉ c.baseItems.map Prod.fst := by
  have haction : auditKey key ≠ auditKey "action" := fun h =>
    c.keywords key hkey (by rw [auditKey_injective h]; decide)
  have houtcome : auditKey key ≠ auditKey "outcome" := fun h =>
    c.keywords key hkey (by rw [auditKey_injective h]; decide)
  have hothers : auditKey key ∉ ["audit", "account_id", "event_id"] :=
    auditKey_notMem (by decide) key
  intro hmem
  simp only [baseItems, List.map_cons, List.map_nil, List.mem_cons, List.not_mem_nil,
    or_false] at hmem hothers
  rcases hmem with h | h | h | h | h
  · exact hothers (.inl h)
  · exact haction h
  · exact houtcome h
  · exact hothers (.inr (.inl h))
  · exact hothers (.inr (.inr h))

theorem extra_items : c.extra.items =
    c.baseItems ++ c.detail.items.map fun item => (auditKey item.1, item.2) :=
  foldl_set_items auditKey_injective c.detail.nodup fun _ hitem =>
    auditKey_ne (List.mem_map_of_mem hitem)

/-- A key of the line's extras. -/
theorem mem_extra_keys {key : String} (h : key ∈ c.extra.keys) :
    key ∉ reservedAttributes ∧ key ∉ ["timestamp", "level", "service", "logger", "message",
      "trace_id", "span_id"] := by
  rw [Dict.keys, extra_items, List.map_append, List.mem_append] at h
  rcases h with hbase | hdetail
  · simp only [baseItems, List.map_cons, List.map_nil, List.mem_cons, List.not_mem_nil,
      or_false] at hbase
    rcases hbase with rfl | rfl | rfl | rfl | rfl
    all_goals decide
  · rw [List.map_map] at hdetail
    obtain ⟨item, -, rfl⟩ := List.mem_map.mp hdetail
    exact ⟨auditKey_notMem (by decide) item.1, auditKey_notMem (by decide) item.1⟩

/-- The line is never refused. -/
theorem line_accepted (c : AuditCall) (created : DateTime) : ¬ (c.line created).Overwrites := by
  rintro ⟨key, hkey, hreserved⟩
  refine (mem_extra_keys hkey).1 (List.mem_append.mpr ?_)
  rcases hreserved with hmessage | hstandard
  · rcases List.mem_pair.mp hmessage with rfl | rfl
    · exact .inr (by decide)
    · exact .inr (by decide)
  · exact .inl hstandard

/-- The attributes of the line's record: the extras, and the ids of the span. -/
theorem line_attributes (h : (c.line created).makeRecord = some record) :
    (record.inSpan ctx).attributes.items = c.extra.items ++
      [("trace_id", jsonText (ctx.map TraceContext.traceId)),
        ("span_id", jsonText (ctx.map TraceContext.spanId))] := by
  obtain ⟨-, -, -, -, -, -, hattributes⟩ := LogCall.makeRecord_eq_some.mp h
  have hextra : record.attributes = c.extra := hattributes
  have htrace : "trace_id" ∉ record.attributes.keys := fun hmem =>
    (mem_extra_keys (hextra ▸ hmem)).2 (by decide)
  have hspan : "span_id" ∉ (record.attributes.set "trace_id"
      (jsonText (ctx.map TraceContext.traceId))).keys := by
    intro hmem
    rcases Dict.mem_keys_set.mp hmem with hsame | hmem
    · revert hsame
      decide
    · exact (mem_extra_keys (hextra ▸ hmem)).2 (by decide)
  have hset : (record.attributes.set "trace_id" (jsonText (ctx.map TraceContext.traceId))).items =
      record.attributes.items ++ [("trace_id", jsonText (ctx.map TraceContext.traceId))] :=
    Dict.assign_of_notMem htrace _
  refine (Dict.assign_of_notMem hspan _).trans ?_
  refine (congrArg (· ++ _) hset).trans ?_
  rw [hextra, List.append_assoc]
  rfl

/-- The items of the object that is printed. -/
theorem line_items (h : (c.line created).makeRecord = some record) :
    (JsonFormatter.payload service (record.inSpan ctx)).items =
      (c.line created).fields service ctx ++ c.extra.items := by
  obtain ⟨-, -, -, -, -, hexception, -⟩ := LogCall.makeRecord_eq_some.mp h
  have hnone : (record.inSpan ctx).exception = none := hexception
  have hkeys : (JsonFormatter.fields service (record.inSpan ctx)).keys =
      ["timestamp", "level", "service", "logger", "message", "trace_id", "span_id"] := by
    rw [Dict.keys, LogCall.fields_inSpan h]
    rfl
  have hkept : c.extra.items.filter (fun item => item.1 ∉ reservedAttributes ∧
      item.1 ∉ (JsonFormatter.fields service (record.inSpan ctx)).keys) = c.extra.items := by
    refine List.filter_eq_self.mpr fun item hitem => decide_eq_true ?_
    rw [hkeys]
    exact mem_extra_keys (List.mem_map_of_mem hitem)
  rw [JsonFormatter.payload, hnone]
  dsimp only
  rw [JsonFormatter.mergeExtras_items _ (Dict.nodup _), line_attributes h, List.filter_append,
    hkept, LogCall.fields_inSpan h, hkeys]
  exact congrArg (_ ++ ·) (List.append_nil _)

end AuditCall

/-! ## Reading the trail back -/

/-- What an entry tells, but for the reading of the clock. -/
structure AuditStory where
  service : String
  action : String
  outcome : String
  accountId : Option String
  eventId : Option String
  traceId : Option String
  detail : List (String × Json)

/-- What a call tells. -/
def AuditCall.story (c : AuditCall) (service : String) (ctx : Option TraceContext) : AuditStory :=
  ⟨service, c.action, c.outcome, c.accountId, c.eventId, (getTraceId.run ctx).1, c.detail.items⟩

/-- A text. -/
def readText : Option Json → Option String
  | some (.str s) => some s
  | _ => none

/-- A text or `null`. -/
def readOptional : Option Json → Option (Option String)
  | some (.str s) => some (some s)
  | some .null => some none
  | _ => none

/-- The detail a member of the line's object stands for. -/
def readDetail (item : String × Json) : Option (String × Json) :=
  if item.1 = "audit_action" ∨ item.1 = "audit_outcome" then none
  else ("audit_".toList.isPrefixOf? item.1.toList).map fun key => (String.ofList key, item.2)

/-- The entry a line of the trail tells of; other lines tell of none. -/
def readStory : Json → Option AuditStory
  | .obj items => do
    let field := fun key => Dict.lookup key items
    if readText (field "logger") = some "audit" ∧ readText (field "message") = some "audit" then
      return { service := ← readText (field "service"), action := ← readText (field "audit_action"),
               outcome := ← readText (field "audit_outcome"),
               accountId := ← readOptional (field "account_id"),
               eventId := ← readOptional (field "event_id"),
               traceId := ← readOptional (field "trace_id"), detail := items.filterMap readDetail }
    else none
  | _ => none

theorem readOptional_jsonText (s : Option String) :
    readOptional (some (jsonText s)) = some s := by
  cases s with
  | none => rfl
  | some s => rfl

theorem readDetail_auditKey {key : String} (haction : key ≠ "action") (houtcome : key ≠ "outcome")
    (value : Json) : readDetail (auditKey key, value) = some (key, value) := by
  have hfirst : auditKey key ≠ "audit_action" := fun h => haction (auditKey_injective h)
  have hsecond : auditKey key ≠ "audit_outcome" := fun h => houtcome (auditKey_injective h)
  have hstrip : "audit_".toList.isPrefixOf? (auditKey key).toList = some key.toList :=
    List.isPrefixOf?_eq_some_iff_append_eq.mpr (auditKey_toList key).symm
  rw [readDetail, if_neg (not_or.mpr ⟨hfirst, hsecond⟩), hstrip, Option.map_some,
    String.ofList_toList]

namespace AuditCall

variable {c : AuditCall} {service : String} {ctx : Option TraceContext} {created : DateTime}
  {record : LogRecord}

/-- Nothing but the details is read as one. -/
theorem readDetail_other {item : String × Json}
    (h : item ∈ (c.line created).fields service ctx ++ c.baseItems) : readDetail item = none := by
  have hkeys : ∀ key ∈ ["timestamp", "level", "service", "logger", "message", "trace_id", "span_id",
      "audit", "audit_action", "audit_outcome", "account_id", "event_id"],
      (key = "audit_action" ∨ key = "audit_outcome") ∨
        "audit_".toList.isPrefixOf? key.toList = none := by decide +kernel
  rcases hkeys item.1 (List.mem_map_of_mem h) with hexcluded | hstrip
  · rw [readDetail, if_pos hexcluded]
  · rw [readDetail, hstrip]
    split
    · rfl
    · rfl

/-- The details are read back as they were passed. -/
theorem line_details :
    ((c.line created).fields service ctx ++ c.extra.items).filterMap readDetail =
      c.detail.items := by
  rw [extra_items, ← List.append_assoc, List.filterMap_append,
    List.filterMap_eq_nil_iff.mpr fun item hitem => readDetail_other hitem, List.nil_append,
    List.filterMap_map]
  refine (List.filterMap_congr fun item hitem => ?_).trans List.filterMap_some
  have hkeywords := c.keywords item.1 (List.mem_map_of_mem hitem)
  exact readDetail_auditKey (fun h => hkeywords (by rw [h]; decide))
    (fun h => hkeywords (by rw [h]; decide)) item.2

/-- What is found among the fields and the items every line of the trail has. -/
theorem line_lookup {key : String} {value : Json}
    (hvalue : Dict.lookup key ((c.line created).fields service ctx ++ c.baseItems) = some value) :
    Dict.lookup key ((c.line created).fields service ctx ++ c.extra.items) = some value := by
  rw [extra_items, ← List.append_assoc, Dict.lookup, List.find?_append, Option.map_or]
  exact Option.or_eq_some_iff.mpr (.inl hvalue)

/-- **The line has everything the entry has.** -/
theorem line_rebuilds (h : (c.line created).makeRecord = some record) :
    readStory (.obj (JsonFormatter.payload service (record.inSpan ctx)).items) =
      some (c.story service ctx) := by
  rw [line_items h]
  have hlookup : ∀ {key value},
      Dict.lookup key ((c.line created).fields service ctx ++ c.baseItems) = some value →
      Dict.lookup key ((c.line created).fields service ctx ++ c.extra.items) = some value :=
    fun h => line_lookup h
  have hlogger := hlookup (show Dict.lookup "logger" _ = some (.str "audit") from rfl)
  have hmessage := hlookup (show Dict.lookup "message" _ = some (.str "audit") from rfl)
  have hservice := hlookup (show Dict.lookup "service" _ = some (.str service) from rfl)
  have haction := hlookup (show Dict.lookup "audit_action" _ = some (.str c.action) from rfl)
  have houtcome := hlookup (show Dict.lookup "audit_outcome" _ = some (.str c.outcome) from rfl)
  have haccount := hlookup (show Dict.lookup "account_id" _ = some (jsonText c.accountId) from rfl)
  have hevent := hlookup (show Dict.lookup "event_id" _ = some (jsonText c.eventId) from rfl)
  have htrace := hlookup (show Dict.lookup "trace_id" _ =
    some (jsonText (ctx.map TraceContext.traceId)) from rfl)
  simp only [readStory, line_details, hlogger, hmessage, hservice, haction, houtcome, haccount,
    hevent, htrace, readText, readOptional_jsonText]
  rfl

end AuditCall

/-! ## Lines of others -/

/-- The call logs a line of the trail. -/
def LogCall.IsAudit (call : LogCall) : Prop :=
  call.loggerName = "audit" ∧ call.message = "audit"

/-- The entry that is rebuilt from the line for a call. -/
def LogEntry.story (e : LogEntry) : Option AuditStory := readStory (.obj e.object.items)

/-- Other lines tell of no entry. -/
theorem LogEntry.story_other {e : LogEntry} (h : ¬ e.call.IsAudit) : e.story = none := by
  cases hrecord : e.call.makeRecord with
  | none =>
    rw [LogEntry.story, LogEntry.object, hrecord]
    rfl
  | some record =>
    have hlogger : Dict.lookup "logger" e.object.items = some (.str e.call.loggerName) :=
      ((e.printedAs hrecord).value "logger").trans rfl
    have hmessage : Dict.lookup "message" e.object.items = some (.str e.call.message) :=
      ((e.printedAs hrecord).value "message").trans rfl
    rw [LogEntry.story, readStory]
    refine if_neg fun hboth => h ?_
    dsimp only at hboth
    rw [hlogger, hmessage] at hboth
    exact ⟨Option.some.inj hboth.1, Option.some.inj hboth.2⟩

/-- A line of the trail tells of its entry. -/
theorem LogEntry.story_line (c : AuditCall) (service : String) (ctx : Option TraceContext)
    (created : DateTime) : (⟨service, c.line created, ctx⟩ : LogEntry).story =
      some (c.story service ctx) := by
  obtain ⟨record, hrecord⟩ : ∃ record, (c.line created).makeRecord = some record :=
    ⟨_, dif_neg (c.line_accepted created)⟩
  have hobject : (⟨service, c.line created, ctx⟩ : LogEntry).object =
      JsonFormatter.payload service (record.inSpan ctx) := by
    rw [LogEntry.object, hrecord]
  rw [LogEntry.story, hobject]
  exact AuditCall.line_rebuilds hrecord

end EventLedger
