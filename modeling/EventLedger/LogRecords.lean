import EventLedger.DateTime
import EventLedger.PrintedJson
import EventLedger.Tracing

/-!
# Log records as lines of JSON

A `LogRecord` has its standard attributes and whatever was passed as `extra`; the
filter puts the ids of the current span on it, and the formatter prints one JSON
object.  An extra can be any JSON value, but it cannot stand for one of the fields the
formatter writes itself (`payload_get`), and the line reads back as the object
that was printed (`format_reads`).

`makeRecord` refuses an extra that would overwrite an attribute of the record; such a
call raises and prints nothing.
-/
namespace EventLedger

open OrderedDict

/-! ## Records -/

/-- `vars(logging.LogRecord("", 0, "", 0, "", (), None))`. -/
def standardAttributes : List String :=
  ["name", "msg", "args", "levelname", "levelno", "pathname", "filename", "module", "exc_info",
    "exc_text", "stack_info", "lineno", "funcName", "created", "msecs", "relativeCreated", "thread",
    "threadName", "processName", "process"]

/-- `_RESERVED`. -/
def reservedAttributes : List String := standardAttributes ++ ["message", "asctime", "taskName"]

/-- The levels of the module `logging`. -/
inductive LogLevel where
  | debug
  | info
  | warning
  | error
  | critical
  deriving DecidableEq, Repr

/-- `levelno`. -/
def LogLevel.number : LogLevel → ℕ
  | .debug => 10
  | .info => 20
  | .warning => 30
  | .error => 40
  | .critical => 50

/-- `levelname`. -/
def LogLevel.name : LogLevel → String
  | .debug => "DEBUG"
  | .info => "INFO"
  | .warning => "WARNING"
  | .error => "ERROR"
  | .critical => "CRITICAL"

/-- A `LogRecord`: what the formatter reads of its standard attributes, and the attributes it has
besides. -/
structure LogRecord where
  created : DateTime
  name : String
  level : LogLevel
  message : String
  /-- `formatException(exc_info)`. -/
  exception : Option String
  attributes : Dict String Json
  others : ∀ key ∈ attributes.keys, key ∉ standardAttributes

/-- A call of a logging method: the record's standard attributes, and `extra`. -/
structure LogCall where
  created : DateTime
  /-- The name of the logger, cut at its dots, the last part first. -/
  logger : List String
  level : LogLevel
  message : String
  exception : Option String
  extra : Dict String Json

/-- The name of the logger; that of the root logger is `"root"`. -/
def LogCall.loggerName (call : LogCall) : String :=
  if call.logger = [] then "root" else ".".intercalate call.logger.reverse

/-- The keys that `extra` may not have. -/
def LogCall.Overwrites (call : LogCall) : Prop :=
  ∃ key ∈ call.extra.keys, key ∈ ["message", "asctime"] ∨ key ∈ standardAttributes

instance (call : LogCall) : Decidable call.Overwrites :=
  inferInstanceAs (Decidable (∃ key ∈ call.extra.keys, _))

/-- `Logger.makeRecord`; `none` is its `KeyError`. -/
def LogCall.makeRecord (call : LogCall) : Option LogRecord :=
  if h : call.Overwrites then none
  else some
    { created := call.created, name := call.loggerName, level := call.level,
      message := call.message, exception := call.exception, attributes := call.extra,
      others := fun key hkey hstandard => h ⟨key, hkey, .inr hstandard⟩ }

/-- `setattr(record, key, value)`, of an attribute that is not a standard one. -/
def LogRecord.setAttribute (record : LogRecord) (key : String) (value : Json)
    (hkey : key ∉ standardAttributes) : LogRecord :=
  { record with
    attributes := record.attributes.set key value
    others := fun k hk => (Dict.mem_keys_set.mp hk).elim (fun h => h ▸ hkey) (record.others k) }

/-- A text or `None`. -/
def jsonText : Option String → Json
  | some s => .str s
  | none => .null

/-- `TraceContextFilter.filter`. -/
def TraceContextFilter.filter (record : LogRecord) : TracingM LogRecord := do
  let record := record.setAttribute "trace_id" (jsonText (← getTraceId)) (by decide)
  let record := record.setAttribute "span_id" (jsonText (← getSpanId)) (by decide)
  return record

/-! ## Lines -/

namespace JsonFormatter

/-- The fields every line has. -/
def fields (service : String) (record : LogRecord) : Dict String Json :=
  ((((((Dict.empty.set "timestamp" (.str record.created.isoformat)).set
    "level" (.str record.level.name)).set
    "service" (.str service)).set
    "logger" (.str record.name)).set
    "message" (.str record.message)).set
    "trace_id" ((record.attributes.get "trace_id").getD .null)).set
    "span_id" ((record.attributes.get "span_id").getD .null)

/-- Merge the attributes that are neither reserved nor in the payload. -/
def mergeExtras (payload : Dict String Json) : List (String × Json) → Dict String Json
  | [] => payload
  | (key, value) :: attributes =>
    if key ∉ reservedAttributes ∧ key ∉ payload.keys then
      mergeExtras (payload.set key value) attributes
    else mergeExtras payload attributes

/-- The object that is printed. -/
def payload (service : String) (record : LogRecord) : Dict String Json :=
  let payload := mergeExtras (fields service record) record.attributes.items
  match record.exception with
  | some text => payload.set "exception" (.str text)
  | none => payload

/-- `JsonFormatter.format`. -/
def format (service : String) (record : LogRecord) : String :=
  Json.dumps (.obj (payload service record).items)

end JsonFormatter

/-! ## What is printed -/

section
variable {service : String} {record : LogRecord} {key : String}

/-- The fields every line has, in order. -/
theorem JsonFormatter.fields_items : (fields service record).items =
    [("timestamp", .str record.created.isoformat), ("level", .str record.level.name),
      ("service", .str service), ("logger", .str record.name), ("message", .str record.message),
      ("trace_id", (record.attributes.get "trace_id").getD .null),
      ("span_id", (record.attributes.get "span_id").getD .null)] := rfl

theorem JsonFormatter.mergeExtras_get (payload : Dict String Json)
    (attributes : List (String × Json)) : (mergeExtras payload attributes).get key =
      (payload.get key).or
        (if key ∈ reservedAttributes then none else Dict.lookup key attributes) := by
  induction attributes generalizing payload with
  | nil =>
    have hnone : (if key ∈ reservedAttributes then none else Dict.lookup key []) =
        (none : Option Json) := by
      split <;> rfl
    rw [mergeExtras, hnone, Option.or_none]
  | cons item attributes ih =>
    obtain ⟨key', value⟩ := item
    rw [mergeExtras, Dict.lookup_cons]
    split
    · rename_i hnew
      rw [ih, Dict.get_set]
      by_cases hkey : key = key'
      · subst hkey
        rw [if_pos rfl, if_neg hnew.1, if_neg hnew.1, if_pos rfl, Dict.get_eq_none.mpr hnew.2]
        rfl
      · rw [if_neg hkey, if_neg (Ne.symm hkey)]
    · rename_i hold
      rw [ih]
      by_cases hkey : key' = key
      · subst hkey
        by_cases hreserved : key' ∈ reservedAttributes
        · rw [if_pos hreserved, if_pos hreserved]
        · have hmem : key' ∈ payload.keys := by
            by_contra hmem
            exact hold ⟨hreserved, hmem⟩
          obtain ⟨v, hv⟩ := Option.ne_none_iff_exists'.mp fun h => Dict.get_eq_none.mp h hmem
          rw [hv, Option.some_or, Option.some_or]
      · rw [if_neg hkey]

/-- The attributes that are merged keep their order. -/
theorem JsonFormatter.mergeExtras_items (payload : Dict String Json)
    {attributes : List (String × Json)} (hnodup : (attributes.map Prod.fst).Nodup) :
    (mergeExtras payload attributes).items = payload.items ++
      attributes.filter fun item => item.1 ∉ reservedAttributes ∧ item.1 ∉ payload.keys := by
  induction attributes generalizing payload with
  | nil => exact (List.append_nil _).symm
  | cons item attributes ih =>
    obtain ⟨key', value⟩ := item
    rw [List.map_cons, List.nodup_cons] at hnodup
    rw [mergeExtras]
    split
    · rename_i hnew
      have hset : (payload.set key' value).items = payload.items ++ [(key', value)] :=
        Dict.assign_of_notMem hnew.2 value
      rw [ih _ hnodup.2, hset, List.append_assoc, List.filter_cons_of_pos (by simpa using hnew)]
      refine congrArg (payload.items ++ (key', value) :: ·) (List.filter_congr fun item' h' => ?_)
      have hne : item'.1 ≠ key' := by
        rintro rfl
        exact hnodup.1 (List.mem_map.mpr ⟨item', h', rfl⟩)
      simp only [Dict.mem_keys_set, hne, false_or]
    · rename_i hold
      rw [ih _ hnodup.2, List.filter_cons_of_neg (by simpa using hold)]

/-- **What a line says under a key**: the exception, or a field, or an attribute that is not
reserved. -/
theorem JsonFormatter.payload_get : (payload service record).get key =
    if key = "exception" ∧ record.exception.isSome then record.exception.map .str
    else ((fields service record).get key).or
      (if key ∈ reservedAttributes then none else record.attributes.get key) := by
  rw [payload]
  cases hexception : record.exception with
  | none =>
    rw [if_neg fun h => Bool.false_ne_true h.2]
    exact mergeExtras_get _ _
  | some text =>
    dsimp only
    rw [Dict.get_set]
    by_cases hkey : key = "exception"
    · rw [if_pos hkey, if_pos ⟨hkey, rfl⟩]
      rfl
    · rw [if_neg hkey, if_neg fun h => hkey h.1]
      exact mergeExtras_get _ _

end

/-! ## What a call says -/

/-- The record of a call made in a span, as it is formatted. -/
def LogRecord.inSpan (record : LogRecord) (ctx : Option TraceContext) : LogRecord :=
  ((TraceContextFilter.filter record).run ctx).1

namespace LogCall

/-- The fields of the line for a call. -/
def fields (service : String) (ctx : Option TraceContext) (call : LogCall) :
    List (String × Json) :=
  [("timestamp", .str call.created.isoformat), ("level", .str call.level.name),
    ("service", .str service), ("logger", .str call.loggerName), ("message", .str call.message),
    ("trace_id", jsonText (ctx.map TraceContext.traceId)),
    ("span_id", jsonText (ctx.map TraceContext.spanId))]

/-- What the line for a call says under a key. -/
def fieldValue (service : String) (ctx : Option TraceContext) (call : LogCall) (key : String) :
    Option Json :=
  if key = "exception" ∧ call.exception.isSome then call.exception.map .str
  else (Dict.lookup key (call.fields service ctx)).or
    (if key ∈ reservedAttributes then none else call.extra.get key)

variable {service : String} {ctx : Option TraceContext} {call : LogCall} {record : LogRecord}

theorem makeRecord_eq_some : call.makeRecord = some record ↔
    ¬ call.Overwrites ∧ record.created = call.created ∧ record.name = call.loggerName ∧
      record.level = call.level ∧ record.message = call.message ∧
      record.exception = call.exception ∧ record.attributes = call.extra := by
  unfold makeRecord
  constructor
  · intro h
    split at h
    · cases h
    · rename_i hkeys
      cases h
      exact ⟨hkeys, rfl, rfl, rfl, rfl, rfl, rfl⟩
  · rintro ⟨hkeys, hcreated, hname, hlevel, hmessage, hexception, hattributes⟩
    rw [dif_neg hkeys]
    obtain ⟨_, _, _, _, _, _, _⟩ := record
    cases hcreated
    cases hname
    cases hlevel
    cases hmessage
    cases hexception
    cases hattributes
    rfl

/-- The attributes of a record after the filter. -/
theorem inSpan_get (key : String) : (record.inSpan ctx).attributes.get key =
    if key = "span_id" then some (jsonText (ctx.map TraceContext.spanId))
    else if key = "trace_id" then some (jsonText (ctx.map TraceContext.traceId))
    else record.attributes.get key :=
  (Dict.get_set _ _ _ _).trans (congrArg _ (Dict.get_set _ _ _ _))

theorem fields_inSpan (h : call.makeRecord = some record) :
    (JsonFormatter.fields service (record.inSpan ctx)).items = call.fields service ctx := by
  obtain ⟨-, hcreated, hname, hlevel, hmessage, -, -⟩ := makeRecord_eq_some.mp h
  rw [JsonFormatter.fields_items, inSpan_get, inSpan_get, fields, ← hcreated, ← hlevel, ← hname,
    ← hmessage]
  rfl

/-- **The line for a call** says under every key what the call says. -/
theorem payload_value (h : call.makeRecord = some record) (key : String) :
    (JsonFormatter.payload service (record.inSpan ctx)).get key =
      call.fieldValue service ctx key := by
  obtain ⟨-, -, -, -, -, hexception, hattributes⟩ := makeRecord_eq_some.mp h
  have hexception' : (record.inSpan ctx).exception = call.exception := hexception
  rw [JsonFormatter.payload_get, hexception', fieldValue, Dict.get, fields_inSpan h]
  by_cases hspan : key = "span_id"
  · subst hspan
    rfl
  · by_cases htrace : key = "trace_id"
    · subst htrace
      rfl
    · rw [inSpan_get, if_neg hspan, if_neg htrace, hattributes]

/-- No extra stands for a field. -/
theorem fieldValue_field {key : String} {value : Json}
    (h : (key, value) ∈ call.fields service ctx) :
    call.fieldValue service ctx key = some value := by
  simp only [fields, List.mem_cons, Prod.mk.injEq, List.not_mem_nil, or_false] at h
  rcases h with ⟨rfl, rfl⟩ | ⟨rfl, rfl⟩ | ⟨rfl, rfl⟩ | ⟨rfl, rfl⟩ | ⟨rfl, rfl⟩ | ⟨rfl, rfl⟩ |
    ⟨rfl, rfl⟩
  all_goals rfl

/-! ## Lines that read back -/

/-- The extras are what `json.dumps` prints so that it can be read. -/
def Printed (repr : String → Option String) (call : LogCall) : Prop :=
  ∀ item ∈ call.extra.items, item.2.Printed repr

theorem printedFields_of_forall {repr : String → Option String} {fields : List (String × Json)}
    (h : ∀ item ∈ fields, item.2.Printed repr) : Json.PrintedFields repr fields := by
  induction fields with
  | nil => trivial
  | cons item fields ih =>
    exact ⟨h item List.mem_cons_self, ih fun item' h' => h item' (List.mem_cons_of_mem _ h')⟩

theorem printed_jsonText {repr : String → Option String} (s : Option String) :
    (jsonText s).Printed repr := by
  cases s with
  | none => trivial
  | some s => trivial

theorem fieldValue_printed {repr : String → Option String} (hprinted : call.Printed repr)
    {key : String} {value : Json} (h : call.fieldValue service ctx key = some value) :
    value.Printed repr := by
  unfold fieldValue at h
  split at h
  · obtain ⟨text, -, rfl⟩ := Option.map_eq_some_iff.mp h
    trivial
  · rcases Option.or_eq_some_iff.mp h with hfield | ⟨-, hextra⟩
    · obtain ⟨item, hitem, rfl⟩ := Option.map_eq_some_iff.mp hfield
      have hmem := List.mem_of_find?_eq_some hitem
      simp only [fields, List.mem_cons, List.not_mem_nil, or_false] at hmem
      rcases hmem with rfl | rfl | rfl | rfl | rfl | rfl | rfl
      · trivial
      · trivial
      · trivial
      · trivial
      · trivial
      · exact printed_jsonText _
      · exact printed_jsonText _
    · split at hextra
      · cases hextra
      · exact hprinted _ (Dict.mem_items.mpr hextra)

/-- The object of a line is printed so that it can be read. -/
theorem payload_printed {repr : String → Option String} (hprinted : call.Printed repr)
    (h : call.makeRecord = some record) :
    (Json.obj (JsonFormatter.payload service (record.inSpan ctx)).items).Printed repr := by
  refine ⟨Dict.nodup _, printedFields_of_forall ?_⟩
  rintro ⟨key, value⟩ hitem
  have hget := Dict.mem_items.mp hitem
  rw [payload_value h] at hget
  exact fieldValue_printed hprinted hget

/-- **Reading a line** gives the object that was printed. -/
theorem format_reads {repr : String → Option String} (hprinted : call.Printed repr)
    (h : call.makeRecord = some record) :
    Json.loads repr (JsonFormatter.format service (record.inSpan ctx)) =
      some (.obj (JsonFormatter.payload service (record.inSpan ctx)).items) :=
  Json.loads_dumps (payload_printed hprinted h)

/-- **A line is one line.** -/
theorem format_line {repr : String → Option String} (hprinted : call.Printed repr)
    (h : call.makeRecord = some record) :
    '\n' ∉ (JsonFormatter.format service (record.inSpan ctx)).toList := by
  intro hmem
  have hprintable := Json.printable_dumps _ (payload_printed hprinted h) _ hmem
  revert hprintable
  decide

end LogCall

end EventLedger
