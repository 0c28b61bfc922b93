import EventLedger.Models

/-!
# Trace propagation

A service that receives a request begins a span on the incoming `traceparent`
header and sends its own one along with every request it makes in turn.
`Carries` is the grammar of the header; the parser reads exactly that grammar
(`parseTraceparent_iff`), every span that is ever begun formats within it
(`spanContext_wellFormed`), and so a trace keeps its identity over any number of
hops (`trace_survives`).

The ids of a new trace and of a new span are drawn from `Entropy`, which can be any
numbers; nothing assumes that two draws differ.
-/
namespace EventLedger

/-- `TraceContext`. -/
structure TraceContext where
  traceId : String
  spanId : String
  parentSpanId : Option String
  deriving DecidableEq, Repr

/-! ## Lowercase hexadecimal -/

/-- `[0-9a-f]`. -/
def isHexDigit (c : Char) : Bool :=
  let n := c.toNat
  (48 ≤ n ∧ n ≤ 57) || (97 ≤ n ∧ n ≤ 102)

/-- `bytes.hex()`. -/
def hex (bytes : List UInt8) : String :=
  String.ofList
    (bytes.flatMap fun b => [Json.hexDigit (b.toNat / 16), Json.hexDigit (b.toNat % 16)])

/-- Exactly `w` lowercase hexadecimal digits. -/
def HexDigits (w : ℕ) (s : String) : Prop :=
  s.toList.length = w ∧ ∀ c ∈ s.toList, isHexDigit c = true

theorem hexDigit_isHexDigit {n : ℕ} (h : n < 16) : isHexDigit (Json.hexDigit n) = true := by
  interval_cases n <;> decide

theorem hexDigits_hex (bytes : List UInt8) : HexDigits (2 * bytes.length) (hex bytes) := by
  constructor
  · rw [hex, String.toList_ofList]
    induction bytes with
    | nil => rfl
    | cons b bytes ih =>
      rw [List.flatMap_cons, List.length_append, ih, List.length_cons]
      show 2 + 2 * bytes.length = 2 * (bytes.length + 1)
      omega
  · intro c hc
    rw [hex, String.toList_ofList] at hc
    obtain ⟨b, -, hb⟩ := List.mem_flatMap.mp hc
    have hlt : b.toNat < 256 := b.toNat_lt
    rcases List.mem_pair.mp hb with rfl | rfl
    · exact hexDigit_isHexDigit (by omega)
    · exact hexDigit_isHexDigit (by omega)

/-! ## Trimming -/

/-- A text that neither starts nor ends with whitespace is left as it is. -/
theorem strip_eq_self {s : String} (hfirst : ∀ c ∈ s.toList.head?, isSpace c = false)
    (hlast : ∀ c ∈ s.toList.getLast?, isSpace c = false) : strip s = s := by
  have hkeep : ∀ l : List Char, (∀ c ∈ l.head?, isSpace c = false) → l.dropWhile isSpace = l := by
    intro l hl
    cases l with
    | nil => rfl
    | cons c l => rw [List.dropWhile_cons_of_neg (by simp [hl c rfl])]
  rw [strip, hkeep _ hfirst, hkeep, List.reverse_reverse, String.ofList_toList]
  rwa [List.head?_reverse]

/-- Nothing that was trimmed ends with whitespace. -/
theorem strip_last {s : String} {cs : List Char} {c : Char}
    (h : (strip s).toList = cs ++ [c]) : isSpace c = false := by
  rw [strip, String.toList_ofList] at h
  have hrev := congrArg List.reverse h
  rw [List.reverse_reverse, List.reverse_append, List.reverse_singleton] at hrev
  have hhead := List.head?_dropWhile_not isSpace (s.toList.dropWhile isSpace).reverse
  rw [hrev] at hhead
  simpa using hhead

/-! ## The header -/

/-- `[0-9a-f]{w}` at the front of a text. -/
def readHex (w : ℕ) (cs : List Char) : Option (String × List Char) :=
  if (cs.take w).length = w ∧ (cs.take w).all isHexDigit then
    some (String.ofList (cs.take w), cs.drop w)
  else none

/-- `$`: the end of the text, or of the line that ends it. -/
def atEnd (cs : List Char) : Bool := cs = [] || cs = ['\n']

/-- `_TRACEPARENT_RE.match`: the groups `trace_id` and `span_id`. -/
def matchTraceparent (s : String) : Option (String × String) := do
  let (_, cs) ← readHex 2 s.toList
  let cs ← expect '-' cs
  let (traceId, cs) ← readHex 32 cs
  let cs ← expect '-' cs
  let (spanId, cs) ← readHex 16 cs
  let cs ← expect '-' cs
  let (_, cs) ← readHex 2 cs
  if atEnd cs then some (traceId, spanId) else none

/-- `parse_traceparent`. -/
def parseTraceparent : Option String → Option TraceContext
  | none => none
  | some header =>
    if header = "" then none
    else (matchTraceparent (strip header)).map fun (traceId, spanId) =>
      { traceId := traceId, spanId := spanId, parentSpanId := some spanId }

/-- `format_traceparent`. -/
def formatTraceparent (ctx : TraceContext) : String :=
  "00-" ++ ctx.traceId ++ "-" ++ ctx.spanId ++ "-01"

/-- After trimming, the header reads `version-traceid-spanid-flags`. -/
def Carries (header traceId spanId : String) : Prop :=
  ∃ version flags, HexDigits 2 version ∧ HexDigits 32 traceId ∧ HexDigits 16 spanId ∧
    HexDigits 2 flags ∧
    strip header = version ++ "-" ++ traceId ++ "-" ++ spanId ++ "-" ++ flags

/-- The identifiers of a context have the lengths the header grammar wants. -/
structure TraceContext.WellFormed (ctx : TraceContext) : Prop where
  traceId : HexDigits 32 ctx.traceId
  spanId : HexDigits 16 ctx.spanId

/-! ## Reading what was written -/

theorem readHex_iff {w : ℕ} {cs rest : List Char} {s : String} :
    readHex w cs = some (s, rest) ↔ HexDigits w s ∧ cs = s.toList ++ rest := by
  constructor
  · intro h
    unfold readHex at h
    split at h
    · rename_i hhex
      cases h
      rw [HexDigits, String.toList_ofList]
      exact ⟨⟨hhex.1, List.all_eq_true.mp hhex.2⟩, (List.take_append_drop w cs).symm⟩
    · cases h
  · rintro ⟨⟨hlen, hhex⟩, rfl⟩
    rw [readHex, List.take_left' hlen, List.drop_left' hlen, String.ofList_toList,
      if_pos ⟨hlen, List.all_eq_true.mpr hhex⟩]

theorem expect_iff {c : Char} {cs rest : List Char} :
    expect c cs = some rest ↔ cs = c :: rest := by
  cases cs with
  | nil => simp [expect]
  | cons x xs =>
    by_cases hx : x = c
    · simp [expect, hx]
    · simp [expect, hx]

/-- The expression matches exactly the grammar, up to a line end. -/
theorem matchTraceparent_iff {s traceId spanId : String} :
    matchTraceparent s = some (traceId, spanId) ↔
      ∃ version flags rest, HexDigits 2 version ∧ HexDigits 32 traceId ∧ HexDigits 16 spanId ∧
        HexDigits 2 flags ∧ atEnd rest = true ∧
        s.toList = version.toList ++ '-' :: (traceId.toList ++ '-' :: (spanId.toList ++
          '-' :: (flags.toList ++ rest))) := by
  constructor
  · intro h
    simp only [matchTraceparent, Option.bind_eq_bind, Option.bind_eq_some_iff, Prod.exists,
      readHex_iff, expect_iff] at h
    obtain ⟨version, _, ⟨hversion, hs⟩, _, rfl, t, _, ⟨ht, rfl⟩, _, rfl, p, _, ⟨hp, rfl⟩, _, rfl,
      flags, rest, ⟨hflags, rfl⟩, hend⟩ := h
    by_cases hrest : atEnd rest = true
    · rw [if_pos hrest] at hend
      cases hend
      exact ⟨version, flags, rest, hversion, ht, hp, hflags, hrest, hs⟩
    · rw [if_neg hrest] at hend
      cases hend
  · rintro ⟨version, flags, rest, hversion, ht, hp, hflags, hrest, hs⟩
    simp only [matchTraceparent, hs, readHex_iff.mpr ⟨hversion, rfl⟩, readHex_iff.mpr ⟨ht, rfl⟩,
      readHex_iff.mpr ⟨hp, rfl⟩, readHex_iff.mpr ⟨hflags, rfl⟩, expect_cons,
      Option.bind_eq_bind, Option.bind_some, hrest, if_true]

/-- **Parsing.**  The parser accepts exactly the headers of the grammar, and reads their trace and
span off them. -/
theorem parseTraceparent_iff {header : String} {ctx : TraceContext} :
    parseTraceparent (some header) = some ctx ↔
      ∃ traceId spanId, Carries header traceId spanId ∧
        ctx = { traceId := traceId, spanId := spanId, parentSpanId := some spanId } := by
  constructor
  · intro h
    by_cases hne : header = ""
    · simp [parseTraceparent, hne] at h
    simp only [parseTraceparent, if_neg hne] at h
    obtain ⟨⟨traceId, spanId⟩, hmatch, hctx⟩ := Option.map_eq_some_iff.mp h
    obtain ⟨version, flags, rest, hversion, ht, hp, hflags, hend, hs⟩ :=
      matchTraceparent_iff.mp hmatch
    have hrest : rest = [] := by
      by_cases hnil : rest = []
      · exact hnil
      · -- a line end would have been trimmed
        have hline : rest = ['\n'] := by simpa [atEnd, hnil] using hend
        subst hline
        have hsplit : (strip header).toList = (version.toList ++ '-' :: (traceId.toList ++
            '-' :: (spanId.toList ++ '-' :: flags.toList))) ++ ['\n'] := by
          simpa using hs
        have hspace := strip_last hsplit
        exact absurd hspace (by decide)
    refine ⟨traceId, spanId, ⟨version, flags, hversion, ht, hp, hflags, ?_⟩, hctx.symm⟩
    apply String.toList_injective
    simpa [hrest] using hs
  · rintro ⟨traceId, spanId, ⟨version, flags, hversion, ht, hp, hflags, hs⟩, rfl⟩
    have hne : header ≠ "" := by
      rintro rfl
      have hlen := congrArg (fun s : String => s.toList.length) hs
      simp [strip] at hlen
    have hmatch : matchTraceparent (strip header) = some (traceId, spanId) := by
      refine matchTraceparent_iff.mpr ⟨version, flags, [], hversion, ht, hp, hflags, rfl, ?_⟩
      simp [hs]
    simp [parseTraceparent, hne, hmatch]

/-- A formatted context is a header that carries its trace and its span. -/
theorem carries_formatTraceparent {ctx : TraceContext} (h : ctx.WellFormed) :
    Carries (formatTraceparent ctx) ctx.traceId ctx.spanId := by
  have hzero : HexDigits 2 "00" := ⟨rfl, List.all_eq_true.mp (by decide)⟩
  have hone : HexDigits 2 "01" := ⟨rfl, List.all_eq_true.mp (by decide)⟩
  refine ⟨"00", "01", hzero, h.traceId, h.spanId, hone, ?_⟩
  have htext : formatTraceparent ctx =
      "00" ++ "-" ++ ctx.traceId ++ "-" ++ ctx.spanId ++ "-" ++ "01" := by
    apply String.toList_injective
    simp [formatTraceparent]
  rw [← htext]
  apply strip_eq_self
  · intro c hc
    have hc' : c = '0' := by simpa [formatTraceparent, eq_comm] using hc
    rw [hc']
    decide
  · intro c hc
    have hlast : (formatTraceparent ctx).toList = ("00-".toList ++ ctx.traceId.toList ++
        "-".toList ++ ctx.spanId.toList ++ "-0".toList) ++ ['1'] := by
      simp [formatTraceparent]
    rw [hlast, List.getLast?_concat] at hc
    have hc' : c = '1' := by simpa [eq_comm] using hc
    rw [hc']
    decide

/-- **Round trip.**  A formatted context is parsed as its trace, with its span as the parent. -/
theorem parseTraceparent_formatTraceparent {ctx : TraceContext} (h : ctx.WellFormed) :
    parseTraceparent (some (formatTraceparent ctx)) =
      some { traceId := ctx.traceId, spanId := ctx.spanId, parentSpanId := some ctx.spanId } :=
  parseTraceparent_iff.mpr ⟨ctx.traceId, ctx.spanId, carries_formatTraceparent h, rfl⟩

theorem Carries.wellFormed {header traceId spanId : String} (h : Carries header traceId spanId) :
    HexDigits 32 traceId ∧ HexDigits 16 spanId := by
  obtain ⟨_, _, _, ht, hs, _, _⟩ := h
  exact ⟨ht, hs⟩

/-! ## Spans -/

/-- What `os.urandom` hands out while a span is begun. -/
structure Entropy where
  traceBytes : Vector UInt8 16
  spanBytes : Vector UInt8 8

/-- `new_trace_id()`. -/
def Entropy.newTraceId (e : Entropy) : String := hex e.traceBytes.toList

/-- `new_span_id()`. -/
def Entropy.newSpanId (e : Entropy) : String := hex e.spanBytes.toList

/-- Code that reads and sets the context variable `_current`. -/
abbrev TracingM := StateM (Option TraceContext)

/-- The context `start_span` creates. -/
def spanContext (incoming : Option String) (e : Entropy) : TraceContext :=
  match parseTraceparent incoming with
  | some parent =>
    { traceId := parent.traceId, spanId := e.newSpanId, parentSpanId := parent.parentSpanId }
  | none => { traceId := e.newTraceId, spanId := e.newSpanId, parentSpanId := none }

/-- `start_span`. -/
def startSpan (incoming : Option String) (e : Entropy) : TracingM TraceContext := do
  let ctx := spanContext incoming e
  set (some ctx)
  return ctx

/-- `set_context`; the token is the value before. -/
def setContext (ctx : Option TraceContext) : TracingM (Option TraceContext) := do
  let token ← get
  set ctx
  return token

/-- `reset_context`. -/
def resetContext (token : Option TraceContext) : TracingM Unit := set token

/-- `get_context`. -/
def getContext : TracingM (Option TraceContext) := get

/-- `get_trace_id`. -/
def getTraceId : TracingM (Option String) := return (← get).map TraceContext.traceId

/-- `get_span_id`. -/
def getSpanId : TracingM (Option String) := return (← get).map TraceContext.spanId

/-- `outbound_headers`. -/
def outboundHeaders : TracingM (List (String × String)) := do
  match ← get with
  | none => return []
  | some ctx => return [("traceparent", formatTraceparent ctx)]

theorem hexDigits_newTraceId (e : Entropy) : HexDigits 32 e.newTraceId := by
  have h := hexDigits_hex e.traceBytes.toList
  rwa [Vector.length_toList] at h

theorem hexDigits_newSpanId (e : Entropy) : HexDigits 16 e.newSpanId := by
  have h := hexDigits_hex e.spanBytes.toList
  rwa [Vector.length_toList] at h

/-- Every span, minted or adopted, is within the grammar. -/
theorem spanContext_wellFormed (incoming : Option String) (e : Entropy) :
    (spanContext incoming e).WellFormed := by
  refine ⟨?_, ?_⟩
  · unfold spanContext
    cases hparse : parseTraceparent incoming with
    | none => exact hexDigits_newTraceId e
    | some parent =>
      cases incoming with
      | none => cases hparse
      | some header =>
        obtain ⟨traceId, spanId, hcarries, rfl⟩ := parseTraceparent_iff.mp hparse
        exact hcarries.wellFormed.1
  · unfold spanContext
    cases parseTraceparent incoming with
    | none => exact hexDigits_newSpanId e
    | some parent => exact hexDigits_newSpanId e

/-- A span begun on a valid header continues its trace, under the header's span. -/
theorem spanContext_of_carries {header traceId spanId : String} (e : Entropy)
    (h : Carries header traceId spanId) :
    (spanContext (some header) e).traceId = traceId ∧
      (spanContext (some header) e).parentSpanId = some spanId := by
  rw [spanContext, parseTraceparent_iff.mpr ⟨traceId, spanId, h, rfl⟩]
  exact ⟨rfl, rfl⟩

/-! ## Hops -/

/-- What one service brings to a chain: its randomness, and whatever its context variable holds
before the request. -/
structure Hop where
  entropy : Entropy
  current : Option TraceContext

/-- A service begins a span on the incoming header and sends a request of its own: the span, and the
`traceparent` header that request carries. -/
def Hop.visit (hop : Hop) (incoming : Option String) : TraceContext × Option String :=
  let visited : TracingM (TraceContext × Option String) := do
    let ctx ← startSpan incoming hop.entropy
    let headers ← outboundHeaders
    return (ctx, headers.lookup "traceparent")
  (visited.run hop.current).1

/-- The spans of a chain of services, each calling the next. -/
def chain : Option String → List Hop → List TraceContext
  | _, [] => []
  | incoming, hop :: hops =>
    (hop.visit incoming).1 :: chain (hop.visit incoming).2 hops

theorem Hop.visit_eq (hop : Hop) (incoming : Option String) :
    hop.visit incoming = (spanContext incoming hop.entropy,
      some (formatTraceparent (spanContext incoming hop.entropy))) := rfl

/-- **One hop.**  The next service's span belongs to the same trace, under the caller's span. -/
theorem visit_next (hop next : Hop) (incoming : Option String) :
    (next.visit (hop.visit incoming).2).1.traceId = (hop.visit incoming).1.traceId ∧
      (next.visit (hop.visit incoming).2).1.parentSpanId =
        some (hop.visit incoming).1.spanId := by
  simp only [Hop.visit_eq]
  exact spanContext_of_carries next.entropy
    (carries_formatTraceparent (spanContext_wellFormed incoming hop.entropy))

/-- Every span of a chain belongs to the trace of its first. -/
theorem chain_traceId (incoming : Option String) (first : Hop) (hops : List Hop) :
    ∀ ctx ∈ chain incoming (first :: hops), ctx.traceId = (first.visit incoming).1.traceId := by
  induction hops generalizing incoming first with
  | nil =>
    intro ctx hctx
    rw [List.mem_singleton.mp hctx]
  | cons next hops ih =>
    intro ctx hctx
    rcases List.mem_cons.mp hctx with rfl | hctx
    · rfl
    · rw [ih (first.visit incoming).2 next ctx hctx]
      exact (visit_next first next incoming).1

/-- Every span of a chain is the child of the one before it. -/
theorem chain_parents (incoming : Option String) (first : Hop) (hops : List Hop) :
    (chain incoming (first :: hops)).IsChain fun a b => b.parentSpanId = some a.spanId := by
  induction hops generalizing incoming first with
  | nil => exact List.isChain_singleton _
  | cons next hops ih =>
    apply List.IsChain.cons_cons
    · exact (visit_next first next incoming).2
    · exact ih (first.visit incoming).2 next

@[simp] theorem chain_length (incoming : Option String) (hops : List Hop) :
    (chain incoming hops).length = hops.length := by
  induction hops generalizing incoming with
  | nil => rfl
  | cons hop hops ih => rw [chain, List.length_cons, List.length_cons, ih]

/-- **Trace identity survives every hop.**  A formatted context is read back as its trace with its
span as the parent; and along a chain of any length, from whatever header the first service
receives, all spans carry one trace — the header's, if it is valid — and each is the child of the
one before it. -/
theorem trace_survives :
    (∀ ctx : TraceContext, HexDigits 32 ctx.traceId → HexDigits 16 ctx.spanId →
      ∃ parsed, parseTraceparent (some (formatTraceparent ctx)) = some parsed ∧
        parsed.traceId = ctx.traceId ∧ parsed.parentSpanId = some ctx.spanId) ∧
    ∀ (incoming : Option String) (first : Hop) (hops : List Hop),
      (chain incoming (first :: hops)).length = hops.length + 1 ∧
      (∃ traceId, (∀ ctx ∈ chain incoming (first :: hops), ctx.traceId = traceId) ∧
        ∀ header t s, incoming = some header → Carries header t s → traceId = t) ∧
      (chain incoming (first :: hops)).IsChain fun a b => b.parentSpanId = some a.spanId := by
  constructor
  · intro ctx htrace hspan
    exact ⟨_, parseTraceparent_formatTraceparent ⟨htrace, hspan⟩, rfl, rfl⟩
  · intro incoming first hops
    refine ⟨chain_length incoming (first :: hops),
      ⟨(first.visit incoming).1.traceId, chain_traceId incoming first hops, ?_⟩,
      chain_parents incoming first hops⟩
    rintro header t s rfl hcarries
    rw [Hop.visit_eq]
    exact (spanContext_of_carries first.entropy hcarries).1

/-- A service whose random bytes are all `0xab`. -/
def sampleHop : Hop := ⟨⟨Vector.replicate 16 0xab, Vector.replicate 8 0xab⟩, none⟩

theorem trace_survives_two_hops :
    (∃ parsed, parseTraceparent (some (formatTraceparent (sampleHop.visit none).1)) = some parsed ∧
      parsed.traceId = "abababababababababababababababab") ∧
    ∀ ctx ∈ chain (some " 00-4bf92f3577b34da6a3ce929d0e0e4736-00f067aa0ba902b7-01 ")
      [sampleHop, sampleHop], ctx.traceId = "4bf92f3577b34da6a3ce929d0e0e4736" := by
  have hctx : (sampleHop.visit none).1 = ⟨"abababababababababababababababab",
      "abababababababab", none⟩ := by decide +kernel
  constructor
  · rw [hctx]
    obtain ⟨parsed, hparsed, htrace, -⟩ := trace_survives.1
      ⟨"abababababababababababababababab", "abababababababab", none⟩
      ⟨rfl, List.all_eq_true.mp (by decide)⟩ ⟨rfl, List.all_eq_true.mp (by decide)⟩
    exact ⟨parsed, hparsed, htrace⟩
  · intro ctx hmem
    have hcarries : Carries " 00-4bf92f3577b34da6a3ce929d0e0e4736-00f067aa0ba902b7-01 "
        "4bf92f3577b34da6a3ce929d0e0e4736" "00f067aa0ba902b7" :=
      ⟨"00", "01", ⟨rfl, List.all_eq_true.mp (by decide)⟩,
        ⟨rfl, List.all_eq_true.mp (by decide)⟩, ⟨rfl, List.all_eq_true.mp (by decide)⟩,
        ⟨rfl, List.all_eq_true.mp (by decide)⟩, by decide +kernel⟩
    obtain ⟨-, ⟨traceId, hall, hheader⟩, -⟩ := trace_survives.2
      (some " 00-4bf92f3577b34da6a3ce929d0e0e4736-00f067aa0ba902b7-01 ") sampleHop [sampleHop]
    rw [hall ctx hmem]
    exact hheader _ _ _ rfl hcarries

end EventLedger
