import EventLedger.Tracing

/-!
# The reserved values of a trace header

The trace context grammar forbids the version `ff`, a trace id of zeros and a parent id
of zeros.  `parse_traceparent` knows the shape of the header (`parseTraceparent_iff`) but
not these values: on a header of the shape it does as the grammar says just if none of
the three is there (`traceparent_grammar_iff`).

`ValidHeader` is the grammar, written without the parser; the fields of a header of the
shape are unique, and that is what the comparison goes through.
-/
namespace EventLedger

/-- The digits of an all-zero id. -/
def zeros (w : ℕ) : String := String.ofList (List.replicate w '0')

/-- `version-traceid-parentid-flags`, after trimming, in lowercase hexadecimal digits. -/
structure HeaderShape (header version traceId parentId flags : String) : Prop where
  version_hex : HexDigits 2 version
  trace_hex : HexDigits 32 traceId
  parent_hex : HexDigits 16 parentId
  flags_hex : HexDigits 2 flags
  text : strip header = version ++ "-" ++ traceId ++ "-" ++ parentId ++ "-" ++ flags

/-- The header is one of the grammar, with these identifiers. -/
def ValidHeader (header traceId parentId : String) : Prop :=
  ∃ version flags, HeaderShape header version traceId parentId flags ∧ version ≠ "ff" ∧
    traceId ≠ zeros 32 ∧ parentId ≠ zeros 16

/-- The header has the shape, but a forbidden value in it. -/
def Reserved (header : String) : Prop :=
  ∃ version traceId parentId flags, HeaderShape header version traceId parentId flags ∧
    (version = "ff" ∨ traceId = zeros 32 ∨ parentId = zeros 16)

theorem carries_iff {header traceId parentId : String} :
    Carries header traceId parentId ↔
      ∃ version flags, HeaderShape header version traceId parentId flags := by
  constructor
  · rintro ⟨version, flags, hv, ht, hp, hf, htext⟩
    exact ⟨version, flags, hv, ht, hp, hf, htext⟩
  · rintro ⟨version, flags, hv, ht, hp, hf, htext⟩
    exact ⟨version, flags, hv, ht, hp, hf, htext⟩

/-- A field of known length and what follows it can be told apart. -/
theorem field_inj {w : ℕ} {s s' rest rest' : String} (h : HexDigits w s) (h' : HexDigits w s')
    (heq : s ++ rest = s' ++ rest') : s = s' ∧ rest = rest' := by
  have hlist := congrArg String.toList heq
  rw [String.toList_append, String.toList_append] at hlist
  obtain ⟨hs, hrest⟩ := List.append_inj hlist (h.1.trans h'.1.symm)
  exact ⟨String.toList_injective hs, String.toList_injective hrest⟩

theorem dash_inj {rest rest' : String} (h : "-" ++ rest = "-" ++ rest') : rest = rest' := by
  have hlist := congrArg String.toList h
  rw [String.toList_append, String.toList_append] at hlist
  exact String.toList_injective (List.append_cancel_left hlist)

/-- A header reads in one way only. -/
theorem HeaderShape.unique {header version traceId parentId flags version' traceId' parentId'
    flags' : String} (h : HeaderShape header version traceId parentId flags)
    (h' : HeaderShape header version' traceId' parentId' flags') :
    version = version' ∧ traceId = traceId' ∧ parentId = parentId' := by
  have htext := h.text.symm.trans h'.text
  simp only [String.append_assoc] at htext
  obtain ⟨hversion, htext⟩ := field_inj h.version_hex h'.version_hex htext
  obtain ⟨htrace, htext⟩ := field_inj h.trace_hex h'.trace_hex (dash_inj htext)
  obtain ⟨hparent, -⟩ := field_inj h.parent_hex h'.parent_hex (dash_inj htext)
  exact ⟨hversion, htrace, hparent⟩

/-- The parser's verdict, in terms of the header's shape. -/
theorem parse_iff_shape {header : String} {ctx : TraceContext} :
    parseTraceparent (some header) = some ctx ↔
      ∃ version traceId parentId flags, HeaderShape header version traceId parentId flags ∧
        ctx = { traceId := traceId, spanId := parentId, parentSpanId := some parentId } := by
  rw [parseTraceparent_iff]
  constructor
  · rintro ⟨traceId, parentId, hcarries, hctx⟩
    obtain ⟨version, flags, hshape⟩ := carries_iff.mp hcarries
    exact ⟨version, traceId, parentId, flags, hshape, hctx⟩
  · rintro ⟨version, traceId, parentId, flags, hshape, hctx⟩
    exact ⟨traceId, parentId, carries_iff.mpr ⟨version, flags, hshape⟩, hctx⟩

/-- **The grammar is met** on a header: the parser returns a context exactly if the header is valid,
and then with the header's identifiers; and a service that adopts the header's trace has a valid
one. -/
structure MeetsGrammar (header : String) : Prop where
  sound : ∀ ctx, parseTraceparent (some header) = some ctx → ∃ traceId parentId,
    ValidHeader header traceId parentId ∧ ctx.traceId = traceId ∧ ctx.parentSpanId = some parentId
  complete : ∀ traceId parentId, ValidHeader header traceId parentId →
    ∃ ctx, parseTraceparent (some header) = some ctx ∧ ctx.traceId = traceId ∧
      ctx.parentSpanId = some parentId
  adopted : ∀ hop : Hop, parseTraceparent (some header) ≠ none →
    (hop.visit (some header)).1.traceId ≠ zeros 32 ∧
      (hop.visit (some header)).1.parentSpanId ≠ some (zeros 16)

/-- Every valid header is parsed, with its identifiers. -/
theorem parse_of_valid {header traceId parentId : String}
    (h : ValidHeader header traceId parentId) :
    parseTraceparent (some header) =
      some { traceId := traceId, spanId := parentId, parentSpanId := some parentId } := by
  obtain ⟨version, flags, hshape, -⟩ := h
  exact parse_iff_shape.mpr ⟨version, traceId, parentId, flags, hshape, rfl⟩

/-- Without a forbidden value, what is parsed is valid. -/
theorem valid_of_parse {header : String} (hreserved : ¬ Reserved header) {ctx : TraceContext}
    (h : parseTraceparent (some header) = some ctx) : ∃ traceId parentId,
      ValidHeader header traceId parentId ∧ ctx.traceId = traceId ∧
        ctx.parentSpanId = some parentId := by
  obtain ⟨version, traceId, parentId, flags, hshape, rfl⟩ := parse_iff_shape.mp h
  refine ⟨traceId, parentId, ⟨version, flags, hshape, ?_, ?_, ?_⟩, rfl, rfl⟩
  · exact fun hv => hreserved ⟨version, traceId, parentId, flags, hshape, Or.inl hv⟩
  · exact fun ht => hreserved ⟨version, traceId, parentId, flags, hshape, Or.inr (Or.inl ht)⟩
  · exact fun hp => hreserved ⟨version, traceId, parentId, flags, hshape, Or.inr (Or.inr hp)⟩

/-- **The grammar of trace headers.**  On every header the parser does as the grammar says if and
only if the header is not of the shape with version `ff`, a trace id of zeros or a parent id of
zeros. -/
theorem traceparent_grammar_iff (header : String) : MeetsGrammar header ↔ ¬ Reserved header := by
  constructor
  · rintro hmeets ⟨version, traceId, parentId, flags, hshape, hforbidden⟩
    -- a forbidden value is accepted, and a header reads in one way only
    have hparse := parse_iff_shape.mpr ⟨version, traceId, parentId, flags, hshape, rfl⟩
    obtain ⟨_, _, ⟨version', flags', hshape', hversion, htrace, hparent⟩, -⟩ :=
      hmeets.sound _ hparse
    obtain ⟨rfl, rfl, rfl⟩ := hshape.unique hshape'
    rcases hforbidden with h | h | h
    · exact hversion h
    · exact htrace h
    · exact hparent h
  · intro hreserved
    refine ⟨fun ctx => valid_of_parse hreserved, ?_, ?_⟩
    · intro traceId parentId hvalid
      exact ⟨_, parse_of_valid hvalid, rfl, rfl⟩
    · intro hop hparse
      obtain ⟨ctx, hctx⟩ := Option.ne_none_iff_exists'.mp hparse
      obtain ⟨traceId, parentId, hvalid, -⟩ := valid_of_parse hreserved hctx
      obtain ⟨version, flags, hshape, -, htrace, hparent⟩ := hvalid
      obtain ⟨htrace', hparent'⟩ :=
        spanContext_of_carries hop.entropy (carries_iff.mpr ⟨version, flags, hshape⟩)
      rw [Hop.visit_eq, htrace', hparent']
      exact ⟨htrace, fun h => hparent (Option.some.inj h)⟩

/-- A header with a trace id of zeros. -/
def zeroHeader : String := "00-00000000000000000000000000000000-00f067aa0ba902b7-01"

/-- Such a header is accepted, adopted and propagated. -/
theorem traceparent_grammar_zero_trace :
    ¬ MeetsGrammar zeroHeader ∧
      (parseTraceparent (some zeroHeader)).map TraceContext.traceId = some (zeros 32) ∧
      sampleHop.visit (some zeroHeader) =
        (⟨zeros 32, "abababababababab", some "00f067aa0ba902b7"⟩,
          some "00-00000000000000000000000000000000-abababababababab-01") := by
  have hparse : (parseTraceparent (some zeroHeader)).map TraceContext.traceId =
      some (zeros 32) := by
    decide +kernel
  have hvisit : sampleHop.visit (some zeroHeader) =
      (⟨zeros 32, "abababababababab", some "00f067aa0ba902b7"⟩,
        some "00-00000000000000000000000000000000-abababababababab-01") := by
    decide +kernel
  refine ⟨?_, hparse, hvisit⟩
  intro hmeets
  have hne : parseTraceparent (some zeroHeader) ≠ none := by
    intro hnone
    rw [hnone] at hparse
    cases hparse
  have hadopted := (hmeets.adopted sampleHop hne).1
  rw [hvisit] at hadopted
  exact hadopted rfl

end EventLedger
