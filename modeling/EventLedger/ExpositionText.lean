import EventLedger.Metrics

/-!
# Reading the exposition back

`render` quotes label values as they are.  Its text is therefore a text of raw lines
(`toList_render`), and a reader of the exposition format finds exactly the samples of
the registry if and only if no label value holds a backslash, a double quote or a line
feed (`render_reads_back_iff`).

The reader and the theory of raw and escaped label values are the library's; this
module finds the lines that the registry prints and shows that each is one of them.
-/
namespace EventLedger

open OrderedDict TextExposition DecimalDigits

/-- Labels with their names as strings. -/
def labelStrings (items : List (LabelName × String)) : List (String × String) :=
  items.map fun item => (item.1.val, item.2)

theorem labelNames_labelStrings (items : List (LabelName × String)) :
    LabelNames (labelStrings items) := by
  intro item hitem
  obtain ⟨item', -, rfl⟩ := List.mem_map.mp hitem
  exact item'.1.property

theorem labelStrings_injective : Function.Injective labelStrings := by
  apply List.map_injective_iff.mpr
  rintro ⟨k, v⟩ ⟨k', v'⟩ h
  rw [Prod.mk.injEq] at h
  rw [Prod.mk.injEq]
  exact ⟨Subtype.val_injective h.1, h.2⟩

/-- `_render_labels` writes raw labels. -/
theorem toList_renderLabels (key : LabelKey) (extra : List (LabelName × String)) :
    (renderLabels key extra).toList = rawLabelSet (labelStrings (key.items ++ extra)) := by
  unfold renderLabels rawLabelSet
  by_cases hnil : key.items ++ extra = []
  · rw [if_pos hnil, hnil]
    rfl
  · have hstrings : labelStrings (key.items ++ extra) ≠ [] := by
      rwa [labelStrings, Ne, List.map_eq_nil_iff]
    have hitems : ((key.items ++ extra).map
        fun item => item.1.val ++ "=\"" ++ item.2 ++ "\"").map String.toList =
        (labelStrings (key.items ++ extra)).map rawLabel := by
      rw [labelStrings, List.map_map, List.map_map]
      apply List.map_congr_left
      intro item _
      simp [rawLabel]
    rw [if_neg hnil, if_neg hstrings, ← rawLabels_eq hstrings, ← hitems]
    simp [String.toList_intercalate]

/-- No label value of the set has to be escaped. -/
def LabelKey.Plain (key : LabelKey) : Prop := ∀ item ∈ key.items, TextExposition.Plain item.2.toList

/-- **Distinct plain label sets are written differently.** -/
theorem renderLabels_inj {key key' : LabelKey} (hplain : key.Plain) (hplain' : key'.Plain)
    (h : renderLabels key [] = renderLabels key' []) : key = key' := by
  have hraw := congrArg String.toList h
  rw [toList_renderLabels, toList_renderLabels, List.append_nil, List.append_nil] at hraw
  have hstrings : ∀ key : LabelKey, key.Plain → PlainLabels (labelStrings key.items) := by
    intro key hkey item hitem
    obtain ⟨item', hitem', rfl⟩ := List.mem_map.mp hitem
    exact hkey item' hitem'
  have hitems := rawLabelSet_inj (labelNames_labelStrings key.items)
    (labelNames_labelStrings key'.items) (hstrings key hplain) (hstrings key' hplain') hraw
  rw [LabelKey.mk.injEq]
  exact labelStrings_injective hitems

/-! ## Lines -/

section
variable {F : Type} (text : FloatText F)

theorem Number.text_ne (n : Number F) : (n.text text).toList ≠ [] := by
  cases n with
  | int n =>
    rw [Number.text, String.toList_ofList]
    exact natDigits_ne_nil n
  | float x => exact text.str_ne x

theorem Number.text_chars (n : Number F) : ∀ c ∈ (n.text text).toList, isFloatChar c = true := by
  cases n with
  | int n =>
    intro c hc
    rw [Number.text, String.toList_ofList] at hc
    rw [isFloatChar, natDigits_isDigit n c hc]
    rfl
  | float x => exact text.str_chars x

theorem Number.read_text (n : Number F) : text.read (n.text text) = some (n.value text) := by
  cases n with
  | int n => exact text.read_nat n
  | float x => exact text.read_str x

/-- None of the characters of a number separates tokens, lines or labels. -/
theorem isFloatChar_plain {c : Char} (h : isFloatChar c = true) :
    isBlank c = false ∧ c ≠ '\n' ∧ c ≠ '{' ∧ c ≠ '\\' ∧ c ≠ '"' := by
  refine ⟨isBlank_eq_false (by decide) (by decide) h, ?_, ?_, ?_, ?_⟩
  all_goals
    rintro rfl
    exact absurd h (by decide)

/-- What the line of a sample should say. -/
def Sample.reading (s : Sample F) : Reading F :=
  ⟨s.name.val, labelStrings (s.key.items ++ s.extra), s.value.value text, none⟩

/-- A sample as a raw line. -/
def Sample.raw (s : Sample F) : RawSample text.read where
  name := s.name.val
  labels := labelStrings (s.key.items ++ s.extra)
  text := s.value.text text
  value := s.value.value text
  name_isName := s.name.property
  labelNames := labelNames_labelStrings _
  text_ne := s.value.text_ne text
  text_word c hc :=
    let h := isFloatChar_plain (s.value.text_chars text c hc)
    ⟨h.1, h.2.1, h.2.2.1⟩
  text_reads := s.value.read_text text

theorem Sample.toList_text (s : Sample F) : (s.text text).toList = (s.raw text).chars := by
  rw [Sample.text, RawSample.chars, String.toList_append, String.toList_append,
    String.toList_append, toList_renderLabels, List.append_assoc, List.append_assoc]
  rfl

theorem MetricName.newline_not_mem (name : MetricName) : '\n' ∉ name.val.toList :=
  RawLine.newline_not_mem_name name.property (by decide) (by decide)

/-- The lines of one metric: its two headers and its samples. -/
def metricLines (name : MetricName) (description kind : Description) (samples : List (Sample F)) :
    List (RawLine text.read) :=
  [.comment ("# HELP " ++ name.val ++ " " ++ description.val).toList (by simp)
      (by simp [name.newline_not_mem, description.property]),
    .comment ("# TYPE " ++ name.val ++ kind.val).toList (by simp)
      (by simp [name.newline_not_mem, kind.property])] ++
    samples.map fun s => .sample (s.raw text)

theorem chars_metricLines (name : MetricName) (description kind : Description)
    (samples : List (Sample F)) :
    (metricLines text name description kind samples).map RawLine.chars =
      (["# HELP " ++ name.val ++ " " ++ description.val, "# TYPE " ++ name.val ++ kind.val] ++
        samples.map fun s => s.text text).map String.toList := by
  rw [metricLines, List.map_append, List.map_append, List.map_map, List.map_map]
  congr 1
  apply List.map_congr_left
  intro s _
  exact (s.toList_text text).symm

theorem reading_metricLines (name : MetricName) (description kind : Description)
    (samples : List (Sample F)) :
    (metricLines text name description kind samples).filterMap RawLine.reading =
      samples.map fun s => s.reading text := by
  rw [metricLines, List.filterMap_append, List.filterMap_map]
  show [] ++ _ = _
  rw [List.nil_append, ← List.filterMap_eq_map]
  rfl

/-- Without the comments, the lines of a metric are its samples. -/
theorem filter_metricLines (name : MetricName) (description kind : Description)
    (samples : List (Sample F)) :
    ((metricLines text name description kind samples).map RawLine.chars).filter
        (fun l => l.head? ≠ some '#') =
      samples.map fun s => (s.text text).toList := by
  have hkeep : ∀ l ∈ samples.map fun s => (s.text text).toList,
      decide (l.head? ≠ some '#') = true := by
    intro l hl
    obtain ⟨s, -, rfl⟩ := List.mem_map.mp hl
    obtain ⟨c, cs, hchars, hstart⟩ := (s.raw text).exists_head
    rw [s.toList_text, hchars, List.head?_cons]
    apply decide_eq_true
    intro hc
    rw [Option.some.inj hc] at hstart
    exact absurd hstart (by decide)
  rw [chars_metricLines, List.map_append, List.filter_append, List.map_map]
  have hheaders : (["# HELP " ++ name.val ++ " " ++ description.val,
      "# TYPE " ++ name.val ++ kind.val].map String.toList).filter
        (fun l => l.head? ≠ some '#') = [] := by
    simp
  rw [hheaders, List.nil_append]
  exact List.filter_eq_self.mpr hkeep

/-- A line is plain if the labels of its sample are. -/
theorem plain_metricLines (name : MetricName) (description kind : Description)
    (samples : List (Sample F)) :
    (∀ l ∈ metricLines text name description kind samples, l.Plain) ↔
      ∀ s ∈ samples, PlainLabels (labelStrings (s.key.items ++ s.extra)) := by
  rw [metricLines, List.forall_mem_append, List.forall_mem_map]
  constructor
  · rintro ⟨-, h⟩ s hs
    exact h s hs
  · intro h
    refine ⟨?_, h⟩
    intro l hl
    rcases List.mem_pair.mp hl with rfl | rfl
    · trivial
    · trivial

end

/-! ## The registry -/

namespace MetricsRegistry

variable {F : Type} (text : FloatText F) [Zero F] (r : MetricsRegistry F)

/-- The samples of the registry, in the order of the exposition. -/
def samples : List (Sample F) :=
  r.requestsTotal.samples ++ r.errorsTotal.samples ++ r.requestLatency.samples text

/-- The exposition as raw lines. -/
def rawLines : List (RawLine text.read) :=
  metricLines text r.requestsTotal.name r.requestsTotal.description ⟨" counter", by decide⟩
      r.requestsTotal.samples ++
    metricLines text r.errorsTotal.name r.errorsTotal.description ⟨" counter", by decide⟩
      r.errorsTotal.samples ++
    metricLines text r.requestLatency.name r.requestLatency.description ⟨" histogram", by decide⟩
      (r.requestLatency.samples text)

/-- **The text is a text of raw lines.** -/
theorem toList_render : (r.render text).toList = rawText (r.rawLines text) := by
  have hlines : (r.lines text).map String.toList = (r.rawLines text).map RawLine.chars := by
    rw [lines, rawLines, List.map_append, List.map_append, List.map_append, List.map_append,
      chars_metricLines, chars_metricLines, chars_metricLines]
    rfl
  have hne : r.rawLines text ≠ [] := by simp [rawLines, metricLines]
  rw [render, String.toList_append, String.toList_intercalate, hlines, ← rawText_eq hne]
  rfl

theorem reading_rawLines :
    (r.rawLines text).filterMap RawLine.reading =
      (r.samples text).map fun s => s.reading text := by
  rw [rawLines, List.filterMap_append, List.filterMap_append, reading_metricLines,
    reading_metricLines, reading_metricLines, samples, List.map_append, List.map_append]

theorem plain_rawLines :
    (∀ l ∈ r.rawLines text, l.Plain) ↔
      ∀ s ∈ r.samples text, PlainLabels (labelStrings (s.key.items ++ s.extra)) := by
  rw [rawLines, List.forall_mem_append, List.forall_mem_append, plain_metricLines,
    plain_metricLines, plain_metricLines, samples, List.forall_mem_append,
    List.forall_mem_append]

omit [Zero F] in
/-- What a line adds to its label set is plain. -/
theorem plain_boundText (upper : F) : Plain (Histogram.boundText text upper).toList := by
  unfold Histogram.boundText
  split
  · decide
  · intro c hc
    have h := isFloatChar_plain (text.str_chars upper c hc)
    exact ⟨h.2.2.2.1, h.2.2.2.2, h.2.1⟩

omit [Zero F] in
theorem of_mem_counterSamples {c : Counter F} {s : Sample F} (hs : s ∈ c.samples) :
    s.key ∈ c.values.keys ∧ s.extra = [] := by
  obtain ⟨item, hitem, rfl⟩ := List.mem_map.mp hs
  exact ⟨List.mem_map.mpr ⟨item, hitem, rfl⟩, rfl⟩

/-- Every sample is about a label set of the registry, and what it adds to that is plain. -/
theorem of_mem_samples {s : Sample F} (hs : s ∈ r.samples text) :
    s.key ∈ r.keys ∧ ∀ item ∈ s.extra, Plain item.2.toList := by
  rw [samples, List.mem_append, List.mem_append] at hs
  rw [keys, List.mem_append, List.mem_append]
  rcases hs with (hs | hs) | hs
  · obtain ⟨hkey, hextra⟩ := of_mem_counterSamples hs
    rw [hextra]
    exact ⟨Or.inl (Or.inl hkey), fun _ h => by cases h⟩
  · obtain ⟨hkey, hextra⟩ := of_mem_counterSamples hs
    rw [hextra]
    exact ⟨Or.inl (Or.inr hkey), fun _ h => by cases h⟩
  · obtain ⟨item, hitem, hs⟩ := List.mem_flatMap.mp hs
    obtain ⟨hkey, hextra⟩ := Histogram.of_mem_keySamples hs
    rw [hkey]
    refine ⟨Or.inr (List.mem_map.mpr ⟨item, hitem, rfl⟩), ?_⟩
    intro added hadded
    rcases hextra with hextra | hextra | ⟨upper, hextra⟩
    · rw [hextra] at hadded
      cases hadded
    · rw [hextra, List.mem_singleton] at hadded
      rw [hadded]
      decide
    · rw [hextra, List.mem_singleton] at hadded
      rw [hadded]
      exact plain_boundText text upper

/-- Every label set of the registry has a sample. -/
theorem exists_sample {key : LabelKey} (hkey : key ∈ r.keys) :
    ∃ s ∈ r.samples text, s.key = key := by
  rw [keys, List.mem_append, List.mem_append] at hkey
  simp only [samples, List.mem_append]
  rcases hkey with (hkey | hkey) | hkey
  · obtain ⟨item, hitem, rfl⟩ := List.mem_map.mp hkey
    exact ⟨_, Or.inl (Or.inl (List.mem_map.mpr ⟨item, hitem, rfl⟩)), rfl⟩
  · obtain ⟨item, hitem, rfl⟩ := List.mem_map.mp hkey
    exact ⟨_, Or.inl (Or.inr (List.mem_map.mpr ⟨item, hitem, rfl⟩)), rfl⟩
  · obtain ⟨item, hitem, rfl⟩ := List.mem_map.mp hkey
    have hsum : (⟨r.requestLatency.name.suffixed "_sum" rfl, item.1, [],
        .float ((r.requestLatency.sums.get item.1).getD 0)⟩ : Sample F) ∈
        r.requestLatency.keySamples text item.1 item.2 :=
      List.mem_append_right _ (List.mem_cons_of_mem _ List.mem_cons_self)
    exact ⟨_, Or.inr (List.mem_flatMap.mpr ⟨item, hitem, hsum⟩), rfl⟩

/-- The samples are plain just if the label sets are. -/
theorem plain_samples :
    (∀ s ∈ r.samples text, PlainLabels (labelStrings (s.key.items ++ s.extra))) ↔
      ∀ key ∈ r.keys, key.Plain := by
  constructor
  · intro h key hkey item hitem
    obtain ⟨s, hs, rfl⟩ := r.exists_sample text hkey
    exact h s hs (item.1.val, item.2)
      (List.mem_map.mpr ⟨item, List.mem_append_left _ hitem, rfl⟩)
  · intro h s hs item hitem
    obtain ⟨hkey, hextra⟩ := r.of_mem_samples text hs
    obtain ⟨item', hitem', rfl⟩ := List.mem_map.mp hitem
    rcases List.mem_append.mp hitem' with hmem | hmem
    · exact h s.key hkey item' hmem
    · exact hextra item' hmem

/-- **The exposition can be read back**: its lines, comments aside, are the lines of the samples,
one each; a reader finds exactly the samples; and distinct label sets are written differently. -/
structure ReadsBack : Prop where
  lines : (linesOf (r.render text).toList).map (List.filter fun l => l.head? ≠ some '#') =
    some ((r.samples text).map fun s => (s.text text).toList)
  samples : document text.read (r.render text).toList =
    some ((r.samples text).map fun s => s.reading text)
  distinct : ∀ key ∈ r.keys, ∀ key' ∈ r.keys, renderLabels key [] = renderLabels key' [] →
    key = key'

/-- A reader finds the samples just if the label sets are plain. -/
theorem document_render_iff :
    document text.read (r.render text).toList =
        some ((r.samples text).map fun s => s.reading text) ↔
      ∀ key ∈ r.keys, key.Plain := by
  rw [toList_render, ← reading_rawLines, document_rawText_iff, plain_rawLines, plain_samples]

/-- **Reading back.**  The exposition of a registry can be read back if and only if no label value
in the registry holds a backslash, a double quote or a line feed. -/
theorem render_reads_back_iff :
    r.ReadsBack text ↔ ∀ key ∈ r.keys, ∀ item ∈ key.items, ∀ c ∈ item.2.toList,
      c ≠ '\\' ∧ c ≠ '"' ∧ c ≠ '\n' := by
  show r.ReadsBack text ↔ ∀ key ∈ r.keys, key.Plain
  constructor
  · intro h
    exact (r.document_render_iff text).mp h.samples
  · intro h
    refine ⟨?_, (r.document_render_iff text).mpr h, ?_⟩
    · have hplain := (r.plain_rawLines text).mpr ((r.plain_samples text).mpr h)
      rw [toList_render, linesOf_rawText hplain, Option.map_some]
      rw [rawLines, List.map_append, List.map_append, List.filter_append, List.filter_append,
        filter_metricLines, filter_metricLines, filter_metricLines, ← List.map_append,
        ← List.map_append]
      rfl
    · intro key hkey key' hkey' heq
      exact renderLabels_inj (h key hkey) (h key' hkey') heq

/-- The label set of requests with a method and a path. -/
def sampleKey (method path : String) : LabelKey :=
  ⟨[(methodLabel, method), (pathLabel, path)], by
    rw [List.pairwise_pair]
    show "method" < "path"
    decide⟩

/-- A registry that has counted one request. -/
def sampleRegistry (method path : String) : MetricsRegistry ℕ where
  requestsTotal := ⟨new.requestsTotal.name, new.requestsTotal.description,
    ⟨[(sampleKey method path, 1)], List.nodup_singleton _⟩⟩
  errorsTotal := Counter.new new.errorsTotal.name new.errorsTotal.description
  requestLatency := Histogram.new new.requestLatency.name new.requestLatency.description []

/-- A quote in a path makes the exposition unreadable; quotes and commas make two label sets look
alike; and a path with a line feed adds a sample that nobody recorded. -/
theorem render_reads_back_unescaped :
    ¬ (sampleRegistry "GET" "/\"").ReadsBack wholeFloats ∧
    (sampleKey "A\",path=\"B" "C" ≠ sampleKey "A" "B\",path=\"C" ∧
      renderLabels (sampleKey "A\",path=\"B" "C") [] =
        renderLabels (sampleKey "A" "B\",path=\"C") []) ∧
    document wholeFloats.read ((sampleRegistry "GET"
        "/x\"\x7d 1.0\nhttp_errors_total\x7bpath=\"/y").render wholeFloats).toList =
      some [⟨"http_requests_total", [("method", "GET"), ("path", "/x")], 1, none⟩,
        ⟨"http_errors_total", [("path", "/y")], 1, none⟩] := by
  refine ⟨?_, ⟨?_, ?_⟩, ?_⟩
  · intro h
    have hkey := (document_render_iff _ _).mp h.samples (sampleKey "GET" "/\"") List.mem_cons_self
    have hpath := hkey (pathLabel, "/\"") (List.mem_cons_of_mem _ List.mem_cons_self)
    exact (hpath '"' (by simp)).2.1 rfl
  · decide +kernel
  · decide +kernel
  · rw [toList_render]
    decide +kernel

end MetricsRegistry

end EventLedger
