import EventLedger.Metrics

/-!
# What a histogram prints

`observe` counts a value in every bucket whose bound it does not exceed, so each
counter already holds a cumulative count (`Recorded`); `expose` adds the counters up
once more.  The line of a bound therefore shows the sum of the counts of all bounds up
to it, which is the number of values at most that bound only where the counts of all
smaller bounds are zero (`histogram_counts_iff`).
-/
namespace EventLedger

open OrderedDict TextExposition

namespace Histogram

variable {F : Type} [LinearOrder F]

/-! ## What the dictionaries hold -/

/-- Observations, one after the other. -/
def observeAll [AddCommMonoid F] (h : Histogram F) (observations : List (F × Labels)) :
    Histogram F :=
  observations.foldl (fun h o => h.observe o.1 o.2) h

omit [LinearOrder F] in
/-- The values observed for a label set. -/
def valuesOf (key : LabelKey) (observations : List (F × Labels)) : List F :=
  (observations.filter fun o => labelsKey o.2 = key).map Prod.fst

/-- The number of values that do not exceed a bound. -/
def countUpTo (values : List F) (u : F) : ℕ := values.countP (· ≤ u)

omit [LinearOrder F] in
theorem valuesOf_concat (key : LabelKey) (observations : List (F × Labels)) (o : F × Labels) :
    valuesOf key (observations ++ [o]) =
      valuesOf key observations ++ if labelsKey o.2 = key then [o.1] else [] := by
  unfold valuesOf
  rw [List.filter_append, List.map_append]
  by_cases h : labelsKey o.2 = key
  · simp [h]
  · simp [h]

variable [AddCommMonoid F]

/-- The dictionaries after some observations: every counter holds the number of values up to its
bound. -/
structure Recorded (h : Histogram F) (observations : List (F × Labels)) : Prop where
  keys : ∀ key, key ∈ h.counts.keys ↔ valuesOf key observations ≠ []
  counts : ∀ key, h.countsOf key = h.buckets.map (countUpTo (valuesOf key observations))
  sums : ∀ key, (h.sums.get key).getD 0 = (valuesOf key observations).sum
  totals : ∀ key, (h.totals.get key).getD 0 = (valuesOf key observations).length

omit [AddCommMonoid F] in
theorem bump_map (value : F) (buckets : List F) (c : F → ℕ) :
    bump value buckets (buckets.map c) =
      buckets.map fun u => if value ≤ u then c u + 1 else c u := by
  rw [bump, List.zipWith_map_right, List.zipWith_self]

omit [AddCommMonoid F] in
theorem countUpTo_concat (values : List F) (value u : F) :
    countUpTo (values ++ [value]) u =
      if value ≤ u then countUpTo values u + 1 else countUpTo values u := by
  unfold countUpTo
  rw [List.countP_append, List.countP_singleton]
  by_cases h : value ≤ u
  · simp [h]
  · simp [h]

theorem countsOf_observe (h : Histogram F) (value : F) (labels : Labels) (key : LabelKey) :
    (h.observe value labels).countsOf key =
      if key = labelsKey labels then bump value h.buckets (h.countsOf key)
      else h.countsOf key := by
  show (((h.counts.set _ _).get key).getD _) = _
  rw [Dict.get_set]
  split
  · rename_i hkey
    rw [hkey]
    rfl
  · rfl

theorem recorded_new (name : MetricName) (description : Description) (bounds : List F) :
    (Histogram.new name description bounds).Recorded [] where
  keys key := by simp [new, Dict.keys, Dict.empty, valuesOf]
  counts key := by
    show List.replicate _ 0 = _
    rw [← List.map_const]
    rfl
  sums key := rfl
  totals key := rfl

/-- **One observation.** -/
theorem Recorded.observe {h : Histogram F} {observations : List (F × Labels)}
    (hrec : h.Recorded observations) (value : F) (labels : Labels) :
    (h.observe value labels).Recorded (observations ++ [(value, labels)]) where
  keys key := by
    show key ∈ (h.counts.set _ _).keys ↔ _
    rw [Dict.mem_keys_set, valuesOf_concat]
    by_cases hkey : labelsKey labels = key
    · simp [hkey]
    · rw [if_neg hkey, List.append_nil, ← hrec.keys]
      constructor
      · rintro (rfl | hmem)
        · exact absurd rfl hkey
        · exact hmem
      · exact Or.inr
  counts key := by
    rw [countsOf_observe, valuesOf_concat, hrec.counts]
    by_cases hkey : labelsKey labels = key
    · rw [if_pos hkey.symm, if_pos hkey, bump_map]
      apply List.map_congr_left
      intro u _
      rw [countUpTo_concat]
    · rw [if_neg (Ne.symm hkey), if_neg hkey, List.append_nil]
      rfl
  sums key := by
    show (((h.sums.add _ _).get key).getD 0) = _
    rw [Dict.get_add, valuesOf_concat]
    by_cases hkey : labelsKey labels = key
    · rw [if_pos hkey.symm, if_pos hkey, hkey, Option.getD_some, hrec.sums, List.sum_append,
        List.sum_singleton]
    · rw [if_neg (Ne.symm hkey), if_neg hkey, List.append_nil, hrec.sums]
  totals key := by
    show (((h.totals.add _ _).get key).getD 0) = _
    rw [Dict.get_add, valuesOf_concat]
    by_cases hkey : labelsKey labels = key
    · rw [if_pos hkey.symm, if_pos hkey, hkey, Option.getD_some, hrec.totals, List.length_append]
      rfl
    · rw [if_neg (Ne.symm hkey), if_neg hkey, List.append_nil, hrec.totals]

/-- **Any number of observations.** -/
theorem recorded_observeAll (name : MetricName) (description : Description) (bounds : List F)
    (observations : List (F × Labels)) :
    ((Histogram.new name description bounds).observeAll observations).Recorded observations := by
  induction observations using List.reverseRecOn with
  | nil => exact recorded_new name description bounds
  | append_singleton observations o ih =>
    rw [observeAll, List.foldl_append]
    exact ih.observe o.1 o.2

theorem observeAll_buckets (h : Histogram F) (observations : List (F × Labels)) :
    (h.observeAll observations).buckets = h.buckets := by
  induction observations generalizing h with
  | nil => rfl
  | cons o observations ih => exact ih (h.observe o.1 o.2)

/-! ## Adding the counters up -/

omit [LinearOrder F] [AddCommMonoid F] in
/-- The sums the loop of `expose` goes through, for counters `c`. -/
def running (c : F → ℕ) : ℕ → List F → List (F × ℕ)
  | _, [] => []
  | cumulative, u :: us => (u, cumulative + c u) :: running c (cumulative + c u) us

omit [AddCommMonoid F] in
/-- The sums of a bound. -/
def sumsAt (c : F → ℕ) (cumulative : ℕ) (us : List F) (u : F) : List ℕ :=
  ((running c cumulative us).filter (·.1 = u)).map Prod.snd

omit [AddCommMonoid F] in
theorem sumsAt_cons (c : F → ℕ) (cumulative : ℕ) (x : F) (us : List F) (u : F) :
    sumsAt c cumulative (x :: us) u =
      if x = u then (cumulative + c x) :: sumsAt c (cumulative + c x) us u
      else sumsAt c (cumulative + c x) us u := by
  unfold sumsAt
  rw [running, List.filter_cons]
  by_cases h : x = u
  · simp [h]
  · simp [h]

omit [AddCommMonoid F] in
theorem sumsAt_eq_nil {c : F → ℕ} {cumulative : ℕ} {us : List F} {u : F} :
    sumsAt c cumulative us u = [] ↔ u ∉ us := by
  induction us generalizing cumulative with
  | nil => simp [sumsAt, running]
  | cons x us ih =>
    rw [sumsAt_cons]
    by_cases h : x = u
    · simp [h]
    · rw [if_neg h, ih, List.mem_cons, not_or]
      exact ⟨fun hmem => ⟨fun hu => h hu.symm, hmem⟩, And.right⟩

omit [AddCommMonoid F] in
/-- **Summing the counters.**  Over sorted bounds, each bound has one sum, and that sum is the
counter of the bound, just if nothing was added up before: no bound stands twice, and the counters
of all but the largest bound are zero. -/
theorem sumsAt_iff {c : F → ℕ} {us : List F} (hsorted : us.Pairwise (· ≤ ·)) (cumulative : ℕ) :
    (∀ u ∈ us, sumsAt c cumulative us u = [c u]) ↔
      (us ≠ [] → cumulative = 0) ∧ us.Nodup ∧
        ∀ u ∈ us, (∃ u' ∈ us, u < u') → c u = 0 := by
  induction us generalizing cumulative with
  | nil => simp
  | cons x us ih =>
    rw [List.pairwise_cons] at hsorted
    have hhead : sumsAt c cumulative (x :: us) x = [c x] ↔ cumulative = 0 ∧ x ∉ us := by
      rw [sumsAt_cons, if_pos rfl, List.cons.injEq, sumsAt_eq_nil]
      exact and_congr_left fun _ => ⟨fun h => by omega, fun h => by omega⟩
    rw [List.forall_mem_cons, hhead, List.nodup_cons]
    constructor
    · rintro ⟨⟨hzero, hx⟩, htail⟩
      have htail' : ∀ u ∈ us, sumsAt c (cumulative + c x) us u = [c u] := by
        intro u hu
        have hne : x ≠ u := fun h => hx (h ▸ hu)
        have h := htail u hu
        rwa [sumsAt_cons, if_neg hne] at h
      obtain ⟨hcum, hnodup, hcounts⟩ := (ih hsorted.2 _).mp htail'
      refine ⟨fun _ => hzero, ⟨hx, hnodup⟩, ?_⟩
      rintro u hu ⟨u', hu', hlt⟩
      rcases List.mem_cons.mp hu with rfl | hmem
      · -- something larger follows, so the sum went on from zero
        have hne : us ≠ [] := by
          rintro rfl
          rw [List.mem_singleton.mp hu'] at hlt
          exact lt_irrefl _ hlt
        have := hcum hne
        omega
      · rcases List.mem_cons.mp hu' with rfl | hmem'
        · exact absurd (hsorted.1 u hmem) (not_le.mpr hlt)
        · exact hcounts u hmem ⟨u', hmem', hlt⟩
    · rintro ⟨hzero, ⟨hx, hnodup⟩, hcounts⟩
      have hcum : us ≠ [] → cumulative + c x = 0 := by
        intro hne
        obtain ⟨u', hu'⟩ := List.exists_mem_of_ne_nil us hne
        have hlt : x < u' := lt_of_le_of_ne (hsorted.1 u' hu') fun h => hx (h ▸ hu')
        rw [hzero (List.cons_ne_nil _ _),
          hcounts x List.mem_cons_self ⟨u', List.mem_cons_of_mem _ hu', hlt⟩]
      have htail := (ih hsorted.2 (cumulative + c x)).mpr ⟨hcum, hnodup, ?_⟩
      · refine ⟨⟨hzero (List.cons_ne_nil _ _), hx⟩, ?_⟩
        intro u hu
        have hne : x ≠ u := fun h => hx (h ▸ hu)
        rw [sumsAt_cons, if_neg hne]
        exact htail u hu
      · rintro u hu ⟨u', hu', hlt⟩
        exact hcounts u (List.mem_cons_of_mem _ hu) ⟨u', List.mem_cons_of_mem _ hu', hlt⟩

/-! ## The lines of one label set -/

omit [LinearOrder F] [AddCommMonoid F] in
theorem bucketSamples_eq (text : FloatText F) (name : MetricName) (key : LabelKey) (c : F → ℕ)
    (cumulative : ℕ) (us : List F) :
    bucketSamples text name key cumulative (us.zip (us.map c)) =
      (running c cumulative us).map fun item =>
        ⟨bucketName name, key, [(le, boundText text item.1)], .int item.2⟩ := by
  induction us generalizing cumulative with
  | nil => rfl
  | cons u us ih =>
    rw [List.map_cons, List.zip_cons_cons, bucketSamples, ih, running, List.map_cons]

omit [AddCommMonoid F] in
/-- The numbers on the lines of a name, a label set and the labels added to it. -/
def linesFor (name : MetricName) (key : LabelKey) (extra : List (LabelName × String))
    (samples : List (Sample F)) : List (Number F) :=
  (samples.filter fun s => s.name = name ∧ s.key = key ∧ s.extra = extra).map Sample.value

omit [LinearOrder F] [AddCommMonoid F] in
theorem linesFor_append (name : MetricName) (key : LabelKey) (extra : List (LabelName × String))
    (ss ss' : List (Sample F)) :
    linesFor name key extra (ss ++ ss') =
      linesFor name key extra ss ++ linesFor name key extra ss' := by
  rw [linesFor, List.filter_append, List.map_append]
  rfl

omit [LinearOrder F] [AddCommMonoid F] in
theorem linesFor_cons (name : MetricName) (key : LabelKey) (extra : List (LabelName × String))
    (s : Sample F) (ss : List (Sample F)) :
    linesFor name key extra (s :: ss) =
      if s.name = name ∧ s.key = key ∧ s.extra = extra then s.value :: linesFor name key extra ss
      else linesFor name key extra ss := by
  rw [linesFor, List.filter_cons]
  by_cases h : s.name = name ∧ s.key = key ∧ s.extra = extra
  · rw [if_pos h, if_pos (decide_eq_true h)]
    rfl
  · rw [if_neg h, if_neg (by simpa using h)]
    rfl

omit [LinearOrder F] [AddCommMonoid F] in
/-- A printed bound is not the text of infinity. -/
theorem str_ne_inf (text : FloatText F) (u : F) : text.str u ≠ "+Inf" := by
  intro h
  have hchar := text.str_chars u 'I' (by rw [h]; decide)
  exact absurd hchar (by decide)

omit [LinearOrder F] [AddCommMonoid F] in
theorem str_injective (text : FloatText F) : Function.Injective text.str := by
  intro u u' h
  have hread := text.read_str u
  rw [h, text.read_str u'] at hread
  exact (Option.some.inj hread).symm

theorem suffixed_ne (name : MetricName) {a b : String} (ha : a.toList.all metricRest = true)
    (hb : b.toList.all metricRest = true) (hne : a ≠ b) :
    name.suffixed a ha ≠ name.suffixed b hb := by
  intro h
  have hval : name.val ++ a = name.val ++ b := congrArg Subtype.val h
  have hlist := congrArg String.toList hval
  rw [String.toList_append, String.toList_append, List.append_cancel_left_eq] at hlist
  exact hne (String.toList_injective hlist)

section
variable (text : FloatText F) (name : MetricName) (key : LabelKey)

omit [AddCommMonoid F] in
/-- The bucket lines of a bound. -/
theorem linesFor_bucket {c : F → ℕ} {us : List F} (hfinite : ∀ u ∈ us, text.isInf u = false)
    (u : F) (cumulative : ℕ) :
    linesFor (bucketName name) key [(le, text.str u)]
      (bucketSamples text name key cumulative (us.zip (us.map c))) =
        (sumsAt c cumulative us u).map Number.int := by
  rw [bucketSamples_eq]
  induction us generalizing cumulative with
  | nil => rfl
  | cons x us ih =>
    have hx : boundText text x = text.str x := by
      rw [boundText, hfinite x List.mem_cons_self]
      rfl
    rw [running, List.map_cons, linesFor_cons, sumsAt_cons,
      ih (fun u hu => hfinite u (List.mem_cons_of_mem _ hu))]
    by_cases h : x = u
    · rw [if_pos h, if_pos ⟨rfl, rfl, by rw [hx, h]⟩]
      rfl
    · have hne : ¬ (bucketName name = bucketName name ∧ key = key ∧
          [(le, boundText text x)] = [(le, text.str u)]) := by
        rintro ⟨-, -, hlabel⟩
        rw [hx] at hlabel
        apply h
        apply str_injective text
        simpa using hlabel
      rw [if_neg h, if_neg hne]

omit [LinearOrder F] [AddCommMonoid F] in
/-- No bucket line of a finite bound answers to anything but its bound. -/
theorem linesFor_bucketSamples_eq_nil {us : List F} (hfinite : ∀ u ∈ us, text.isInf u = false)
    (c : F → ℕ) (cumulative : ℕ) {name' : MetricName} {extra : List (LabelName × String)}
    (hextra : ∀ u, extra ≠ [(le, text.str u)]) :
    linesFor name' key extra (bucketSamples text name key cumulative (us.zip (us.map c))) = [] := by
  rw [bucketSamples_eq]
  induction us generalizing cumulative with
  | nil => rfl
  | cons x us ih =>
    have hx : boundText text x = text.str x := by
      rw [boundText, hfinite x List.mem_cons_self]
      rfl
    rw [running, List.map_cons, linesFor_cons,
      ih (fun u hu => hfinite u (List.mem_cons_of_mem _ hu)), if_neg]
    rintro ⟨-, -, hlabel⟩
    rw [hx] at hlabel
    exact hextra x hlabel.symm

end

omit [LinearOrder F] in
/-- What a histogram prints about a label set stands among that label set's lines. -/
theorem linesFor_samples {text : FloatText F} {h : Histogram F} {key : LabelKey} {counts : List ℕ}
    (hcounts : h.counts.get key = some counts) (name : MetricName)
    (extra : List (LabelName × String)) :
    linesFor name key extra (h.samples text) =
      linesFor name key extra (h.keySamples text key counts) := by
  unfold linesFor samples
  rw [Dict.filter_flatMap hcounts]
  intro item _ hne s hs
  rw [(of_mem_keySamples hs).1]
  simp [hne]

/-! ## What the exposition shows -/

/-- **A correct exposition** of a label set with the given values: one line per bound with the
number of values up to it, one `+Inf` line and one count line with their number, and one line with
their sum; so the counts grow with the bounds, up to the number of values. -/
structure Shows (text : FloatText F) (h : Histogram F) (bounds : List F) (key : LabelKey)
    (values : List F) : Prop where
  bucket : ∀ u ∈ bounds, linesFor (bucketName h.name) key [(le, text.str u)] (h.samples text) =
    [.int (countUpTo values u)]
  infinite : linesFor (bucketName h.name) key [(le, "+Inf")] (h.samples text) =
    [.int values.length]
  count : linesFor (h.name.suffixed "_count" rfl) key [] (h.samples text) = [.int values.length]
  sum : linesFor (h.name.suffixed "_sum" rfl) key [] (h.samples text) = [.float values.sum]
  mono : ∀ u ∈ bounds, ∀ u' ∈ bounds, u ≤ u' → ∀ n n' : ℕ,
    linesFor (bucketName h.name) key [(le, text.str u)] (h.samples text) = [.int n] →
    linesFor (bucketName h.name) key [(le, text.str u')] (h.samples text) = [.int n'] → n ≤ n'
  le_infinite : ∀ u ∈ bounds, ∀ n total : ℕ,
    linesFor (bucketName h.name) key [(le, text.str u)] (h.samples text) = [.int n] →
    linesFor (bucketName h.name) key [(le, "+Inf")] (h.samples text) = [.int total] → n ≤ total

omit [AddCommMonoid F] in
theorem countUpTo_mono (values : List F) {u u' : F} (h : u ≤ u') :
    countUpTo values u ≤ countUpTo values u' := by
  apply List.countP_mono_left
  intro v _ hv
  exact decide_eq_true (le_trans (of_decide_eq_true hv) h)

omit [AddCommMonoid F] in
theorem countUpTo_eq_zero {values : List F} {u : F} :
    countUpTo values u = 0 ↔ ∀ v ∈ values, u < v := by
  unfold countUpTo
  rw [List.countP_eq_zero]
  constructor
  · intro h v hv
    exact not_le.mp fun hle => h v hv (decide_eq_true hle)
  · intro h v hv hle
    exact absurd (of_decide_eq_true hle) (not_le.mpr (h v hv))

section
variable {text : FloatText F} {h : Histogram F} {observations : List (F × Labels)} {key : LabelKey}

/-- The lines of an observed label set. -/
theorem Recorded.linesFor_samples (hrec : h.Recorded observations)
    (hobserved : valuesOf key observations ≠ []) (name : MetricName)
    (extra : List (LabelName × String)) :
    linesFor name key extra (h.samples text) =
      linesFor name key extra (h.keySamples text key
        (h.buckets.map (countUpTo (valuesOf key observations)))) := by
  have hcounts : h.counts.get key =
      some (h.buckets.map (countUpTo (valuesOf key observations))) := by
    have hmem := (hrec.keys key).mpr hobserved
    have hof := hrec.counts key
    unfold countsOf at hof
    cases hget : h.counts.get key with
    | none => exact absurd hmem (Dict.get_eq_none.mp hget)
    | some counts =>
      rw [hget, Option.getD_some] at hof
      rw [hof]
  exact Histogram.linesFor_samples hcounts name extra

/-- The lines of a bound show the sums of the counters. -/
theorem Recorded.lines_bucket (hrec : h.Recorded observations)
    (hobserved : valuesOf key observations ≠ []) (hfinite : ∀ u ∈ h.buckets, text.isInf u = false)
    (u : F) :
    linesFor (bucketName h.name) key [(le, text.str u)] (h.samples text) =
      (sumsAt (countUpTo (valuesOf key observations)) 0 h.buckets u).map Number.int := by
  have hinf : "+Inf" ≠ text.str u := (str_ne_inf text u).symm
  have hlabel : ¬ [(le, "+Inf")] = [(le, text.str u)] := by simp [hinf]
  rw [hrec.linesFor_samples hobserved, keySamples, linesFor_append,
    linesFor_bucket text h.name key hfinite]
  simp [hlabel, linesFor]

/-- The other lines. -/
theorem Recorded.lines_rest (hrec : h.Recorded observations)
    (hobserved : valuesOf key observations ≠ [])
    (hfinite : ∀ u ∈ h.buckets, text.isInf u = false) :
    linesFor (bucketName h.name) key [(le, "+Inf")] (h.samples text) =
        [.int (valuesOf key observations).length] ∧
      linesFor (h.name.suffixed "_count" rfl) key [] (h.samples text) =
        [.int (valuesOf key observations).length] ∧
      linesFor (h.name.suffixed "_sum" rfl) key [] (h.samples text) =
        [.float (valuesOf key observations).sum] := by
  have hne : h.name.suffixed "_sum" rfl ≠ h.name.suffixed "_count" rfl :=
    suffixed_ne h.name rfl rfl (by decide)
  refine ⟨?_, ?_, ?_⟩
  · rw [hrec.linesFor_samples hobserved, keySamples, linesFor_append,
      linesFor_bucketSamples_eq_nil text h.name key hfinite]
    · simp [linesFor, hrec.totals]
    · intro u hu
      have hstr := str_ne_inf text u
      simp only [List.cons.injEq, Prod.mk.injEq, and_true, true_and] at hu
      exact hstr hu.symm
  · rw [hrec.linesFor_samples hobserved, keySamples, linesFor_append,
      linesFor_bucketSamples_eq_nil text h.name key hfinite]
    · simp [linesFor, hrec.totals, hne]
    · intro u hu
      cases hu
  · rw [hrec.linesFor_samples hobserved, keySamples, linesFor_append,
      linesFor_bucketSamples_eq_nil text h.name key hfinite]
    · simp [linesFor, hrec.sums, hne.symm]
    · intro u hu
      cases hu

/-- **The lines of the bounds.**  They are right just if the bounds are pairwise different and all
values exceed every bound but the largest. -/
theorem Recorded.bucket_lines_iff (hrec : h.Recorded observations)
    (hobserved : valuesOf key observations ≠ []) (hfinite : ∀ u ∈ h.buckets, text.isInf u = false)
    (hsorted : h.buckets.Pairwise (· ≤ ·)) :
    (∀ u ∈ h.buckets, linesFor (bucketName h.name) key [(le, text.str u)] (h.samples text) =
      [.int (countUpTo (valuesOf key observations) u)]) ↔
      h.buckets.Nodup ∧ ∀ v ∈ valuesOf key observations, ∀ u ∈ h.buckets,
        (∃ u' ∈ h.buckets, u < u') → u < v := by
  have hinj : Function.Injective (Number.int (F := F)) := fun _ _ h => Number.int.inj h
  have hline : ∀ u, linesFor (bucketName h.name) key [(le, text.str u)] (h.samples text) =
      [.int (countUpTo (valuesOf key observations) u)] ↔
      sumsAt (countUpTo (valuesOf key observations)) 0 h.buckets u =
        [countUpTo (valuesOf key observations) u] := by
    intro u
    rw [hrec.lines_bucket hobserved hfinite u, ← List.map_singleton]
    exact (List.map_injective_iff.mpr hinj).eq_iff
  simp only [hline]
  rw [sumsAt_iff hsorted 0]
  constructor
  · rintro ⟨-, hnodup, hzero⟩
    refine ⟨hnodup, ?_⟩
    intro v hv u hu hlarger
    exact countUpTo_eq_zero.mp (hzero u hu hlarger) v hv
  · rintro ⟨hnodup, hexceeds⟩
    refine ⟨fun _ => rfl, hnodup, ?_⟩
    intro u hu hlarger
    exact countUpTo_eq_zero.mpr fun v hv => hexceeds v hv u hu hlarger

/-- The lines of the bounds are the whole question. -/
theorem Recorded.shows_iff (hrec : h.Recorded observations)
    (hobserved : valuesOf key observations ≠ []) (hfinite : ∀ u ∈ h.buckets, text.isInf u = false) :
    Shows text h h.buckets key (valuesOf key observations) ↔
      ∀ u ∈ h.buckets, linesFor (bucketName h.name) key [(le, text.str u)] (h.samples text) =
        [.int (countUpTo (valuesOf key observations) u)] := by
  obtain ⟨hinf, hcount, hsum⟩ := hrec.lines_rest hobserved hfinite
  constructor
  · exact Shows.bucket
  · intro hlines
    refine ⟨hlines, hinf, hcount, hsum, ?_, ?_⟩
    · intro u hu u' hu' hle n n' hn hn'
      rw [hlines u hu] at hn
      rw [hlines u' hu'] at hn'
      cases hn
      cases hn'
      exact countUpTo_mono _ hle
    · intro u hu n total hn htotal
      rw [hlines u hu] at hn
      rw [hinf] at htotal
      cases hn
      cases htotal
      exact List.countP_le_length

/-- The order of the bounds does not matter. -/
theorem shows_perm {bounds bounds' values : List F} (hperm : bounds.Perm bounds') :
    Shows text h bounds key values ↔ Shows text h bounds' key values := by
  have himp : ∀ {us us' : List F}, us.Perm us' → Shows text h us key values →
      Shows text h us' key values := by
    intro us us' hperm hshows
    exact ⟨fun u hu => hshows.bucket u (hperm.mem_iff.mpr hu), hshows.infinite, hshows.count,
      hshows.sum,
      fun u hu u' hu' => hshows.mono u (hperm.mem_iff.mpr hu) u' (hperm.mem_iff.mpr hu'),
      fun u hu => hshows.le_infinite u (hperm.mem_iff.mpr hu)⟩
  exact ⟨himp hperm, himp hperm.symm⟩

end

/-- The bounds of a histogram that has observed something. -/
theorem buckets_perm (name : MetricName) (description : Description) (bounds : List F)
    (observations : List (F × Labels)) :
    ((Histogram.new name description bounds).observeAll observations).buckets.Perm bounds := by
  rw [observeAll_buckets]
  exact List.perm_insertionSort _ bounds

/-- **What a histogram prints.**  For bounds without infinity, any observations and any label set
that was observed, the exposition is correct if and only if the bounds are pairwise different and
every value of the label set exceeds every bound but the largest. -/
theorem histogram_counts_iff (text : FloatText F) (name : MetricName) (description : Description)
    (bounds : List F) (hfinite : ∀ u ∈ bounds, text.isInf u = false)
    (observations : List (F × Labels)) (key : LabelKey)
    (hobserved : ∃ o ∈ observations, labelsKey o.2 = key) :
    Shows text ((Histogram.new name description bounds).observeAll observations) bounds key
        (valuesOf key observations) ↔
      bounds.Nodup ∧ ∀ v ∈ valuesOf key observations, ∀ u ∈ bounds, (∃ u' ∈ bounds, u < u') →
        u < v := by
  have hrec := recorded_observeAll name description bounds observations
  have hperm := buckets_perm name description bounds observations
  have hsorted : ((Histogram.new name description bounds).observeAll observations).buckets.Pairwise
      (· ≤ ·) := by
    rw [observeAll_buckets]
    exact List.pairwise_insertionSort _ bounds
  generalize (Histogram.new name description bounds).observeAll observations = h
    at hrec hperm hsorted ⊢
  have hvalues : valuesOf key observations ≠ [] := by
    obtain ⟨o, ho, hkey⟩ := hobserved
    intro hnil
    rw [valuesOf, List.map_eq_nil_iff, List.filter_eq_nil_iff] at hnil
    exact hnil o ho (decide_eq_true hkey)
  have hfinite' : ∀ u ∈ h.buckets, text.isInf u = false := fun u hu =>
    hfinite u (hperm.mem_iff.mp hu)
  rw [← shows_perm hperm, hrec.shows_iff hvalues hfinite',
    hrec.bucket_lines_iff hvalues hfinite' hsorted, hperm.nodup_iff]
  simp only [hperm.mem_iff]

/-- A label set with the one label `path`. -/
def onePath : Labels := ⟨[(pathLabel, "/x")], by decide⟩

/-- A histogram with bounds `1.0`, `2.0` and `5.0`. -/
def sampleHistogram : Histogram ℕ :=
  Histogram.new ⟨"lat", rfl⟩ ⟨"latency", by decide⟩ [5, 1, 2]

theorem histogram_counts_iff_slow :
    Shows wholeFloats (sampleHistogram.observeAll [(3, onePath), (7, onePath)]) [5, 1, 2]
      (labelsKey onePath) [3, 7] := by
  refine (histogram_counts_iff wholeFloats ⟨"lat", rfl⟩ ⟨"latency", by decide⟩ [5, 1, 2]
    (fun _ _ => rfl) [(3, onePath), (7, onePath)] (labelsKey onePath)
    ⟨(3, onePath), List.mem_cons_self, rfl⟩).mpr ?_
  decide +kernel

/-- One observation of `1.0` counts three times at the bound `5.0`. -/
theorem histogram_counts_add_up :
    (sampleHistogram.observeAll [(1, onePath)]).expose wholeFloats =
        ["# HELP lat latency", "# TYPE lat histogram",
          "lat_bucket\x7bpath=\"/x\",le=\"1.0\"\x7d 1",
          "lat_bucket\x7bpath=\"/x\",le=\"2.0\"\x7d 2",
          "lat_bucket\x7bpath=\"/x\",le=\"5.0\"\x7d 3",
          "lat_bucket\x7bpath=\"/x\",le=\"+Inf\"\x7d 1",
          "lat_sum\x7bpath=\"/x\"\x7d 1.0", "lat_count\x7bpath=\"/x\"\x7d 1"] ∧
      ¬ Shows wholeFloats (sampleHistogram.observeAll [(1, onePath)]) [5, 1, 2]
        (labelsKey onePath) [1] := by
  constructor
  · decide +kernel
  · intro h
    have hbucket := h.bucket 5 (by decide)
    have hprinted : linesFor (bucketName sampleHistogram.name) (labelsKey onePath)
        [(le, wholeFloats.str 5)] ((sampleHistogram.observeAll [(1, onePath)]).samples
          wholeFloats) = [.int 3] := by
      decide +kernel
    exact absurd (hprinted.symm.trans hbucket) (by decide +kernel)

end Histogram

end EventLedger
