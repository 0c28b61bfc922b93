import EventLedger.OrderedDict
import EventLedger.TextExposition
import Mathlib.Data.List.Sort
import Mathlib.Data.Prod.Lex
import Mathlib.Algebra.Order.Ring.Rat
import Mathlib.Data.String.Basic

/-!
# The metrics registry

Counters and histograms keep a number per label set, in dictionaries keyed by the
sorted tuple of the labels; `expose` prints a line per sample.  A histogram keeps a
count for each bound, raised by every observation within it, and prints the sums of
these counts.

The numbers are exact: `F` is any type of values that can be added.  How a float is
printed, and how a reader reads it, is `FloatText`.
-/
namespace EventLedger

open OrderedDict TextExposition DecimalDigits

/-! ## Label sets -/

/-- A label name, as an identifier. -/
abbrev LabelName := {name : String // IsLabelName name}

/-- `method`. -/
def methodLabel : LabelName := ⟨"method", rfl⟩

/-- `path`. -/
def pathLabel : LabelName := ⟨"path", rfl⟩

/-- `status`. -/
def statusLabel : LabelName := ⟨"status", rfl⟩

/-- The labels of a call: its keyword arguments. -/
abbrev Labels := Dict LabelName String

/-- `LabelKey`: a label set, as a tuple sorted by name. -/
structure LabelKey where
  items : List (LabelName × String)
  sorted : items.Pairwise fun a b => a.1 < b.1
  deriving DecidableEq

/-- How tuples of a name and a value compare. -/
def itemLe (a b : LabelName × String) : Prop := toLex a ≤ toLex b

instance : DecidableRel itemLe := fun a b => inferInstanceAs (Decidable (toLex a ≤ toLex b))

instance : Std.Total itemLe := ⟨fun a b => le_total (toLex a) (toLex b)⟩

instance : IsTrans (LabelName × String) itemLe := ⟨fun _ _ _ => le_trans⟩

/-- `_labels_key`. -/
def labelsKey (labels : Labels) : LabelKey where
  items := labels.items.insertionSort itemLe
  sorted := by
    have hle := List.pairwise_insertionSort itemLe labels.items
    have hne : (labels.items.insertionSort itemLe).Pairwise fun a b => a.1 ≠ b.1 := by
      have hnodup := labels.nodup
      rw [← ((List.perm_insertionSort itemLe labels.items).map Prod.fst).nodup_iff] at hnodup
      exact List.pairwise_map.mp hnodup
    apply (hle.and hne).imp
    rintro a b ⟨hab, hne⟩
    rcases Prod.Lex.le_iff.mp hab with hlt | ⟨heq, -⟩
    · exact hlt
    · exact absurd heq hne

/-- The key does not depend on the order of the arguments. -/
theorem labelsKey_perm {labels labels' : Labels} (h : labels.items.Perm labels'.items) :
    labelsKey labels = labelsKey labels' := by
  have hperm := (List.perm_insertionSort itemLe labels.items).trans
    (h.trans (List.perm_insertionSort itemLe labels'.items).symm)
  have hitems : (labelsKey labels).items = (labelsKey labels').items := by
    refine List.Perm.eq_of_pairwise ?_ (List.pairwise_insertionSort itemLe labels.items)
      (List.pairwise_insertionSort itemLe labels'.items) hperm
    intro a b _ _ hab hba
    exact toLex.injective (le_antisymm hab hba)
  rw [LabelKey.mk.injEq]
  exact hitems

/-- A key as a dictionary. -/
def LabelKey.labels (key : LabelKey) : Labels where
  items := key.items
  nodup := by
    rw [List.Nodup, List.pairwise_map]
    exact key.sorted.imp ne_of_lt

/-- The labels of a call are those of its key. -/
@[simp] theorem get_labelsKey (labels : Labels) (name : LabelName) :
    (labelsKey labels).labels.get name = labels.get name := by
  apply Option.ext
  intro v
  rw [← Dict.mem_items, ← Dict.mem_items]
  exact (List.perm_insertionSort itemLe labels.items).mem_iff

/-- `_render_labels`. -/
def renderLabels (key : LabelKey) (extra : List (LabelName × String)) : String :=
  let items := key.items ++ extra
  if items = [] then ""
  else
    let inner := ",".intercalate (items.map fun (k, v) => k.val ++ "=\"" ++ v ++ "\"")
    "\x7b" ++ inner ++ "\x7d"

/-! ## Printing numbers -/

/-- The characters of a printed float: digits, sign, point, exponent, `inf` and `nan`. -/
def isFloatChar (c : Char) : Bool := c.isDigit || c ∈ ['+', '-', '.', 'e', 'i', 'n', 'f', 'a']

/-- Floats, as Python prints them and as a reader of the exposition format reads numbers.  Printing
a float gives a text that reads as the same float, and an integer's digits read as that number. -/
structure FloatText (F : Type) where
  /-- `str(x)`. -/
  str : F → String
  /-- `x == float("inf")`. -/
  isInf : F → Bool
  /-- What a number's text reads as. -/
  read : String → Option F
  /-- The float that equals an integer. -/
  ofNat : ℕ → F
  str_ne : ∀ x, (str x).toList ≠ []
  str_chars : ∀ x, ∀ c ∈ (str x).toList, isFloatChar c = true
  read_str : ∀ x, read (str x) = some x
  read_nat : ∀ n : ℕ, read (String.ofList (natDigits n)) = some (ofNat n)

/-- Whole floats, such as `2.0`. -/
def wholeFloats : FloatText ℕ where
  str n := String.ofList (natDigits n ++ ['.', '0'])
  isInf _ := false
  read t :=
    let (digits, rest) := leadingDigits t.toList
    if digits ≠ [] ∧ (rest = [] ∨ rest = ['.', '0']) then some (readDigits digits) else none
  ofNat n := n
  str_ne n := by simp
  str_chars n := by
    intro c hc
    rw [String.toList_ofList, List.mem_append] at hc
    rcases hc with hc | hc
    · rw [isFloatChar, natDigits_isDigit n c hc]
      rfl
    · rcases List.mem_pair.mp hc with rfl | rfl
      · decide
      · decide
  read_str n := by
    have hpoint : ∀ c ∈ ['.', '0'].head?, c.isDigit = false := by
      intro c hc
      cases hc
      decide
    simp [leadingDigits_append (natDigits_isDigit n) hpoint, natDigits_ne_nil]
  read_nat n := by
    simp [leadingDigits_self (natDigits_isDigit n), natDigits_ne_nil]

/-- The number of a sample: a count, or a float. -/
inductive Number (F : Type)
  | int (n : ℕ)
  | float (x : F)
  deriving DecidableEq

/-- How an f-string prints the number. -/
def Number.text {F : Type} (text : FloatText F) : Number F → String
  | int n => String.ofList (natDigits n)
  | float x => text.str x

/-- The number as a reader sees it. -/
def Number.value {F : Type} (text : FloatText F) : Number F → F
  | int n => text.ofNat n
  | float x => x

/-! ## Samples -/

/-- A metric name, as an identifier. -/
abbrev MetricName := {name : String // isName metricStart metricRest name.toList = true}

/-- A one-line description. -/
abbrev Description := {text : String // '\n' ∉ text.toList}

/-- A name with a suffix such as `_bucket`. -/
def MetricName.suffixed (name : MetricName) (suffix : String)
    (h : suffix.toList.all metricRest = true) : MetricName where
  val := name.val ++ suffix
  property := by
    have hname := name.property
    rw [String.toList_append]
    cases hchars : name.val.toList with
    | nil => simp [hchars, isName] at hname
    | cons c cs =>
      rw [hchars, isName, Bool.and_eq_true] at hname
      rw [List.cons_append, isName, List.all_append, hname.1, hname.2, h]
      rfl

/-- What one line of the exposition is made from. -/
structure Sample (F : Type) where
  name : MetricName
  key : LabelKey
  extra : List (LabelName × String)
  value : Number F
  deriving DecidableEq

/-- `f"{name}{_render_labels(key, extra)} {value}"`. -/
def Sample.text {F : Type} (text : FloatText F) (s : Sample F) : String :=
  s.name.val ++ renderLabels s.key s.extra ++ " " ++ s.value.text text

/-! ## Counters -/

/-- `Counter`. -/
structure Counter (F : Type) where
  name : MetricName
  description : Description
  values : Dict LabelKey F

namespace Counter

variable {F : Type}

/-- `Counter(name, description)`. -/
def new (name : MetricName) (description : Description) : Counter F :=
  ⟨name, description, Dict.empty⟩

/-- `inc`. -/
def inc [AddCommMonoid F] (c : Counter F) (amount : F) (labels : Labels) : Counter F :=
  { c with values := c.values.add (labelsKey labels) amount }

/-- `snapshot`. -/
def snapshot (c : Counter F) : Dict LabelKey F := c.values

/-- One sample per label set. -/
def samples (c : Counter F) : List (Sample F) :=
  c.snapshot.items.map fun (key, value) => ⟨c.name, key, [], .float value⟩

/-- `expose`. -/
def expose (text : FloatText F) (c : Counter F) : List String :=
  ["# HELP " ++ c.name.val ++ " " ++ c.description.val, "# TYPE " ++ c.name.val ++ " counter"] ++
    c.samples.map fun s => s.text text

end Counter

/-! ## Histograms -/

/-- `Histogram`: per label set, a counter for each bucket, the sum and the number of the
observations. -/
structure Histogram (F : Type) where
  name : MetricName
  description : Description
  buckets : List F
  counts : Dict LabelKey (List ℕ)
  sums : Dict LabelKey F
  totals : Dict LabelKey ℕ
  counts_length : ∀ item ∈ counts.items, item.2.length = buckets.length
  sums_keys : sums.keys = counts.keys
  totals_keys : totals.keys = counts.keys

namespace Histogram

variable {F : Type}

/-- `Histogram(name, description, buckets)`. -/
def new [LinearOrder F] (name : MetricName) (description : Description) (buckets : List F) :
    Histogram F where
  name := name
  description := description
  buckets := buckets.insertionSort (· ≤ ·)
  counts := Dict.empty
  sums := Dict.empty
  totals := Dict.empty
  counts_length := by
    intro item hitem
    cases hitem
  sums_keys := rfl
  totals_keys := rfl

/-- The loop of `observe`: one more in every bucket whose bound the value does not exceed. -/
def bump [LinearOrder F] (value : F) (buckets : List F) (counts : List ℕ) : List ℕ :=
  List.zipWith (fun upper n => if value ≤ upper then n + 1 else n) buckets counts

/-- `self._counts.setdefault(key, [0] * len(self.buckets))`. -/
def countsOf (h : Histogram F) (key : LabelKey) : List ℕ :=
  (h.counts.get key).getD (List.replicate h.buckets.length 0)

theorem countsOf_length (h : Histogram F) (key : LabelKey) :
    (h.countsOf key).length = h.buckets.length := by
  unfold countsOf
  cases hget : h.counts.get key with
  | none => exact List.length_replicate
  | some counts => exact h.counts_length (key, counts) (Dict.mem_items.mpr hget)

/-- `observe`. -/
def observe [LinearOrder F] [AddCommMonoid F] (h : Histogram F) (value : F) (labels : Labels) :
    Histogram F where
  name := h.name
  description := h.description
  buckets := h.buckets
  counts := h.counts.set (labelsKey labels) (bump value h.buckets (h.countsOf (labelsKey labels)))
  sums := h.sums.add (labelsKey labels) value
  totals := h.totals.add (labelsKey labels) 1
  counts_length := by
    rintro ⟨key, counts⟩ hitem
    rw [Dict.mem_items, Dict.get_set] at hitem
    split at hitem
    · cases hitem
      rw [bump, List.length_zipWith, h.countsOf_length, Nat.min_self]
    · exact h.counts_length (key, counts) (Dict.mem_items.mpr hitem)
  sums_keys := by
    rw [Dict.add, Dict.keys_set, Dict.keys_set, h.sums_keys]
  totals_keys := by
    rw [Dict.add, Dict.keys_set, Dict.keys_set, h.totals_keys]

/-- A label name the histogram adds itself. -/
def le : LabelName := ⟨"le", rfl⟩

/-- `"+Inf" if upper == float("inf") else str(upper)`. -/
def boundText (text : FloatText F) (upper : F) : String :=
  if text.isInf upper then "+Inf" else text.str upper

/-- The name of the bucket lines. -/
def bucketName (name : MetricName) : MetricName := name.suffixed "_bucket" rfl

/-- The loop of `expose` over the buckets of one label set. -/
def bucketSamples (text : FloatText F) (name : MetricName) (key : LabelKey) :
    ℕ → List (F × ℕ) → List (Sample F)
  | _, [] => []
  | cumulative, (upper, count) :: rest =>
    ⟨bucketName name, key, [(le, boundText text upper)], .int (cumulative + count)⟩ ::
      bucketSamples text name key (cumulative + count) rest

/-- The lines of one label set.  Its total and its sum are there, as the keys agree. -/
def keySamples (text : FloatText F) [Zero F] (h : Histogram F) (key : LabelKey)
    (counts : List ℕ) : List (Sample F) :=
  let total := (h.totals.get key).getD 0
  bucketSamples text h.name key 0 (h.buckets.zip counts) ++
    [⟨bucketName h.name, key, [(le, "+Inf")], .int total⟩,
      ⟨h.name.suffixed "_sum" rfl, key, [], .float ((h.sums.get key).getD 0)⟩,
      ⟨h.name.suffixed "_count" rfl, key, [], .int total⟩]

theorem of_mem_bucketSamples {text : FloatText F} {name : MetricName} {key : LabelKey}
    {cumulative : ℕ} {pairs : List (F × ℕ)} {s : Sample F}
    (hs : s ∈ bucketSamples text name key cumulative pairs) :
    s.key = key ∧ ∃ upper, s.extra = [(le, boundText text upper)] := by
  induction pairs generalizing cumulative with
  | nil => cases hs
  | cons pair pairs ih =>
    rcases List.mem_cons.mp hs with rfl | hs
    · exact ⟨rfl, pair.1, rfl⟩
    · exact ih hs

/-- The lines of a label set carry that label set, and at most the label `le` besides. -/
theorem of_mem_keySamples {text : FloatText F} [Zero F] {h : Histogram F} {key : LabelKey}
    {counts : List ℕ} {s : Sample F} (hs : s ∈ h.keySamples text key counts) :
    s.key = key ∧
      (s.extra = [] ∨ s.extra = [(le, "+Inf")] ∨
        ∃ upper, s.extra = [(le, boundText text upper)]) := by
  rcases List.mem_append.mp hs with hs | hs
  · obtain ⟨hkey, upper, hextra⟩ := of_mem_bucketSamples hs
    exact ⟨hkey, Or.inr (Or.inr ⟨upper, hextra⟩)⟩
  · simp only [List.mem_cons, List.not_mem_nil, or_false] at hs
    rcases hs with rfl | rfl | rfl
    · exact ⟨rfl, Or.inr (Or.inl rfl)⟩
    · exact ⟨rfl, Or.inl rfl⟩
    · exact ⟨rfl, Or.inl rfl⟩

/-- All its lines but the header. -/
def samples (text : FloatText F) [Zero F] (h : Histogram F) : List (Sample F) :=
  h.counts.items.flatMap fun (key, counts) => h.keySamples text key counts

/-- `expose`. -/
def expose (text : FloatText F) [Zero F] (h : Histogram F) : List String :=
  ["# HELP " ++ h.name.val ++ " " ++ h.description.val, "# TYPE " ++ h.name.val ++ " histogram"] ++
    (h.samples text).map fun s => s.text text

end Histogram

/-! ## The registry -/

/-- `MetricsRegistry`. -/
structure MetricsRegistry (F : Type) where
  requestsTotal : Counter F
  errorsTotal : Counter F
  requestLatency : Histogram F

/-- `_DEFAULT_BUCKETS`. -/
def defaultBuckets : List ℚ := [0.005, 0.01, 0.025, 0.05, 0.1, 0.25, 0.5, 1.0, 2.5, 5.0]

namespace MetricsRegistry

/-- `MetricsRegistry()`. -/
def new : MetricsRegistry ℚ where
  requestsTotal := Counter.new ⟨"http_requests_total", rfl⟩
    ⟨"Total HTTP requests by method, path and status.", by decide⟩
  errorsTotal := Counter.new ⟨"http_errors_total", rfl⟩
    ⟨"Total HTTP responses with status >= 500.", by decide⟩
  requestLatency := Histogram.new ⟨"http_request_duration_seconds", rfl⟩
    ⟨"HTTP request latency in seconds.", by decide⟩ defaultBuckets

variable {F : Type}

/-- The label sets present in the registry. -/
def keys (r : MetricsRegistry F) : List LabelKey :=
  r.requestsTotal.values.keys ++ r.errorsTotal.values.keys ++ r.requestLatency.counts.keys

/-- The lines that `render` collects. -/
def lines (text : FloatText F) [Zero F] (r : MetricsRegistry F) : List String :=
  r.requestsTotal.expose text ++ r.errorsTotal.expose text ++ r.requestLatency.expose text

/-- `render`. -/
def render (text : FloatText F) [Zero F] (r : MetricsRegistry F) : String :=
  "\n".intercalate (r.lines text) ++ "\n"

/-- `snapshot`. -/
def snapshot [AddCommMonoid F] (r : MetricsRegistry F) : List (String × F) :=
  [("http_requests_total", (r.requestsTotal.snapshot.items.map Prod.snd).sum),
    ("http_errors_total", (r.errorsTotal.snapshot.items.map Prod.snd).sum)]

end MetricsRegistry

end EventLedger
