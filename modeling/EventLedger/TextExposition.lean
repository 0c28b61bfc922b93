import EventLedger.DecimalDigits
import Mathlib.Data.List.Infix
import Mathlib.Data.List.Basic
import Mathlib.Data.Option.Basic

/-!
# The text exposition format

The grammar in which a scraper reads metrics: a text of lines, each of them blank, a
comment, or a sample — a metric name, labels with quoted values, a number and perhaps
a timestamp.  In a quoted value the backslash, the double quote and the line feed are
escaped.

`document` reads a text.  How numbers are written is a parameter.

A writer that quotes values without escaping them is read back exactly if no value
needs escaping (`document_rawText_iff`), and only then: a reader that finds the very labels that
were written has found plain values (`plain_of_labels_raw`), even where a value broke
the line.
-/
namespace TextExposition

open DecimalDigits

/-- What a sample line says. -/
structure Reading (F : Type) where
  name : String
  labels : List (String × String)
  value : F
  timestamp : Option ℤ
  deriving DecidableEq

/-! ## Names -/

/-- `[a-zA-Z_]`. -/
def labelStart (c : Char) : Bool := c.isAlpha || c = '_'

/-- `[a-zA-Z0-9_]`. -/
def labelRest (c : Char) : Bool := c.isAlphanum || c = '_'

/-- `[a-zA-Z_:]`. -/
def metricStart (c : Char) : Bool := labelStart c || c = ':'

/-- `[a-zA-Z0-9_:]`. -/
def metricRest (c : Char) : Bool := labelRest c || c = ':'

/-- One character of the first kind, then any number of the second. -/
def isName (start rest : Char → Bool) : List Char → Bool
  | [] => false
  | c :: cs => start c && cs.all rest

/-- The longest name at the front of a text. -/
def takeName (start rest : Char → Bool) : List Char → Option (String × List Char)
  | [] => none
  | c :: cs =>
    if start c then some (String.ofList (c :: cs.takeWhile rest), cs.dropWhile rest) else none

theorem takeName_append {start rest : Char → Bool} {name : String} {cs : List Char}
    (hname : isName start rest name.toList = true) (hcs : ∀ c ∈ cs.head?, rest c = false) :
    takeName start rest (name.toList ++ cs) = some (name, cs) := by
  cases hchars : name.toList with
  | nil => simp [hchars, isName] at hname
  | cons c name' =>
    rw [hchars, isName, Bool.and_eq_true] at hname
    have hall : ∀ x ∈ name', rest x = true := List.all_eq_true.mp hname.2
    have htake : (name' ++ cs).takeWhile rest = name' := by
      rw [List.takeWhile_append_of_pos hall]
      cases cs with
      | nil => simp
      | cons x xs => simp [hcs x rfl]
    have hdrop : (name' ++ cs).dropWhile rest = cs := by
      rw [List.dropWhile_append_of_pos hall]
      cases cs with
      | nil => rfl
      | cons x xs => simp [hcs x rfl]
    rw [List.cons_append, takeName, if_pos hname.1, htake, hdrop, ← hchars, String.ofList_toList]

/-- A name that was taken stands at the front. -/
theorem takeName_eq {start rest : Char → Bool} {name : String} {cs cs' : List Char}
    (h : takeName start rest cs = some (name, cs')) : cs = name.toList ++ cs' := by
  cases cs with
  | nil => cases h
  | cons c cs =>
    rw [takeName] at h
    split at h
    · cases h
      rw [String.toList_ofList, List.cons_append, List.takeWhile_append_dropWhile]
    · cases h

/-! ## Blanks -/

def isBlank (c : Char) : Bool := c = ' ' || c = '\t'

/-- A character of a kind that has no blanks is no blank. -/
theorem isBlank_eq_false {kind : Char → Bool} (hspace : kind ' ' = false)
    (htab : kind '\t' = false) {c : Char} (h : kind c = true) : isBlank c = false := by
  rw [Bool.eq_false_iff]
  intro hblank
  rcases (Bool.or_eq_true _ _).mp hblank with hc | hc
  · rw [of_decide_eq_true hc, hspace] at h
    cases h
  · rw [of_decide_eq_true hc, htab] at h
    cases h

/-- What follows leading blanks. -/
def skipBlanks (cs : List Char) : List Char := cs.dropWhile isBlank

theorem skipBlanks_cons {c : Char} (h : isBlank c = false) (cs : List Char) :
    skipBlanks (c :: cs) = c :: cs := by
  rw [skipBlanks, List.dropWhile_cons_of_neg (by simp [h])]

/-- The words between blanks. -/
def tokens (cs : List Char) : List (List Char) := (cs.splitOnP isBlank).filter (· ≠ [])

/-! ## Quoted values -/

/-- How a character stands in a quoted value. -/
def escape (c : Char) : List Char :=
  if c = '\\' then ['\\', '\\'] else if c = '"' then ['\\', '"']
  else if c = '\n' then ['\\', 'n'] else [c]

/-- The character an escape sequence stands for. -/
def unescape (c : Char) : Option Char :=
  if c = '\\' then some '\\' else if c = '"' then some '"'
  else if c = 'n' then some '\n' else none

/-- A value up to its closing quote, and what follows. -/
def quoted : List Char → Option (List Char × List Char)
  | [] => none
  | '"' :: cs => some ([], cs)
  | '\n' :: _ => none
  | ['\\'] => none
  | '\\' :: c :: cs => do
    let x ← unescape c
    let (value, cs) ← quoted cs
    some (x :: value, cs)
  | c :: cs => do
    let (value, cs) ← quoted cs
    some (c :: value, cs)

/-- No character of the value has to be escaped. -/
def Plain (value : List Char) : Prop := ∀ c ∈ value, c ≠ '\\' ∧ c ≠ '"' ∧ c ≠ '\n'

instance (value : List Char) : Decidable (Plain value) :=
  decidable_of_iff (value.all (fun c => decide (c ≠ '\\' ∧ c ≠ '"' ∧ c ≠ '\n')) = true) (by
    rw [List.all_eq_true]
    exact forall₂_congr fun _ _ => decide_eq_true_iff)

theorem escape_plain {c : Char} (h : c ≠ '\\' ∧ c ≠ '"' ∧ c ≠ '\n') : escape c = [c] := by
  rw [escape, if_neg h.1, if_neg h.2.1, if_neg h.2.2]

theorem flatMap_escape_plain {value : List Char} (h : Plain value) :
    value.flatMap escape = value := by
  induction value with
  | nil => rfl
  | cons c value ih =>
    rw [List.flatMap_cons, escape_plain (h c List.mem_cons_self),
      ih fun x hx => h x (List.mem_cons_of_mem c hx)]
    rfl

theorem quoted_cons_plain {c : Char} (h : c ≠ '\\' ∧ c ≠ '"' ∧ c ≠ '\n') (cs : List Char) :
    quoted (c :: cs) = (quoted cs).bind fun (value, cs) => some (c :: value, cs) := by
  obtain ⟨h₁, h₂, h₃⟩ := h
  rw [quoted]
  · rfl
  · rintro rfl
    exact h₂ rfl
  · rintro rfl
    exact h₃ rfl
  · rintro rfl
    exact absurd rfl h₁
  · rintro c' cs' rfl
    exact absurd rfl h₁

theorem escape_cases (c : Char) :
    (∃ e, escape c = ['\\', e] ∧ unescape e = some c) ∨
      (c ≠ '\\' ∧ c ≠ '"' ∧ c ≠ '\n') ∧ escape c = [c] := by
  by_cases h₁ : c = '\\'
  · subst h₁
    exact Or.inl ⟨'\\', rfl, rfl⟩
  by_cases h₂ : c = '"'
  · subst h₂
    exact Or.inl ⟨'"', rfl, rfl⟩
  by_cases h₃ : c = '\n'
  · subst h₃
    exact Or.inl ⟨'n', rfl, rfl⟩
  · exact Or.inr ⟨⟨h₁, h₂, h₃⟩, escape_plain ⟨h₁, h₂, h₃⟩⟩

theorem escape_of_unescape {e c : Char} (h : unescape e = some c) : escape c = ['\\', e] := by
  unfold unescape at h
  split at h
  · rename_i he
    cases h
    rw [he]
    rfl
  split at h
  · rename_i he
    cases h
    rw [he]
    rfl
  split at h
  · rename_i he
    cases h
    rw [he]
    rfl
  · cases h

theorem quoted_escape (c : Char) (cs : List Char) :
    quoted (escape c ++ cs) = (quoted cs).bind fun (value, cs) => some (c :: value, cs) := by
  rcases escape_cases c with ⟨e, hesc, hun⟩ | ⟨hplain, hesc⟩
  · rw [hesc]
    show quoted ('\\' :: e :: cs) = _
    rw [quoted, hun]
    rfl
  · rw [hesc]
    exact quoted_cons_plain hplain cs

/-- **Quoting.**  The reader finds a value exactly where it stands escaped and closed. -/
theorem quoted_iff {cs value rest : List Char} :
    quoted cs = some (value, rest) ↔ cs = value.flatMap escape ++ '"' :: rest := by
  constructor
  · intro h
    induction cs using quoted.induct generalizing value with
    | case1 => cases h
    | case2 cs =>
      cases h
      rfl
    | case3 cs => cases h
    | case4 => cases h
    | case5 c cs ih =>
      rw [quoted] at h
      obtain ⟨x, hx, h⟩ := Option.bind_eq_some_iff.mp h
      obtain ⟨⟨value', rest'⟩, hq, h⟩ := Option.bind_eq_some_iff.mp h
      cases h
      rw [List.flatMap_cons, escape_of_unescape hx, ih hq]
      rfl
    | case6 c cs h₁ h₂ h₃ h₄ ih =>
      have hplain : c ≠ '\\' ∧ c ≠ '"' ∧ c ≠ '\n' := by
        refine ⟨?_, h₁, h₂⟩
        intro hc
        cases cs with
        | nil => exact h₃ hc rfl
        | cons c' cs' => exact h₄ c' cs' hc rfl
      rw [quoted_cons_plain hplain] at h
      obtain ⟨⟨value', rest'⟩, hq, h⟩ := Option.bind_eq_some_iff.mp h
      cases h
      rw [List.flatMap_cons, escape_plain hplain, ih hq]
      rfl
  · rintro rfl
    induction value with
    | nil => rfl
    | cons c value ih =>
      rw [List.flatMap_cons, List.append_assoc, quoted_escape, ih]
      rfl

/-- No value is its own escaped form from the middle of an escape sequence on. -/
theorem not_prefix_of_backslashes {value rest : List Char} (k : ℕ) :
    ¬ List.replicate (k + 1) '\\' ++ (value.flatMap escape ++ ['"']) <+: value ++ '"' :: rest := by
  induction value generalizing k with
  | nil =>
    intro h
    have hhead := (List.cons_prefix_cons.mp h).1
    exact absurd hhead (by decide)
  | cons c value ih =>
    intro h
    -- the text must go on with a backslash, whose escape adds one more
    obtain ⟨hc, htail⟩ := List.cons_prefix_cons.mp h
    subst hc
    apply ih (k + 1)
    have hmore : List.replicate (k + 1 + 1) '\\' ++ (value.flatMap escape ++ ['"']) =
        List.replicate k '\\' ++ (('\\' :: value).flatMap escape ++ ['"']) := by
      rw [List.replicate_succ', List.replicate_succ', List.flatMap_cons]
      simp [escape]
    rw [hmore]
    exact htail

/-- **A raw value reads as itself only if it is plain.** -/
theorem plain_of_prefix {value rest : List Char}
    (h : value.flatMap escape ++ ['"'] <+: value ++ '"' :: rest) : Plain value := by
  induction value with
  | nil =>
    intro c hc
    cases hc
  | cons c value ih =>
    rcases escape_cases c with ⟨e, hesc, hun⟩ | ⟨hplain, hesc⟩
    · rw [List.flatMap_cons, hesc] at h
      obtain ⟨hc, htail⟩ := List.cons_prefix_cons.mp h
      subst hc
      cases hesc
      exact absurd htail (not_prefix_of_backslashes 0)
    · rw [List.flatMap_cons, hesc] at h
      have htail := (List.cons_prefix_cons.mp h).2
      intro x hx
      rcases List.mem_cons.mp hx with rfl | hx
      · exact hplain
      · exact ih htail x hx

/-! ## Labels -/

/-- A given character, and what follows. -/
def expect (c : Char) : List Char → Option (List Char)
  | [] => none
  | x :: xs => if x = c then some xs else none

/-- `name="value"`, with blanks between the tokens. -/
def label (cs : List Char) : Option ((String × String) × List Char) := do
  let (name, cs) ← takeName labelStart labelRest (skipBlanks cs)
  let cs ← expect '=' (skipBlanks cs)
  let cs ← expect '"' (skipBlanks cs)
  let (value, cs) ← quoted cs
  some ((name, String.ofList value), cs)

/-- Labels up to the closing brace; a comma may follow the last one. -/
def labels : ℕ → List Char → Option (List (String × String) × List Char)
  | 0, _ => none
  | fuel + 1, cs =>
    match skipBlanks cs with
    | '}' :: cs => some ([], cs)
    | _ => do
      let (item, cs) ← label cs
      match skipBlanks cs with
      | '}' :: cs => some ([item], cs)
      | ',' :: cs => do
        let (items, cs) ← labels fuel cs
        some (item :: items, cs)
      | _ => none

/-- The labels of a sample, if it has any. -/
def labelSet (cs : List Char) : Option (List (String × String) × List Char) :=
  match skipBlanks cs with
  | '{' :: cs => labels (cs.length + 1) cs
  | cs => some ([], cs)

/-- A label whose value is quoted as it is. -/
def rawLabel (item : String × String) : List Char :=
  item.1.toList ++ '=' :: '"' :: (item.2.toList ++ ['"'])

/-- Labels as a writer that does not escape writes them. -/
def rawLabels : List (String × String) → List Char
  | [] => ['}']
  | [item] => rawLabel item ++ ['}']
  | item :: items => rawLabel item ++ ',' :: rawLabels items

theorem rawLabel_append (item : String × String) (cs : List Char) :
    rawLabel item ++ cs = item.1.toList ++ '=' :: '"' :: (item.2.toList ++ '"' :: cs) := by
  simp [rawLabel]

/-- The labels of a sample, if it has any, as such a writer writes them. -/
def rawLabelSet (items : List (String × String)) : List Char :=
  if items = [] then [] else '{' :: rawLabels items

theorem rawLabels_cons_cons (item next : String × String) (items : List (String × String)) :
    rawLabels (item :: next :: items) = rawLabel item ++ ',' :: rawLabels (next :: items) :=
  rfl

/-- They are the labels joined by commas. -/
theorem rawLabels_eq {items : List (String × String)} (h : items ≠ []) :
    [','].intercalate (items.map rawLabel) ++ ['}'] = rawLabels items := by
  induction items with
  | nil => exact absurd rfl h
  | cons item items ih =>
    cases items with
    | nil => rw [List.map_singleton, List.intercalate_singleton, rawLabels]
    | cons next items =>
      rw [List.map_cons, List.map_cons, List.intercalate_cons_cons, ← List.map_cons,
        List.append_assoc, ih (List.cons_ne_nil _ _), rawLabels_cons_cons]
      simp

/-- The name is a label name. -/
def IsLabelName (name : String) : Prop := isName labelStart labelRest name.toList = true

/-- A label starts with its name, wherever the text breaks off. -/
theorem skipBlanks_rawLabel {item : String × String} (h : IsLabelName item.1)
    {cs rest : List Char} (hbegins : cs <+: rawLabel item ++ rest) :
    skipBlanks cs = cs ∧ ∀ rest, cs ≠ '}' :: rest := by
  cases cs with
  | nil => exact ⟨rfl, fun rest hrest => by cases hrest⟩
  | cons c cs =>
    have hstart : labelStart c = true := by
      cases hchars : item.1.toList with
      | nil => simp [IsLabelName, hchars, isName] at h
      | cons c' name =>
        rw [IsLabelName, hchars, isName, Bool.and_eq_true] at h
        rw [rawLabel_append, hchars] at hbegins
        rw [(List.cons_prefix_cons.mp hbegins).1]
        exact h.1
    constructor
    · exact skipBlanks_cons (isBlank_eq_false (by decide) (by decide) hstart) cs
    · intro rest hrest
      cases hrest
      exact absurd hstart (by decide)

theorem label_raw {item : String × String} (hname : IsLabelName item.1)
    (hplain : Plain item.2.toList) (cs : List Char) :
    label (rawLabel item ++ cs) = some (item, cs) := by
  have htake : takeName labelStart labelRest (rawLabel item ++ cs) =
      some (item.1, '=' :: '"' :: (item.2.toList ++ '"' :: cs)) := by
    rw [rawLabel_append]
    apply takeName_append hname
    intro c hc
    cases hc
    decide
  have hquoted : quoted (item.2.toList ++ '"' :: cs) = some (item.2.toList, cs) := by
    rw [quoted_iff, flatMap_escape_plain hplain]
  have hquote : isBlank '"' = false := by decide
  have heq : isBlank '=' = false := by decide
  rw [label, (skipBlanks_rawLabel hname List.prefix_rfl).1, htake]
  simp [skipBlanks_cons heq, skipBlanks_cons hquote, expect, hquoted]

/-- What is expected at the front of a text is found at the front of a beginning of it. -/
theorem expect_prefix {c : Char} {cs cs' rest : List Char} (hc : isBlank c = false)
    (hbegins : cs <+: c :: rest) (h : expect c (skipBlanks cs) = some cs') : cs' <+: rest := by
  cases cs with
  | nil => cases h
  | cons x xs =>
    obtain ⟨rfl, hxs⟩ := List.cons_prefix_cons.mp hbegins
    rw [skipBlanks_cons hc, expect, if_pos rfl] at h
    cases h
    exact hxs

/-- **One raw label.**  If the reader finds in a beginning of the text the very label that was
written there, the value is plain. -/
theorem plain_of_label_raw {item : String × String} {cs cs' rest : List Char}
    (hname : IsLabelName item.1) (hbegins : cs <+: rawLabel item ++ rest)
    (h : label cs = some (item, cs')) : Plain item.2.toList ∧ cs' <+: rest := by
  unfold label at h
  obtain ⟨⟨name, cs₁⟩, htake, h⟩ := Option.bind_eq_some_iff.mp h
  obtain ⟨cs₂, heq, h⟩ := Option.bind_eq_some_iff.mp h
  obtain ⟨cs₃, hquote, h⟩ := Option.bind_eq_some_iff.mp h
  obtain ⟨⟨value, cs₄⟩, hvalue, h⟩ := Option.bind_eq_some_iff.mp h
  cases h
  rw [String.toList_ofList]
  rw [(skipBlanks_rawLabel hname hbegins).1] at htake
  rw [takeName_eq htake, rawLabel_append, List.prefix_append_right_inj] at hbegins
  have hbegins₂ := expect_prefix (by decide) hbegins heq
  have hbegins₃ := expect_prefix (by decide) hbegins₂ hquote
  rw [quoted_iff.mp hvalue, String.toList_ofList] at hbegins₃
  have hclosed : value.flatMap escape ++ ['"'] <+: value.flatMap escape ++ '"' :: cs' := by
    rw [List.prefix_append_right_inj]
    exact ⟨cs', rfl⟩
  have hplain : Plain value := plain_of_prefix (hclosed.trans hbegins₃)
  refine ⟨hplain, ?_⟩
  rw [flatMap_escape_plain hplain, List.prefix_append_right_inj] at hbegins₃
  exact (List.cons_prefix_cons.mp hbegins₃).2

/-- The labels are written with label names. -/
def LabelNames (items : List (String × String)) : Prop := ∀ item ∈ items, IsLabelName item.1

/-- No label value has to be escaped. -/
def PlainLabels (items : List (String × String)) : Prop := ∀ item ∈ items, Plain item.2.toList

theorem labels_close (fuel : ℕ) (cs : List Char) : labels (fuel + 1) ('}' :: cs) = some ([], cs) :=
  rfl

/-- One turn of the loop, at a label. -/
theorem labels_succ {fuel : ℕ} {item : String × String} (hname : IsLabelName item.1)
    {cs rest : List Char} (hbegins : cs <+: rawLabel item ++ rest) :
    labels (fuel + 1) cs = (label cs).bind fun (item, cs) =>
      match skipBlanks cs with
      | '}' :: cs => some ([item], cs)
      | ',' :: cs => (labels fuel cs).bind fun (items, cs) => some (item :: items, cs)
      | _ => none := by
  obtain ⟨hself, hne⟩ := skipBlanks_rawLabel hname hbegins
  rw [labels, hself]
  split
  · rename_i cs'
    exact absurd rfl (hne cs')
  · rfl

/-- What a turn that succeeded has read. -/
theorem labels_cons {fuel : ℕ} {item : String × String} {items : List (String × String)}
    (hname : IsLabelName item.1) {cs cs' rest : List Char} (hbegins : cs <+: rawLabel item ++ rest)
    (h : labels (fuel + 1) cs = some (item :: items, cs')) :
    ∃ cs₁, label cs = some (item, cs₁) ∧
      (items = [] ∨ ∃ cs₂, skipBlanks cs₁ = ',' :: cs₂ ∧ labels fuel cs₂ = some (items, cs')) := by
  rw [labels_succ hname hbegins] at h
  obtain ⟨⟨item', cs₁⟩, hlabel, h⟩ := Option.bind_eq_some_iff.mp h
  dsimp only at h
  split at h
  · cases h
    exact ⟨cs₁, hlabel, Or.inl rfl⟩
  · rename_i cs₂ hcomma
    obtain ⟨⟨items', cs₃⟩, hmore, h⟩ := Option.bind_eq_some_iff.mp h
    cases h
    exact ⟨cs₁, hlabel, Or.inr ⟨cs₂, hcomma, hmore⟩⟩
  · cases h

/-- There are no more labels than characters. -/
theorem length_rawLabels (items : List (String × String)) (cs : List Char) :
    items.length < (rawLabels items ++ cs).length + 1 := by
  induction items with
  | nil => simp
  | cons item items ih =>
    cases items with
    | nil =>
      simp only [rawLabels, rawLabel, List.length_append, List.length_cons]
      omega
    | cons next items =>
      rw [rawLabels_cons_cons]
      simp only [List.length_append, List.length_cons] at ih ⊢
      omega

/-- Plain labels are read back. -/
theorem labels_raw {items : List (String × String)} (hnames : LabelNames items)
    (hplain : PlainLabels items) {fuel : ℕ} (hfuel : items.length < fuel) (cs : List Char) :
    labels fuel (rawLabels items ++ cs) = some (items, cs) := by
  induction items generalizing fuel with
  | nil =>
    cases fuel with
    | zero => cases hfuel
    | succ fuel => exact labels_close fuel cs
  | cons item items ih =>
    cases fuel with
    | zero => cases hfuel
    | succ fuel =>
      have hname := hnames item List.mem_cons_self
      have hitem := hplain item List.mem_cons_self
      cases items with
      | nil =>
        rw [rawLabels, List.append_assoc, labels_succ hname List.prefix_rfl, label_raw hname hitem]
        rfl
      | cons next items =>
        rw [rawLabels_cons_cons, List.append_assoc, labels_succ hname List.prefix_rfl,
          label_raw hname hitem]
        show (labels fuel (rawLabels (next :: items) ++ cs)).bind _ = _
        rw [ih (fun x hx => hnames x (List.mem_cons_of_mem _ hx))
          (fun x hx => hplain x (List.mem_cons_of_mem _ hx)) (Nat.lt_of_succ_lt_succ hfuel)]
        rfl

/-- **Raw labels.**  If the reader finds in a beginning of the text the very labels that were
written there, all their values are plain. -/
theorem plain_of_labels_raw {items : List (String × String)} (hnames : LabelNames items)
    {fuel : ℕ} {cs cs' rest : List Char} (hbegins : cs <+: rawLabels items ++ rest)
    (h : labels fuel cs = some (items, cs')) : PlainLabels items := by
  induction items generalizing fuel cs with
  | nil =>
    intro item hitem
    cases hitem
  | cons item items ih =>
    have hname := hnames item List.mem_cons_self
    have hnames' : LabelNames items := fun x hx => hnames x (List.mem_cons_of_mem _ hx)
    cases fuel with
    | zero => cases h
    | succ fuel =>
      cases items with
      | nil =>
        rw [rawLabels, List.append_assoc] at hbegins
        obtain ⟨cs₁, hlabel, -⟩ := labels_cons hname hbegins h
        intro x hx
        rw [List.mem_singleton.mp hx]
        exact (plain_of_label_raw hname hbegins hlabel).1
      | cons next items =>
        rw [rawLabels_cons_cons, List.append_assoc] at hbegins
        obtain ⟨cs₁, hlabel, hmore⟩ := labels_cons hname hbegins h
        obtain ⟨hplain, hbegins₁⟩ := plain_of_label_raw hname hbegins hlabel
        rcases hmore with hnil | ⟨cs₂, hcomma, hmore⟩
        · cases hnil
        -- the rest of the text goes on at the comma
        have hbegins₂ : cs₂ <+: rawLabels (next :: items) ++ rest := by
          apply expect_prefix (by decide) hbegins₁
          rw [hcomma]
          rfl
        intro x hx
        rcases List.mem_cons.mp hx with rfl | hx
        · exact hplain
        · exact ih hnames' hbegins₂ hmore x hx

/-- **Injectivity.**  Different sets of plain labels are written differently. -/
theorem rawLabelSet_inj {items items' : List (String × String)} (hnames : LabelNames items)
    (hnames' : LabelNames items') (hplain : PlainLabels items) (hplain' : PlainLabels items')
    (h : rawLabelSet items = rawLabelSet items') : items = items' := by
  unfold rawLabelSet at h
  by_cases hnil : items = []
  · by_cases hnil' : items' = []
    · rw [hnil, hnil']
    · rw [if_pos hnil, if_neg hnil'] at h
      cases h
  · by_cases hnil' : items' = []
    · rw [if_neg hnil, if_pos hnil'] at h
      cases h
    · rw [if_neg hnil, if_neg hnil'] at h
      have hread := labels_raw hnames hplain (length_rawLabels items []) []
      have hread' := labels_raw hnames' hplain' (length_rawLabels items' []) []
      rw [(List.cons.inj h).2, hread'] at hread
      exact (congrArg Prod.fst (Option.some.inj hread)).symm

/-! ## Sample lines -/

/-- A timestamp: decimal digits with an optional sign, within 64 bits. -/
def readTimestamp (cs : List Char) : Option ℤ := do
  let (sign, digits) := match cs with
    | '-' :: cs => ((-1 : ℤ), cs)
    | '+' :: cs => (1, cs)
    | cs => (1, cs)
  if digits ≠ [] ∧ digits.all Char.isDigit then
    let t := sign * readDigits digits
    if -2 ^ 63 ≤ t ∧ t < 2 ^ 63 then some t else none
  else none

section
variable {F : Type} (read : String → Option F)

/-- A metric name, its labels, a number and perhaps a timestamp. -/
def sample (cs : List Char) : Option (Reading F) := do
  let (name, cs) ← takeName metricStart metricRest cs
  let (labels, cs) ← labelSet cs
  match tokens cs with
  | [text] => do
    let value ← read (String.ofList text)
    some ⟨name, labels, value, none⟩
  | [text, timestamp] => do
    let value ← read (String.ofList text)
    let t ← readTimestamp timestamp
    some ⟨name, labels, value, some t⟩
  | _ => none

/-- A line: the sample it holds, if it is not blank and no comment. -/
def line (cs : List Char) : Option (Option (Reading F)) :=
  match skipBlanks cs with
  | [] => some none
  | '#' :: _ => some none
  | cs => (sample read cs).map some

end

/-- A sample as a writer that does not escape writes it: its number reads as `value`. -/
structure RawSample {F : Type} (read : String → Option F) where
  name : String
  labels : List (String × String)
  text : String
  value : F
  name_isName : isName metricStart metricRest name.toList = true
  labelNames : LabelNames labels
  text_ne : text.toList ≠ []
  text_word : ∀ c ∈ text.toList, isBlank c = false ∧ c ≠ '\n' ∧ c ≠ '{'
  text_reads : read text = some value

namespace RawSample

variable {F : Type} {read : String → Option F} (s : RawSample read)

/-- The line that is written. -/
def chars : List Char := s.name.toList ++ (rawLabelSet s.labels ++ ' ' :: s.text.toList)

/-- What it should say. -/
def reading : Reading F := ⟨s.name, s.labels, s.value, none⟩

theorem tokens_text : tokens s.text.toList = [s.text.toList] := by
  rw [tokens, List.splitOnP_eq_singleton fun c hc => (s.text_word c hc).1]
  simp [s.text_ne]

theorem skipBlanks_text : skipBlanks (' ' :: s.text.toList) = s.text.toList := by
  have hblank : isBlank ' ' = true := by decide
  rw [skipBlanks, List.dropWhile_cons_of_pos hblank]
  cases htext : s.text.toList with
  | nil => rfl
  | cons c cs =>
    have hc := s.text_word c (by rw [htext]; exact List.mem_cons_self)
    exact skipBlanks_cons hc.1 cs

theorem tokens_blank_text : tokens (' ' :: s.text.toList) = [s.text.toList] := by
  have hblank : isBlank ' ' = true := by decide
  have hcons : (' ' :: s.text.toList).splitOnP isBlank = [] :: s.text.toList.splitOnP isBlank := by
    have h := List.splitOnP_append_cons [] s.text.toList hblank
    simpa using h
  rw [tokens, hcons, List.filter_cons_of_neg (by simp)]
  exact s.tokens_text

/-- The labels are read off, and what is left are the number's characters. -/
theorem labelSet_raw (h : PlainLabels s.labels) :
    ∃ cs, labelSet (rawLabelSet s.labels ++ ' ' :: s.text.toList) = some (s.labels, cs) ∧
      tokens cs = [s.text.toList] := by
  by_cases hnil : s.labels = []
  · refine ⟨s.text.toList, ?_, s.tokens_text⟩
    rw [rawLabelSet, if_pos hnil, List.nil_append, labelSet, s.skipBlanks_text, hnil]
    split
    · rename_i cs hbrace
      have hc := s.text_word '{' (by rw [hbrace]; exact List.mem_cons_self)
      exact absurd rfl hc.2.2
    · rfl
  · refine ⟨' ' :: s.text.toList, ?_, s.tokens_blank_text⟩
    rw [rawLabelSet, if_neg hnil, List.cons_append, labelSet, skipBlanks_cons (by decide)]
    exact labels_raw s.labelNames h (length_rawLabels s.labels _) _

/-- The metric's name ends where its labels or its number begin. -/
theorem name_end (c : Char) (hc : c ∈ (rawLabelSet s.labels ++ ' ' :: s.text.toList).head?) :
    metricRest c = false := by
  by_cases hnil : s.labels = []
  · rw [rawLabelSet, if_pos hnil] at hc
    cases hc
    decide
  · rw [rawLabelSet, if_neg hnil] at hc
    cases hc
    decide

/-- **A plain sample is read back.** -/
theorem sample_chars (h : PlainLabels s.labels) : sample read s.chars = some s.reading := by
  obtain ⟨cs, hset, htokens⟩ := s.labelSet_raw h
  rw [sample, chars, takeName_append s.name_isName s.name_end]
  simp [hset, htokens, s.text_reads, reading]

/-- A sample starts with a letter. -/
theorem exists_head : ∃ c cs, s.chars = c :: cs ∧ metricStart c = true := by
  have hname := s.name_isName
  rw [chars]
  cases hchars : s.name.toList with
  | nil => simp [hchars, isName] at hname
  | cons c name =>
    rw [hchars, isName, Bool.and_eq_true] at hname
    exact ⟨c, _, rfl, hname.1⟩

/-- A line that begins as a sample is read as one. -/
theorem line_of_prefix {cs : List Char} (hcs : cs ≠ []) (hbegins : cs <+: s.chars) :
    line read cs = (sample read cs).map some := by
  cases cs with
  | nil => exact absurd rfl hcs
  | cons c cs =>
    obtain ⟨c', chars', hchars, hstart⟩ := s.exists_head
    rw [hchars] at hbegins
    obtain ⟨rfl, -⟩ := List.cons_prefix_cons.mp hbegins
    have hblank : isBlank c = false := isBlank_eq_false (by decide) (by decide) hstart
    rw [line, skipBlanks_cons hblank]
    split
    · rename_i hnil
      cases hnil
    · rename_i cs' hcomment
      cases hcomment
      exact absurd hstart (by decide)
    · rfl

/-- **Only plain samples are read back.**  If a beginning of the line is read as what the line
should say, its label values are plain. -/
theorem plain_of_sample {cs : List Char} (hbegins : cs <+: s.chars)
    (h : sample read cs = some s.reading) : PlainLabels s.labels := by
  unfold sample at h
  obtain ⟨⟨name, cs₁⟩, htake, h⟩ := Option.bind_eq_some_iff.mp h
  obtain ⟨⟨items, cs₂⟩, hset, h⟩ := Option.bind_eq_some_iff.mp h
  have hread : name = s.name ∧ items = s.labels := by
    dsimp only at h
    split at h
    · obtain ⟨value, -, h⟩ := Option.bind_eq_some_iff.mp h
      cases h
      exact ⟨rfl, rfl⟩
    · obtain ⟨value, -, h⟩ := Option.bind_eq_some_iff.mp h
      obtain ⟨t, -, h⟩ := Option.bind_eq_some_iff.mp h
      cases h
    · cases h
  obtain ⟨rfl, rfl⟩ := hread
  rw [takeName_eq htake, chars, List.prefix_append_right_inj] at hbegins
  by_cases hnil : s.labels = []
  · rw [hnil]
    intro item hitem
    cases hitem
  rw [rawLabelSet, if_neg hnil, List.cons_append] at hbegins
  cases cs₁ with
  | nil => exact absurd (congrArg Prod.fst (Option.some.inj hset)).symm hnil
  | cons c cs₁ =>
    obtain ⟨rfl, hlabels⟩ := List.cons_prefix_cons.mp hbegins
    rw [labelSet, skipBlanks_cons (by decide)] at hset
    exact plain_of_labels_raw s.labelNames hlabels hset

end RawSample

/-! ## Texts -/

/-- The lines of a text; the last one, too, has to end with a line feed. -/
def linesOf : List Char → Option (List (List Char))
  | [] => some []
  | '\n' :: cs => (linesOf cs).map ([] :: ·)
  | c :: cs => do
    match ← linesOf cs with
    | [] => none
    | l :: ls => some ((c :: l) :: ls)

/-- The samples of a text, in order. -/
def readLines {F : Type} (read : String → Option F) : List (List Char) → Option (List (Reading F))
  | [] => some []
  | l :: ls => do
    let r ← line read l
    let rs ← readLines read ls
    some (r.toList ++ rs)

/-- The samples a text says. -/
def document {F : Type} (read : String → Option F) (text : List Char) :
    Option (List (Reading F)) :=
  (linesOf text).bind (readLines read)

theorem linesOf_append {l : List Char} (h : '\n' ∉ l) (cs : List Char) :
    linesOf (l ++ '\n' :: cs) = (linesOf cs).map (l :: ·) := by
  induction l with
  | nil => rfl
  | cons c l ih =>
    rw [List.mem_cons, not_or] at h
    rw [List.cons_append, linesOf, ih h.2]
    · cases linesOf cs with
      | none => rfl
      | some ls => rfl
    · rintro rfl
      exact h.1 rfl

theorem document_append {F : Type} {read : String → Option F} {l : List Char} (h : '\n' ∉ l)
    (cs : List Char) :
    document read (l ++ '\n' :: cs) =
      (line read l).bind fun r => (document read cs).map (r.toList ++ ·) := by
  rw [document, linesOf_append h, document]
  cases linesOf cs with
  | none => simp
  | some ls =>
    rw [Option.map_some, Option.bind_some, readLines, Option.bind_some]
    cases line read l with
    | none => rfl
    | some r =>
      cases readLines read ls with
      | none => rfl
      | some rs => rfl

/-- A line of a text: a comment, or a sample whose values are not escaped. -/
inductive RawLine {F : Type} (read : String → Option F)
  | comment (text : List Char) (hash : text.head? = some '#') (oneLine : '\n' ∉ text)
  | sample (s : RawSample read)

namespace RawLine

variable {F : Type} {read : String → Option F}

/-- The characters of the line, without the line feed. -/
def chars : RawLine read → List Char
  | comment text _ _ => text
  | sample s => s.chars

/-- What the line should say. -/
def reading : RawLine read → Option (Reading F)
  | comment _ _ _ => none
  | sample s => some s.reading

/-- No label value on the line has to be escaped. -/
def Plain : RawLine read → Prop
  | comment _ _ _ => True
  | sample s => PlainLabels s.labels

theorem line_comment {text : List Char} (hash : text.head? = some '#') :
    line read text = some none := by
  cases text with
  | nil => cases hash
  | cons c text =>
    cases hash
    rw [line, skipBlanks_cons (by decide)]
    rfl

theorem newline_not_mem_name {start rest : Char → Bool} {name : List Char}
    (h : isName start rest name = true) (hstart : start '\n' = false) (hrest : rest '\n' = false) :
    '\n' ∉ name := by
  intro hmem
  cases name with
  | nil => cases hmem
  | cons c cs =>
    rw [isName, Bool.and_eq_true] at h
    rcases List.mem_cons.mp hmem with rfl | hmem
    · rw [hstart] at h
      exact absurd h.1 (by decide)
    · have hc := List.all_eq_true.mp h.2 '\n' hmem
      rw [hrest] at hc
      exact absurd hc (by decide)

theorem newline_not_mem_rawLabel {item : String × String} (hname : IsLabelName item.1)
    (hplain : TextExposition.Plain item.2.toList) : '\n' ∉ rawLabel item := by
  have hname' := newline_not_mem_name hname (by decide) (by decide)
  have hvalue : '\n' ∉ item.2.toList := fun hmem => (hplain '\n' hmem).2.2 rfl
  simp [rawLabel, hname', hvalue]

theorem newline_not_mem_rawLabels {items : List (String × String)} (hnames : LabelNames items)
    (hplain : PlainLabels items) : '\n' ∉ rawLabels items := by
  induction items with
  | nil => decide
  | cons item items ih =>
    have hlabel := newline_not_mem_rawLabel (hnames item List.mem_cons_self)
      (hplain item List.mem_cons_self)
    have hmore := ih (fun x hx => hnames x (List.mem_cons_of_mem _ hx))
      fun x hx => hplain x (List.mem_cons_of_mem _ hx)
    cases items with
    | nil => simp [rawLabels, hlabel]
    | cons next items =>
      rw [rawLabels_cons_cons]
      simp [hlabel, hmore]

/-- A plain line is one line. -/
theorem newline_not_mem {l : RawLine read} (h : l.Plain) : '\n' ∉ l.chars := by
  cases l with
  | comment text hash oneLine => exact oneLine
  | sample s =>
    have hname := newline_not_mem_name s.name_isName (by decide) (by decide)
    have htext : '\n' ∉ s.text.toList := fun hmem => (s.text_word '\n' hmem).2.1 rfl
    have hlabels := newline_not_mem_rawLabels s.labelNames h
    by_cases hnil : s.labels = []
    · simp [chars, RawSample.chars, rawLabelSet, hnil, hname, htext]
    · simp [chars, RawSample.chars, rawLabelSet, hnil, hname, htext, hlabels]

/-- A plain line says what it should. -/
theorem line_chars {l : RawLine read} (h : l.Plain) : line read l.chars = some l.reading := by
  cases l with
  | comment text hash oneLine => exact line_comment hash
  | sample s =>
    have hne : s.chars ≠ [] := by simp [RawSample.chars]
    show line read s.chars = _
    rw [s.line_of_prefix hne List.prefix_rfl, s.sample_chars h]
    rfl

end RawLine

/-- A text of such lines, each ended by a line feed. -/
def rawText {F : Type} {read : String → Option F} (ls : List (RawLine read)) : List Char :=
  ls.flatMap fun l => l.chars ++ ['\n']

section
variable {F : Type} {read : String → Option F}

theorem rawText_cons (l : RawLine read) (ls : List (RawLine read)) :
    rawText (l :: ls) = l.chars ++ '\n' :: rawText ls := by
  rw [rawText, List.flatMap_cons, List.append_assoc]
  rfl

/-- It is the lines joined by line feeds, with one at the end. -/
theorem rawText_eq {ls : List (RawLine read)} (h : ls ≠ []) :
    ['\n'].intercalate (ls.map RawLine.chars) ++ ['\n'] = rawText ls := by
  induction ls with
  | nil => exact absurd rfl h
  | cons l ls ih =>
    rw [rawText_cons]
    cases ls with
    | nil => rw [List.map_singleton, List.intercalate_singleton]; rfl
    | cons l' ls =>
      rw [List.map_cons, List.map_cons, List.intercalate_cons_cons, ← List.map_cons,
        List.append_assoc, ih (List.cons_ne_nil _ _)]
      simp

theorem document_rawText_cons {l : RawLine read} (h : l.Plain) (ls : List (RawLine read)) :
    document read (rawText (l :: ls)) =
      (document read (rawText ls)).map (l.reading.toList ++ ·) := by
  rw [rawText_cons, document_append (RawLine.newline_not_mem h), RawLine.line_chars h]
  rfl

/-- Plain lines are the lines of their text. -/
theorem linesOf_rawText {ls : List (RawLine read)} (h : ∀ l ∈ ls, l.Plain) :
    linesOf (rawText ls) = some (ls.map RawLine.chars) := by
  induction ls with
  | nil => rfl
  | cons l ls ih =>
    rw [rawText_cons, linesOf_append (RawLine.newline_not_mem (h l List.mem_cons_self)),
      ih fun x hx => h x (List.mem_cons_of_mem l hx)]
    rfl

/-- The first line of a text, up to wherever a line feed ends it. -/
theorem exists_first_line (l cs : List Char) :
    ∃ cut rest, cut <+: l ∧ '\n' ∉ cut ∧ l ++ '\n' :: cs = cut ++ '\n' :: rest := by
  induction l with
  | nil => exact ⟨[], cs, List.prefix_rfl, List.not_mem_nil, rfl⟩
  | cons c l ih =>
    by_cases hc : c = '\n'
    · subst hc
      exact ⟨[], l ++ '\n' :: cs, List.nil_prefix, List.not_mem_nil, rfl⟩
    · obtain ⟨cut, rest, hbegins, hcut, heq⟩ := ih
      refine ⟨c :: cut, rest, List.cons_prefix_cons.mpr ⟨rfl, hbegins⟩, ?_, ?_⟩
      · rw [List.mem_cons, not_or]
        exact ⟨fun h => hc h.symm, hcut⟩
      · rw [List.cons_append, heq]
        rfl

/-- If a text that starts with a raw sample is read as starting with that sample, its label values
are plain. -/
theorem plain_of_document {s : RawSample read} {cs : List Char} {rs : List (Reading F)}
    (h : document read (s.chars ++ '\n' :: cs) = some (s.reading :: rs)) :
    PlainLabels s.labels := by
  obtain ⟨cut, rest, hbegins, hcut, heq⟩ := exists_first_line s.chars cs
  have hne : cut ≠ [] := by
    rintro rfl
    obtain ⟨c, chars', hchars, hstart⟩ := s.exists_head
    rw [hchars] at heq
    rw [(List.cons.inj heq).1] at hstart
    exact absurd hstart (by decide)
  rw [heq, document_append hcut, s.line_of_prefix hne hbegins] at h
  cases hsample : sample read cut with
  | none =>
    rw [hsample] at h
    cases h
  | some r =>
    rw [hsample] at h
    obtain ⟨rs', -, hrs⟩ := Option.map_eq_some_iff.mp h
    have hr : r = s.reading := (List.cons.inj hrs).1
    rw [hr] at hsample
    exact s.plain_of_sample hbegins hsample

/-- **Raw texts.**  A text whose values are not escaped says exactly the samples that were written
if and only if no value has to be escaped. -/
theorem document_rawText_iff (ls : List (RawLine read)) :
    document read (rawText ls) = some (ls.filterMap RawLine.reading) ↔ ∀ l ∈ ls, l.Plain := by
  induction ls with
  | nil => simp [rawText, document, linesOf, readLines]
  | cons l ls ih =>
    have htail : l.Plain → (document read (rawText (l :: ls)) =
        some ((l :: ls).filterMap RawLine.reading) ↔
          document read (rawText ls) = some (ls.filterMap RawLine.reading)) := by
      intro hplain
      have hreadings : (l :: ls).filterMap RawLine.reading =
          l.reading.toList ++ ls.filterMap RawLine.reading := by
        cases hl : l.reading with
        | none => rw [List.filterMap_cons_none hl]; rfl
        | some r => rw [List.filterMap_cons_some hl]; rfl
      rw [document_rawText_cons hplain, hreadings, ← Option.map_some (f := (l.reading.toList ++ ·))]
      exact (Option.map_injective (List.append_right_injective l.reading.toList)).eq_iff
    rw [List.forall_mem_cons]
    constructor
    · intro h
      have hplain : l.Plain := by
        cases l with
        | comment text hash oneLine => trivial
        | sample s =>
          rw [rawText_cons] at h
          exact plain_of_document h
      exact ⟨hplain, ih.mp ((htail hplain).mp h)⟩
    · rintro ⟨hplain, hmore⟩
      exact (htail hplain).mpr (ih.mpr hmore)

end

end TextExposition
