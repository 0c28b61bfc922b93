import EventLedger.Program
import Mathlib.Logic.Basic
import Mathlib.Tactic.TypeStar

/-!
# What a program has done

`Steps p es q` says that the program `p` can perform the events `es`, whatever
its operations return, and then be left as `q`.  Properties of these event lists
are what one thread guarantees in any surroundings.

`Keeps I Post p` is such a property: the events performed so far satisfy `I`
throughout, and together with the result they satisfy `Post` at the end.  It has
one rule for each way a program is built, and one for programs whose operations
are carried out by other programs (`interpret`).
-/
namespace Program

/-- An operation that was performed, and what it returned. -/
abbrev Event (Op : Type) (Ret : Op → Type) : Type := (o : Op) × Ret o

namespace Prog

variable {Op Op' : Type} {Ret : Op → Type} {Ret' : Op' → Type} {α β : Type}

/-- Performing the events leaves the second program of the first. -/
inductive Steps : Prog Op Ret α → List (Event Op Ret) → Prog Op Ret α → Prop
  | refl (p : Prog Op Ret α) : Steps p [] p
  | act {o : Op} {k : Ret o → Prog Op Ret α} {r : Ret o} {es : List (Event Op Ret)}
      {q : Prog Op Ret α} (h : Steps (k r) es q) : Steps (act o k) (⟨o, r⟩ :: es) q

/-- Performing the events finishes the program with this result. -/
def Trace (p : Prog Op Ret α) (es : List (Event Op Ret)) (a : α) : Prop := Steps p es (done a)

variable {p q : Prog Op Ret α} {f : α → Prog Op Ret β} {es es' : List (Event Op Ret)} {a : α}
  {b : β}

@[simp] theorem steps_nil : Steps p [] q ↔ p = q := by
  constructor
  · intro h
    cases h
    rfl
  · rintro rfl
    exact .refl p

theorem steps_done : Steps (done a) es q ↔ es = [] ∧ q = done a := by
  constructor
  · intro h
    cases h
    exact ⟨rfl, rfl⟩
  · rintro ⟨rfl, rfl⟩
    exact .refl _

theorem steps_act {o : Op} {k : Ret o → Prog Op Ret α} :
    Steps (act o k) es q ↔
      (es = [] ∧ q = act o k) ∨ ∃ r es', es = ⟨o, r⟩ :: es' ∧ Steps (k r) es' q := by
  constructor
  · intro h
    cases h with
    | refl => exact Or.inl ⟨rfl, rfl⟩
    | act h => exact Or.inr ⟨_, _, rfl, h⟩
  · rintro (⟨rfl, rfl⟩ | ⟨r, es', rfl, h⟩)
    · exact .refl _
    · exact .act h

/-- One more operation. -/
theorem Steps.snoc {o : Op} {k : Ret o → Prog Op Ret α} (h : Steps p es (Prog.act o k))
    (r : Ret o) : Steps p (es ++ [⟨o, r⟩]) (k r) := by
  generalize hq : Prog.act o k = q at h
  induction h with
  | refl =>
    subst hq
    exact .act (.refl _)
  | act _ ih => exact .act (ih hq)

@[simp] theorem trace_done : (done a : Prog Op Ret α).Trace es a' ↔ es = [] ∧ a' = a := by
  rw [Trace, steps_done, done.injEq]

@[simp] theorem trace_act {o : Op} {k : Ret o → Prog Op Ret α} :
    (act o k).Trace es a ↔ ∃ r es', es = ⟨o, r⟩ :: es' ∧ (k r).Trace es' a := by
  rw [Trace, steps_act]
  simp [Trace]

/-- **Sequencing.**  Either the first program is not finished, or the second has taken over. -/
theorem steps_bind {q : Prog Op Ret β} :
    Steps (p >>= f) es q ↔
      (∃ p', Steps p es p' ∧ q = p' >>= f) ∨
      ∃ es₁ a es₂, p.Trace es₁ a ∧ Steps (f a) es₂ q ∧ es = es₁ ++ es₂ := by
  induction p generalizing es with
  | done a =>
    constructor
    · intro h
      exact Or.inr ⟨[], a, es, .refl _, h, rfl⟩
    · rintro (⟨p', hp', rfl⟩ | ⟨es₁, a', es₂, htrace, h, rfl⟩)
      · obtain ⟨rfl, rfl⟩ := steps_done.mp hp'
        exact .refl _
      · obtain ⟨rfl, rfl⟩ := trace_done.mp htrace
        exact h
  | act o k ih =>
    have hbind : (act o k >>= f : Prog Op Ret β) = act o fun r => k r >>= f := rfl
    rw [hbind, steps_act]
    constructor
    · rintro (⟨rfl, rfl⟩ | ⟨r, es', rfl, h⟩)
      · exact Or.inl ⟨act o k, .refl _, rfl⟩
      · rcases (ih r).mp h with ⟨p', hp', rfl⟩ | ⟨es₁, a, es₂, htrace, hrest, rfl⟩
        · exact Or.inl ⟨p', .act hp', rfl⟩
        · exact Or.inr ⟨⟨o, r⟩ :: es₁, a, es₂, .act htrace, hrest, rfl⟩
    · rintro (⟨p', hp', rfl⟩ | ⟨es₁, a, es₂, htrace, hrest, rfl⟩)
      · rcases steps_act.mp hp' with ⟨rfl, rfl⟩ | ⟨r, es', rfl, hk⟩
        · exact Or.inl ⟨rfl, rfl⟩
        · exact Or.inr ⟨r, es', rfl, (ih r).mpr (Or.inl ⟨p', hk, rfl⟩)⟩
      · obtain ⟨r, es', rfl, hk⟩ := trace_act.mp htrace
        exact Or.inr ⟨r, es' ++ es₂, rfl, (ih r).mpr (Or.inr ⟨es', a, es₂, hk, hrest, rfl⟩)⟩

theorem trace_bind :
    (p >>= f).Trace es b ↔
      ∃ es₁ a es₂, p.Trace es₁ a ∧ (f a).Trace es₂ b ∧ es = es₁ ++ es₂ := by
  rw [Trace, steps_bind]
  constructor
  · rintro (⟨p', hp', hdone⟩ | h)
    · cases p' with
      | done a =>
        have hfa : f a = done b := hdone.symm
        exact ⟨es, a, [], hp', hfa ▸ .refl _, (List.append_nil es).symm⟩
      | act o k => cases hdone
    · exact h
  · exact Or.inr

/-! ## What holds of the events throughout, and at the end -/

/-- Whatever its operations return, the events `p` has performed satisfy `I`, and those it has
performed when it finishes satisfy `Post` with its result. -/
def Keeps (I : List (Event Op Ret) → Prop) (Post : α → List (Event Op Ret) → Prop)
    (p : Prog Op Ret α) : Prop :=
  ∀ es q, Steps p es q → I es ∧ ∀ a, q = done a → Post a es

/-- Only what holds when the program finishes. -/
def Ensures (Post : α → List (Event Op Ret) → Prop) (p : Prog Op Ret α) : Prop :=
  p.Keeps (fun _ => True) Post

variable {I J : List (Event Op Ret) → Prop} {Post Post' : α → List (Event Op Ret) → Prop}

theorem ensures_iff : p.Ensures Post ↔ ∀ es a, p.Trace es a → Post a es := by
  constructor
  · intro h es a htrace
    exact (h es (done a) htrace).2 a rfl
  · intro h es q hsteps
    refine ⟨trivial, ?_⟩
    rintro a rfl
    exact h es a hsteps

theorem Keeps.mono (h : p.Keeps I Post) (hI : ∀ es, I es → J es)
    (hPost : ∀ a es, I es → Post a es → Post' a es) : p.Keeps J Post' := by
  intro es q hsteps
  obtain ⟨hinv, hpost⟩ := h es q hsteps
  exact ⟨hI es hinv, fun a ha => hPost a es hinv (hpost a ha)⟩

theorem Ensures.mono (h : p.Ensures Post) (hPost : ∀ a es, Post a es → Post' a es) :
    p.Ensures Post' :=
  Keeps.mono h (fun _ h => h) fun a es _ => hPost a es

theorem ensures_of_forall (h : ∀ a es, Post a es) : p.Ensures Post :=
  ensures_iff.mpr fun es a _ => h a es

theorem Keeps.nil (h : p.Keeps I Post) : I [] := (h [] p (.refl p)).1

@[simp] theorem keeps_done : (done a).Keeps I Post ↔ I [] ∧ Post a [] := by
  constructor
  · intro h
    obtain ⟨hinv, hpost⟩ := h [] _ (.refl _)
    exact ⟨hinv, hpost a rfl⟩
  · rintro ⟨hinv, hpost⟩ es q hsteps
    obtain ⟨rfl, rfl⟩ := steps_done.mp hsteps
    refine ⟨hinv, ?_⟩
    rintro _ ⟨⟩
    exact hpost

/-- **One operation.**  From then on its event stands in front. -/
theorem keeps_act {o : Op} {k : Ret o → Prog Op Ret α} :
    (act o k).Keeps I Post ↔ I [] ∧
      ∀ r, (k r).Keeps (fun es => I (⟨o, r⟩ :: es)) (fun a es => Post a (⟨o, r⟩ :: es)) := by
  constructor
  · intro h
    exact ⟨h.nil, fun r es q hsteps => h (⟨o, r⟩ :: es) q (.act hsteps)⟩
  · rintro ⟨hinv, h⟩ es q hsteps
    rcases steps_act.mp hsteps with ⟨rfl, rfl⟩ | ⟨r, es', rfl, hk⟩
    · exact ⟨hinv, fun a ha => by cases ha⟩
    · exact h r es' q hk

/-- **Sequencing.**  What the first program leaves behind stands in front of the second's events. -/
theorem Keeps.bind {Mid : α → List (Event Op Ret) → Prop}
    {Post : β → List (Event Op Ret) → Prop} (h : p.Keeps I Mid)
    (hf : ∀ a es, I es → Mid a es →
      (f a).Keeps (fun es' => I (es ++ es')) (fun b es' => Post b (es ++ es'))) :
    (p >>= f).Keeps I Post := by
  intro es q hsteps
  rcases steps_bind.mp hsteps with ⟨p', hp', rfl⟩ | ⟨es₁, a, es₂, htrace, hrest, rfl⟩
  · refine ⟨(h es p' hp').1, ?_⟩
    intro b hb
    cases p' with
    | done a =>
      obtain ⟨hinv, hmid⟩ := h es (done a) hp'
      have hlast := (hf a es hinv (hmid a rfl) [] (f a) (.refl _)).2 b hb
      simpa only [List.append_nil] using hlast
    | act o k => cases hb
  · obtain ⟨hinv, hmid⟩ := h es₁ (done a) htrace
    exact hf a es₁ hinv (hmid a rfl) es₂ q hrest

theorem Ensures.bind {Mid : α → List (Event Op Ret) → Prop}
    {Post : β → List (Event Op Ret) → Prop} (h : p.Ensures Mid)
    (hf : ∀ a es, Mid a es → (f a).Ensures fun b es' => Post b (es ++ es')) :
    (p >>= f).Ensures Post :=
  Keeps.bind h fun a es _ hmid => hf a es hmid

@[simp] theorem ensures_done : (done a).Ensures Post ↔ Post a [] := by
  rw [Ensures, keeps_done, true_and]

theorem ensures_act {o : Op} {k : Ret o → Prog Op Ret α} :
    (act o k).Ensures Post ↔ ∀ r, (k r).Ensures fun a es => Post a (⟨o, r⟩ :: es) := by
  rw [Ensures, keeps_act, true_and]
  rfl

theorem Ensures.and {Post' : α → List (Event Op Ret) → Prop} (h : p.Ensures Post)
    (h' : p.Ensures Post') : p.Ensures fun a es => Post a es ∧ Post' a es := by
  intro es q hsteps
  exact ⟨trivial, fun a ha => ⟨(h es q hsteps).2 a ha, (h' es q hsteps).2 a ha⟩⟩

/-- A program can always be brought to an end. -/
theorem exists_trace [∀ o, Nonempty (Ret o)] (p : Prog Op Ret α) : ∃ es a, p.Trace es a := by
  induction p with
  | done a => exact ⟨[], a, .refl _⟩
  | act o k ih =>
    obtain ⟨r⟩ : Nonempty (Ret o) := inferInstance
    obtain ⟨es, a, h⟩ := ih r
    exact ⟨_, a, .act h⟩

theorem Steps.trans {p' : Prog Op Ret α} (h : Steps p es p') (h' : Steps p' es' q) :
    Steps p (es ++ es') q := by
  induction h with
  | refl => exact h'
  | act _ ih => exact .act (ih h')

/-- What holds of all prefixes of a finished program's events holds throughout. -/
theorem Ensures.keeps [∀ o, Nonempty (Ret o)] (h : p.Ensures Post)
    (hclosed : ∀ a es es', Post a (es ++ es') → I es) : p.Keeps I Post := by
  intro es q hsteps
  obtain ⟨es', a, htrace⟩ := exists_trace q
  exact ⟨hclosed a es es' (ensures_iff.mp h _ _ (hsteps.trans htrace)), (h es q hsteps).2⟩

/-! ## Only operations of a kind -/

variable {P : Op → Prop}

theorem All.bind {p : Prog Op Ret α} {f : α → Prog Op Ret β} (hp : p.All P)
    (hf : ∀ a, (f a).All P) : (p >>= f).All P := by
  induction p with
  | done a => exact hf a
  | act o k ih => exact ⟨hp.1, fun r => ih r (hp.2 r)⟩

theorem All.mono {P Q : Op → Prop} (h : p.All P) (hPQ : ∀ o, P o → Q o) : p.All Q := by
  induction p with
  | done a => trivial
  | act o k ih => exact ⟨hPQ o h.1, fun r => ih r (h.2 r)⟩

/-- A program that only ever performs operations of a kind has only performed such. -/
theorem All.keeps (h : p.All P) :
    p.Keeps (fun es => ∀ e ∈ es, P e.1) fun _ es => ∀ e ∈ es, P e.1 := by
  intro es q hsteps
  have hall : ∀ e ∈ es, P e.1 := by
    induction hsteps with
    | refl p => exact fun e he => absurd he List.not_mem_nil
    | act _ ih =>
      intro e he
      rcases List.mem_cons.mp he with rfl | he
      · exact h.1
      · exact ih (h.2 _) e he
  exact ⟨hall, fun _ _ => hall⟩

theorem All.ensures (h : p.All P) : p.Ensures fun _ es => ∀ e ∈ es, P e.1 :=
  h.keeps.mono (fun _ _ => trivial) fun _ _ _ hes => hes

/-! ## What operations have left behind -/

/-- The program has come from the first to the second, and each of its operations has left what
`Mark` says. -/
def Reached (Mark : Event Op Ret → Prop) (p q : Prog Op Ret α) : Prop :=
  ∃ es, Steps p es q ∧ ∀ e ∈ es, Mark e

section
variable {Mark Mark' : Event Op Ret → Prop}

theorem Reached.refl (p : Prog Op Ret α) : p.Reached Mark p :=
  ⟨[], .refl p, fun _ he => absurd he List.not_mem_nil⟩

/-- One more operation. -/
theorem Reached.act {o : Op} {k : Ret o → Prog Op Ret α} {r : Ret o}
    (h : p.Reached Mark (Prog.act o k)) (hmark : Mark ⟨o, r⟩) : p.Reached Mark (k r) := by
  obtain ⟨es, hsteps, hes⟩ := h
  refine ⟨es ++ [⟨o, r⟩], hsteps.snoc r, fun e he => ?_⟩
  rcases List.mem_append.mp he with he | he
  · exact hes e he
  · rw [List.mem_singleton.mp he]
    exact hmark

theorem Reached.mono (h : p.Reached Mark q) (hmark : ∀ e, Mark e → Mark' e) :
    p.Reached Mark' q := by
  obtain ⟨es, hsteps, hes⟩ := h
  exact ⟨es, hsteps, fun e he => hmark e (hes e he)⟩

/-- What a finished program has done, it has left marks of. -/
theorem Ensures.of_reached (h : p.Ensures Post) (hreached : p.Reached Mark (done a)) :
    ∃ es, Post a es ∧ ∀ e ∈ es, Mark e := by
  obtain ⟨es, hsteps, hes⟩ := hreached
  exact ⟨es, ensures_iff.mp h es a hsteps, hes⟩

theorem All.of_steps (h : p.All P) (hsteps : Steps p es q) : q.All P := by
  induction hsteps with
  | refl => exact h
  | act _ ih => exact ih (h.2 _)

end

/-! ## Events of two kinds that match -/

section
variable {γ : Type} {f g : Event Op Ret → List γ}

/-- What the events add under `g` has been added under `f` before, and all of that has been when the
program finishes. -/
def Matches (f g : Event Op Ret → List γ) (p : Prog Op Ret α) : Prop :=
  p.Keeps (fun es => es.flatMap g ⊆ es.flatMap f) fun _ es => es.flatMap g = es.flatMap f

theorem matches_done : (done a : Prog Op Ret α).Matches f g :=
  keeps_done.mpr ⟨List.Subset.refl [], rfl⟩

theorem Matches.bind {k : α → Prog Op Ret β} (h : p.Matches f g) (hk : ∀ a, (k a).Matches f g) :
    (p >>= k).Matches f g := by
  refine Keeps.bind h fun a es _ hes => (hk a).mono ?_ ?_
  · intro es' hes'
    rw [List.flatMap_append, List.flatMap_append, hes]
    exact List.append_subset.mpr ⟨List.subset_append_left _ _,
      List.Subset.trans hes' (List.subset_append_right _ _)⟩
  · intro b es' _ hes'
    rw [List.flatMap_append, List.flatMap_append, hes, hes']

/-- Operations that add nothing match. -/
theorem All.matches (h : p.All fun o => ∀ r, f ⟨o, r⟩ = [] ∧ g ⟨o, r⟩ = []) :
    p.Matches f g := by
  have hnil : ∀ es : List (Event Op Ret),
      (∀ e ∈ es, ∀ r, f ⟨e.1, r⟩ = [] ∧ g ⟨e.1, r⟩ = []) → es.flatMap g = es.flatMap f := by
    intro es hes
    rw [List.flatMap_eq_nil_iff.mpr fun e he => (hes e he e.2).2,
      List.flatMap_eq_nil_iff.mpr fun e he => (hes e he e.2).1]
  exact h.keeps.mono (fun es hes => hnil es hes ▸ List.Subset.refl _) fun _ es hes _ => hnil es hes

/-- An event that adds nothing may stand in front. -/
theorem Matches.cons (h : p.Matches f g) {e : Event Op Ret} (hf : f e = []) (hg : g e = []) :
    p.Keeps (fun es => (e :: es).flatMap g ⊆ (e :: es).flatMap f)
      fun _ es => (e :: es).flatMap g = (e :: es).flatMap f := by
  simp only [List.flatMap_cons, hf, hg, List.nil_append]
  exact h

theorem matches_act {o : Op} {k : Ret o → Prog Op Ret α} (hf : ∀ r, f ⟨o, r⟩ = [])
    (hg : ∀ r, g ⟨o, r⟩ = []) (h : ∀ r, (k r).Matches f g) : (act o k).Matches f g :=
  keeps_act.mpr ⟨List.Subset.refl [], fun r => (h r).cons (hf r) (hg r)⟩

/-- An operation that adds under `f` and is followed by one that adds the same under `g`. -/
theorem matches_pair {o o' : Op} {r : Ret o} {r' : Ret o'} {q : Prog Op Ret α}
    (hg : g ⟨o, r⟩ = []) (hf' : f ⟨o', r'⟩ = []) (hsame : g ⟨o', r'⟩ = f ⟨o, r⟩)
    (h : q.Matches f g) :
    q.Keeps (fun es => (⟨o, r⟩ :: ⟨o', r'⟩ :: es).flatMap g ⊆ (⟨o, r⟩ :: ⟨o', r'⟩ :: es).flatMap f)
      fun _ es => (⟨o, r⟩ :: ⟨o', r'⟩ :: es).flatMap g = (⟨o, r⟩ :: ⟨o', r'⟩ :: es).flatMap f := by
  simp only [List.flatMap_cons, hg, hf', hsame, List.nil_append]
  refine Keeps.mono h (fun es hes => ?_) fun _ es _ hes => ?_
  · exact List.append_subset.mpr ⟨List.subset_append_left _ _,
      List.Subset.trans hes (List.subset_append_right _ _)⟩
  · rw [hes]

end

/-! ## Carrying operations out -/

/-- Every operation is carried out by a program over other operations. -/
def interpret (g : (o : Op) → Prog Op' Ret' (Ret o)) : Prog Op Ret α → Prog Op' Ret' α
  | done a => done a
  | act o k => g o >>= fun r => (k r).interpret g

theorem All.interpret {g : (o : Op) → Prog Op' Ret' (Ret o)} {P' : Op' → Prop} (h : p.All P)
    (hg : ∀ o, P o → (g o).All P') : (p.interpret g).All P' := by
  induction p with
  | done a => trivial
  | act o k ih => exact All.bind (hg o h.1) fun r => ih r (h.2 r)

section
variable {g : (o : Op) → Prog Op' Ret' (Ret o)} {I' : List (Event Op' Ret') → Prop}
  {Post' : α → List (Event Op' Ret') → Prop}
  {R : List (Event Op Ret) → List (Event Op' Ret') → Prop}

theorem Keeps.interpret_from {es : List (Event Op Ret)} {es' : List (Event Op' Ret')}
    (h : p.Keeps (fun t => I (es ++ t)) (fun a t => Post a (es ++ t))) (hR : R es es')
    (hg : ∀ o es es', R es es' → I es → (∀ r, I (es ++ [⟨o, r⟩])) →
      (g o).Keeps (fun t => I' (es' ++ t)) fun r t => R (es ++ [⟨o, r⟩]) (es' ++ t))
    (hdone : ∀ a es es', R es es' → I es → Post a es → I' es' ∧ Post' a es') :
    (p.interpret g).Keeps (fun t => I' (es' ++ t)) fun a t => Post' a (es' ++ t) := by
  induction p generalizing es es' with
  | done a =>
    obtain ⟨hinv, hpost⟩ := keeps_done.mp h
    rw [List.append_nil] at hinv hpost
    obtain ⟨hinv', hpost'⟩ := hdone a es es' hR hinv hpost
    exact keeps_done.mpr ⟨by rwa [List.append_nil], by rwa [List.append_nil]⟩
  | act o k ih =>
    obtain ⟨hinv, hk⟩ := keeps_act.mp h
    rw [List.append_nil] at hinv
    have hnext : ∀ r, I (es ++ [⟨o, r⟩]) := fun r => (hk r).nil
    refine Keeps.bind (hg o es es' hR hinv hnext) ?_
    intro r t _ hRt
    have hkeeps : (k r).Keeps (fun t => I (es ++ [⟨o, r⟩] ++ t))
        fun a t => Post a (es ++ [⟨o, r⟩] ++ t) := by
      simpa only [List.append_assoc, List.singleton_append] using hk r
    simpa only [List.append_assoc] using ih r hkeeps hRt

/-- **Interpretation.**  If carrying an operation out extends the outer events as the inner ones are
extended, what the program keeps of its own events is kept of those that carry them out. -/
theorem Keeps.interpret (h : p.Keeps I Post) (hR : R [] [])
    (hg : ∀ o es es', R es es' → I es → (∀ r, I (es ++ [⟨o, r⟩])) →
      (g o).Keeps (fun t => I' (es' ++ t)) fun r t => R (es ++ [⟨o, r⟩]) (es' ++ t))
    (hdone : ∀ a es es', R es es' → I es → Post a es → I' es' ∧ Post' a es') :
    (p.interpret g).Keeps I' Post' := by
  have hnil : p.Keeps (fun t => I ([] ++ t)) fun a t => Post a ([] ++ t) := h
  exact hnil.interpret_from hR hg hdone

variable {lift : Event Op Ret → Event Op' Ret'}

/-- **One operation for one.**  If every operation is carried out by a single event, the events that
carry a program out are those of the program, lifted. -/
theorem Keeps.interpret_map (hg : ∀ o (J : List (Event Op' Ret') → Prop)
    (Q : Ret o → List (Event Op' Ret') → Prop), J [] → (∀ r, J [lift ⟨o, r⟩] ∧ Q r [lift ⟨o, r⟩]) →
      (g o).Keeps J Q) (h : p.Keeps I Post) :
    (p.interpret g).Keeps (fun es' => ∃ es, es' = es.map lift ∧ I es)
      fun a es' => ∃ es, es' = es.map lift ∧ Post a es := by
  refine Keeps.interpret (R := fun es es' => es' = es.map lift) h rfl ?_
    fun a es es' hes hI hPost => ⟨⟨es, hes, hI⟩, es, hes, hPost⟩
  rintro o es _ rfl hI hnext
  have hmap : ∀ r, es.map lift ++ [lift ⟨o, r⟩] = List.map lift (es ++ [⟨o, r⟩]) := by
    intro r
    rw [List.map_append, List.map_singleton]
  exact hg o _ _ ⟨es, List.append_nil _, hI⟩ fun r => ⟨⟨_, hmap r, hnext r⟩, hmap r⟩

/-- The runs of the programs that carry the operations out are the program's own, lifted. -/
theorem trace_interpret_map (hg : ∀ o (J : List (Event Op' Ret') → Prop)
    (Q : Ret o → List (Event Op' Ret') → Prop), J [] → (∀ r, J [lift ⟨o, r⟩] ∧ Q r [lift ⟨o, r⟩]) →
      (g o).Keeps J Q) (hone : ∀ o r, (g o).Trace [lift ⟨o, r⟩] r)
    {es' : List (Event Op' Ret')} :
    (p.interpret g).Trace es' a ↔ ∃ es, es' = es.map lift ∧ p.Trace es a := by
  constructor
  · intro h
    have hown : p.Ensures fun a es => p.Trace es a := ensures_iff.mpr fun _ _ h => h
    exact (Keeps.interpret_map hg hown es' (done a) h).2 a rfl
  · rintro ⟨es, rfl, h⟩
    induction p generalizing es with
    | done b =>
      obtain ⟨rfl, rfl⟩ := trace_done.mp h
      exact .refl _
    | act o k ih =>
      obtain ⟨r, es, rfl, hk⟩ := trace_act.mp h
      exact trace_bind.mpr ⟨_, r, _, hone o r, ih r es hk, rfl⟩

theorem Matches.interpret_map {γ : Type} {f' g' : Event Op' Ret' → List γ}
    (hg : ∀ o (J : List (Event Op' Ret') → Prop) (Q : Ret o → List (Event Op' Ret') → Prop),
      J [] → (∀ r, J [lift ⟨o, r⟩] ∧ Q r [lift ⟨o, r⟩]) → (g o).Keeps J Q)
    (h : p.Matches (f' ∘ lift) (g' ∘ lift)) : (p.interpret g).Matches f' g' := by
  have hlift : ∀ (u : Event Op' Ret' → List γ) (es : List (Event Op Ret)),
      (es.map lift).flatMap u = es.flatMap (u ∘ lift) := by
    intro u es
    rw [List.flatMap_map]
    rfl
  refine (Keeps.interpret_map hg h).mono ?_ ?_
  · rintro _ ⟨es, rfl, hes⟩
    rw [hlift, hlift]
    exact hes
  · rintro a _ - ⟨es, rfl, hes⟩
    rw [hlift, hlift]
    exact hes

end

end Prog

end Program
