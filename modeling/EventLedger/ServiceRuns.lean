import EventLedger.LabelledRun
import EventLedger.ProgramTraces
import Mathlib.Algebra.BigOperators.Group.List.Basic
import Mathlib.Data.List.Perm.Basic

/-!
# A service and its requests

A service keeps a store and runs one program for each request it receives, all
of them interleaved.  Each thread remembers the events it has performed, so what
its program keeps of its own events (`Keeps`) holds of every thread in every
state, and what operations add to a list in the store is accounted for by the
events of the threads (`accounted`).

Nothing here names an operation: the store, the requests and the programs are
parameters, and both services and the metrics of the middleware are instances.
-/
namespace Program

open LabelledRun Prog

/-- A service: the program that handles a request, and how operations act on the store, given what
the surroundings choose. -/
structure Service (Req Op : Type) (Ret : Op → Type) (Ans σ ε : Type) where
  handle : Req → Prog Op Ret Ans
  exec : ε → σ → (o : Op) → Option (σ × Ret o)

namespace Service

variable {Req Op : Type} {Ret : Op → Type} {Ans σ ε : Type}

/-- A request, the events its handler has performed, and what is left to do. -/
structure Thread (Req Op : Type) (Ret : Op → Type) (Ans : Type) where
  request : Req
  events : List (Event Op Ret)
  rest : Prog Op Ret Ans

/-- The request has been answered. -/
def Thread.Answered (th : Thread Req Op Ret Ans) (answer : Ans) : Prop := th.rest = .done answer

/-- The store, and the requests received so far. -/
structure State (Req Op : Type) (Ret : Op → Type) (Ans σ : Type) where
  store : σ
  threads : List (Thread Req Op Ret Ans)

/-- Every request has been answered. -/
def State.Quiet (s : State Req Op Ret Ans σ) : Prop :=
  ∀ th ∈ s.threads, ∃ answer, th.Answered answer

instance (th : Thread Req Op Ret Ans) : Decidable (∃ answer, th.Answered answer) :=
  match h : th.rest with
  | .done answer => .isTrue ⟨answer, h⟩
  | .act _ _ => .isFalse fun ⟨_, hanswer⟩ => by simp [Thread.Answered, h] at hanswer

instance (s : State Req Op Ret Ans σ) : Decidable s.Quiet :=
  inferInstanceAs (Decidable (∀ th ∈ s.threads, ∃ answer, th.Answered answer))

/-- A service that has just been started. -/
def State.initial (store : σ) : State Req Op Ret Ans σ := ⟨store, []⟩

/-- One step of the service. -/
inductive Label (Req ε : Type) where
  /-- A request arrives. -/
  | arrive (req : Req)
  /-- The handler of the `i`-th request performs its next operation. -/
  | act (i : ℕ) (env : ε)

variable (V : Service Req Op Ret Ans σ ε)

/-- Executing one step; `none` when it is not possible. -/
def step (s : State Req Op Ret Ans σ) : Label Req ε → Option (State Req Op Ret Ans σ)
  | .arrive req => some { s with threads := s.threads ++ [⟨req, [], V.handle req⟩] }
  | .act i env =>
    match s.threads[i]? with
    | none => none
    | some th =>
      match th.rest with
      | .done _ => none
      | .act o k =>
        (V.exec env s.store o).map fun (store, r) =>
          ⟨store, s.threads.set i ⟨th.request, th.events ++ [⟨o, r⟩], k r⟩⟩

/-- What a step does: a request arrives, or one thread performs one operation. -/
inductive Stepped (s : State Req Op Ret Ans σ) : Label Req ε → State Req Op Ret Ans σ → Prop
  | arrive (req : Req) : Stepped s (.arrive req)
      { s with threads := s.threads ++ [⟨req, [], V.handle req⟩] }
  | act (i : ℕ) (env : ε) (req : Req) (es : List (Event Op Ret)) (o : Op)
      (k : Ret o → Prog Op Ret Ans) (store : σ) (r : Ret o)
      (hthread : s.threads[i]? = some ⟨req, es, .act o k⟩)
      (hexec : V.exec env s.store o = some (store, r)) :
      Stepped s (.act i env) ⟨store, s.threads.set i ⟨req, es ++ [⟨o, r⟩], k r⟩⟩

variable {V} {s t : State Req Op Ret Ans σ} {a : Label Req ε} {ls : List (Label Req ε)}

/-- **Steps.**  Every step is of one of these kinds. -/
theorem step_cases (h : V.step s a = some t) : V.Stepped s a t := by
  cases a with
  | arrive req =>
    cases h
    exact .arrive req
  | act i env =>
    simp only [step] at h
    cases hthread : s.threads[i]? with
    | none => simp [hthread] at h
    | some th =>
      obtain ⟨req, es, rest⟩ := th
      cases rest with
      | done answer => simp [hthread] at h
      | act o k =>
        simp only [hthread] at h
        obtain ⟨⟨store, r⟩, hexec, rfl⟩ := Option.map_eq_some_iff.mp h
        exact .act i env req es o k store r hthread hexec

/-- What holds of every thread when its request arrives, and stays with every operation, holds of
every thread a step leaves behind. -/
theorem forall_threads_step {P : Thread Req Op Ret Ans → Prop} (h : V.Stepped s a t)
    (hs : ∀ th ∈ s.threads, P th)
    (harrive : ∀ req, a = .arrive req → P ⟨req, [], V.handle req⟩)
    (hact : ∀ i env req es o k store r, a = .act i env →
      s.threads[i]? = some ⟨req, es, .act o k⟩ → V.exec env s.store o = some (store, r) →
      t.store = store → P ⟨req, es, .act o k⟩ → P ⟨req, es ++ [⟨o, r⟩], k r⟩) :
    ∀ th ∈ t.threads, P th := by
  cases h with
  | arrive req =>
    intro th hth
    rcases List.mem_append.mp hth with hold | hnew
    · exact hs th hold
    · rw [List.mem_singleton.mp hnew]
      exact harrive req rfl
  | act i env req es o k store r hthread hexec =>
    intro th hth
    rcases List.mem_or_eq_of_mem_set hth with hold | rfl
    · exact hs th hold
    · exact hact i env req es o k store r rfl hthread hexec rfl
        (hs _ (List.mem_of_getElem? hthread))

/-- The thread has come where it is by performing its events. -/
def Thread.Ran (V : Service Req Op Ret Ans σ ε) (th : Thread Req Op Ret Ans) : Prop :=
  Steps (V.handle th.request) th.events th.rest

/-- **Threads.**  In every state, every thread has come where it is by performing its events. -/
theorem run_ran (h : Run V.step s ls t) (hs : ∀ th ∈ s.threads, th.Ran V) :
    ∀ th ∈ t.threads, th.Ran V := by
  refine Run.preserves (I := fun s => ∀ th ∈ s.threads, th.Ran V) ?_ h hs
  intro s a t hs hstep
  refine forall_threads_step (step_cases hstep) hs (fun req _ => Steps.refl _) ?_
  intro i env req es o k store r _ _ _ _ hran
  exact Steps.snoc hran r

/-- Every request has arrived at some step. -/
theorem request_arrived (h : Run V.step s ls t) :
    ∀ th ∈ t.threads, (∃ th' ∈ s.threads, th'.request = th.request) ∨ .arrive th.request ∈ ls := by
  induction ls generalizing s with
  | nil =>
    intro th hth
    rw [← run_nil.mp h] at hth
    exact Or.inl ⟨th, hth, rfl⟩
  | cons a ls ih =>
    obtain ⟨u, hstep, hrest⟩ := run_cons.mp h
    intro th hth
    rcases ih hrest th hth with ⟨th', hth', hrequest⟩ | hmem
    · rw [← hrequest]
      cases step_cases hstep with
      | arrive req =>
        rcases List.mem_append.mp hth' with hold | hnew
        · exact Or.inl ⟨th', hold, rfl⟩
        · rw [List.mem_singleton.mp hnew]
          exact Or.inr List.mem_cons_self
      | act i env req es o k store r hthread hexec =>
        rcases List.mem_or_eq_of_mem_set hth' with hold | rfl
        · exact Or.inl ⟨th', hold, rfl⟩
        · exact Or.inl ⟨_, List.mem_of_getElem? hthread, rfl⟩
    · exact Or.inr (List.mem_cons_of_mem _ hmem)

/-- What the handler of every request keeps of its events holds of every thread. -/
theorem run_keeps {I : Req → List (Event Op Ret) → Prop}
    {Post : Req → Ans → List (Event Op Ret) → Prop} {store : σ}
    (hkeeps : ∀ req, (V.handle req).Keeps (I req) (Post req))
    (h : Run V.step (.initial store) ls t) :
    ∀ th ∈ t.threads, I th.request th.events ∧
      ∀ answer, th.Answered answer → Post th.request answer th.events := by
  intro th hth
  exact hkeeps th.request th.events th.rest
    (run_ran h (fun _ hmem => absurd hmem List.not_mem_nil) th hth)

/-- **Completion.**  Where every operation can be performed, a request that is alone can be handled
to its end. -/
theorem exists_completed (hexec : ∀ s o, ∃ env s' r, V.exec env s o = some (s', r)) (req : Req)
    (store : σ) :
    ∃ ls t, Run V.step (.initial store) (.arrive req :: ls) t ∧
      (∀ a ∈ ls, ∀ req', a ≠ .arrive req') ∧ ∃ th answer, t.threads = [th] ∧ th.request = req ∧
        th.Answered answer := by
  have hrest : ∀ (p : Prog Op Ret Ans) (es : List (Event Op Ret)) (store : σ), ∃ ls t,
      Run V.step ⟨store, [⟨req, es, p⟩]⟩ ls t ∧ (∀ a ∈ ls, ∀ req', a ≠ .arrive req') ∧
        ∃ th answer, t.threads = [th] ∧ th.request = req ∧ th.Answered answer := by
    intro p
    induction p with
    | done answer =>
      intro es store
      exact ⟨[], _, run_nil.mpr rfl, fun _ h => absurd h List.not_mem_nil, _, answer, rfl, rfl, rfl⟩
    | act o k ih =>
      intro es store
      obtain ⟨env, store', r, hexec⟩ := hexec store o
      obtain ⟨ls, t, hrun, hls, hend⟩ := ih r (es ++ [⟨o, r⟩]) store'
      refine ⟨.act 0 env :: ls, t, run_cons.mpr ⟨_, ?_, hrun⟩, ?_, hend⟩
      · simp [step, hexec]
      · intro a ha req'
        rcases List.mem_cons.mp ha with rfl | ha
        · exact fun h => by cases h
        · exact hls a ha req'
  obtain ⟨ls, t, hrun, hls, hend⟩ := hrest (V.handle req) [] store
  exact ⟨ls, t, run_cons.mpr ⟨_, rfl, hrun⟩, hls, hend⟩

/-! ## Refinement -/

/-- The two steps differ in the choices of the surroundings at most. -/
inductive SameStep {ε' : Type} : Label Req ε → Label Req ε' → Prop
  | arrive (req : Req) : SameStep (.arrive req) (.arrive req)
  | act (i : ℕ) (env : ε) (env' : ε') : SameStep (.act i env) (.act i env')

/-- **Refinement.**  If what an operation does to the store is, as another service sees it, what the
operation does there for some choice of the surroundings, the runs of the one are runs of the
other: the same requests arrive, and the threads perform the same events and give the same
answers. -/
theorem run_refines {σ' ε' : Type} {V' : Service Req Op Ret Ans σ' ε'} (abs : σ → σ')
    (hhandle : V'.handle = V.handle)
    (hexec : ∀ env s o s' r, V.exec env s o = some (s', r) →
      ∃ env', V'.exec env' (abs s) o = some (abs s', r))
    (h : Run V.step s ls t) :
    ∃ ls', List.Forall₂ SameStep ls ls' ∧
      Run V'.step ⟨abs s.store, s.threads⟩ ls' ⟨abs t.store, t.threads⟩ := by
  induction ls generalizing s with
  | nil =>
    rw [run_nil.mp h]
    exact ⟨[], .nil, run_nil.mpr rfl⟩
  | cons a ls ih =>
    obtain ⟨u, hstep, hrest⟩ := run_cons.mp h
    obtain ⟨ls', hsame, hrun⟩ := ih hrest
    cases step_cases hstep with
    | arrive req =>
      refine ⟨.arrive req :: ls', .cons (.arrive req) hsame, run_cons.mpr ⟨_, ?_, hrun⟩⟩
      rw [step, hhandle]
    | act i env req es o k store r hthread hexec' =>
      obtain ⟨env', henv'⟩ := hexec env s.store o store r hexec'
      refine ⟨.act i env' :: ls', .cons (.act i env env') hsame, run_cons.mpr ⟨_, ?_, hrun⟩⟩
      simp only [step, hthread, henv', Option.map_some]

/-! ## Accounting -/

/-- What the events of all threads add to a list. -/
def State.emitted {β : Type} (emit : Event Op Ret → List β) (s : State Req Op Ret Ans σ) : List β :=
  s.threads.flatMap fun th => th.events.flatMap emit

theorem perm_flatMap_set {γ β : Type} {f : γ → List β} {l : List γ} {i : ℕ} {x y : γ} {d : List β}
    (hi : l[i]? = some x) (hf : f y = f x ++ d) :
    ((l.set i y).flatMap f).Perm (l.flatMap f ++ d) := by
  induction l generalizing i with
  | nil => cases hi
  | cons z l ih =>
    cases i with
    | zero =>
      cases hi
      rw [List.set_cons_zero, List.flatMap_cons, List.flatMap_cons, hf, List.append_assoc,
        List.append_assoc]
      exact List.Perm.append_left _ List.perm_append_comm
    | succ i =>
      rw [List.set_cons_succ, List.flatMap_cons, List.flatMap_cons, List.append_assoc]
      exact List.Perm.append_left _ (ih hi)

/-- **Accounting.**  If every operation adds to a list in the store what its event says, the list is
what it was and what the events of the threads have added. -/
theorem accounted {β : Type} {view : σ → List β} {emit : Event Op Ret → List β} {store : σ}
    (hview : ∀ env s o s' r, V.exec env s o = some (s', r) → view s' = view s ++ emit ⟨o, r⟩)
    (h : Run V.step (.initial store) ls t) :
    (view t.store).Perm (view store ++ t.emitted emit) := by
  refine Run.preserves (I := fun s => (view s.store).Perm (view store ++ s.emitted emit)) ?_ h
    (by simp [State.initial, State.emitted])
  intro s a t hs hstep
  cases step_cases hstep with
  | arrive req =>
    simpa [State.emitted] using hs
  | act i env req es o k store' r hthread hexec =>
    show (view store').Perm _
    rw [hview _ _ _ _ _ hexec]
    have hset := perm_flatMap_set (f := fun th : Thread Req Op Ret Ans => th.events.flatMap emit)
      (y := ⟨req, es ++ [⟨o, r⟩], k r⟩) (d := emit ⟨o, r⟩) hthread (by simp)
    refine (hs.append_right _).trans ?_
    rw [List.append_assoc]
    exact hset.symm.append_left _

theorem sum_map_set {γ M : Type} [AddCommMonoid M] {f : γ → M} {l : List γ} {i : ℕ} {x y : γ}
    {d : M} (hi : l[i]? = some x) (hf : f y = f x + d) :
    ((l.set i y).map f).sum = (l.map f).sum + d := by
  induction l generalizing i with
  | nil => cases hi
  | cons z l ih =>
    cases i with
    | zero =>
      cases hi
      rw [List.set_cons_zero, List.map_cons, List.map_cons, List.sum_cons, List.sum_cons, hf,
        add_right_comm]
    | succ i =>
      rw [List.set_cons_succ, List.map_cons, List.map_cons, List.sum_cons, List.sum_cons, ih hi,
        add_assoc]

/-- **Counting.**  If every operation adds to a measure of the store what its event weighs, the
measure is what it was and what the events of the threads weigh together. -/
theorem accounted_sum {M : Type} [AddCommMonoid M] {measure : σ → M} {weight : Event Op Ret → M}
    {store : σ}
    (hmeasure : ∀ env s o s' r, V.exec env s o = some (s', r) →
      measure s' = measure s + weight ⟨o, r⟩)
    (h : Run V.step (.initial store) ls t) :
    measure t.store =
      measure store + (t.threads.map fun th => (th.events.map weight).sum).sum := by
  refine Run.preserves (I := fun s => measure s.store =
    measure store + (s.threads.map fun th => (th.events.map weight).sum).sum) ?_ h
    (by simp [State.initial])
  intro s a t hs hstep
  cases step_cases hstep with
  | arrive req => simpa using hs
  | act i env req es o k store' r hthread hexec =>
    have hset := sum_map_set
      (f := fun th : Thread Req Op Ret Ans => (th.events.map weight).sum)
      (y := ⟨req, es ++ [⟨o, r⟩], k r⟩) (d := weight ⟨o, r⟩) hthread (by simp)
    show measure store' = _
    rw [hmeasure _ _ _ _ _ hexec, hs, hset, add_assoc]

/-- **Reconciliation.**  If in every handler the events that add under `g` match those that add
under `f`, so do those of all threads, and they are as many when no request is in progress. -/
theorem reconciled {β : Type} {f g : Event Op Ret → List β} {store : σ}
    (hmatches : ∀ req, (V.handle req).Matches f g) (h : Run V.step (.initial store) ls t) :
    t.emitted g ⊆ t.emitted f ∧ (t.Quiet → t.emitted g = t.emitted f) := by
  have hthreads := run_keeps hmatches h
  constructor
  · intro x hx
    obtain ⟨th, hth, hmem⟩ := List.mem_flatMap.mp hx
    exact List.mem_flatMap.mpr ⟨th, hth, (hthreads th hth).1 hmem⟩
  · intro hquiet
    refine List.flatMap_congr fun th hth => ?_
    obtain ⟨answer, hanswer⟩ := hquiet th hth
    exact (hthreads th hth).2 answer hanswer

end Service

end Program
