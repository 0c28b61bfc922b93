import EventLedger.ServiceRuns
import Mathlib.Data.List.Nodup

/-!
# Linearizable services

The handlers of a service interleave between their operations.  An object does one
request at a time.  `Points` says how a service stands for an object: at most one
operation of each handler is the point at which its request takes effect, it moves
the store as the object allows, all other operations leave what the object sees as
it is, and the answer tells the result of the point.  The points of a run, in the
order in which they were performed, are then an execution of the object that agrees
with every answer and with the real-time order of the requests
(`Points.linearizes`).
-/
namespace Program

open LabelledRun Prog

/-- An object: the results a request may have in a state, and the states it may leave. -/
structure Object (Req Res : Type) where
  State : Type
  moves : State → Req → Res → State → Prop

/-- A call that has taken effect: its thread, what was asked, and the result. -/
structure Call (Req Res : Type) where
  thread : ℕ
  request : Req
  result : Res

/-- The object executes the calls one after another. -/
def Object.Executes {Req Res : Type} (O : Object Req Res) :
    O.State → List (Call Req Res) → O.State → Prop :=
  Walk fun s c t => O.moves s c.request c.result t

namespace Object

section
variable {Req Res : Type} {O : Object Req Res} {I : O.State → Prop} {x y : O.State}
  {calls : List (Call Req Res)} {c d : Call Req Res}

/-- Every call has been executed in some state. -/
theorem Executes.exists_moves (h : O.Executes x calls y) (hc : c ∈ calls) :
    ∃ u v, O.moves u c.request c.result v := by
  obtain ⟨first, last, rfl⟩ := List.append_of_mem hc
  obtain ⟨u, -, hrest⟩ := walk_append.mp h
  obtain ⟨v, hmoves, -⟩ := walk_cons.mp hrest
  exact ⟨u, v, hmoves⟩

/-- **What lasts.**  What a call brings about and every call keeps is so at the end. -/
theorem Executes.lasts (h : O.Executes x calls y)
    (keep : ∀ x req res y, I x → O.moves x req res y → I y) (hc : c ∈ calls)
    (hholds : ∀ x y, O.moves x c.request c.result y → I y) : I y := by
  obtain ⟨first, last, rfl⟩ := List.append_of_mem hc
  obtain ⟨u, -, hrest⟩ := walk_append.mp h
  obtain ⟨v, hmoves, hlast⟩ := walk_cons.mp hrest
  exact hlast.preserves (fun x c y hx => keep x c.request c.result y hx) (hholds u v hmoves)

/-- It is so for every later call, which still others may follow. -/
theorem Executes.later {first middle last : List (Call Req Res)}
    (h : O.Executes x (first ++ c :: (middle ++ d :: last)) y)
    (keep : ∀ x req res y, I x → O.moves x req res y → I y)
    (hholds : ∀ x y, O.moves x c.request c.result y → I y) :
    ∃ u v, I u ∧ O.moves u d.request d.result v ∧ O.Executes v last y := by
  rw [← List.cons_append, ← List.append_assoc] at h
  obtain ⟨u, hfirst, hrest⟩ := walk_append.mp h
  obtain ⟨v, hmoves, hlast⟩ := walk_cons.mp hrest
  exact ⟨u, v, Executes.lasts hfirst keep
    (List.mem_append_right first List.mem_cons_self) hholds, hmoves, hlast⟩

end

end Object

namespace Service

variable {Req Op : Type} {Ret : Op → Type} {Ans σ ε Res : Type}

/-- How a service stands for an object. -/
structure Points (V : Service Req Op Ret Ans σ ε) (O : Object Req Res) where
  /-- What the object sees of the store. -/
  abs : σ → O.State
  /-- The operations a handler of the request performs. -/
  performs : Req → Op → Prop
  /-- The result of a request, if this is the operation at which it takes effect. -/
  point : Req → Event Op Ret → Option Res
  /-- The answer to a request tells its result; or that it has had no effect. -/
  tells : Req → Ans → Option Res → Prop
  handle_performs : ∀ req, (V.handle req).All (performs req)
  effect : ∀ req env s o s' r, performs req o → V.exec env s o = some (s', r) →
    (point req ⟨o, r⟩).elim (abs s' = abs s) fun res => O.moves (abs s) req res (abs s')
  once : ∀ req, (V.handle req).Keeps (fun es => (es.filterMap (point req)).length ≤ 1)
    fun answer es => tells req answer (es.filterMap (point req)).head?

variable {V : Service Req Op Ret Ans σ ε} {O : Object Req Res} {store : σ}
  {s t u : State Req Op Ret Ans σ} {a : Label Req ε} {ls ls' : List (Label Req ε)}

namespace Points

variable (P : Points V O)

/-- The call that takes effect in a step. -/
def taken (s : State Req Op Ret Ans σ) : Label Req ε → List (Call Req Res)
  | .arrive _ => []
  | .act i env =>
    match s.threads[i]? with
    | none => []
    | some th =>
      match th.rest with
      | .done _ => []
      | .act o _ =>
        match V.exec env s.store o with
        | none => []
        | some (_, r) => ((P.point th.request ⟨o, r⟩).map (Call.mk i th.request)).toList

/-- The calls that take effect in a run, in this order. -/
def history (s : State Req Op Ret Ans σ) : List (Label Req ε) → List (Call Req Res)
  | [] => []
  | a :: ls => P.taken s a ++ (V.step s a).elim [] fun t => history t ls

/-- The calls the threads have made so far, by the events they have performed. -/
def callsOf (s : State Req Op Ret Ans σ) (i : ℕ) : List (Call Req Res) :=
  s.threads[i]?.elim [] fun th =>
    (th.events.filterMap (P.point th.request)).map (Call.mk i th.request)

@[simp] theorem history_nil : P.history s [] = [] := rfl

theorem history_cons (hstep : V.step s a = some t) :
    P.history s (a :: ls) = P.taken s a ++ P.history t ls := by
  rw [history, hstep]
  rfl

theorem history_append (h : Run V.step s ls t) :
    P.history s (ls ++ ls') = P.history s ls ++ P.history t ls' := by
  induction ls generalizing s with
  | nil =>
    rw [run_nil.mp h]
    rfl
  | cons a ls ih =>
    obtain ⟨u, hstep, hrest⟩ := run_cons.mp h
    rw [List.cons_append, history_cons P hstep, history_cons P hstep, ih hrest, List.append_assoc]

/-- What an operation contributes. -/
theorem taken_act {i : ℕ} {env : ε} {req : Req} {es : List (Event Op Ret)} {o : Op}
    {k : Ret o → Prog Op Ret Ans} {store : σ} {r : Ret o}
    (hthread : s.threads[i]? = some ⟨req, es, .act o k⟩)
    (hexec : V.exec env s.store o = some (store, r)) :
    P.taken s (.act i env) = ((P.point req ⟨o, r⟩).map (Call.mk i req)).toList := by
  simp only [taken, hthread, hexec]

/-! ### Whose calls these are -/

theorem callsOf_of_thread {i : ℕ} {th : Thread Req Op Ret Ans} (h : s.threads[i]? = some th) :
    P.callsOf s i = (th.events.filterMap (P.point th.request)).map (Call.mk i th.request) := by
  rw [callsOf, h]
  rfl

/-- A thread that has not arrived has made no call. -/
theorem callsOf_of_length_le {i : ℕ} (h : s.threads.length ≤ i) : P.callsOf s i = [] := by
  rw [callsOf, List.getElem?_eq_none h]
  rfl

theorem callsOf_step (h : V.Stepped s a t) (i : ℕ) :
    P.callsOf t i = P.callsOf s i ++ (P.taken s a).filter (·.thread = i) := by
  cases h with
  | arrive req =>
    show _ = P.callsOf s i ++ []
    rw [List.append_nil]
    rcases Nat.lt_trichotomy i s.threads.length with hlt | rfl | hgt
    · rw [callsOf, callsOf, List.getElem?_append_left hlt]
    · rw [callsOf_of_length_le P (Nat.le_refl _), callsOf, List.getElem?_concat_length]
      rfl
    · rw [callsOf_of_length_le P (Nat.le_of_lt hgt), callsOf_of_length_le P]
      rw [List.length_append, List.length_singleton]
      exact hgt
  | act j env req es o k store r hthread hexec =>
    rw [taken_act P hthread hexec]
    by_cases hij : j = i
    · subst hij
      have hlt : j < s.threads.length := (List.getElem?_eq_some_iff.mp hthread).1
      have hnext : (s.threads.set j ⟨req, es ++ [⟨o, r⟩], k r⟩)[j]? =
          some ⟨req, es ++ [⟨o, r⟩], k r⟩ := List.getElem?_set_self hlt
      rw [callsOf_of_thread P hthread, callsOf_of_thread P hnext, List.filterMap_append,
        List.map_append]
      refine congrArg _ ?_
      cases hpoint : P.point req ⟨o, r⟩ with
      | none => simp [hpoint]
      | some res => simp [hpoint]
    · have hother :
          ((P.point req ⟨o, r⟩).map (Call.mk j req)).toList.filter (·.thread = i) = [] := by
        rw [List.filter_eq_nil_iff]
        intro c hc
        obtain ⟨res, -, rfl⟩ := Option.map_eq_some_iff.mp (Option.mem_toList.mp hc)
        simpa using hij
      rw [hother, List.append_nil, callsOf, callsOf, List.getElem?_set_ne hij]

/-- **Whose calls.**  The calls of a thread in a run are those of the events it performs in it. -/
theorem callsOf_run (h : Run V.step s ls t) (i : ℕ) :
    P.callsOf t i = P.callsOf s i ++ (P.history s ls).filter (·.thread = i) := by
  induction ls generalizing s with
  | nil =>
    rw [run_nil.mp h]
    exact (List.append_nil _).symm
  | cons a ls ih =>
    obtain ⟨u, hstep, hrest⟩ := run_cons.mp h
    rw [ih hrest, callsOf_step P (step_cases hstep), history_cons P hstep, List.filter_append,
      List.append_assoc]

theorem callsOf_initial (h : Run V.step (.initial store) ls t) (i : ℕ) :
    P.callsOf t i = (P.history (.initial store) ls).filter (·.thread = i) := by
  rw [callsOf_run P h, callsOf_of_length_le P (Nat.zero_le i), List.nil_append]

/-! ### The order of the calls is one of the object's -/

/-- Every thread has only such operations to perform as its request's handler. -/
theorem run_performs (h : Run V.step s ls t)
    (hs : ∀ th ∈ s.threads, th.rest.All (P.performs th.request)) :
    ∀ th ∈ t.threads, th.rest.All (P.performs th.request) := by
  refine Run.preserves
    (I := fun s => ∀ th ∈ s.threads, th.rest.All (P.performs th.request)) ?_ h hs
  intro s a t hs hstep
  refine forall_threads_step (step_cases hstep) hs (fun req _ => P.handle_performs req) ?_
  intro i env req es o k store r _ _ _ _ hall
  exact hall.2 r

theorem executes_step (h : V.Stepped s a t)
    (hs : ∀ th ∈ s.threads, th.rest.All (P.performs th.request)) :
    O.Executes (P.abs s.store) (P.taken s a) (P.abs t.store) := by
  cases h with
  | arrive req => exact .nil _
  | act i env req es o k store r hthread hexec =>
    rw [taken_act P hthread hexec]
    have hall := hs _ (List.mem_of_getElem? hthread)
    have heffect := P.effect req env s.store o store r hall.1 hexec
    cases hpoint : P.point req ⟨o, r⟩ with
    | none =>
      rw [hpoint] at heffect
      exact walk_nil.mpr heffect
    | some res =>
      rw [hpoint] at heffect
      exact walk_singleton.mpr heffect

theorem executes_run (h : Run V.step s ls t)
    (hs : ∀ th ∈ s.threads, th.rest.All (P.performs th.request)) :
    O.Executes (P.abs s.store) (P.history s ls) (P.abs t.store) := by
  induction ls generalizing s with
  | nil =>
    rw [run_nil.mp h]
    exact .nil _
  | cons a ls ih =>
    obtain ⟨u, hstep, hrest⟩ := run_cons.mp h
    rw [history_cons P hstep]
    exact walk_append.mpr ⟨P.abs u.store, executes_step P (step_cases hstep) hs,
      ih hrest (run_performs P (run_singleton.mpr hstep) hs)⟩

end Points

/-! ## Linearizations -/

/-- A thread that has answered performs nothing more. -/
theorem answered_stays {i : ℕ} {th : Thread Req Op Ret Ans} {answer : Ans}
    (h : Run V.step s ls t) (hthread : s.threads[i]? = some th) (hanswer : th.Answered answer) :
    t.threads[i]? = some th := by
  refine Run.preserves (I := fun s => s.threads[i]? = some th) ?_ h hthread
  intro s a t hs hstep
  cases step_cases hstep with
  | arrive req =>
    have hlt : i < s.threads.length := (List.getElem?_eq_some_iff.mp hs).1
    show (s.threads ++ _)[i]? = some th
    rw [List.getElem?_append_left hlt]
    exact hs
  | act j env req es o k store r hthread' hexec =>
    have hij : j ≠ i := by
      rintro rfl
      have hrest : th.rest = .done answer := hanswer
      rw [← Option.some.inj (hthread'.symm.trans hs)] at hrest
      cases hrest
    show (s.threads.set j _)[i]? = some th
    rw [List.getElem?_set_ne hij]
    exact hs

/-- The calls are a linearization of a run from the store to the state `t`: one order of requests,
each with a result, in which the abstract object could have served them one after the other.  A
pending request may be in it or not, and so may an answered one whose answer tells of no effect (a
refusal, or an internal error); every other answered request is.  That the order respects real time
is said of every moment of the run: it splits there into calls of requests that have arrived and
calls of requests that have not been answered. -/
structure Linearizes (P : Points V O) (store : σ) (ls : List (Label Req ε))
    (t : State Req Op Ret Ans σ) (calls : List (Call Req Res)) : Prop where
  /-- The object executes them in this order. -/
  legal : O.Executes (P.abs store) calls (P.abs t.store)
  /-- No request takes effect twice. -/
  once : (calls.map Call.thread).Nodup
  /-- Every call is one of a request that has arrived. -/
  arrived : ∀ c ∈ calls, ∃ th, t.threads[c.thread]? = some th ∧ th.request = c.request
  /-- Every answer tells the result of its call, or that there was none. -/
  answered : ∀ i th answer, t.threads[i]? = some th → th.Answered answer →
    P.tells th.request answer
      ((calls.find? (·.thread = i)).map Call.result)
  /-- At every moment of the run, what has taken effect has arrived, and what has been answered
  takes no effect any more. -/
  realTime : ∀ before after s, ls = before ++ after → Run V.step (.initial store) before s →
    ∃ earlier later, calls = earlier ++ later ∧ (∀ c ∈ earlier, c.thread < s.threads.length) ∧
      ∀ c ∈ later, ∀ th answer, s.threads[c.thread]? = some th → ¬ th.Answered answer

theorem run_split {before after : List (Label Req ε)} (h : Run V.step s (before ++ after) t)
    (hbefore : Run V.step s before u) : Run V.step u after t := by
  obtain ⟨v, hv, hafter⟩ := run_append.mp h
  cases Option.some.inj (hv.symm.trans hbefore)
  exact hafter

/-- **Linearizability.**  The points of a run linearize it. -/
theorem Points.linearizes (P : Points V O) (h : Run V.step (.initial store) ls t) :
    Linearizes P store ls t (P.history (.initial store) ls) := by
  have hkeeps := run_keeps P.once h
  have hcalls := P.callsOf_initial h
  have hatMost : ∀ i, ((P.history (.initial store) ls).filter (·.thread = i)).length ≤ 1 := by
    intro i
    rw [← hcalls, callsOf]
    cases hthread : t.threads[i]? with
    | none => exact Nat.zero_le 1
    | some th =>
      show ((th.events.filterMap _).map _).length ≤ 1
      rw [List.length_map]
      exact (hkeeps th (List.mem_of_getElem? hthread)).1
  constructor
  · exact P.executes_run h fun th hth => absurd hth List.not_mem_nil
  · refine List.nodup_iff_count_le_one.mpr fun i => ?_
    rw [List.count, List.countP_map, List.countP_eq_length_filter]
    refine Nat.le_trans (Nat.le_of_eq (congrArg List.length ?_)) (hatMost i)
    exact List.filter_congr fun c _ => rfl
  · intro c hc
    have hmem : c ∈ P.callsOf t c.thread := by
      rw [hcalls]
      exact List.mem_filter.mpr ⟨hc, decide_eq_true rfl⟩
    cases hthread : t.threads[c.thread]? with
    | none =>
      rw [callsOf, hthread] at hmem
      cases hmem
    | some th =>
      rw [callsOf_of_thread P hthread] at hmem
      obtain ⟨res, -, hcall⟩ := List.mem_map.mp hmem
      exact ⟨th, rfl, congrArg Call.request hcall⟩
  · intro i th answer hthread hanswer
    have htells := (hkeeps th (List.mem_of_getElem? hthread)).2 answer hanswer
    have hfind : ((P.history (.initial store) ls).find? (·.thread = i)).map Call.result =
        (th.events.filterMap (P.point th.request)).head? := by
      rw [← List.head?_filter, ← hcalls, callsOf_of_thread P hthread, List.head?_map,
        Option.map_map]
      exact congrFun Option.map_id _
    rw [hfind]
    exact htells
  · rintro before after s rfl hbefore
    have hafter := run_split h hbefore
    refine ⟨_, _, P.history_append hbefore, ?_, ?_⟩
    · intro c hc
      by_contra hlength
      have hnone := P.callsOf_initial hbefore c.thread
      rw [P.callsOf_of_length_le (Nat.le_of_not_lt hlength)] at hnone
      have hmem : c ∈ (P.history (.initial store) before).filter (·.thread = c.thread) :=
        List.mem_filter.mpr ⟨hc, decide_eq_true rfl⟩
      rw [← hnone] at hmem
      cases hmem
    · intro c hc th answer hthread hanswer
      have hrun := P.callsOf_run hafter c.thread
      rw [P.callsOf_of_thread hthread, P.callsOf_of_thread (answered_stays hafter hthread hanswer)]
        at hrun
      have hmem : c ∈ (P.history s after).filter (·.thread = c.thread) :=
        List.mem_filter.mpr ⟨hc, decide_eq_true rfl⟩
      rw [List.self_eq_append_right.mp hrun] at hmem
      cases hmem

/-! ## Using a linearization -/

namespace Linearizes

variable {P : Points V O} {calls : List (Call Req Res)}

/-- The call of an answered request that has had an effect. -/
theorem exists_call (h : Linearizes P store ls t calls) {i : ℕ} {th : Thread Req Op Ret Ans}
    {answer : Ans} (hthread : t.threads[i]? = some th) (hanswer : th.Answered answer) :
    P.tells th.request answer none ∨ ∃ res, ⟨i, th.request, res⟩ ∈ calls ∧
      P.tells th.request answer (some res) := by
  have htells := h.answered i th answer hthread hanswer
  cases hfind : calls.find? (·.thread = i) with
  | none =>
    rw [hfind] at htells
    exact Or.inl htells
  | some c =>
    rw [hfind] at htells
    have hmem := List.mem_of_find?_eq_some hfind
    have hi : c.thread = i := by simpa using List.find?_some hfind
    obtain ⟨th', hthread', hrequest⟩ := h.arrived c hmem
    rw [hi, hthread] at hthread'
    cases hthread'
    refine Or.inr ⟨c.result, ?_, htells⟩
    rw [hrequest, ← hi]
    exact hmem

/-- **Real time.**  A call that has been answered stands before every call of a request that arrives
later. -/
theorem precedes (h : Linearizes P store ls t calls) {before after : List (Label Req ε)}
    {s : State Req Op Ret Ans σ} (hls : ls = before ++ after)
    (hbefore : Run V.step (.initial store) before s) {c d : Call Req Res} (hc : c ∈ calls)
    (hd : d ∈ calls) {th : Thread Req Op Ret Ans} {answer : Ans}
    (hthread : s.threads[c.thread]? = some th) (hanswer : th.Answered answer)
    (hlater : s.threads.length ≤ d.thread) :
    ∃ first middle last, calls = first ++ c :: (middle ++ d :: last) := by
  obtain ⟨earlier, later, rfl, hearlier, hdone⟩ := h.realTime before after s hls hbefore
  have hcmem : c ∈ earlier := by
    rcases List.mem_append.mp hc with hmem | hmem
    · exact hmem
    · exact absurd hanswer (hdone c hmem th answer hthread)
  have hdmem : d ∈ later := by
    rcases List.mem_append.mp hd with hmem | hmem
    · exact absurd (hearlier d hmem) (Nat.not_lt_of_le hlater)
    · exact hmem
  obtain ⟨first, middle, rfl⟩ := List.append_of_mem hcmem
  obtain ⟨middle', last, rfl⟩ := List.append_of_mem hdmem
  refine ⟨first, middle ++ middle', last, ?_⟩
  simp only [List.append_assoc, List.cons_append]

end Linearizes

end Service

end Program
