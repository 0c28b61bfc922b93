import EventLedger.ServiceRuns
import Mathlib.Algebra.Order.Ring.Nat

/-!
# What programs spend when their reads are pinned

Some of what a program reads may be known beforehand: a switch that stays where it
is, a flag that is set.  `Spends may cost Q p n` is about the program's behaviour in
such surroundings: as long as every operation returns what `may` allows, the
operations the program performs cost at most `n`, and it ends in a result that
satisfies `Q`.

Over a service whose operations return what `may` allows, every thread has a budget,
and what is spent is paid from the budgets (`run_budgets`); and requests that arrive
then and spend nothing have spent nothing in any state (`run_frugal`).
-/
namespace Program

open LabelledRun

namespace Prog

variable {Op Op' : Type} {Ret : Op → Type} {Ret' : Op' → Type} {α β : Type}

/-- Where operations return what `may` allows, the program spends at most `n` and ends in `Q`. -/
def Spends (may : (o : Op) → Ret o → Prop) (cost : Op → ℕ) (Q : α → Prop) :
    Prog Op Ret α → ℕ → Prop
  | done a, _ => Q a
  | act o k, n => cost o ≤ n ∧ ∀ r, may o r → (k r).Spends may cost Q (n - cost o)

/-- The program and everything that may become of it satisfy `P`. -/
def Throughout (P : Prog Op Ret α → Prop) : Prog Op Ret α → Prop
  | done a => P (done a)
  | act o k => P (act o k) ∧ ∀ r, (k r).Throughout P

variable {may : (o : Op) → Ret o → Prop} {cost : Op → ℕ} {Q Q' : α → Prop} {R : β → Prop}
  {p q : Prog Op Ret α} {f : α → Prog Op Ret β} {n m : ℕ}

theorem Spends.mono (h : p.Spends may cost Q n) (hQ : ∀ a, Q a → Q' a) (hn : n ≤ m) :
    p.Spends may cost Q' m := by
  induction p generalizing n m with
  | done a => exact hQ a h
  | act o k ih =>
    exact ⟨Nat.le_trans h.1 hn, fun r hr => ih r (h.2 r hr) (Nat.sub_le_sub_right hn _)⟩

/-- **Sequencing.**  What two programs spend adds up. -/
theorem Spends.bind (h : p.Spends may cost Q n) (hf : ∀ a, Q a → (f a).Spends may cost R m) :
    (p >>= f).Spends may cost R (n + m) := by
  induction p generalizing n with
  | done a => exact (hf a h).mono (fun _ hb => hb) (Nat.le_add_left m n)
  | act o k ih =>
    obtain ⟨hcost, hk⟩ := h
    refine ⟨Nat.le_trans hcost (Nat.le_add_right n m), fun r hr => ?_⟩
    rw [Nat.sub_add_comm hcost]
    exact ih r (hk r hr)

/-- Programs that spend nothing, one after another. -/
theorem Spends.bind_zero (h : p.Spends may cost Q 0)
    (hf : ∀ a, Q a → (f a).Spends may cost R 0) : (p >>= f).Spends may cost R 0 := h.bind hf

/-- Operations that cost nothing. -/
theorem All.spends (h : p.All fun o => cost o = 0) : p.Spends may cost (fun _ => True) n := by
  induction p generalizing n with
  | done a => trivial
  | act o k ih =>
    refine ⟨?_, fun r _ => ih r (h.2 r)⟩
    rw [h.1]
    exact Nat.zero_le n

/-- **Carrying operations out**, each by a program that spends as much and returns what may be
returned. -/
theorem Spends.interpret {may' : (o : Op') → Ret' o → Prop} {cost' : Op' → ℕ}
    {g : (o : Op) → Prog Op' Ret' (Ret o)} (h : p.Spends may cost Q n)
    (hg : ∀ o, (g o).Spends may' cost' (may o) (cost o)) :
    (p.interpret g).Spends may' cost' Q n := by
  induction p generalizing n with
  | done a => exact h
  | act o k ih =>
    rw [← Nat.add_sub_cancel' h.1]
    exact (hg o).bind fun r hr => ih r (h.2 r hr)

/-! ## Whatever becomes of a program -/

theorem Throughout.self {P : Prog Op Ret α → Prop} (h : p.Throughout P) : P p := by
  cases p with
  | done a => exact h
  | act o k => exact h.1

theorem Throughout.of_steps {P : Prog Op Ret α → Prop} (h : p.Throughout P)
    {es : List (Event Op Ret)} (hsteps : Steps p es q) : q.Throughout P := by
  induction hsteps with
  | refl => exact h
  | act _ ih => exact ih (h.2 _)

/-- From its start the program spends nothing, and from wherever it may have come it spends at most
`n`. -/
structure Guarded (may : (o : Op) → Ret o → Prop) (cost : Op → ℕ) (n : ℕ) (p : Prog Op Ret α) :
    Prop where
  start : p.Spends may cost (fun _ => True) 0
  rest : p.Throughout fun q => q.Spends may cost (fun _ => True) n

theorem guarded_done (a : α) : (done a : Prog Op Ret α).Guarded may cost n := ⟨trivial, trivial⟩

/-- An operation that costs nothing. -/
theorem guarded_act {o : Op} {k : Ret o → Prog Op Ret α} (ho : cost o = 0)
    (hk : ∀ r, (k r).Guarded may cost n) : (act o k).Guarded may cost n := by
  have hstart : (act o k).Spends may cost (fun _ => True) 0 := by
    refine ⟨Nat.le_zero.mpr ho, fun r _ => ?_⟩
    exact (hk r).start.mono (fun _ h => h) (Nat.zero_le _)
  exact ⟨hstart, hstart.mono (fun _ h => h) (Nat.zero_le n), fun r => (hk r).rest⟩

theorem All.guarded (h : p.All fun o => cost o = 0) : p.Guarded may cost n := by
  induction p with
  | done a => exact guarded_done a
  | act o k ih => exact guarded_act h.1 fun r => ih r (h.2 r)

theorem Guarded.bind (h : p.Guarded may cost n) (hf : ∀ a, (f a).Guarded may cost n) :
    (p >>= f).Guarded may cost n := by
  refine ⟨h.start.bind fun a _ => (hf a).start, ?_⟩
  obtain ⟨-, hrest⟩ := h
  induction p with
  | done a => exact (hf a).rest
  | act o k ih => exact ⟨hrest.1.bind fun a _ => (hf a).start, fun r => ih r (hrest.2 r)⟩

/-- Carrying operations out one for one. -/
theorem Guarded.interpret {may' : (o : Op') → Ret' o → Prop} {cost' : Op' → ℕ}
    {g : (o : Op) → Prog Op' Ret' (Ret o)} (h : p.Guarded may cost n)
    (hone : ∀ o, ∃ (o' : Op') (c : Ret' o' → Ret o), g o = act o' fun r => done (c r))
    (hg : ∀ o, (g o).Spends may' cost' (may o) (cost o)) :
    (p.interpret g).Guarded may' cost' n := by
  refine ⟨h.start.interpret hg, ?_⟩
  obtain ⟨-, hrest⟩ := h
  induction p with
  | done a => exact trivial
  | act o k ih =>
    have hself := Spends.interpret hrest.1 hg
    obtain ⟨o', c, hgo⟩ := hone o
    have hshape : (act o k).interpret g = act o' fun r => (k (c r)).interpret g := by
      rw [Prog.interpret, hgo]
      rfl
    rw [hshape] at hself ⊢
    exact ⟨hself, fun r => ih (c r) (hrest.2 (c r))⟩

end Prog

/-! ## Services -/

namespace Service

open Prog

variable {Req Op : Type} {Ret : Op → Type} {Ans σ ε : Type} {V : Service Req Op Ret Ans σ ε}
  {may : (o : Op) → Ret o → Prop} {cost : Op → ℕ} {C : σ → Prop} {M : σ → ℕ}
  {s t : State Req Op Ret Ans σ} {ls : List (Label Req ε)} {budgets : List ℕ}

/-- Each thread has its budget. -/
def Budgeted (may : (o : Op) → Ret o → Prop) (cost : Op → ℕ) (s : State Req Op Ret Ans σ)
    (budgets : List ℕ) : Prop :=
  List.Forall₂ (fun th n => th.rest.Spends may cost (fun _ => True) n) s.threads budgets

theorem forall₂_set {γ δ : Type} {R : γ → δ → Prop} {l : List γ} {l' : List δ} {x : γ} {y : δ}
    (h : List.Forall₂ R l l') (hxy : R x y) (i : ℕ) :
    List.Forall₂ R (l.set i x) (l'.set i y) := by
  induction h generalizing i with
  | nil => exact .nil
  | cons hhead htail ih =>
    cases i with
    | zero => exact .cons hxy htail
    | succ i => exact .cons hhead (ih i)

theorem sum_set_sub {l : List ℕ} {i x c : ℕ} (hi : l[i]? = some x) (hc : c ≤ x) :
    (l.set i (x - c)).sum + c = l.sum := by
  induction l generalizing i with
  | nil => cases hi
  | cons y l ih =>
    cases i with
    | zero =>
      cases hi
      simp only [List.set_cons_zero, List.sum_cons]
      omega
    | succ i =>
      have hrest := ih hi
      simp only [List.set_cons_succ, List.sum_cons]
      omega

/-- A step is paid from the budget of the thread that takes it. -/
theorem budgeted_step (hnew : ∀ req, (V.handle req).Spends may cost (fun _ => True) 0)
    (hmay : ∀ env store o store' r, C store → V.exec env store o = some (store', r) → may o r)
    (hmeasure : ∀ env store o store' r, V.exec env store o = some (store', r) →
      M store' ≤ M store + cost o) {a : Label Req ε} (hC : C s.store)
    (hstep : V.step s a = some t) (hs : Budgeted may cost s budgets) :
    ∃ budgets', Budgeted may cost t budgets' ∧
      M t.store + budgets'.sum ≤ M s.store + budgets.sum := by
  cases step_cases hstep with
  | arrive req =>
    refine ⟨budgets ++ [0], List.rel_append hs (.cons (hnew req) .nil), ?_⟩
    rw [List.sum_append, List.sum_singleton]
    exact Nat.le_refl _
  | act i env req es o k store r hthread hexec =>
    obtain ⟨hlt, hget⟩ := List.getElem?_eq_some_iff.mp hthread
    have hlt' : i < budgets.length := hs.length_eq ▸ hlt
    have hbudget : (Prog.act o k).Spends may cost (fun _ => True) budgets[i] := by
      have hrel := List.Forall₂.get hs hlt hlt'
      rwa [List.get_eq_getElem, hget] at hrel
    refine ⟨budgets.set i (budgets[i] - cost o),
      forall₂_set hs (hbudget.2 r (hmay _ _ _ _ _ hC hexec)) i, ?_⟩
    have hsum := sum_set_sub (List.getElem?_eq_getElem hlt') hbudget.1
    have hspent := hmeasure _ _ _ _ _ hexec
    dsimp only
    omega

/-- **Budgets.**  As long as operations return what `may` allows, what is spent is within the
budgets of the threads there were. -/
theorem run_budgets (hnew : ∀ req, (V.handle req).Spends may cost (fun _ => True) 0)
    (hmay : ∀ env store o store' r, C store → V.exec env store o = some (store', r) → may o r)
    (hmeasure : ∀ env store o store' r, V.exec env store o = some (store', r) →
      M store' ≤ M store + cost o)
    (h : Run V.step s ls t) (hC : Along V.step (fun u _ _ => C u.store) s ls)
    (hs : Budgeted may cost s budgets) : M t.store ≤ M s.store + budgets.sum := by
  have hpaid := hC.preserves (D := fun _ _ _ => True)
    (I := fun u => ∃ budgets', Budgeted may cost u budgets' ∧
      M u.store + budgets'.sum ≤ M s.store + budgets.sum) ?_ h
    ⟨budgets, hs, Nat.le_refl _⟩
  · obtain ⟨⟨budgets', -, hle⟩, -⟩ := hpaid
    omega
  · rintro u a v ⟨budgets', hu, hle⟩ hstep hCu
    obtain ⟨budgets'', hv, hle'⟩ := budgeted_step hnew hmay hmeasure hCu hstep hu
    exact ⟨⟨budgets'', hv, Nat.le_trans hle' hle⟩, trivial⟩

/-- **Newcomers.**  A request that arrives while operations return what `may` allows, and whose
handler then spends nothing, has spent nothing and is answered as that handler answers. -/
theorem run_frugal {Q : Req → Ans → Prop} (hnew : ∀ req, (V.handle req).Spends may cost (Q req) 0)
    (hmay : ∀ env store o store' r, C store → V.exec env store o = some (store', r) → may o r)
    (h : Run V.step s ls t) (hC : Along V.step (fun u _ _ => C u.store) s ls) {j : ℕ}
    {th : Thread Req Op Ret Ans} (hj : s.threads.length ≤ j) (hth : t.threads[j]? = some th) :
    (∀ e ∈ th.events, cost e.1 = 0) ∧ ∀ answer, th.Answered answer → Q th.request answer := by
  have hfrugal := hC.preserves (D := fun _ _ _ => True)
    (I := fun u => ∀ j th, s.threads.length ≤ j → u.threads[j]? = some th →
      th.rest.Spends may cost (Q th.request) 0 ∧ ∀ e ∈ th.events, cost e.1 = 0) ?_ h
    fun j th hj hth => absurd (List.getElem?_eq_some_iff.mp hth).1 (Nat.not_lt.mpr hj)
  · obtain ⟨hrest, hevents⟩ := hfrugal.1 j th hj hth
    refine ⟨hevents, fun answer hanswer => ?_⟩
    rw [hanswer] at hrest
    exact hrest
  · intro u a v hu hstep hCu
    refine ⟨fun j th hj hth => ?_, trivial⟩
    cases step_cases hstep with
    | arrive req =>
      by_cases hold : j < u.threads.length
      · rw [List.getElem?_append_left hold] at hth
        exact hu j th hj hth
      · rw [List.getElem?_append_right (Nat.le_of_not_lt hold)] at hth
        rw [List.mem_singleton.mp (List.mem_of_getElem? hth)]
        exact ⟨hnew req, fun e he => absurd he List.not_mem_nil⟩
    | act i env req es o k store r hthread hexec =>
      by_cases hij : i = j
      · subst hij
        rw [List.getElem?_set_self (List.getElem?_eq_some_iff.mp hthread).1] at hth
        cases hth
        obtain ⟨⟨hcost, hk⟩, hevents⟩ := hu i _ hj hthread
        have hzero : cost o = 0 := Nat.le_zero.mp hcost
        refine ⟨(hk r (hmay _ _ _ _ _ hCu hexec)).mono (fun _ hq => hq) (Nat.sub_le _ _), ?_⟩
        intro e he
        rcases List.mem_append.mp he with he | he
        · exact hevents e he
        · rw [List.mem_singleton.mp he]
          exact hzero
      · rw [List.getElem?_set_ne hij] at hth
        exact hu j th hj hth

end Service

end Program
