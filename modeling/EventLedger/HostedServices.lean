import EventLedger.ServiceRuns
import Mathlib.Data.List.Nodup
import Mathlib.Data.Set.Defs

/-!
# A service inside a larger system

A larger system may run the handlers of a service among other things, under names
of its own.  `Hosts` says that it shows a state of the service: the store, and a
thread for each name.  A request it passes on is an arrival, and an operation of
one of its handlers is a step of the service (`Serves.arrive`, `Serves.act`), so
whatever holds of all runs of the service holds of what the larger system shows.
A handler that the larger system gives up is one the service never continues.
-/
namespace Program

open LabelledRun Prog

namespace Service

variable {Req Op : Type} {Ret : Op → Type} {Ans σ ε ι : Type}

/-- A larger system shows a state of a service.  Under each name it has a request and what is left
of its handler; the names stand in the order of arrival.  A handler it has given up it may show as
finished. -/
structure Hosts (hosted : ι → Option (Req × Prog Op Ret Ans)) (given : Set ι) (store : σ)
    (names : List ι) (s : State Req Op Ret Ans σ) : Prop where
  store : s.store = store
  nodup : names.Nodup
  named : ∀ i, i ∈ names ↔ hosted i ≠ none
  length : names.length = s.threads.length
  thread : ∀ (j : ℕ) (i : ι) (th : Thread Req Op Ret Ans), names[j]? = some i →
    s.threads[j]? = some th → ∃ rest, hosted i = some (th.request, rest) ∧
      (th.rest = rest ∨ i ∈ given ∧ ∃ answer, rest = .done answer)

variable {V : Service Req Op Ret Ans σ ε} {hosted hosted' : ι → Option (Req × Prog Op Ret Ans)}
  {given : Set ι} {start store store' : σ} {names : List ι} {s : State Req Op Ret Ans σ} {i : ι}
  {req : Req}

/-- The thread of a name. -/
theorem Hosts.exists_thread (h : Hosts hosted given store names s) {rest : Prog Op Ret Ans}
    (hi : hosted i = some (req, rest)) :
    ∃ (j : ℕ) (th : Thread Req Op Ret Ans), names[j]? = some i ∧ s.threads[j]? = some th ∧
      th.request = req ∧ (th.rest = rest ∨ i ∈ given ∧ ∃ answer, rest = .done answer) := by
  have hmem : i ∈ names := (h.named i).mpr (by rw [hi]; exact Option.some_ne_none _)
  obtain ⟨j, hj⟩ := List.mem_iff_getElem?.mp hmem
  have hlt : j < s.threads.length := by
    rw [← h.length]
    exact (List.getElem?_eq_some_iff.mp hj).1
  obtain ⟨rest', hi', hrest⟩ := h.thread j i _ hj (List.getElem?_eq_getElem hlt)
  obtain ⟨hreq, rfl⟩ := Prod.mk.inj (Option.some.inj (hi'.symm.trans hi))
  exact ⟨j, _, hj, List.getElem?_eq_getElem hlt, hreq, hrest⟩

/-- Every thread has a name. -/
theorem Hosts.exists_name (h : Hosts hosted given store names s) {th : Thread Req Op Ret Ans}
    (hth : th ∈ s.threads) : ∃ i rest, hosted i = some (th.request, rest) ∧
      (th.rest = rest ∨ i ∈ given ∧ ∃ answer, rest = .done answer) := by
  obtain ⟨j, hj⟩ := List.mem_iff_getElem?.mp hth
  have hlt : j < names.length := by
    rw [h.length]
    exact (List.getElem?_eq_some_iff.mp hj).1
  exact ⟨_, h.thread j _ th (List.getElem?_eq_getElem hlt) hj⟩

/-- A change of one name's handler is a change of its thread. -/
theorem Hosts.change (h : Hosts hosted given store names s) {j : ℕ} (hj : names[j]? = some i)
    {th : Thread Req Op Ret Ans} {rest : Prog Op Ret Ans}
    (hi' : hosted' i = some (th.request, rest))
    (hrest : th.rest = rest ∨ i ∈ given ∧ ∃ answer, rest = .done answer)
    (hother : ∀ k, k ≠ i → hosted' k = hosted k) :
    Hosts hosted' given store' names ⟨store', s.threads.set j th⟩ where
  store := rfl
  nodup := h.nodup
  named k := by
    by_cases hk : k = i
    · subst hk
      rw [hi']
      exact iff_of_true (List.mem_of_getElem? hj) (Option.some_ne_none _)
    · rw [hother k hk]
      exact h.named k
  length := by rw [List.length_set, h.length]
  thread j' k th' hk hth' := by
    have hlt := (List.getElem?_eq_some_iff.mp hj).1
    by_cases hjj : j = j'
    · subst hjj
      cases hj.symm.trans hk
      rw [List.getElem?_set_self (h.length ▸ hlt)] at hth'
      cases hth'
      exact ⟨rest, hi', hrest⟩
    · rw [List.getElem?_set_ne hjj] at hth'
      have hne : k ≠ i := by
        rintro rfl
        exact hjj ((List.getElem?_inj hlt h.nodup).mp (hj.trans hk.symm))
      rw [hother k hne]
      exact h.thread j' k th' hk hth'

/-- A request that is passed on arrives. -/
theorem Hosts.arrive (h : Hosts hosted given store names s) (hfresh : hosted i = none)
    (hi' : hosted' i = some (req, V.handle req)) (hother : ∀ k, k ≠ i → hosted' k = hosted k) :
    Hosts hosted' given store (names ++ [i])
      { s with threads := s.threads ++ [⟨req, [], V.handle req⟩] } where
  store := h.store
  nodup := by
    refine List.nodup_append.mpr ⟨h.nodup, List.nodup_singleton i, ?_⟩
    rintro k hk _ hk' rfl
    rw [List.mem_singleton] at hk'
    exact (h.named i).mp (hk' ▸ hk) hfresh
  named k := by
    rw [List.mem_append, List.mem_singleton]
    by_cases hk : k = i
    · subst hk
      rw [hi']
      exact iff_of_true (Or.inr rfl) (Option.some_ne_none _)
    · rw [hother k hk, ← h.named k]
      exact or_iff_left hk
  length := by rw [List.length_append, List.length_append, h.length]; rfl
  thread j k th hk hth := by
    by_cases hold : j < names.length
    · rw [List.getElem?_append_left hold] at hk
      rw [List.getElem?_append_left (h.length ▸ hold)] at hth
      have hne : k ≠ i := by
        rintro rfl
        exact (h.named k).mp (List.mem_of_getElem? hk) hfresh
      rw [hother k hne]
      exact h.thread j k th hk hth
    · have hle := Nat.le_of_not_lt hold
      rw [List.getElem?_append_right hle] at hk
      rw [List.getElem?_append_right (h.length ▸ hle)] at hth
      rw [List.mem_singleton.mp (List.mem_of_getElem? hk)]
      rw [List.mem_singleton.mp (List.mem_of_getElem? hth)]
      exact ⟨_, hi', Or.inl rfl⟩

/-! ## Runs -/

/-- What a larger system shows has come about in a run of the service. -/
def Serves (V : Service Req Op Ret Ans σ ε) (start : σ)
    (hosted : ι → Option (Req × Prog Op Ret Ans)) (given : Set ι) (store : σ) : Prop :=
  ∃ names ls s, Run V.step (.initial start) ls s ∧ Hosts hosted given store names s

/-- Nothing has been passed on yet. -/
theorem Serves.initial (hnone : ∀ i, hosted i = none) : V.Serves start hosted given start :=
  ⟨[], [], .initial start, run_nil.mpr rfl, rfl, List.nodup_nil,
    fun i => iff_of_false List.not_mem_nil fun h => h (hnone i), rfl, fun _ _ _ h => by cases h⟩

/-- A request is passed on. -/
theorem Serves.arrive (h : V.Serves start hosted given store) (hfresh : hosted i = none)
    (hi' : hosted' i = some (req, V.handle req)) (hother : ∀ k, k ≠ i → hosted' k = hosted k) :
    V.Serves start hosted' given store := by
  obtain ⟨names, ls, s, hrun, hhosts⟩ := h
  exact ⟨_, ls ++ [.arrive req], _, hrun.snoc rfl, hhosts.arrive hfresh hi' hother⟩

/-- A handler performs an operation. -/
theorem Serves.act (h : V.Serves start hosted given store) {o : Op} {k : Ret o → Prog Op Ret Ans}
    (hi : hosted i = some (req, .act o k)) {env : ε} {r : Ret o}
    (hexec : V.exec env store o = some (store', r)) (hi' : hosted' i = some (req, k r))
    (hother : ∀ k, k ≠ i → hosted' k = hosted k) : V.Serves start hosted' given store' := by
  obtain ⟨names, ls, s, hrun, hhosts⟩ := h
  obtain ⟨j, ⟨req', es, rest⟩, hj, hth, rfl, hrest⟩ := hhosts.exists_thread hi
  obtain rfl : rest = .act o k := by
    rcases hrest with hrest | ⟨-, answer, hrest⟩
    · exact hrest
    · cases hrest
  have hstep : V.step s (.act j env) =
      some ⟨store', s.threads.set j ⟨req', es ++ [⟨o, r⟩], k r⟩⟩ := by
    rw [← hhosts.store] at hexec
    simp only [step, hth, hexec, Option.map_some]
  have hchanged : Hosts hosted' given store' names
      ⟨store', s.threads.set j ⟨req', es ++ [⟨o, r⟩], k r⟩⟩ :=
    hhosts.change hj hi' (Or.inl rfl) hother
  exact ⟨names, ls ++ [.act j env], _, hrun.snoc hstep, hchanged⟩

/-- A handler is given up. -/
theorem Serves.give (h : V.Serves start hosted given store) {rest : Prog Op Ret Ans} {answer : Ans}
    (hi : hosted i = some (req, rest)) (hgiven : i ∈ given)
    (hi' : hosted' i = some (req, .done answer)) (hother : ∀ k, k ≠ i → hosted' k = hosted k) :
    V.Serves start hosted' given store := by
  obtain ⟨names, ls, s, hrun, hhosts⟩ := h
  obtain ⟨j, th, hj, hth, rfl, -⟩ := hhosts.exists_thread hi
  have hsame : s = ⟨store, s.threads.set j th⟩ := by
    obtain ⟨hlt, hget⟩ := List.getElem?_eq_some_iff.mp hth
    rw [← hhosts.store, ← hget, List.set_getElem_self]
  refine ⟨names, ls, s, hrun, ?_⟩
  rw [hsame]
  exact hhosts.change hj hi' (Or.inr ⟨hgiven, answer, rfl⟩) hother

/-! ## Coming to rest -/

/-- A thread whose operations leave the store alone can be brought to its end. -/
theorem exists_answered {P : Op → Prop}
    (hexec : ∀ store o, P o → ∃ env r, V.exec env store o = some (store, r))
    {j : ℕ} {rest : Prog Op Ret Ans} (hP : rest.All P) {es : List (Event Op Ret)}
    (hj : s.threads[j]? = some ⟨req, es, rest⟩) :
    ∃ ls es' answer, Run V.step s ls ⟨s.store, s.threads.set j ⟨req, es', .done answer⟩⟩ := by
  induction rest generalizing s es with
  | done answer =>
    obtain ⟨hlt, hget⟩ := List.getElem?_eq_some_iff.mp hj
    refine ⟨[], es, answer, run_nil.mpr ?_⟩
    rw [← hget, List.set_getElem_self]
  | act o k ih =>
    obtain ⟨env, r, hop⟩ := hexec s.store o hP.1
    have hlt := (List.getElem?_eq_some_iff.mp hj).1
    have hstep : V.step s (.act j env) =
        some ⟨s.store, s.threads.set j ⟨req, es ++ [⟨o, r⟩], k r⟩⟩ := by
      simp only [step, hj, hop, Option.map_some]
    have hnext : (s.threads.set j ⟨req, es ++ [⟨o, r⟩], k r⟩)[j]? =
        some ⟨req, es ++ [⟨o, r⟩], k r⟩ := List.getElem?_set_self hlt
    obtain ⟨ls, es', answer, hrun⟩ :=
      ih r (hP.2 r) (s := ⟨s.store, s.threads.set j ⟨req, es ++ [⟨o, r⟩], k r⟩⟩) hnext
    rw [List.set_set] at hrun
    exact ⟨_, es', answer, run_cons.mpr ⟨_, hstep, hrun⟩⟩

/-- **Coming to rest.**  Where all that is left are operations that leave the store alone, the
service can come to rest with the store it has. -/
theorem exists_quiet {P : Op → Prop}
    (hexec : ∀ store o, P o → ∃ env r, V.exec env store o = some (store, r))
    (hs : ∀ th ∈ s.threads, th.rest.All P) :
    ∃ ls t, Run V.step s ls t ∧ t.store = s.store ∧ t.Quiet := by
  have hsome : ∀ n, n ≤ s.threads.length → ∃ ls t, Run V.step s ls t ∧ t.store = s.store ∧
      t.threads.length = s.threads.length ∧ (∀ th ∈ t.threads, th.rest.All P) ∧
        ∀ j th, j < n → t.threads[j]? = some th → ∃ answer, th.Answered answer := by
    intro n
    induction n with
    | zero => exact fun _ => ⟨[], s, run_nil.mpr rfl, rfl, rfl, hs, fun _ _ h => by omega⟩
    | succ n ih =>
      intro hn
      obtain ⟨ls, t, hrun, hstore, hlength, hall, hdone⟩ := ih (by omega)
      have hlt : n < t.threads.length := by omega
      have hthread := List.getElem?_eq_getElem hlt
      obtain ⟨ls', es', answer, hrun'⟩ :=
        exists_answered hexec (hall _ (List.getElem_mem hlt)) hthread
      refine ⟨ls ++ ls', _, hrun.append hrun', hstore, ?_, fun th hth => ?_, fun j th hj hth => ?_⟩
      · rw [List.length_set, hlength]
      · rcases List.mem_or_eq_of_mem_set hth with hold | rfl
        · exact hall th hold
        · trivial
      · by_cases hjn : n = j
        · subst hjn
          rw [List.getElem?_set_self hlt] at hth
          cases hth
          exact ⟨answer, rfl⟩
        · rw [List.getElem?_set_ne hjn] at hth
          exact hdone j th (by omega) hth
  obtain ⟨ls, t, hrun, hstore, hlength, -, hdone⟩ := hsome s.threads.length (Nat.le_refl _)
  refine ⟨ls, t, hrun, hstore, fun th hth => ?_⟩
  obtain ⟨j, hj⟩ := List.mem_iff_getElem?.mp hth
  exact hdone j th (hlength ▸ (List.getElem?_eq_some_iff.mp hj).1) hj

end Service

end Program
