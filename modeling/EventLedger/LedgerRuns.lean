import EventLedger.Balance
import EventLedger.LedgerSafety
import EventLedger.LedgerSteps

/-!
# Runs of the composed system

The invariant of whole worlds: the ledger is consistent and every thread is
safe.  One step keeps it and only lets the ledger grow (`World.Ok.step`), so the
same holds of every run (`World.run_ok`).  The facts about answers that the
results on recording rest on follow at the end: after a success both rows are
there, and an answer that says 201 is its creator's.

The runs that examples are made of are here as well: a submission that is recorded,
one that is applied while its responses are lost, and its resubmission.
-/
namespace EventLedger

open Program LabelledRun KeyedTable

namespace World

/-- The invariant of the composed system. -/
structure Ok (dep : Deployment) (w : World) : Prop where
  consistent : Consistent w.ledger
  /-- Every thread works for a submission, and is safe. -/
  thread_safe : ∀ i p, w.threads i = some p → ∃ body, w.ledger.bodies i = some body ∧
    (gatewayMachine dep i).Safe (AnswerTrue dep i body) p w.shared
  /-- Every handler works for an attempt, stores nothing but its row, and is safe. -/
  handler_safe : ∀ a p, w.handlers a = some p → ∃ sent, w.ledger.attempts[a]? = some sent ∧
    p.All (OnlyStores sent) ∧ accountMachine.Safe (AnswerStored sent) p w.shared

variable {dep : Deployment} {w w' : World}

theorem initial_ok : Ok dep initial where
  consistent :=
    { attempt_origin := fun _ h => absurd h List.not_mem_nil
      transaction_origin := fun _ h => absurd h List.not_mem_nil
      event_origin := fun _ h => absurd h List.not_mem_nil
      transaction_of_event := fun _ h => absurd h List.not_mem_nil
      reply_attempt := fun _ _ h => by cases h
      reply_stored := fun _ _ _ _ h => by cases h
      creator_unique := fun _ _ _ h => absurd h List.not_mem_nil
      creator_event := fun _ _ h => absurd h List.not_mem_nil }
  thread_safe _ _ h := by cases h
  handler_safe _ _ h := by cases h

/-- When only the shared state moves, every thread stays safe. -/
theorem Ok.move (h : Ok dep w) {shared : Shared} (hevolves : Evolves w.ledger shared.ledger)
    (hconsistent : Consistent shared.ledger) : Ok dep { w with shared := shared } where
  consistent := hconsistent
  thread_safe i p hp := by
    obtain ⟨body, hbody, hsafe⟩ := h.thread_safe i p hp
    exact ⟨body, hevolves.bodies _ _ hbody, hsafe.stable hevolves⟩
  handler_safe a p hp := by
    obtain ⟨sent, hsent, honly, hsafe⟩ := h.handler_safe a p hp
    exact ⟨sent, hevolves.attempt hsent, honly, hsafe.stable hevolves⟩

/-- Replacing one Gateway thread by a safe program. -/
theorem Ok.setThread (h : Ok dep w) {i : ℕ} {body : EventRequest} {p : GatewayProg Answer}
    (hbody : w.ledger.bodies i = some body)
    (hsafe : (gatewayMachine dep i).Safe (AnswerTrue dep i body) p w.shared) :
    Ok dep { w with threads := Function.update w.threads i (some p) } where
  consistent := h.consistent
  thread_safe j q hq := by
    rcases eq_some_of_update hq with ⟨rfl, rfl⟩ | hq
    · exact ⟨body, hbody, hsafe⟩
    · exact h.thread_safe j q hq
  handler_safe := h.handler_safe

/-- Replacing one handler by a safe program. -/
theorem Ok.setHandler (h : Ok dep w) {a : ℕ} {sent : Attempt} {p : AccountProg AccountAnswer}
    (hsent : w.ledger.attempts[a]? = some sent) (honly : p.All (OnlyStores sent))
    (hsafe : accountMachine.Safe (AnswerStored sent) p w.shared) :
    Ok dep { w with handlers := Function.update w.handlers a (some p) } where
  consistent := h.consistent
  thread_safe := h.thread_safe
  handler_safe b q hq := by
    rcases eq_some_of_update hq with ⟨rfl, rfl⟩ | hq
    · exact ⟨sent, hsent, honly, hsafe⟩
    · exact h.handler_safe b q hq

/-- **One step** of any thread keeps the invariant, and the ledger only grows. -/
theorem Ok.step {l : Label} (h : Ok dep w) (hstep : step dep w l = some w') :
    Ok dep w' ∧ Evolves w.ledger w'.ledger := by
  cases step_cases hstep with
  | submit hfresh =>
    rename_i i body
    have hevolves := evolves_submit (l := w.ledger) body hfresh
    have hmoved : Ok dep { w with shared :=
        { w.shared with bodies := Function.update w.shared.bodies i (some body) } } :=
      h.move hevolves (h.consistent.submit body hfresh)
    have hbody : Function.update w.shared.bodies i (some body) i = some body :=
      Function.update_self _ _ _
    exact ⟨hmoved.setThread hbody (submitEvent_safe hbody), hevolves⟩
  | gateway hthread hexec =>
    obtain ⟨body, hbody, hsafe⟩ := h.thread_safe _ _ hthread
    obtain ⟨hconsistent, hk⟩ := hsafe.step h.consistent hexec
    have hevolves := gatewayExec_evolves hexec
    exact ⟨(h.move hevolves hconsistent).setThread (hevolves.bodies _ _ hbody) hk, hevolves⟩
  | deliver hsent =>
    exact ⟨h.setHandler hsent (serve_onlyStores _) (serve_safe (List.mem_of_getElem? hsent)),
      Evolves.refl _⟩
  | account hhandler hexec =>
    obtain ⟨sent, hsent, honly, hsafe⟩ := h.handler_safe _ _ hhandler
    obtain ⟨hconsistent, hk⟩ := hsafe.step h.consistent hexec
    have hevolves := accountExec_evolves hexec
    exact ⟨(h.move hevolves hconsistent).setHandler (hevolves.attempt hsent) (honly.2 _) hk,
      hevolves⟩
  | reply hhandler hfresh =>
    rename_i a env answer
    obtain ⟨sent, hsent, -, hsafe⟩ := h.handler_safe a _ hhandler
    have hevolves := evolves_reply (l := w.ledger) answer hfresh
    have hconsistent := h.consistent.reply hfresh hsent (hsafe.post h.consistent)
    exact ⟨h.move hevolves hconsistent, hevolves⟩
  | crash hhandler =>
    rename_i a env o k
    obtain ⟨sent, hsent, -, -⟩ := h.handler_safe _ _ hhandler
    have hsafe : accountMachine.Safe (AnswerStored sent) (.done (.internalError env.traceId))
        w.shared := answerStored_other fun _ _ e => by cases e
    exact ⟨h.setHandler hsent trivial hsafe, Evolves.refl _⟩
  | setFault fault => exact ⟨h.move (Evolves.refl _) h.consistent, Evolves.refl _⟩

/-- **Runs** keep the invariant, and the ledger only grows along them. -/
theorem run_ok {ls : List Label} (h : Ok dep w) (hrun : Run (step dep) w ls w') :
    Ok dep w' ∧ Evolves w.ledger w'.ledger := by
  have keep : ∀ u l v, Ok dep u → step dep u l = some v → Ok dep v :=
    fun u l v hu hstep => (hu.step hstep).1
  refine ⟨hrun.preserves keep h, ?_⟩
  exact hrun.relates (R := fun u v => Evolves u.ledger v.ledger) (fun u => Evolves.refl u.ledger)
    (fun _ _ _ => Evolves.trans) keep (fun u l v hu hstep => (hu.step hstep).2) h

theorem Reachable.ok (h : Reachable dep w) : Ok dep w := by
  obtain ⟨ls, hrun⟩ := h
  exact (run_ok initial_ok hrun).1

/-- The Account Service's table only holds rows that `apply_transaction` can store. -/
theorem Ok.canonical (h : Ok dep w) : w.shared.account.Canonical := by
  intro tx htx
  obtain ⟨sent, -, accountId, body, now, -, -, hstored⟩ :=
    h.consistent.transaction_origin tx htx
  exact ⟨body, accountId, now, hstored⟩

/-! ## What answers say -/

/-- An answer is final. -/
theorem Ok.answered_step {l : Label} {i : ℕ} {answer : Answer} (h : Ok dep w)
    (hstep : World.step dep w l = some w') (hanswered : w.Answered i answer) :
    w'.Answered i answer := by
  cases step_cases hstep with
  | submit hfresh =>
    rename_i j body
    -- a submission number is used once
    obtain ⟨body', hbody', -⟩ := h.thread_safe i _ hanswered
    have hne : i ≠ j := by
      rintro rfl
      cases hfresh.symm.trans hbody'
    exact (Function.update_of_ne hne _ _).trans hanswered
  | gateway hthread hexec =>
    rename_i j c o k shared r
    -- a thread that has answered performs no further operation
    have hne : i ≠ j := by
      rintro rfl
      cases hthread.symm.trans hanswered
    exact (Function.update_of_ne hne _ _).trans hanswered
  | _ => exact hanswered

theorem Ok.answered_run {ls : List Label} {i : ℕ} {answer : Answer} (h : Ok dep w)
    (hrun : Run (World.step dep) w ls w') (hanswered : w.Answered i answer) :
    w'.Answered i answer := by
  refine (Run.preserves (I := fun u => Ok dep u ∧ u.Answered i answer) ?_ hrun
    ⟨h, hanswered⟩).2
  rintro u l v ⟨hok, hu⟩ hstep
  exact ⟨(hok.step hstep).1, hok.answered_step hstep hu⟩

theorem Ok.answer_true {i : ℕ} {answer : Answer} (h : Ok dep w) (hanswered : w.Answered i answer) :
    ∃ body, w.ledger.bodies i = some body ∧ AnswerTrue dep i body answer w.shared := by
  obtain ⟨body, hbody, hsafe⟩ := h.thread_safe i _ hanswered
  exact ⟨body, hbody, hsafe.post h.consistent⟩

/-- A success is a stored event. -/
theorem Ok.recorded {i : ℕ} {answer : Answer} {body : EventRequest} (h : Ok dep w)
    (hanswered : w.Answered i answer) (hbody : w.ledger.bodies i = some body)
    (hsuccess : answer.status < 400) :
    ∃ row response duplicate, answer = .recorded answer.status response ∧
      w.ledger.events.get body.eventId = some row ∧
      row.toResponse dep.loads duplicate = some response ∧
      ((answer.status = 200 ∧ duplicate = true) ∨
        (answer.status = 201 ∧ duplicate = false ∧ (body.eventId, i) ∈ w.ledger.creators)) := by
  obtain ⟨body', hbody', htrue⟩ := h.answer_true hanswered
  cases hbody.symm.trans hbody'
  cases answer with
  | recorded status response =>
    obtain ⟨row, duplicate, hget, hresponse, hstatus⟩ := htrue
    exact ⟨row, response, duplicate, rfl, hget, hresponse, hstatus⟩
  | unavailable => simp [Answer.status] at hsuccess
  | internalError traceId => simp [Answer.status] at hsuccess
  | rejected status detail =>
    have h4xx : 400 ≤ status ∧ status < 500 := htrue
    exact absurd hsuccess (not_lt.mpr h4xx.1)

/-- A success leaves both rows behind. -/
theorem Ok.rows_of_success {i : ℕ} {body : EventRequest} {answer : Answer} (h : Ok dep w)
    (hanswered : w.Answered i answer) (hbody : w.ledger.bodies i = some body)
    (hsuccess : answer.status < 400) :
    (∃ row, w.ledger.events.get body.eventId = some row) ∧
      ∃ tx, w.ledger.transactions.get body.eventId = some tx := by
  obtain ⟨row, -, -, -, hrow, -⟩ := h.recorded hanswered hbody hsuccess
  obtain ⟨tx, htx⟩ := h.consistent.transaction_of_event row (Table.mem_of_get hrow)
  rw [Table.key_of_get hrow] at htx
  exact ⟨⟨row, hrow⟩, tx, htx⟩

/-! ## Runs that can be executed -/

/-- The status submission `i` has been answered with. -/
def statusOf (w : World) (i : ℕ) : Option ℕ :=
  match w.threads i with
  | some (.done answer) => some answer.status
  | _ => none

theorem statusOf_eq_some {i n : ℕ} :
    w.statusOf i = some n ↔ ∃ answer, w.Answered i answer ∧ answer.status = n := by
  unfold statusOf Answered
  constructor
  · intro h
    split at h
    · rename_i answer hthread
      exact ⟨answer, hthread, Option.some.inj h⟩
    · cases h
  · rintro ⟨answer, hthread, rfl⟩
    rw [hthread]

end World

/-- The default configuration. -/
def defaultDeployment : Deployment where
  breaker := {}
  maxRetries := 2
  loads := fun _ => none
  validationDetail := fun _ => .null

/-- A moment at which messages arrive. -/
def calm : Choice := ⟨⟨sampleTimestamp, none⟩, 0, .responds⟩

/-- A moment at which they do not. -/
def lossy : Choice := { calm with network := .fails }

/-- Submission `i` is forwarded as attempt `a`, applied, and recorded. -/
def recordingRun (i a : ℕ) (body : EventRequest) : List Label :=
  .submit i body :: List.replicate 5 (.gateway i calm) ++
    .deliver a :: List.replicate 5 (.account a calm.surroundings) ++
      List.replicate 5 (.gateway i calm)

/-- Submission 0 is applied by its first attempt, whose response is lost, as are both retries; the
answer is a 503. -/
def unavailableRun (body : EventRequest) : List Label :=
  .submit 0 body :: List.replicate 5 (.gateway 0 lossy) ++
    .deliver 0 :: List.replicate 5 (.account 0 calm.surroundings) ++
      List.replicate 14 (.gateway 0 lossy)

/-- After that 503, submission 1 is answered by a replay of the first, and recorded. -/
def resubmissionRun (first second : EventRequest) : List Label :=
  unavailableRun first ++ .submit 1 second :: List.replicate 5 (.gateway 1 calm) ++
    .deliver 3 :: List.replicate 3 (.account 3 calm.surroundings) ++
      List.replicate 5 (.gateway 1 calm)

end EventLedger
