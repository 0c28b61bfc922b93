import EventLedger.LedgerRuns

/-!
# Exactly-once recording

Submissions may be repeated, raced, retried, answered late or not at all: an
event still has at most one row in each table, its row in the Gateway comes
after its row in the Account Service, both stay for good once it has been
answered with a success, and only one submission of it is told that it was new.

`ExactlyOnce w w'` says this of a state `w` and a later state `w'`, and
`exactly_once` proves it of any two states of any run.
-/
namespace EventLedger

open LabelledRun KeyedTable

namespace World

/-- Exactly-once recording, seen from a state `w` and a later one `w'`: what is stored in `w` is
stored once and still there in `w'`, what has been answered in `w` is still answered so, and the
successes of both states agree on who created which event. -/
structure ExactlyOnce (w w' : World) : Prop where
  /-- An event has at most one transaction. -/
  transactions_unique : (w.shared.account.transactions.rows.map (·.eventId)).Nodup
  /-- A transaction neither changes nor disappears. -/
  transactions_kept : ∀ tx ∈ w.shared.account.transactions.rows,
    tx ∈ w'.shared.account.transactions.rows
  /-- An event has at most one row in the Gateway. -/
  events_unique : (w.shared.gateway.events.rows.map (·.eventId)).Nodup
  /-- An event neither changes nor disappears. -/
  events_kept : ∀ row ∈ w.shared.gateway.events.rows, row ∈ w'.shared.gateway.events.rows
  /-- Every event has its transaction. -/
  transaction_of_event : ∀ row ∈ w.shared.gateway.events.rows,
    ∃ tx ∈ w.shared.account.transactions.rows, tx.eventId = row.eventId
  /-- After a success, both rows are there from then on. -/
  recorded : ∀ i body answer, w.shared.bodies i = some body → w.Answered i answer →
    answer.status = 200 ∨ answer.status = 201 →
    (∃ row ∈ w'.shared.gateway.events.rows, row.eventId = body.eventId) ∧
      ∃ tx ∈ w'.shared.account.transactions.rows, tx.eventId = body.eventId
  /-- A submission gets one answer. -/
  answer_final : ∀ i answer, w.Answered i answer → w'.Answered i answer
  /-- A success says whether it is a duplicate. -/
  created_iff : ∀ i status response, w.Answered i (.recorded status response) →
    (status = 200 ∨ status = 201) ∧ (status = 201 ↔ response.duplicate = false)
  /-- At most one submission of an event is told that it was new. -/
  created_once : ∀ i j body body' answer answer', w.shared.bodies i = some body →
    w'.shared.bodies j = some body' → body.eventId = body'.eventId → w.Answered i answer →
    w'.Answered j answer' → answer.status = 201 → answer'.status = 201 → i = j

variable {dep : Deployment} {w w' : World}

/-- A 201 is the creator's. -/
theorem Ok.creator_of_created {i : ℕ} {body : EventRequest} {answer : Answer} (h : Ok dep w)
    (hanswered : w.Answered i answer) (hbody : w.ledger.bodies i = some body)
    (hcreated : answer.status = 201) : (body.eventId, i) ∈ w.ledger.creators := by
  obtain ⟨row, response, duplicate, -, -, -, hstatus⟩ :=
    h.recorded hanswered hbody (by omega)
  rcases hstatus with ⟨hstatus, -⟩ | ⟨-, -, hcreator⟩
  · omega
  · exact hcreator

/-- **Exactly-once recording**, in any two states of any run of the composed system. -/
theorem exactly_once {ls : List Label} (hw : Reachable dep w) (hrun : Run (step dep) w ls w') :
    ExactlyOnce w w' := by
  have hok := hw.ok
  obtain ⟨hok', hevolves⟩ := run_ok hok hrun
  exact
    { transactions_unique := w.shared.account.transactions.nodup
      transactions_kept := fun tx htx => hevolves.transactions.mem htx
      events_unique := w.shared.gateway.events.nodup
      events_kept := fun row hrow => hevolves.events.mem hrow
      transaction_of_event := fun row hrow =>
        Table.exists_get_iff.mp (hok.consistent.transaction_of_event row hrow)
      recorded := by
        intro i body answer hbody hanswered hsuccess
        obtain ⟨⟨row, hrow⟩, tx, htx⟩ := hok.rows_of_success hanswered hbody (by omega)
        exact ⟨Table.exists_get_iff.mp ⟨row, hevolves.events _ _ hrow⟩,
          Table.exists_get_iff.mp ⟨tx, hevolves.transactions _ _ htx⟩⟩
      answer_final := fun i answer hanswered => hok.answered_run hrun hanswered
      created_iff := by
        intro i status response hanswered
        obtain ⟨body, -, row, duplicate, -, hresponse, hstatus⟩ := hok.answer_true hanswered
        obtain ⟨-, -, -, -, -, -, hduplicate⟩ := StoredEvent.toResponse_fields hresponse
        rw [hduplicate]
        rcases hstatus with ⟨rfl, rfl⟩ | ⟨rfl, rfl, -⟩
        · exact ⟨Or.inl rfl, by simp⟩
        · exact ⟨Or.inr rfl, by simp⟩
      created_once := by
        intro i j body body' answer answer' hbody hbody' hsame hanswered hanswered' h201 h201'
        have hi := hevolves.creators _ (hok.creator_of_created hanswered hbody h201)
        have hj := hok'.creator_of_created hanswered' hbody' h201'
        rw [← hsame] at hj
        exact hok'.consistent.creator_unique _ i j hi hj }

/-- Submission 2 of an event that is recorded. -/
def duplicateRun (body : EventRequest) : List Label :=
  .submit 2 body :: List.replicate 2 (.gateway 2 calm)

/-- A submission is applied but its response is lost, so it is answered 503; its resubmission is
recorded; and another one later is a duplicate. -/
theorem exactly_once_recorded : ∃ w w', ExactlyOnce w w' ∧ w.statusOf 0 = some 503 ∧
    w.statusOf 1 = some 201 ∧ w'.statusOf 2 = some 200 := by
  obtain ⟨w, hrun, hw⟩ := Option.map_eq_some_iff.mp
    (show ((resubmissionRun sampleEvent sampleEvent).foldlM (step defaultDeployment) initial).map
      (fun w => (w.statusOf 0, w.statusOf 1, ((duplicateRun sampleEvent).foldlM
        (step defaultDeployment) w).bind (·.statusOf 2))) = some (some 503, some 201, some 200) by
          decide +kernel)
  obtain ⟨h503, h201, hlater⟩ := by simpa only [Prod.mk.injEq] using hw
  obtain ⟨w', hrun', h200⟩ := Option.bind_eq_some_iff.mp hlater
  exact ⟨w, w', exactly_once ⟨_, hrun⟩ hrun', h503, h201, h200⟩

end World

end EventLedger
