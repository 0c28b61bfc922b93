import EventLedger.LedgerRuns

/-!
# Submissions answered 503

The Gateway tells a client it could not serve that the request was not recorded.
Whether that is so is decided in the Account Service: a submission leaves no row
behind precisely when none of its attempts gets as far as the handler's insert,
before the 503 or after it (`unrecorded_iff`).  An attempt whose response is
lost after the insert has been applied all the same (`lost_response_is_applied`).
-/
namespace EventLedger

open Program LabelledRun KeyedTable

namespace World

/-- Neither store has a row for the event. -/
def Unrecorded (w : World) (eventId : String) : Prop :=
  (∀ row ∈ w.shared.gateway.events.rows, row.eventId ≠ eventId) ∧
    ∀ tx ∈ w.shared.account.transactions.rows, tx.eventId ≠ eventId

/-- The step is the `insert_transaction` of a handler that serves an attempt of submission `i`. -/
def Inserts (i : ℕ) (u : World) (l : Label) (_ : World) : Prop :=
  ∃ a env tx k sent, l = .account a env ∧ u.handlers a = some (.act (.insertTransaction tx) k) ∧
    u.shared.attempts[a]? = some sent ∧ sent.submission = i

/-- No submission but `i` is for the event. -/
def Only (i : ℕ) (eventId : String) (w : World) : Prop :=
  ∀ j body, w.shared.bodies j = some body → body.eventId = eventId → j = i

variable {dep : Deployment} {w w' : World} {i : ℕ} {eventId : String}

/-- Only the transactions table matters: an event is never there without its transaction. -/
theorem Ok.unrecorded_iff_get (h : Ok dep w) :
    w.Unrecorded eventId ↔ w.ledger.transactions.get eventId = none := by
  constructor
  · rintro ⟨-, htransactions⟩
    rw [Table.get_eq_none_iff]
    intro hmem
    obtain ⟨tx, htx, hid⟩ := List.mem_map.mp hmem
    exact htransactions tx htx hid
  · intro hnone
    constructor
    · rintro row hrow rfl
      obtain ⟨tx, htx⟩ := h.consistent.transaction_of_event row hrow
      cases hnone.symm.trans htx
    · rintro tx htx rfl
      cases hnone.symm.trans (Table.get_of_mem htx)

/-- The row a handler is about to insert is its attempt's. -/
theorem Ok.stores_of_handler (h : Ok dep w) {a : ℕ} {tx : StoredTransaction} {k}
    (hhandler : w.handlers a = some (.act (.insertTransaction tx) k)) :
    ∃ sent body, w.ledger.attempts[a]? = some sent ∧ sent.Stores tx ∧
      w.ledger.bodies sent.submission = some body ∧ body.eventId = tx.eventId := by
  obtain ⟨sent, hsent, honly, -⟩ := h.handler_safe a _ hhandler
  have hstores : sent.Stores tx := honly.1 tx rfl
  obtain ⟨body, hbody, hforwards⟩ :=
    h.consistent.attempt_origin sent (List.mem_of_getElem? hsent)
  exact ⟨sent, body, hsent, hstores, hbody, hforwards.eventId.symm.trans hstores.eventId.symm⟩

/-- A step that is no insert for submission `i` stores no transaction of its event. -/
theorem Ok.unrecorded_step {l : Label} (h : Ok dep w) (hstep : World.step dep w l = some w')
    (hother : ¬ Inserts i w l w') (honly : Only i eventId w)
    (hnone : w.ledger.transactions.get eventId = none) :
    w'.ledger.transactions.get eventId = none := by
  rw [Table.get_eq_none_iff]
  intro hmem
  obtain ⟨tx, htx, rfl⟩ := List.mem_map.mp hmem
  rcases step_transactions hstep htx with hold | ⟨a, env, k, rfl, hhandler⟩
  · cases hnone.symm.trans (Table.get_of_mem hold)
  · obtain ⟨sent, body, hsent, -, hbody, hid⟩ := h.stores_of_handler hhandler
    exact hother ⟨a, env, tx, k, sent, rfl, hhandler, hsent, honly _ body hbody hid⟩

/-- A state from which a run leads to one where only `i` is for the event is such a state. -/
theorem Ok.only_before {ls : List Label} (h : Ok dep w) (hrun : Run (World.step dep) w ls w')
    (honly : Only i eventId w') : Only i eventId w :=
  fun j body hbody => honly j body ((run_ok h hrun).2.bodies j body hbody)

/-- What an insert for submission `i` leaves behind. -/
theorem Ok.recorded_of_inserts {l : Label} {body : EventRequest} (h : Ok dep w)
    (hstep : World.step dep w l = some w') (hinserts : Inserts i w l w')
    (hbody : w.ledger.bodies i = some body) :
    ∃ row, w'.ledger.transactions.get body.eventId = some row := by
  obtain ⟨a, env, tx, k, sent, rfl, hhandler, hsent, rfl⟩ := hinserts
  obtain ⟨sent', body', hsent', -, hbody', hid⟩ := h.stores_of_handler hhandler
  cases hsent.symm.trans hsent'
  cases hbody.symm.trans hbody'
  rw [hid]
  exact step_insertTransaction hhandler hstep

/-- **No trace.**  A submission that is answered 503, and is the only one for its event, leaves no
row in any later state precisely when no attempt of it has come to the handler's insert by then. -/
theorem unrecorded_iff {ls ls' : List Label} {body : EventRequest} {answer : Answer}
    (hrun : Run (step dep) initial ls w) (hbody : w.shared.bodies i = some body)
    (_hanswered : w.Answered i answer) (_h503 : answer.status = 503)
    (hlater : Run (step dep) w ls' w') (honly : Only i body.eventId w') :
    w'.Unrecorded body.eventId ↔
      Along (step dep) (fun u l v => ¬ Inserts i u l v) initial (ls ++ ls') := by
  have hwhole := hrun.append hlater
  have hok' := (run_ok initial_ok hwhole).1
  have keep : ∀ u l v, Ok dep u → step dep u l = some v → Ok dep v :=
    fun u l v hu hstep => (hu.step hstep).1
  rw [hok'.unrecorded_iff_get]
  constructor
  · intro hnone
    refine Run.along keep (fun u l v rest hu hstep hrest hinserts => ?_) hwhole initial_ok
    have hsent : u.ledger.bodies i = some body := by
      obtain ⟨a, env, tx, k, sent, -, hhandler, hsent, rfl⟩ := hinserts
      obtain ⟨sent', body', hsent', -, hbody', -⟩ := hu.stores_of_handler hhandler
      cases hsent.symm.trans hsent'
      -- a submission number stands for one body throughout
      have hend := (run_ok hu (run_cons.mpr ⟨v, hstep, hrest⟩)).2.bodies _ _ hbody'
      cases ((run_ok (run_ok initial_ok hrun).1 hlater).2.bodies _ _ hbody).symm.trans hend
      exact hbody'
    obtain ⟨row, hrow⟩ := hu.recorded_of_inserts hstep hinserts hsent
    have hkept := (run_ok (keep u l v hu hstep) hrest).2.transactions _ _ hrow
    cases hnone.symm.trans hkept
  · intro hother
    have hbefore : Along (step dep) (fun u _ _ => Only i body.eventId u) initial (ls ++ ls') :=
      Run.along keep (fun u l v rest hu hstep hrest =>
        hu.only_before (run_cons.mpr ⟨v, hstep, hrest⟩) honly) hwhole initial_ok
    obtain ⟨⟨-, hnone⟩, -⟩ := (hother.and hbefore).preserves
      (I := fun u => Ok dep u ∧ u.ledger.transactions.get body.eventId = none)
      (D := fun _ _ _ => True)
      (fun u l v hu hstep hC =>
        ⟨⟨keep u l v hu.1 hstep, hu.1.unrecorded_step hstep hC.1 hC.2 hu.2⟩, trivial⟩)
      hwhole ⟨initial_ok, rfl⟩
    exact hnone

/-- Three attempts that are never delivered. -/
theorem unrecorded_iff_undelivered :
    ∃ w : World, w.Unrecorded "evt-001" ∧ w.shared.attempts.length = 3 := by
  have hsome : (((Label.submit 0 sampleEvent :: List.replicate 19 (.gateway 0 lossy)).foldlM
      (step defaultDeployment) initial).map fun w => (w.statusOf 0, w.shared.attempts.length)) =
      some (some 503, 3) := by decide +kernel
  obtain ⟨w, hrun, hw⟩ := Option.map_eq_some_iff.mp hsome
  obtain ⟨hstatus, hlength⟩ := Prod.mk.inj hw
  have hbodies := bodies_of_labels (P := fun j body => j = 0 ∧ body = sampleEvent) hrun
    fun j body h => by simpa using h
  obtain ⟨answer, hanswered, h503⟩ := statusOf_eq_some.mp hstatus
  obtain ⟨body, hbody, -⟩ := (Reachable.ok ⟨_, hrun⟩).answer_true hanswered
  cases (hbodies 0 body hbody).2
  refine ⟨w, (unrecorded_iff hrun hbody hanswered h503 (run_nil.mpr rfl)
    fun j other hother _ => (hbodies j other hother).1).mpr (along_of_labels ?_), hlength⟩
  rintro l hl u v ⟨a, env, tx, k, sent, rfl, -⟩
  simp at hl

/-- **A lost response.**  The transaction of a submission answered 503 is in the ledger. -/
theorem lost_response_is_applied : ¬ ∀ (dep : Deployment) (w w' : World) (ls : List Label) (i : ℕ)
    (body : EventRequest) (answer : Answer), Reachable dep w → w.shared.bodies i = some body →
    w.Answered i answer → answer.status = 503 → Run (step dep) w ls w' →
    Only i body.eventId w' → w'.Unrecorded body.eventId := by
  intro h
  have hsome : (((unavailableRun sampleEvent).foldlM (step defaultDeployment) initial).map
      fun w => (w.statusOf 0, w.shared.account.transactions.rows.map (·.eventId))) =
      some (some 503, ["evt-001"]) := by decide +kernel
  obtain ⟨w, hrun, hw⟩ := Option.map_eq_some_iff.mp hsome
  obtain ⟨hstatus, hids⟩ := Prod.mk.inj hw
  have hbodies := bodies_of_labels (P := fun j body => j = 0 ∧ body = sampleEvent) hrun
    fun j body h => by simpa [unavailableRun] using h
  obtain ⟨answer, hanswered, h503⟩ := statusOf_eq_some.mp hstatus
  obtain ⟨body, hbody, -⟩ := (Reachable.ok ⟨_, hrun⟩).answer_true hanswered
  cases (hbodies 0 body hbody).2
  obtain ⟨-, hnone⟩ := h defaultDeployment w w [] 0 sampleEvent answer ⟨_, hrun⟩ hbody hanswered
    h503 (run_nil.mpr rfl) fun j other hother _ => (hbodies j other hother).1
  have hmem : "evt-001" ∈ w.shared.account.transactions.rows.map (·.eventId) := by
    rw [hids]
    exact List.mem_singleton_self _
  obtain ⟨tx, htx, hid⟩ := List.mem_map.mp hmem
  exact hnone tx htx hid

end World

end EventLedger
