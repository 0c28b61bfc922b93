import EventLedger.Convergence
import EventLedger.Reconciliation
import EventLedger.RestartSafety

/-!
# Rebuilding what a restart has lost

A Gateway that keeps its database in memory forgets its events when it is
restarted.  Submitting them again restores them, and the Account Service is none
the wiser: whatever was lost, replayed, retried or cut off on the way, what the two
services hold in the end is a function of the events alone (`restarts_rebuild`).
The transactions are right as soon as each event has been answered with a success
once, by whichever Gateway; the events, as soon as the present one has answered
each.
-/
namespace EventLedger

open Program LabelledRun KeyedTable

/-- An account's listing, read off the fields of the whole table. -/
theorem listing_fields_perm (db : AccountDB) (accountId : String) :
    ((db.listTransactions accountId).map (·.fields)).Perm
      ((db.transactions.rows.map (·.fields)).filter (·.accountId = accountId)) := by
  rw [List.filter_map]
  exact (listTransactions_perm db accountId).map _

namespace RestartingWorld

/-- Each event of `E` has been answered with a success, by this Gateway or one before. -/
def Delivered (w : RestartingWorld) (E : Set EventRequest) : Prop :=
  ∀ e ∈ E, ∃ i answer, w.world.shared.bodies i = some e ∧ w.answerOf i = some answer ∧
    200 ≤ answer.status ∧ answer.status < 300

/-- Two states hold the same, up to the clock columns. -/
structure Rebuilt (E : Set EventRequest) (w w' : RestartingWorld) : Prop where
  transactions : (w.world.shared.account.transactions.rows.map (·.fields)).Perm
    (w'.world.shared.account.transactions.rows.map (·.fields))
  /-- Every account lists the same transactions. -/
  account : ∀ accountId, ((w.world.shared.account.listTransactions accountId).map (·.fields)).Perm
    ((w'.world.shared.account.listTransactions accountId).map (·.fields))
  /-- Every account has the same exact balance. -/
  balance : ∀ accountId, w.world.shared.account.exactBalance accountId =
    w'.world.shared.account.exactBalance accountId
  /-- The Gateways hold the same events, once each event has been answered with a success since
  their databases were created. -/
  events : w.world.Delivered E → w'.world.Delivered E →
    (w.world.shared.gateway.events.rows.map (·.content)).Perm
      (w'.world.shared.gateway.events.rows.map (·.content))

variable {dep dep' : Deployment} {storages storages' : Storages} {w w' : RestartingWorld}
  {E : Set EventRequest}

/-- **The transactions table** holds what the delivered events are applied as. -/
theorem Ok.mem_transactions_iff (hE : ∀ e ∈ E, ∀ e' ∈ E, e.eventId = e'.eventId → e = e')
    (h : Ok dep w) (hwithin : w.world.Within E) (hdelivered : w.Delivered E) (f : LedgerFields) :
    f ∈ w.world.ledger.transactions.rows.map (·.fields) ↔ ∃ e ∈ E, e.AppliedAs f := by
  constructor
  · intro hf
    obtain ⟨tx, htx, rfl⟩ := List.mem_map.mp hf
    obtain ⟨e, he, -, happlied⟩ := h.world.applied hwithin htx
    exact ⟨e, he, happlied⟩
  · rintro ⟨e, he, happlied⟩
    obtain ⟨i, answer, hbody, hanswer, -, hsuccess⟩ := hdelivered e he
    -- the Gateway that gave the answer may be gone, the transaction is not
    obtain ⟨body, hbody', hkept⟩ := h.applied hanswer
    cases hbody.symm.trans hbody'
    obtain ⟨tx, htx⟩ := hkept (by omega)
    obtain ⟨e', he', hid, happlied'⟩ := h.world.applied hwithin (Table.mem_of_get htx)
    have hsame : e = e' := hE e he e' he' (hid.trans (Table.key_of_get htx)).symm
    rw [happlied.unique (hsame ▸ happlied')]
    exact List.mem_map_of_mem (Table.mem_of_get htx)

/-- **Rebuilding.**  Two states, of any two runs with any number of restarts, that have answered
each event of `E` with a success and received nothing else hold the same transactions; and the same
events, once each has been answered since the Gateways last lost theirs. -/
theorem restarts_rebuild (hE : ∀ e ∈ E, ∀ e' ∈ E, e.eventId = e'.eventId → e = e')
    {ls ls' : List RestartLabel} (hrun : Run (step dep storages) initial ls w)
    (hkeep : KeepsAccount storages ls) (hrun' : Run (step dep' storages') initial ls' w')
    (hkeep' : KeepsAccount storages' ls') (hwithin : w.world.Within E)
    (hwithin' : w'.world.Within E) (hdelivered : w.Delivered E) (hdelivered' : w'.Delivered E) :
    Rebuilt E w w' := by
  obtain ⟨hok, -⟩ := run_ok initial_ok hrun hkeep
  obtain ⟨hok', -⟩ := run_ok initial_ok hrun' hkeep'
  have htransactions : (w.world.ledger.transactions.rows.map (·.fields)).Perm
      (w'.world.ledger.transactions.rows.map (·.fields)) := by
    refine Table.perm_of_same_view StoredTransaction.fields LedgerFields.eventId (fun _ => rfl)
      fun f => ?_
    rw [hok.mem_transactions_iff hE hwithin hdelivered,
      hok'.mem_transactions_iff hE hwithin' hdelivered']
  have haccount := fun accountId =>
    ((listing_fields_perm w.world.shared.account accountId).trans (htransactions.filter _)).trans
      (listing_fields_perm w'.world.shared.account accountId).symm
  refine ⟨htransactions, haccount, fun accountId => ?_, fun hnow hnow' => ?_⟩
  · rw [← exactBalance_listing, ← exactBalance_listing, exactBalance_eq_netAmount,
      exactBalance_eq_netAmount, netAmount_perm (haccount accountId)]
  · refine Table.perm_of_same_view StoredEvent.content (fun c => c.1.eventId) (fun _ => rfl)
      fun c => ?_
    have hevents := hok.world.mem_events_iff hE hwithin hnow c
    have hevents' := hok'.world.mem_events_iff hE hwithin' hnow' c
    exact hevents.trans hevents'.symm

/-! ## A run that can be executed -/

/-- A submission on record was there or is received now. -/
theorem step_bodies {l : RestartLabel} {i : ℕ} {body : EventRequest}
    (hstep : step dep storages w l = some w') (hbody : w'.world.ledger.bodies i = some body) :
    w.world.ledger.bodies i = some body ∨ l = .step (.submit i body) := by
  cases l with
  | step l =>
    simp only [RestartingWorld.step] at hstep
    split at hstep
    · obtain ⟨world, hworld, rfl⟩ := Option.map_eq_some_iff.mp hstep
      rcases World.step_bodies hworld hbody with hold | rfl
      · exact .inl hold
      · exact .inr rfl
    · cases hstep
  | restartGateway =>
    cases hstep
    exact .inl hbody
  | restartAccount =>
    cases hstep
    exact .inl hbody

/-- A run that submits one event only has received nothing else. -/
theorem within_of_labels {ls : List RestartLabel} {e : EventRequest}
    (hrun : Run (step dep storages) initial ls w)
    (h : ∀ i body, RestartLabel.step (.submit i body) ∈ ls → body = e) : w.world.Within {e} := by
  have hcond : Along (step dep storages) (fun _ l _ => ∀ i body, l = .step (.submit i body) →
      body = e) initial ls := along_of_labels fun l hl _ _ i body hsubmit => h i body (hsubmit ▸ hl)
  refine (hcond.preserves (D := fun _ _ _ => True) (I := fun u => u.world.Within {e}) ?_ hrun
    fun i body hbody => ?_).1
  · intro u l v hu hstep hl
    refine ⟨fun i body hbody => ?_, trivial⟩
    rcases step_bodies hstep hbody with hold | hnew
    · exact hu i body hold
    · exact hl i body hnew
  · cases hbody

/-- An event that the Gateway has answered with a 201 has been delivered. -/
theorem Ok.delivered {e : EventRequest} (h : Ok dep w) (hwithin : w.world.Within {e}) {i : ℕ}
    (hstatus : w.world.statusOf i = some 201) : w.world.Delivered {e} := by
  obtain ⟨answer, hanswered, h201⟩ := World.statusOf_eq_some.mp hstatus
  obtain ⟨body, hbody, -⟩ := h.world.answer_true hanswered
  intro e' he'
  have hsame : body = e' := (hwithin i body hbody).trans he'.symm
  exact ⟨i, answer, hsame ▸ hbody, hanswered, by omega, by omega⟩

theorem delivered_of_world (h : w.world.Delivered E) : w.Delivered E := by
  intro e he
  obtain ⟨i, answer, hbody, hanswered, hsuccess⟩ := h e he
  exact ⟨i, answer, hbody, answerOf_of_answered hanswered, hsuccess⟩

/-- The sample event, recorded at once, and recorded again by a Gateway that had forgotten it. -/
theorem restarts_rebuild_replayed : ∃ w w', Rebuilt {sampleEvent} w w' ∧
    (w.world.shared.gateway.events.rows.map (·.content)).Perm
      (w'.world.shared.gateway.events.rows.map (·.content)) ∧
    w.statusOf 0 = some 201 ∧ w'.statusOf 1 = some 201 := by
  have hfirst : (((firstRun sampleEvent).foldlM (step defaultDeployment forgetful) initial).map
      fun w => (w.world.statusOf 0, w.statusOf 0)) = some (some 201, some 201) := by
    decide +kernel
  have hreplay : (((firstRun sampleEvent ++ replayRun sampleEvent).foldlM
      (step defaultDeployment forgetful) initial).map fun w =>
        (w.world.statusOf 1, w.statusOf 1)) = some (some 201, some 201) := by
    decide +kernel
  obtain ⟨w, hrun, hw⟩ := Option.map_eq_some_iff.mp hfirst
  obtain ⟨w', hrun', hw'⟩ := Option.map_eq_some_iff.mp hreplay
  obtain ⟨hnow, hstatus⟩ := Prod.mk.inj hw
  obtain ⟨hnow', hstatus'⟩ := Prod.mk.inj hw'
  have hwithin : w.world.Within {sampleEvent} := within_of_labels hrun fun i body h => by
    have hlabel : i = 0 ∧ body = sampleEvent := by simpa [firstRun, recordingRun] using h
    exact hlabel.2
  have hwithin' : w'.world.Within {sampleEvent} := within_of_labels hrun' fun i body h => by
    have hlabel : (i = 0 ∧ body = sampleEvent) ∨ (i = 1 ∧ body = sampleEvent) := by
      simpa [firstRun, recordingRun, replayRun, replay] using h
    exact hlabel.elim And.right And.right
  have hkeep : ∀ ls, KeepsAccount forgetful ls := fun _ _ => rfl
  have hdelivered := (run_ok initial_ok hrun (hkeep _)).1.delivered hwithin hnow
  have hdelivered' := (run_ok initial_ok hrun' (hkeep _)).1.delivered hwithin' hnow'
  have hsingle : ∀ e ∈ ({sampleEvent} : Set EventRequest),
      ∀ e' ∈ ({sampleEvent} : Set EventRequest), e.eventId = e'.eventId → e = e' :=
    fun e he e' he' _ => he.trans he'.symm
  have hrebuilt : Rebuilt {sampleEvent} w w' :=
    restarts_rebuild hsingle hrun (hkeep _) hrun' (hkeep _) hwithin hwithin'
      (delivered_of_world hdelivered) (delivered_of_world hdelivered')
  exact ⟨w, w', hrebuilt, hrebuilt.events hdelivered hdelivered', hstatus, hstatus'⟩

end RestartingWorld

end EventLedger
