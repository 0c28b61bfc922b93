import EventLedger.HandlerTrails
import EventLedger.Reconciliation
import EventLedger.ServiceViews
import EventLedger.TracedSystem
import Mathlib.Data.List.Perm.Basic

/-!
# Reconciling the two audit trails

Each service reconciles its own audit trail with its own table.  Between the two
services the trails differ by what the tables differ by: when nothing is in
progress, the Account Service has an APPLIED entry for every ACCEPTED entry of the
Gateway, about the same account, event, type, amount and currency, and one for
every transaction in doubt (`audits_reconcile`).  Of the submissions of an event in
doubt the Gateway's trail says that they failed, but for those that were answered
with an internal error.
-/
namespace EventLedger

open Program Prog Service LabelledRun KeyedTable

/-! ## Keys -/

/-- What an entry of the trail says about a record. -/
def LedgerFields.auditKey (f : LedgerFields) : AuditKey :=
  recordKey f.accountId f.eventId f.type f.amount f.currency

theorem map_fields_transactions (txs : List StoredTransaction) :
    (txs.map (·.fields)).map LedgerFields.auditKey = txs.map StoredTransaction.auditKey := by
  rw [List.map_map]
  rfl

theorem map_fields_events (events : List StoredEvent) :
    (events.map (·.fields)).map LedgerFields.auditKey = events.map StoredEvent.auditKey := by
  rw [List.map_map]
  rfl

/-- A log that reconciles with a table is about the rows of the table, each once. -/
theorem Reconciles.perm {ρ : Type} {outcome : String} {auditKey : ρ → AuditKey} {rows : List ρ}
    {log : List AuditRow} {quiet : Prop} (h : Reconciles outcome auditKey rows log quiet)
    (hquiet : quiet) (hnodup : (rows.map auditKey).Nodup) :
    (keysOf outcome log).Perm (rows.map auditKey) := by
  refine List.perm_iff_count.mpr fun key => ?_
  by_cases hkey : key ∈ rows.map auditKey
  · obtain ⟨row, hrow, rfl⟩ := List.mem_map.mp hkey
    rw [List.count_eq_one_of_mem hnodup hkey, ← h.of_row hquiet row hrow, keysOf, List.count,
      List.countP_map, List.countP_filter]
    exact List.countP_congr fun entry _ => by simp [and_comm]
  · rw [List.count_eq_zero_of_not_mem hkey, List.count_eq_zero]
    intro hmem
    obtain ⟨entry, hentry, rfl⟩ := List.mem_map.mp hmem
    obtain ⟨hlog, houtcome⟩ := List.mem_filter.mp hentry
    obtain ⟨row, hrow, heq⟩ := h.of_entry entry hlog (of_decide_eq_true houtcome)
    exact hkey (heq ▸ List.mem_map_of_mem hrow)

/-! ## The trail of each service -/

theorem rendered_done_all (answer : Answer) :
    (rendered (.done answer)).All fun o => o = .core .traceId := by
  show (ApiProg.render answer.status (answer.body fun _ => true)).All _
  cases answer.body fun _ => true with
  | some value => trivial
  | none => exact ⟨rfl, fun _ => trivial⟩

namespace World

variable {dep : Deployment} {w w' : World} {l : Label} {ls : List Label}

/-- No request is in progress in either service. -/
structure Settled (w : World) : Prop where
  threads : ∀ i p, w.threads i = some p → ∃ answer, p = .done answer
  handlers : ∀ a p, w.handlers a = some p → ∃ answer, p = .done answer

/-- The Gateway's trail and its events, in a composed system. -/
theorem GatewayServes.reconciles (h : GatewayServes dep w) :
    Reconciles "ACCEPTED" StoredEvent.auditKey w.shared.gateway.events.rows
      w.shared.gateway.auditLog w.Settled := by
  obtain ⟨names, ls, s, hrun, hhosts⟩ := h
  have hown := gateway_reconciles hrun
  rw [hhosts.store] at hown
  refine ⟨hown.of_entry, fun hsettled => ?_, hown.increasing⟩
  -- answers may still be rendered, and the trace id read for it
  have hrendering : ∀ th ∈ s.threads, th.rest.All fun o => o = .core .traceId := by
    intro th hth
    obtain ⟨i, rest, hshown, hrest⟩ := hhosts.exists_name hth
    obtain ⟨body, p, -, hp, -, rfl⟩ := submissions_eq_some.mp hshown
    obtain ⟨answer, rfl⟩ := hsettled.threads i p hp
    rcases hrest with hrest | ⟨hgiven, -⟩
    · rw [hrest]
      exact rendered_done_all answer
    · exact absurd hgiven (Set.notMem_empty i)
  have hexec : ∀ (db : GatewayDB) (o : ApiOp), o = .core .traceId →
      ∃ env r, (gatewayService dep.settings).exec env db o = some (db, r) := by
    rintro db _ rfl
    exact ⟨calm.reading .traceId none, _, rfl⟩
  obtain ⟨ls', t, hrun', hstore, hquiet⟩ := exists_quiet hexec hrendering
  have hend := gateway_reconciles (hrun.append hrun')
  rw [hstore, hhosts.store] at hend
  exact hend.of_row hquiet

/-- The Account Service's trail and its transactions, in a composed system in which no handler
dies. -/
theorem AccountServes.reconciles {died : Set ℕ} (h : AccountServes died w) :
    Reconciles "APPLIED" StoredTransaction.auditKey w.shared.account.transactions.rows
      w.shared.account.auditLog (w.Settled ∧ died = ∅) := by
  obtain ⟨names, ls, s, hrun, hhosts⟩ := h
  have hown := account_reconciles hrun
  rw [hhosts.store] at hown
  refine ⟨hown.of_entry, ?_, hown.increasing⟩
  rintro ⟨hsettled, rfl⟩
  refine hown.of_row fun th hth => ?_
  obtain ⟨a, rest, hshown, hrest⟩ := hhosts.exists_name hth
  obtain ⟨sent, p, -, hp, -, rfl⟩ := deliveries_eq_some.mp hshown
  obtain ⟨answer, rfl⟩ := hsettled.handlers a p hp
  rcases hrest with hrest | ⟨hgiven, -⟩
  · exact ⟨.posted answer, hrest⟩
  · exact absurd hgiven (Set.notMem_empty a)

/-! ## What submissions leave -/

/-- An audit entry of a submission is in the log. -/
def EntryIn (log : List AuditRow) : Event GatewayOp GatewayOp.Ret → Prop
  | ⟨.audit outcome accountId eventId _, _⟩ => ∃ row ∈ log, row.outcome = outcome ∧
      row.accountId = some accountId ∧ row.eventId = some eventId
  | _ => True

theorem EntryIn.mono {log log' : List AuditRow} {e : Event GatewayOp GatewayOp.Ret}
    (h : EntryIn log e) (hlog : log <+: log') : EntryIn log' e := by
  obtain ⟨o, r⟩ := e
  cases o with
  | audit outcome accountId eventId detail =>
    obtain ⟨row, hrow, hfields⟩ := h
    exact ⟨row, hlog.subset hrow, hfields⟩
  | _ => trivial

theorem entryIn_of_exec {i : ℕ} {c : Choice} {s s' : Shared} {o : GatewayOp} {r : o.Ret}
    (h : gatewayExec dep i c s o = some (s', r)) : EntryIn s'.gateway.auditLog ⟨o, r⟩ := by
  cases o with
  | audit outcome accountId eventId detail =>
    cases h
    exact ⟨_, List.mem_append_right _ List.mem_cons_self, rfl, rfl, rfl⟩
  | _ => trivial

/-- The entries of every submission are in the log. -/
def Entered (dep : Deployment) (w : World) : Prop :=
  ∀ i p, w.threads i = some p → ∃ body, w.shared.bodies i = some body ∧
    (submitEvent dep.loads dep.maxRetries body).Reached (EntryIn w.shared.gateway.auditLog) p

theorem step_log (hstep : step dep w l = some w') :
    w.shared.gateway.auditLog <+: w'.shared.gateway.auditLog := by
  cases step_cases hstep with
  | gateway hthread hexec => exact (gatewayExec_extends hexec).gatewayLog
  | account hhandler hexec => exact (accountExec_extends hexec).gatewayLog
  | _ => exact List.prefix_rfl

theorem Entered.step (h : Entered dep w) (hok : Ok dep w)
    (hstep : World.step dep w l = some w') : Entered dep w' := by
  have hbodies := (hok.step hstep).2.bodies
  have hlog := step_log hstep
  intro i p hp
  rcases step_threads hstep hp with hold | ⟨body, -, hbody, rfl⟩ | ⟨c, o, k, r, -, hold, hexec, rfl⟩
  · obtain ⟨body, hbody, hreached⟩ := h i p hold
    exact ⟨body, hbodies i body hbody, hreached.mono fun e he => he.mono hlog⟩
  · exact ⟨body, hbody, .refl _⟩
  · obtain ⟨body, hbody, hreached⟩ := h i _ hold
    exact ⟨body, hbodies i body hbody,
      (hreached.mono fun e he => he.mono hlog).act (entryIn_of_exec hexec)⟩

theorem run_entered (h : Run (World.step dep) initial ls w) : Entered dep w := by
  have hboth : Ok dep w ∧ Entered dep w := by
    refine Run.preserves (I := fun w => Ok dep w ∧ Entered dep w) ?_ h
      ⟨initial_ok, fun i p hp => by cases hp⟩
    rintro u l v ⟨hok, hu⟩ hstep
    exact ⟨(hok.step hstep).1, hu.step hok hstep⟩
  exact hboth.2

/-- The Gateway's trail has an entry with this outcome about a submission. -/
def HasEntry (w : World) (outcome : String) (body : EventRequest) : Prop :=
  ∃ row ∈ w.shared.gateway.auditLog, row.outcome = outcome ∧
    row.accountId = some body.accountId ∧ row.eventId = some body.eventId

/-- A submission that fails leaves an entry that names the failure, or the answer is an internal
error. -/
theorem Entered.of_failed (h : Entered dep w) {i : ℕ} {body : EventRequest} {answer : Answer}
    (hbody : w.shared.bodies i = some body) (hanswered : w.Answered i answer)
    (hfailed : 400 ≤ answer.status) :
    answer.status = 503 ∧ w.HasEntry "DOWNSTREAM_UNAVAILABLE" body ∨
      w.HasEntry "DOWNSTREAM_REJECTED" body ∨ ∃ traceId, answer = .internalError traceId := by
  obtain ⟨body', hbody', hreached⟩ := h i _ hanswered
  cases hbody.symm.trans hbody'
  obtain ⟨es, hleaves, hentries⟩ := (submitEvent_leaves _ _ body).of_reached hreached
  have hentry : ∀ outcome, AuditsAs body outcome es → w.HasEntry outcome body := by
    rintro outcome ⟨detail, hmem⟩
    exact hentries _ hmem
  cases answer with
  | recorded status response =>
    have hsuccess : status = 201 ∨ status = 200 := hleaves.imp (·.1) (·.1)
    have hstatus : 400 ≤ status := hfailed
    omega
  | unavailable => exact .inl ⟨rfl, hentry _ hleaves⟩
  | rejected status detail => exact .inr (.inl (hentry _ hleaves))
  | internalError traceId => exact .inr (.inr ⟨traceId, rfl⟩)

/-! ## What is between the trails -/

/-- The transactions that the Gateway has no event for. -/
def doubtful (w : World) : List StoredTransaction :=
  w.shared.account.transactions.rows.filter fun tx =>
    (w.shared.gateway.getEvent tx.eventId).isNone

theorem mem_inDoubt_of_doubtful {tx : StoredTransaction} (h : tx ∈ w.doubtful) :
    tx ∈ w.inDoubt tx.accountId := by
  obtain ⟨hrow, hnone⟩ := List.mem_filter.mp h
  exact List.mem_filter.mpr ⟨List.mem_filter.mpr ⟨hrow, decide_eq_true rfl⟩, hnone⟩

/-- The entries about transactions are those about events, and those about what is in doubt. -/
theorem Ok.auditKeys_perm (h : Ok dep w) (hplain : w.PlainAccounts) (hone : w.OneContent) :
    (w.shared.account.transactions.rows.map StoredTransaction.auditKey).Perm
      (w.shared.gateway.events.rows.map StoredEvent.auditKey ++
        w.doubtful.map StoredTransaction.auditKey) := by
  have hcopy := (Table.perm_copy w.shared.account.transactions w.shared.gateway.events
    StoredTransaction.fields StoredEvent.fields LedgerFields.eventId (fun _ => rfl) (fun _ => rfl)
    (h.fields_of_event hplain hone)).map LedgerFields.auditKey
  rwa [List.map_append, map_fields_transactions, map_fields_events, map_fields_transactions]
    at hcopy

/-- **Reconciliation of the audit trails.**  In every state of every run in which no event id is
submitted with two contents, an APPLIED entry has its transaction, and an ACCEPTED entry one that is
not in doubt.  When nothing is in progress and no handler has died, the APPLIED entries are about
the same accounts, events, types, amounts and currencies as the ACCEPTED entries, and about each
transaction in doubt; and the submissions of what is in doubt have entries that say how they failed,
or were answered with an internal error. -/
theorem audits_reconcile (dep : Deployment) (ls : List Label) (w : World)
    (h : Run (step dep) initial ls w) (hplain : w.PlainAccounts) (hone : w.OneContent) :
    (∀ entry ∈ w.shared.account.auditLog, entry.outcome = "APPLIED" →
        ∃ tx ∈ w.shared.account.transactions.rows, entry.key = tx.auditKey) ∧
      (∀ entry ∈ w.shared.gateway.auditLog, entry.outcome = "ACCEPTED" →
        ∃ tx ∈ w.shared.account.transactions.rows, tx ∉ w.doubtful ∧ entry.key = tx.auditKey) ∧
      (w.Settled → (∀ a env, .crash a env ∉ ls) →
        (keysOf "APPLIED" w.shared.account.auditLog).Perm
          (keysOf "ACCEPTED" w.shared.gateway.auditLog ++
            w.doubtful.map StoredTransaction.auditKey)) ∧
      ∀ tx ∈ w.doubtful, ∀ i body answer, w.shared.bodies i = some body →
        body.eventId = tx.eventId → w.Answered i answer →
          answer.status = 503 ∧ w.HasEntry "DOWNSTREAM_UNAVAILABLE" body ∨
            w.HasEntry "DOWNSTREAM_REJECTED" body ∨
              ∃ traceId, answer = .internalError traceId := by
  have hok := (run_ok initial_ok h).1
  have hdied : ∀ a env, Label.crash a env ∈ ls → a ∈ { a | ∃ env, Label.crash a env ∈ ls } :=
    fun a env ha => ⟨env, ha⟩
  obtain ⟨hgateway, haccount⟩ := run_views h hdied
  have haccepted := hgateway.reconciles
  have happlied := haccount.reconciles
  refine ⟨happlied.of_entry, fun entry hentry houtcome => ?_, fun hsettled hcrash => ?_,
    fun tx htx i body answer hbody hid hanswered => ?_⟩
  · obtain ⟨row, hrow, hkey⟩ := haccepted.of_entry entry hentry houtcome
    obtain ⟨tx, htx, hfields⟩ := hok.fields_of_event hplain hone row hrow
    refine ⟨tx, htx, fun hdoubt => ?_, ?_⟩
    · have hnone := (List.mem_filter.mp hdoubt).2
      have hsome : w.shared.gateway.getEvent tx.eventId = some row := by
        rw [show tx.eventId = row.eventId from congrArg LedgerFields.eventId hfields]
        exact Table.get_of_mem hrow
      rw [hsome] at hnone
      cases hnone
    · rw [hkey]
      exact (congrArg LedgerFields.auditKey hfields).symm
  · have hnone : { a | ∃ env, Label.crash a env ∈ ls } = ∅ :=
      Set.eq_empty_iff_forall_notMem.mpr fun a ⟨env, ha⟩ => hcrash a env ha
    have hevents := haccepted.perm hsettled (Table.nodup_view StoredEvent.auditKey
      (fun key : AuditKey => key.2.1.getD "") (fun _ => rfl) w.shared.gateway.events)
    have htransactions := happlied.perm ⟨hsettled, hnone⟩ (Table.nodup_view
      StoredTransaction.auditKey (fun key : AuditKey => key.2.1.getD "") (fun _ => rfl)
      w.shared.account.transactions)
    exact htransactions.trans
      ((hok.auditKeys_perm hplain hone).trans (hevents.symm.append_right _))
  · have hfailed := (hok.inDoubt_unanswered (mem_inDoubt_of_doubtful htx)).2 i body answer hbody hid
      hanswered
    exact (run_entered h).of_failed hbody hanswered hfailed

/-! ## A run -/

/-- Another event for the same account. -/
def secondEvent : EventRequest :=
  { firstVersion with eventId := "evt-002", eventId_stripped := ⟨"evt-002", by decide⟩ }

/-- One event is recorded; a second one is applied, but no answer comes back. -/
def doubtfulRun : List Label :=
  recordingRun 0 0 firstVersion ++ .submit 1 secondEvent :: List.replicate 5 (.gateway 1 lossy) ++
    .deliver 1 :: List.replicate 5 (.account 1 calm.surroundings) ++
      List.replicate 14 (.gateway 1 lossy)

/-- The handler of an attempt is not in progress. -/
def handlerDone (w : World) (a : ℕ) : Bool :=
  match w.handlers a with
  | some (.act _ _) => false
  | _ => true

theorem settled_of_status {n : ℕ} (h : Ok dep w)
    (hbodies : ∀ i body, w.shared.bodies i = some body → (w.statusOf i).isSome)
    (hlength : w.shared.attempts.length ≤ n) (hdone : (List.range n).all w.handlerDone) :
    w.Settled where
  threads i p hp := by
    obtain ⟨body, hbody, -⟩ := h.thread_safe i p hp
    obtain ⟨status, hstatus⟩ := Option.isSome_iff_exists.mp (hbodies i body hbody)
    obtain ⟨answer, hanswered, -⟩ := statusOf_eq_some.mp hstatus
    exact ⟨answer, Option.some.inj (hp.symm.trans hanswered)⟩
  handlers a p hp := by
    obtain ⟨sent, hsent, -⟩ := h.handler_safe a p hp
    have hlt : a < n :=
      lt_of_lt_of_le (List.getElem?_eq_some_iff.mp hsent).1 hlength
    have hthis := List.all_eq_true.mp hdone a (List.mem_range.mpr hlt)
    rw [handlerDone, hp] at hthis
    cases p with
    | done answer => exact ⟨answer, rfl⟩
    | act o k => cases hthis

theorem audits_reconcile_doubtful : ∃ w : World,
    w.shared.gateway.events.rows.length = 1 ∧ w.doubtful.length = 1 ∧
      (keysOf "APPLIED" w.shared.account.auditLog).Perm
        (keysOf "ACCEPTED" w.shared.gateway.auditLog ++
          w.doubtful.map StoredTransaction.auditKey) := by
  have hsome : ((doubtfulRun.foldlM (step defaultDeployment) initial).map fun w =>
      decide (w.statusOf 0 = some 201 ∧ w.statusOf 1 = some 503 ∧
        w.shared.attempts.length ≤ 4 ∧ (List.range 4).all w.handlerDone ∧
        w.shared.gateway.events.rows.length = 1 ∧ w.doubtful.length = 1)) = some true := by
    decide +kernel
  obtain ⟨w, hrun, hfacts⟩ := Option.map_eq_some_iff.mp hsome
  obtain ⟨hfirst, hsecond, hlength, hdone, hevents, hdoubtful⟩ := of_decide_eq_true hfacts
  have hbodies := bodies_of_labels
    (P := fun i body => i = 0 ∧ body = firstVersion ∨ i = 1 ∧ body = secondEvent) hrun
    fun i body h => by simpa [doubtfulRun, recordingRun] using h
  have hplain : w.PlainAccounts := by
    intro i body hbody
    rcases hbodies i body hbody with ⟨-, rfl⟩ | ⟨-, rfl⟩
    · decide
    · decide
  have hone : w.OneContent := by
    intro i j body body' hbody hbody' hid
    rcases hbodies i body hbody with ⟨-, rfl⟩ | ⟨-, rfl⟩ <;>
      rcases hbodies j body' hbody' with ⟨-, rfl⟩ | ⟨-, rfl⟩ <;> exact ⟨rfl, rfl, rfl, rfl, rfl⟩
  have hsettled : w.Settled := by
    refine settled_of_status (run_ok initial_ok hrun).1 (fun i body hbody => ?_) hlength hdone
    rcases hbodies i body hbody with ⟨rfl, -⟩ | ⟨rfl, -⟩
    · rw [hfirst]
      rfl
    · rw [hsecond]
      rfl
  have hnoCrash : ∀ a env, Label.crash a env ∉ doubtfulRun := by
    intro a env hmem
    simp [doubtfulRun, recordingRun] at hmem
  exact ⟨w, hevents, hdoubtful,
    (audits_reconcile defaultDeployment doubtfulRun w hrun hplain hone).2.2.1 hsettled hnoCrash⟩

end World

end EventLedger
