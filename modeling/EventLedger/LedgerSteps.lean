import EventLedger.LedgerInvariant

/-!
# What one step can do

`Stepped` inverts the step function once: each way a step can be taken, with what
held before it and the world it leads to.  Most steps leave the ledger alone;
`Moved` lists the six that do not, each with the place in the program it is taken
from, and what the results on recording need to know about single steps is read
off it.

The invariants of the following modules split on `Moved` and not on the step
function, so an operation that is added to a handler and keeps the ledger costs them
nothing.
-/
namespace EventLedger

open Program LabelledRun KeyedTable

namespace World

/-- The ledger of a world. -/
def ledger (w : World) : Ledger := w.shared.ledger

variable {dep : Deployment} {w w' : World}

/-- The ways to take a step. -/
inductive Stepped (dep : Deployment) (w : World) : Label → World → Prop where
  | submit {i : ℕ} {body : EventRequest} (hfresh : w.shared.bodies i = none) :
      Stepped dep w (.submit i body)
        { w with shared :=
                   { w.shared with bodies := Function.update w.shared.bodies i (some body) }
                 threads := Function.update w.threads i
                   (some (submitEvent dep.loads dep.maxRetries body)) }
  | gateway {i : ℕ} {c : Choice} {o : GatewayOp} {k : o.Ret → GatewayProg Answer}
      {shared : Shared} {r : o.Ret} (hthread : w.threads i = some (.act o k))
      (hexec : gatewayExec dep i c w.shared o = some (shared, r)) :
      Stepped dep w (.gateway i c)
        { w with shared := shared, threads := Function.update w.threads i (some (k r)) }
  | deliver {a : ℕ} {sent : Attempt} (hsent : w.shared.attempts[a]? = some sent) :
      Stepped dep w (.deliver a)
        { w with handlers := Function.update w.handlers a
                   (some (serve sent.accountId sent.payload)) }
  | account {a : ℕ} {env : Surroundings} {o : AccountOp} {k : o.Ret → AccountProg AccountAnswer}
      {shared : Shared} {r : o.Ret} (hhandler : w.handlers a = some (.act o k))
      (hexec : accountExec env w.shared o = some (shared, r)) :
      Stepped dep w (.account a env)
        { w with shared := shared, handlers := Function.update w.handlers a (some (k r)) }
  | reply {a : ℕ} {env : Surroundings} {answer : AccountAnswer}
      (hhandler : w.handlers a = some (.done answer)) (hfresh : w.shared.replies a = none) :
      Stepped dep w (.account a env)
        { w with shared :=
            { w.shared with replies := Function.update w.shared.replies a (some answer) } }
  | crash {a : ℕ} {env : Surroundings} {o : AccountOp} {k : o.Ret → AccountProg AccountAnswer}
      (hhandler : w.handlers a = some (.act o k)) :
      Stepped dep w (.crash a env)
        { w with handlers := Function.update w.handlers a
                   (some (.done (.internalError env.traceId))) }
  | setFault (fault : Option Fault) :
      Stepped dep w (.setFault fault) { w with shared := { w.shared with fault := fault } }

/-- **Everything a step can do.** -/
theorem step_cases {l : Label} (hstep : step dep w l = some w') : Stepped dep w l w' := by
  cases l with
  | submit i body =>
    simp only [step] at hstep
    split at hstep
    · cases hstep
    · rename_i hfresh
      cases hstep
      exact .submit hfresh
  | gateway i c =>
    simp only [step] at hstep
    split at hstep
    · rename_i o k hthread
      obtain ⟨⟨shared, r⟩, hexec, rfl⟩ := Option.map_eq_some_iff.mp hstep
      exact .gateway hthread hexec
    · cases hstep
  | deliver a =>
    simp only [step] at hstep
    split at hstep
    · rename_i sent hnone hsent
      cases hstep
      exact .deliver hsent
    · cases hstep
  | account a env =>
    simp only [step] at hstep
    split at hstep
    · rename_i o k hhandler
      obtain ⟨⟨shared, r⟩, hexec, rfl⟩ := Option.map_eq_some_iff.mp hstep
      exact .account hhandler hexec
    · rename_i answer hhandler
      split at hstep
      · cases hstep
      · rename_i hfresh
        cases hstep
        exact .reply hhandler hfresh
    · cases hstep
  | crash a env =>
    simp only [step] at hstep
    split at hstep
    · rename_i o k hhandler
      cases hstep
      exact .crash hhandler
    · cases hstep
  | setFault fault =>
    cases hstep
    exact .setFault fault

/-! ## Steps that move the ledger -/

/-- What a step may do to the ledger, and from where. -/
inductive Moved (w : World) : Label → Ledger → Prop where
  | still (l : Label) : Moved w l w.ledger
  | submit {i : ℕ} {body : EventRequest} (hfresh : w.ledger.bodies i = none) :
      Moved w (.submit i body)
        { w.ledger with bodies := Function.update w.ledger.bodies i (some body) }
  | insertEvent {i : ℕ} {c : Choice} {event : StoredEvent} {k events}
      (hthread : w.threads i = some (.act (.insertEvent event) k))
      (hinsert : w.ledger.events.insert event = some events) :
      Moved w (.gateway i c)
        { w.ledger with events := events, creators := (event.eventId, i) :: w.ledger.creators }
  | send {i : ℕ} {c : Choice} {accountId : String} {payload : TxPayload} {k}
      (hthread : w.threads i = some (.act (.send accountId payload) k)) :
      Moved w (.gateway i c)
        { w.ledger with attempts := w.ledger.attempts ++ [⟨i, accountId, payload⟩] }
  | receive {i a : ℕ} {c : Choice} {k} {answer : AccountAnswer} {sent : Attempt}
      (hthread : w.threads i = some (.act (.receive a) k)) (hnetwork : c.network = .responds)
      (hreply : w.ledger.replies a = some answer) (hsent : w.ledger.attempts[a]? = some sent) :
      Moved w (.gateway i c) { w.ledger with received := a :: w.ledger.received }
  | insertTransaction {a : ℕ} {env : Surroundings} {tx : StoredTransaction} {k transactions}
      (hhandler : w.handlers a = some (.act (.insertTransaction tx) k))
      (hinsert : w.ledger.transactions.insert tx = some transactions) :
      Moved w (.account a env) { w.ledger with transactions := transactions }
  | reply {a : ℕ} {env : Surroundings} {answer : AccountAnswer}
      (hhandler : w.handlers a = some (.done answer)) (hfresh : w.ledger.replies a = none) :
      Moved w (.account a env)
        { w.ledger with replies := Function.update w.ledger.replies a (some answer) }

theorem gatewayExec_moved {i : ℕ} {c : Choice} {o : GatewayOp} {k : o.Ret → GatewayProg Answer}
    {s : Shared} {r : o.Ret} (hthread : w.threads i = some (.act o k))
    (hexec : gatewayExec dep i c w.shared o = some (s, r)) : Moved w (.gateway i c) s.ledger := by
  cases hw : o.writes with
  | false =>
    rw [gatewayExec_ledger hw hexec]
    exact .still _
  | true =>
    cases o with
    | insertEvent event =>
      rcases gatewayExec_insertEvent hexec with ⟨-, events, hinsert, hs⟩ | ⟨-, rfl, -⟩
      · rw [hs]
        exact .insertEvent hthread hinsert
      · exact .still _
    | send accountId payload =>
      rcases gatewayExec_send hexec with ⟨-, rfl⟩ | ⟨-, hs⟩
      · exact .still _
      · rw [hs]
        exact .send hthread
    | receive a =>
      rcases gatewayExec_receive hexec with
        ⟨rfl, -⟩ | ⟨hnetwork, answer, sent, hreply, hsent, -, hs⟩
      · exact .still _
      · rw [hs]
        exact .receive hthread hnetwork hreply hsent
    | _ => cases hw

theorem accountExec_moved {a : ℕ} {env : Surroundings} {o : AccountOp}
    {k : o.Ret → AccountProg AccountAnswer} {s : Shared} {r : o.Ret}
    (hhandler : w.handlers a = some (.act o k))
    (hexec : accountExec env w.shared o = some (s, r)) : Moved w (.account a env) s.ledger := by
  cases hw : o.writes with
  | false =>
    rw [accountExec_ledger hw hexec]
    exact .still _
  | true =>
    cases o with
    | insertTransaction tx =>
      rcases accountExec_insertTransaction hexec with ⟨-, transactions, hinsert, hs⟩ | ⟨-, rfl, -⟩
      · rw [hs]
        exact .insertTransaction hhandler hinsert
      · exact .still _
    | _ => cases hw

/-- **What one step does to the ledger.** -/
theorem step_moved {l : Label} (hstep : step dep w l = some w') : Moved w l w'.ledger := by
  cases step_cases hstep with
  | submit hfresh => exact .submit hfresh
  | gateway hthread hexec => exact gatewayExec_moved hthread hexec
  | deliver hsent => exact .still _
  | account hhandler hexec => exact accountExec_moved hhandler hexec
  | reply hhandler hfresh => exact .reply hhandler hfresh
  | crash hhandler => exact .still _
  | setFault fault => exact .still _

/-! ## Consequences -/

/-- A submission on record was there or is received now. -/
theorem step_bodies {l : Label} {i : ℕ} {body : EventRequest} (hstep : step dep w l = some w')
    (hbody : w'.ledger.bodies i = some body) :
    w.ledger.bodies i = some body ∨ l = .submit i body := by
  have hmoved := step_moved hstep
  generalize w'.ledger = ledger at hmoved hbody
  cases hmoved with
  | submit hfresh =>
    rcases eq_some_of_update hbody with ⟨rfl, rfl⟩ | hbody
    · exact Or.inr rfl
    · exact Or.inl hbody
  | _ => exact Or.inl hbody

/-- A submission on record was there when the run began, or was received in it. -/
theorem run_bodies {ls : List Label} {i : ℕ} {body : EventRequest}
    (hrun : Run (step dep) w ls w') (hbody : w'.ledger.bodies i = some body) :
    w.ledger.bodies i = some body ∨ Label.submit i body ∈ ls := by
  induction ls generalizing w with
  | nil => exact Or.inl (run_nil.mp hrun ▸ hbody)
  | cons l ls ih =>
    obtain ⟨u, hstep, hrest⟩ := run_cons.mp hrun
    rcases ih hrest with hu | hu
    · rcases step_bodies hstep hu with hw | rfl
      · exact Or.inl hw
      · exact Or.inr List.mem_cons_self
    · exact Or.inr (List.mem_cons_of_mem _ hu)

/-- What holds of every submission a run receives holds of those on record at its end. -/
theorem bodies_of_labels {ls : List Label} {P : ℕ → EventRequest → Prop}
    (hrun : Run (step dep) initial ls w) (h : ∀ i body, Label.submit i body ∈ ls → P i body)
    (i : ℕ) (body : EventRequest) (hbody : w.shared.bodies i = some body) : P i body := by
  rcases run_bodies hrun hbody with hold | hnew
  · cases hold
  · exact h i body hnew

/-- A stored transaction was there or is inserted now. -/
theorem step_transactions {l : Label} {tx : StoredTransaction} (hstep : step dep w l = some w')
    (htx : tx ∈ w'.ledger.transactions.rows) : tx ∈ w.ledger.transactions.rows ∨
      ∃ a env k, l = .account a env ∧ w.handlers a = some (.act (.insertTransaction tx) k) := by
  have hmoved := step_moved hstep
  generalize w'.ledger = ledger at hmoved htx
  cases hmoved with
  | insertTransaction hhandler hinsert =>
    rcases (Table.mem_insert hinsert).mp htx with htx | rfl
    · exact Or.inl htx
    · exact Or.inr ⟨_, _, _, rfl, hhandler⟩
  | _ => exact Or.inl htx

/-- After a handler's insert, its row or another is under the key. -/
theorem step_insertTransaction {a : ℕ} {env : Surroundings} {tx : StoredTransaction} {k}
    (hhandler : w.handlers a = some (.act (.insertTransaction tx) k))
    (hstep : step dep w (.account a env) = some w') :
    ∃ row, w'.ledger.transactions.get tx.eventId = some row := by
  cases step_cases hstep with
  | account hhandler' hexec =>
    rename_i shared r
    cases hhandler.symm.trans hhandler'
    rcases accountExec_insertTransaction hexec with
      ⟨-, transactions, hinsert, hledger⟩ | ⟨-, rfl, winner, hwinner⟩
    · refine ⟨tx, ?_⟩
      show shared.ledger.transactions.get tx.eventId = some tx
      rw [hledger]
      exact Table.get_insert_self hinsert
    · exact ⟨winner, hwinner⟩
  | reply hdone hfresh => cases hhandler.symm.trans hdone

/-- An answer that has been read had been, or is read now. -/
theorem step_received {l : Label} {a : ℕ} (hstep : step dep w l = some w')
    (ha : a ∈ w'.ledger.received) : a ∈ w.ledger.received ∨
      ∃ i c k answer sent, l = .gateway i c ∧ w.threads i = some (.act (.receive a) k) ∧
        c.network = .responds ∧ w.ledger.replies a = some answer ∧
        w.ledger.attempts[a]? = some sent := by
  have hmoved := step_moved hstep
  generalize w'.ledger = ledger at hmoved ha
  cases hmoved with
  | receive hthread hnetwork hreply hsent =>
    rcases List.mem_cons.mp ha with rfl | ha
    · exact Or.inr ⟨_, _, _, _, _, rfl, hthread, hnetwork, hreply, hsent⟩
    · exact Or.inl ha
  | _ => exact Or.inl ha

end World

end EventLedger
