import EventLedger.AuditTrail
import EventLedger.HostedServices
import EventLedger.LedgerRuns

/-!
# The composed system, as each service sees it

The composed system runs the handlers of both services.  Seen from the Gateway it
is a run of the Gateway alone, in which submissions arrive and each operation
reads from its surroundings what the breaker, the network and the Account Service
have it read; seen from the Account Service it is a run of the Account Service
alone, in which the attempts that are delivered arrive (`run_views`).  So what is
proved of every run of one service is true of the composed system.
-/
namespace EventLedger

open Program Prog Service LabelledRun

/-! ## Handlers -/

/-- The Gateway's handler of a submission, from where its thread is; which answers can be written
makes no difference to the databases. -/
def rendered (p : GatewayProg Answer) : ApiProg HttpResponse := do
  let answer ← ApiProg.inCore p
  ApiProg.render answer.status (answer.body fun _ => true)

/-- The Account Service's handler of an attempt, from where its thread is. -/
def posted (p : AccountProg AccountAnswer) : AccountApiProg AccountReply := do
  return .posted (← AccountApiProg.inCore p)

/-! ## Operations -/

/-- Surroundings of the Gateway in which an operation reads what it has read. -/
def Choice.reading (c : Choice) (o : GatewayOp) (r : o.Ret) : GatewayEnv :=
  let env : GatewayEnv :=
    ⟨c.surroundings, true, .closed, none, none, .transportError, true, .null, ""⟩
  match o, r with
  | .allowRequest, ok => { env with allowed := ok }
  | .circuitState, state => { env with circuit := state }
  | .fault, fault => { env with fault := fault }
  | .send _ _, attempt => { env with attempt := attempt }
  | .receive _, outcome => { env with outcome := outcome }
  | _, _ => env

section
variable {dep : Deployment} {i : ℕ} {s s' : Shared}

/-- What an operation does to the Gateway's database it does in these surroundings too. -/
theorem gatewayExec_view {c : Choice} {o : GatewayOp} {r : o.Ret}
    (h : gatewayExec dep i c s o = some (s', r)) :
    apiExec (c.reading o r) s.gateway (.core o) = some (s'.gateway, r) ∧
      s'.account = s.account ∧ s'.bodies = s.bodies := by
  cases o with
  | insertEvent event =>
    simp only [gatewayExec] at h
    split at h
    · rename_i db hdb
      cases h
      simp only [apiExec, gatewayDbExec, hdb]
      exact ⟨trivial, trivial, trivial⟩
    · rename_i hdb
      cases h
      simp only [apiExec, gatewayDbExec, hdb]
      exact ⟨trivial, trivial, trivial⟩
  | send accountId payload =>
    simp only [gatewayExec] at h
    split at h
    · cases h
      exact ⟨rfl, rfl, rfl⟩
    · cases h
      exact ⟨rfl, rfl, rfl⟩
  | receive attempt =>
    simp only [gatewayExec] at h
    split at h
    · cases h
      exact ⟨rfl, rfl, rfl⟩
    · cases h
      exact ⟨rfl, rfl, rfl⟩
    · split at h
      · cases h
        exact ⟨rfl, rfl, rfl⟩
      · cases h
  | _ =>
    cases h
    exact ⟨rfl, rfl, rfl⟩

theorem accountExec_view {env : Surroundings} {o : AccountOp} {r : o.Ret}
    (h : accountExec env s o = some (s', r)) :
    accountApiExec ⟨env, true, .null, ""⟩ s.account (.core o) = some (s'.account, r) ∧
      s'.gateway = s.gateway ∧ s'.bodies = s.bodies ∧ s'.attempts = s.attempts := by
  cases o with
  | insertTransaction tx =>
    simp only [accountExec] at h
    split at h
    · rename_i db hdb
      cases h
      simp only [accountApiExec, accountDbExec, hdb]
      exact ⟨trivial, trivial, trivial, trivial⟩
    · rename_i hdb
      cases h
      simp only [accountApiExec, accountDbExec, hdb]
      exact ⟨trivial, trivial, trivial, trivial⟩
  | _ =>
    cases h
    exact ⟨rfl, rfl, rfl, rfl⟩

end

/-! ## Views -/

/-- The settings of the Gateway in a deployment. -/
def Deployment.settings (dep : Deployment) : GatewaySettings :=
  ⟨dep.maxRetries, dep.loads, "", fun _ => true⟩

namespace World

/-- The submissions, as requests to the Gateway. -/
def submissions (w : World) (i : ℕ) : Option (ApiRequest × ApiProg HttpResponse) :=
  match w.shared.bodies i, w.threads i with
  | some body, some p => some (.submit body, rendered p)
  | _, _ => none

/-- The attempts that were delivered, as requests to the Account Service. -/
def deliveries (w : World) (a : ℕ) : Option (AccountRequest × AccountApiProg AccountReply) :=
  match w.shared.attempts[a]?, w.handlers a with
  | some sent, some p => some (.post sent.accountId sent.payload, posted p)
  | _, _ => none

variable {dep : Deployment} {w w' : World} {l : Label} {i a : ℕ}

theorem submissions_some {body : EventRequest} {p : GatewayProg Answer}
    (hbody : w.shared.bodies i = some body) (hthread : w.threads i = some p) :
    w.submissions i = some (.submit body, rendered p) := by
  rw [submissions, hbody, hthread]

theorem deliveries_some {sent : Attempt} {p : AccountProg AccountAnswer}
    (hsent : w.shared.attempts[a]? = some sent) (hhandler : w.handlers a = some p) :
    w.deliveries a = some (.post sent.accountId sent.payload, posted p) := by
  rw [deliveries, hsent, hhandler]

theorem submissions_eq_some {req : ApiRequest} {rest : ApiProg HttpResponse} :
    w.submissions i = some (req, rest) ↔ ∃ body p, w.shared.bodies i = some body ∧
      w.threads i = some p ∧ req = .submit body ∧ rest = rendered p := by
  constructor
  · intro h
    unfold submissions at h
    split at h
    · rename_i body p hbody hthread
      cases h
      exact ⟨body, p, hbody, hthread, rfl, rfl⟩
    · cases h
  · rintro ⟨body, p, hbody, hthread, rfl, rfl⟩
    exact submissions_some hbody hthread

theorem deliveries_eq_some {req : AccountRequest} {rest : AccountApiProg AccountReply} :
    w.deliveries a = some (req, rest) ↔ ∃ sent p, w.shared.attempts[a]? = some sent ∧
      w.handlers a = some p ∧ req = .post sent.accountId sent.payload ∧ rest = posted p := by
  constructor
  · intro h
    unfold deliveries at h
    split at h
    · rename_i sent p hsent hhandler
      cases h
      exact ⟨sent, p, hsent, hhandler, rfl, rfl⟩
    · cases h
  · rintro ⟨sent, p, hsent, hhandler, rfl, rfl⟩
    exact deliveries_some hsent hhandler

/-- What is known of one submission decides how it is shown. -/
theorem submissions_congr (hbody : w'.shared.bodies i = w.shared.bodies i)
    (hthread : w'.threads i = w.threads i) : w'.submissions i = w.submissions i := by
  rw [submissions, submissions, hbody, hthread]

/-- The Gateway of a composed system has come to this in a run of its own. -/
def GatewayServes (dep : Deployment) (w : World) : Prop :=
  (gatewayService dep.settings).Serves GatewayDB.new w.submissions ∅ w.shared.gateway

/-- So has the Account Service; handlers that die it never continues. -/
def AccountServes (died : Set ℕ) (w : World) : Prop :=
  accountService.Serves AccountDB.new w.deliveries died w.shared.account

theorem gateway_step (h : Ok dep w) (hstep : step dep w l = some w')
    (hserves : GatewayServes dep w) : GatewayServes dep w' := by
  cases step_cases hstep with
  | submit hfresh =>
    rename_i i body
    have hnone : w.submissions i = none := by rw [submissions, hfresh]
    refine hserves.arrive hnone
      (submissions_some (Function.update_self _ _ _) (Function.update_self _ _ _)) fun k hk => ?_
    exact submissions_congr (Function.update_of_ne hk _ _) (Function.update_of_ne hk _ _)
  | gateway hthread hexec =>
    rename_i i c o k shared r
    obtain ⟨body, hbody, -⟩ := h.thread_safe i _ hthread
    obtain ⟨happly, -, hbodies⟩ := gatewayExec_view hexec
    refine hserves.act (submissions_some hbody hthread) happly ?_ fun k hk => ?_
    · exact submissions_some (hbodies ▸ hbody) (Function.update_self _ _ _)
    · exact submissions_congr (by rw [hbodies]) (Function.update_of_ne hk _ _)
  | account hhandler hexec =>
    rename_i a env o k shared r
    obtain ⟨-, hgateway, hbodies, -⟩ := accountExec_view hexec
    have hsame : { w with shared := shared,
                          handlers := Function.update w.handlers a (some (k r)) }.submissions =
        w.submissions := by
      funext k
      exact submissions_congr (by rw [hbodies]) rfl
    rw [GatewayServes, hsame]
    show (gatewayService dep.settings).Serves _ _ _ shared.gateway
    rw [hgateway]
    exact hserves
  | _ => exact hserves

theorem deliver_fresh (hstep : step dep w (.deliver a) = some w') : w.handlers a = none := by
  simp only [step] at hstep
  split at hstep
  · assumption
  · cases hstep

/-- An attempt that is delivered stays as it is. -/
theorem deliveries_congr (h : Ok dep w) (hstep : step dep w l = some w')
    (hhandler : w'.handlers a = w.handlers a) : w'.deliveries a = w.deliveries a := by
  rw [deliveries, deliveries, hhandler]
  cases hp : w.handlers a with
  | none => cases w.shared.attempts[a]? <;> cases w'.shared.attempts[a]? <;> rfl
  | some p =>
    obtain ⟨sent, hsent, -⟩ := h.handler_safe a p hp
    have hsent' : w'.shared.attempts[a]? = some sent := (h.step hstep).2.attempt hsent
    rw [show w.shared.attempts[a]? = some sent from hsent, hsent']

theorem account_step {died : Set ℕ} (h : Ok dep w) (hstep : step dep w l = some w')
    (hdied : ∀ a env, l = .crash a env → a ∈ died) (hserves : AccountServes died w) :
    AccountServes died w' := by
  cases step_cases hstep with
  | submit hfresh => exact hserves
  | gateway hthread hexec =>
    rename_i i c o k shared r
    have hsame : { w with shared := shared,
                          threads := Function.update w.threads i (some (k r)) }.deliveries =
        w.deliveries := by
      funext a
      exact deliveries_congr h hstep rfl
    rw [AccountServes, hsame]
    show accountService.Serves _ _ _ shared.account
    rw [(gatewayExec_view hexec).2.1]
    exact hserves
  | deliver hsent =>
    rename_i a sent
    have hnone : w.deliveries a = none := by
      rw [deliveries, deliver_fresh hstep]
      cases w.shared.attempts[a]? <;> rfl
    refine hserves.arrive hnone (deliveries_some hsent (Function.update_self _ _ _)) fun k hk => ?_
    exact deliveries_congr h hstep (Function.update_of_ne hk _ _)
  | account hhandler hexec =>
    rename_i a env o k shared r
    obtain ⟨sent, hsent, -⟩ := h.handler_safe a _ hhandler
    obtain ⟨happly, -, -, hattempts⟩ := accountExec_view hexec
    refine hserves.act (deliveries_some hsent hhandler) happly ?_ fun k hk => ?_
    · exact deliveries_some (hattempts ▸ hsent) (Function.update_self _ _ _)
    · exact deliveries_congr h hstep (Function.update_of_ne hk _ _)
  | reply hhandler hfresh => exact hserves
  | crash hhandler =>
    rename_i a env o k
    obtain ⟨sent, hsent, -⟩ := h.handler_safe a _ hhandler
    refine hserves.give (deliveries_some hsent hhandler) (hdied a env rfl)
      (deliveries_some (p := .done (.internalError env.traceId)) hsent ?_) fun k hk => ?_
    · exact Function.update_self _ _ _
    · exact deliveries_congr h hstep (Function.update_of_ne hk _ _)
  | setFault fault => exact hserves

/-- **Two runs in one.**  What the composed system shows of each service has come about in a run of
that service alone; the handlers it does not finish are those that have died. -/
theorem run_views {ls : List Label} {died : Set ℕ} (h : Run (step dep) initial ls w)
    (hdied : ∀ a env, .crash a env ∈ ls → a ∈ died) :
    GatewayServes dep w ∧ AccountServes died w := by
  have hlabels : Along (step dep) (fun _ l _ => l ∈ ls) initial ls :=
    along_of_labels fun l hl _ _ => hl
  have keep : ∀ u l v, (Ok dep u ∧ GatewayServes dep u ∧ AccountServes died u) →
      step dep u l = some v → l ∈ ls →
      (Ok dep v ∧ GatewayServes dep v ∧ AccountServes died v) ∧ True := by
    rintro u l v ⟨hok, hgateway, haccount⟩ hstep hl
    refine ⟨⟨(hok.step hstep).1, gateway_step hok hstep hgateway, ?_⟩, trivial⟩
    refine account_step hok hstep (fun a env ha => hdied a env ?_) haccount
    rwa [← ha]
  exact (hlabels.preserves keep h
    ⟨initial_ok, .initial fun _ => rfl, .initial fun _ => rfl⟩).1.2

end World

end EventLedger
