import EventLedger.BreakerLiveness
import EventLedger.BreakerTrips
import EventLedger.ResilientGateway

/-!
# What the Gateway sends during an outage

The breaker is there so that a Gateway does not hammer a failing Account Service,
and the retries are bounded so that one request does not either.  Together: from a
trip on, until a success is reported, the requests that leave the client are those
the calls in flight may still send, and those of a few trials for every cooldown
(`outage_traffic`).  And when the outage is over the breaker lets a request through
again, unless a call has ended in an exception (`breaker_recovers`).
-/
namespace EventLedger

open Program Prog Service LabelledRun

variable {breaker : BreakerConfig} {cfg : GatewaySettings} {env : ResilientEnv}
  {store store' : ResilientStore} {o : ApiOp} {r : o.Ret} {s t : ResilientState}
  {a : ResilientLabel} {ls : List ResilientLabel} {n : ℕ}

/-! ## Requests in flight -/

/-- The requests the call may still send. -/
def mayStillSend (n : ℕ) (th : Thread ApiRequest ApiOp ApiOp.Ret HttpResponse) : ℕ :=
  (callStage n th.events).elim 0 CallStage.left

instance (es : List (Event ApiOp ApiOp.Ret)) : Decidable (InFlight n es) :=
  match h : callStage n es with
  | some (.calling left) => .isTrue ⟨left, h⟩
  | some .idle => .isFalse fun ⟨_, h'⟩ => by rw [h] at h'; cases h'
  | some .ended => .isFalse fun ⟨_, h'⟩ => by rw [h] at h'; cases h'
  | none => .isFalse fun ⟨_, h'⟩ => by rw [h] at h'; cases h'

/-- The calls in flight. -/
def callsInFlight (n : ℕ) (s : ResilientState) : ℕ :=
  s.threads.countP fun th => InFlight n th.events

/-- All that the calls in flight may still send. -/
def outstanding (n : ℕ) (s : ResilientState) : ℕ := (s.threads.map (mayStillSend n)).sum

/-- What an operation adds to the history, as the breaker and the network see it. -/
theorem drive_counts {db db' : GatewayDB}
    (h : apiExec (env.read breaker store) db o = some (db', r)) :
    (store.drive breaker env o).admitted =
        store.admitted + (if wireEvent ⟨o, r⟩ = some (.allowed true) then 1 else 0) ∧
      (store.drive breaker env o).sent =
        store.sent + if wireEvent ⟨o, r⟩ = some .sent then 1 else 0 := by
  cases o with
  | core op =>
    cases op with
    | allowRequest =>
      have hok : r = (store.circuit.allowRequest breaker env.clock).1 := apiExec_allow h
      simp only [ResilientStore.drive, ← hok]
      change Bool at r
      cases r with
      | true => exact ⟨rfl, rfl⟩
      | false => exact ⟨rfl, rfl⟩
    | send accountId payload =>
      have hr : r = env.attempt := by
        cases h
        rfl
      simp only [ResilientStore.drive, ← hr]
      change Option ℕ at r
      cases r with
      | none => exact ⟨rfl, rfl⟩
      | some attempt => exact ⟨rfl, rfl⟩
    | _ => exact ⟨rfl, rfl⟩
  | _ => exact ⟨rfl, rfl⟩

/-- **The balance of an event**: what is sent and what may still be sent grow by what a permission
allows. -/
theorem left_snoc {es : List (Event ApiOp ApiOp.Ret)} {e : Event ApiOp ApiOp.Ret}
    (hone : OneCall n (es ++ [e])) :
    (if wireEvent e = some .sent then 1 else 0) + (callStage n (es ++ [e])).elim 0 CallStage.left ≤
      (callStage n es).elim 0 CallStage.left +
        n * if wireEvent e = some (.allowed true) then 1 else 0 := by
  obtain ⟨stage', hstage'⟩ := hone
  have hsnoc := callStage_snoc (n := n) es e
  rw [hstage'] at hsnoc
  obtain ⟨stage, hstage, hnext⟩ := Option.bind_eq_some_iff.mp hsnoc.symm
  rw [hstage, hstage']
  cases hwire : wireEvent e with
  | none =>
    rw [hwire] at hnext
    cases hnext
    simp
  | some w =>
    rw [hwire] at hnext
    rcases CallStage.next_cases hnext with ⟨rfl, rfl, rfl⟩ | ⟨rfl, rfl, rfl⟩ |
      ⟨left, rfl, rfl, rfl⟩ | ⟨left, ok, rfl, rfl, rfl⟩
    · simp [CallStage.left]
    · simp [CallStage.left]
    · simp [CallStage.left]
      omega
    · simp [CallStage.left]

/-- What becomes of a sum when one summand is replaced. -/
theorem sum_set_add {γ : Type} {f : γ → ℕ} {l : List γ} {i : ℕ} {x y : γ} (hi : l[i]? = some x) :
    ((l.set i y).map f).sum + f x = (l.map f).sum + f y := by
  induction l generalizing i with
  | nil => cases hi
  | cons z l ih =>
    cases i with
    | zero =>
      cases hi
      simp only [List.set_cons_zero, List.map_cons, List.sum_cons]
      omega
    | succ i =>
      have hrest := ih hi
      simp only [List.set_cons_succ, List.map_cons, List.sum_cons]
      omega

/-- What is sent and what may still be sent, balanced against what has been admitted. -/
structure SendsWithin (n : ℕ) (s t : ResilientState) : Prop where
  admitted : s.store.admitted ≤ t.store.admitted
  balance : t.store.sent + outstanding n t + n * s.store.admitted ≤
    s.store.sent + outstanding n s + n * t.store.admitted

theorem sendsWithin_step (h : (resilientGateway breaker cfg).Stepped s a t)
    (hone : ∀ th ∈ t.threads, OneCall n th.events) : SendsWithin n s t := by
  cases h with
  | arrive req =>
    refine ⟨le_rfl, ?_⟩
    simp [outstanding, mayStillSend, callStage, CallStage.left]
  | act i env req es o k store r hthread hexec =>
    obtain ⟨-, db, hdb, rfl⟩ := resilientExec_cases hexec
    obtain ⟨hadmitted, hsent⟩ := drive_counts hdb
    have hlt : i < s.threads.length := (List.getElem?_eq_some_iff.mp hthread).1
    have hone : OneCall n (es ++ [⟨o, r⟩]) := hone ⟨req, es ++ [⟨o, r⟩], k r⟩
      (List.mem_of_getElem? (List.getElem?_set_self hlt))
    have hsum := sum_set_add (f := mayStillSend n) (y := ⟨req, es ++ [⟨o, r⟩], k r⟩) hthread
    have hleft := left_snoc hone
    simp only [mayStillSend] at hsum
    constructor
    · show s.store.admitted ≤ (s.store.drive breaker env o).admitted
      omega
    · show (s.store.drive breaker env o).sent + outstanding n _ + _ ≤
        _ + _ + n * (s.store.drive breaker env o).admitted
      rw [hadmitted, hsent, Nat.mul_add]
      unfold outstanding
      dsimp only
      omega

theorem sendsWithin_run {ls' : List ResilientLabel}
    (hreach : Run (resilientGateway breaker cfg).step (.initial store) ls s)
    (h : Run (resilientGateway breaker cfg).step s ls' t) :
    SendsWithin (cfg.maxRetries + 1) s t := by
  induction ls' generalizing s ls with
  | nil => exact run_nil.mp h ▸ ⟨le_rfl, le_rfl⟩
  | cons a ls' ih =>
    obtain ⟨u, hstep, hrest⟩ := run_cons.mp h
    have hreach' := hreach.snoc hstep
    obtain ⟨hadmitted, hbalance⟩ := sendsWithin_step (step_cases hstep) (run_oneCall hreach')
    obtain ⟨hadmitted', hbalance'⟩ := ih hreach' hrest
    exact ⟨hadmitted.trans hadmitted', by omega⟩

/-- No stage leaves more requests than the first. -/
theorem callStage_left_le {es : List (Event ApiOp ApiOp.Ret)} {stage : CallStage}
    (h : callStage n es = some stage) : stage.left ≤ n := by
  have hrun : Run (CallStage.next n) .idle (es.filterMap wireEvent) stage := h
  refine hrun.preserves (I := fun stage => stage.left ≤ n) ?_ (Nat.zero_le n)
  intro stage w stage' hleft hnext
  rcases CallStage.next_cases hnext with ⟨-, -, rfl⟩ | ⟨-, -, rfl⟩ | ⟨left, -, rfl, rfl⟩ |
    ⟨left, ok, -, -, rfl⟩
  · exact le_rfl
  · exact Nat.zero_le n
  · exact Nat.le_of_succ_le hleft
  · exact Nat.zero_le n

/-- A call in flight may send a bounded number of requests, the others none. -/
theorem mayStillSend_le (n : ℕ) (th : Thread ApiRequest ApiOp ApiOp.Ret HttpResponse) :
    mayStillSend n th ≤ if InFlight n th.events then n else 0 := by
  unfold mayStillSend
  by_cases hflight : InFlight n th.events
  · rw [if_pos hflight]
    obtain ⟨left, hleft⟩ := hflight
    rw [hleft]
    exact callStage_left_le hleft
  · rw [if_neg hflight]
    cases hstage : callStage n th.events with
    | none => exact le_rfl
    | some stage =>
      cases stage with
      | calling left => exact absurd ⟨left, hstage⟩ hflight
      | idle => exact le_rfl
      | ended => exact le_rfl

theorem outstanding_le (n : ℕ) (s : ResilientState) : outstanding n s ≤ n * callsInFlight n s := by
  have hle : ∀ ths : List (Thread ApiRequest ApiOp ApiOp.Ret HttpResponse),
      (ths.map (mayStillSend n)).sum ≤ n * ths.countP fun th => InFlight n th.events := by
    intro ths
    induction ths with
    | nil => exact Nat.zero_le _
    | cons th ths ih =>
      have hth := mayStillSend_le n th
      rw [List.map_cons, List.sum_cons, List.countP_cons, Nat.mul_add]
      by_cases hflight : InFlight n th.events
      · rw [if_pos hflight] at hth
        simp only [hflight, decide_true, if_true]
        omega
      · rw [if_neg hflight] at hth
        simp only [hflight, decide_false]
        omega
  exact hle s.threads

/-! ## The outage -/

/-- Where the breaker has been driven since a state. -/
theorem drivenFrom_here {b : BreakerCalls} (hd : Drives n s b) :
    DrivenFrom breaker n b s.store.succeeded [] s :=
  ⟨[], b, run_nil.mpr rfl, hd, Nat.zero_add _, rfl⟩

/-- Without a success, the calls the breaker admits since a trip are those of one episode for every
cooldown. -/
theorem admitted_since_trip {config : BreakerConfig} (hmax : 1 ≤ config.halfOpenMaxCalls)
    (hrec : 0 < config.recoveryTimeout) {b b' : BreakerCalls} {calls : List BreakerLabel} {T : ℚ}
    (hopen : b.breaker.state = .opened) (hat : b.breaker.openedAt = b.clock)
    (h : Run (BreakerCalls.step config) b calls b') (hT : b'.clock ≤ b.clock + T)
    (hno : calls.countP BreakerLabel.succeeds = 0) :
    b'.admitted.length - b.admitted.length ≤
      config.halfOpenMaxCalls * ⌊T / config.recoveryTimeout⌋₊ := by
  have hsince := BreakerCalls.sinceTrip_run hmax h ?_ (BreakerCalls.sinceTrip_refl hopen hat)
  · have hepisodes : b'.episode - b.episode ≤ ⌊T / config.recoveryTimeout⌋₊ := by
      apply Nat.le_floor
      rw [le_div_iff₀ hrec]
      have := hsince.spaced
      linarith
    have hadmitted := hsince.admitted
    calc b'.admitted.length - b.admitted.length
        ≤ config.halfOpenMaxCalls * (b'.episode - b.episode) := by omega
      _ ≤ config.halfOpenMaxCalls * ⌊T / config.recoveryTimeout⌋₊ :=
        Nat.mul_le_mul_left _ hepisodes
  · intro l hl c hsuccess
    refine List.countP_eq_zero.mp hno l hl ?_
    rw [BreakerLabel.succeeds, hsuccess]

/-- **An outage.**  Let the breaker trip in a state `s` of any run, and let no success be reported
for a time `T` from there.  Then the calls admitted in that time are at most those of one HALF_OPEN
episode for every cooldown, and the requests that leave the client are at most `max_retries + 1` for
each of these calls and for each call that was in flight at the trip. -/
theorem outage_traffic (breaker : BreakerConfig) (cfg : GatewaySettings)
    (hmax : 1 ≤ breaker.halfOpenMaxCalls) (hrec : 0 < breaker.recoveryTimeout) (start : ℚ)
    (ls ls' : List ResilientLabel) (s t : ResilientState)
    (hreach : Run (resilientGateway breaker cfg).step (.initial (.new start)) ls s)
    (hopen : s.store.circuit.state = .opened) (hat : s.store.circuit.openedAt = s.store.clock)
    (T : ℚ) (h : Run (resilientGateway breaker cfg).step s ls' t)
    (hT : t.store.clock ≤ s.store.clock + T) (hno : t.store.succeeded = s.store.succeeded) :
    t.store.admitted - s.store.admitted ≤
        breaker.halfOpenMaxCalls * ⌊T / breaker.recoveryTimeout⌋₊ ∧
      t.store.sent - s.store.sent ≤
        (cfg.maxRetries + 1) * (callsInFlight (cfg.maxRetries + 1) s +
          breaker.halfOpenMaxCalls * ⌊T / breaker.recoveryTimeout⌋₊) := by
  obtain ⟨-, b, -, hs, -⟩ := drivenFrom_run (run_nil.mpr rfl) hreach (drivenFrom_start start)
  obtain ⟨calls, b', hrun, ht, hcount, -⟩ :=
    drivenFrom_run hreach h (drivenFrom_here hs)
  have hadmitted := admitted_since_trip hmax hrec (by rw [hs.breaker, hopen])
    (by rw [hs.breaker, hs.clock, hat]) hrun (by rw [ht.clock, hs.clock]; exact hT) (by omega)
  rw [ht.admitted, hs.admitted] at hadmitted
  refine ⟨hadmitted, ?_⟩
  obtain ⟨hmono, hbalance⟩ := sendsWithin_run hreach h
  have hflight := outstanding_le (cfg.maxRetries + 1) s
  have hcalls := Nat.mul_le_mul_left (cfg.maxRetries + 1) hadmitted
  rw [Nat.mul_sub] at hcalls
  rw [Nat.mul_add]
  omega

/-- The second submission fails as well, and so does a third one after the cooldown. -/
def outageRun : List ResilientLabel :=
  .arrive (.submit sampleEvent) :: (failingAt 1 15 0 ++ failingAt 2 17 1)

/-- One call in flight at the trip and one trial: six requests are all that can leave the client,
and all of them do. -/
theorem outage_traffic_one_trial : ∃ s t : ResilientState,
    t.store.sent = s.store.sent + 6 ∧ callsInFlight 3 s = 1 ∧
      t.store.sent - s.store.sent ≤ 3 * (callsInFlight 3 s + 1 * ⌊(1 : ℚ) / 1⌋₊) := by
  obtain ⟨s, hreach, hrest⟩ := Option.bind_eq_some_iff.mp
    (show ((trippingRun.foldlM (resilientGateway ⟨1, 1, 1, 1⟩ calmSettings).step
      (.initial (.new 0))).bind fun s : ResilientState =>
        (outageRun.foldlM (resilientGateway ⟨1, 1, 1, 1⟩ calmSettings).step s).map
          fun t : ResilientState => decide (s.store.circuit.state = .opened ∧
            s.store.circuit.openedAt = s.store.clock ∧ t.store.clock ≤ s.store.clock + 1 ∧
            t.store.succeeded = s.store.succeeded ∧ t.store.sent = s.store.sent + 6 ∧
            callsInFlight 3 s = 1)) = some true by decide +kernel)
  obtain ⟨t, hrun, hend⟩ := Option.map_eq_some_iff.mp hrest
  obtain ⟨hopen, hat, hclock, hno, hsent, hflight⟩ := of_decide_eq_true hend
  exact ⟨s, t, hsent, hflight, (outage_traffic ⟨1, 1, 1, 1⟩ calmSettings (by decide)
    (by decide +kernel) 0 _ _ s t hreach hopen hat 1 hrun hclock hno).2⟩

/-! ## Recovery -/

/-- The breaker lets a request through at some later reading of the clock. -/
def Admits (breaker : BreakerConfig) (store : ResilientStore) : Prop :=
  ∃ clock, store.clock ≤ clock ∧ (store.circuit.allowRequest breaker clock).1 = true

/-- The request is answered, and not with an internal error. -/
def AnsweredWithoutError (th : Thread ApiRequest ApiOp ApiOp.Ret HttpResponse) : Prop :=
  ∃ reply, th.Answered reply ∧ reply.status ≠ 500

instance (th : Thread ApiRequest ApiOp ApiOp.Ret HttpResponse) :
    Decidable (AnsweredWithoutError th) :=
  match hrest : th.rest with
  | .done reply =>
    if hstatus : reply.status = 500 then
      .isFalse fun ⟨_, hreply, hne⟩ => hne (Prog.done.inj (hrest.symm.trans hreply) ▸ hstatus)
    else .isTrue ⟨reply, hrest, hstatus⟩
  | .act _ _ => .isFalse fun ⟨_, hreply, _⟩ => by cases hrest.symm.trans hreply

/-- **Recovery.**  If every HALF_OPEN episode has the slots that closing the breaker needs, then
whenever all requests are answered, and none of them with an internal error, the breaker will let a
request through again. -/
theorem breaker_recovers (breaker : BreakerConfig) (cfg : GatewaySettings)
    (hmax : 1 ≤ breaker.halfOpenMaxCalls) (hsucc : 1 ≤ breaker.successThreshold)
    (hslots : breaker.successThreshold ≤ breaker.halfOpenMaxCalls) (start : ℚ)
    (ls : List ResilientLabel) (t : ResilientState)
    (h : Run (resilientGateway breaker cfg).step (.initial (.new start)) ls t)
    (hanswered : ∀ th ∈ t.threads, AnsweredWithoutError th) :
    Admits breaker t.store := by
  obtain ⟨calls, b, hrun, hd, -⟩ := drivenFrom_run (run_nil.mpr rfl) h (drivenFrom_start start)
  have hlanded : ∀ i, ¬ FlightAt (cfg.maxRetries + 1) t i := by
    rintro i ⟨th, hth, left, hleft⟩
    have hmem := List.mem_of_getElem? hth
    obtain ⟨reply, hreply, hstatus⟩ := hanswered th hmem
    obtain ⟨stage, hstage, hflight⟩ :=
      (run_keeps (handleApi_oneCall cfg) h th hmem).2 reply hreply
    rw [hleft] at hstage
    cases hstage
    exact hstatus (hflight ⟨left, rfl⟩)
  have hpending : b.pending = [] := by
    obtain ⟨pairs, hperm, -, hmem⟩ := hd.pending
    have hnone : pairs = [] := by
      refine List.eq_nil_iff_forall_not_mem.mpr fun pair hpair => ?_
      exact hlanded pair.1 ((hmem pair.1).mp (List.mem_map_of_mem hpair))
    rw [hnone] at hperm
    exact hperm.eq_nil
  obtain ⟨clock, hclock, hyes⟩ := BreakerCalls.recovers_of_accounted hmax hslots
    (BreakerCalls.accounted_run hmax hsucc hrun) hpending
  exact ⟨clock, hd.clock ▸ hclock, hd.breaker ▸ hyes⟩

/-- A submission fails and trips the breaker. -/
def refusedRun : List ResilientLabel := .arrive (.submit sampleEvent) :: failingAt 0 19 0

theorem breaker_recovers_refused : ∃ t : ResilientState,
    t.store.circuit.state = .opened ∧ Admits ⟨1, 1, 1, 1⟩ t.store := by
  obtain ⟨t, hrun, hend⟩ := Option.map_eq_some_iff.mp
    (show (refusedRun.foldlM (resilientGateway ⟨1, 1, 1, 1⟩ calmSettings).step
      (.initial (.new 0))).map (fun t : ResilientState => decide (t.store.circuit.state = .opened ∧
        ∀ th ∈ t.threads, AnsweredWithoutError th)) = some true by decide +kernel)
  obtain ⟨hopen, hanswered⟩ := of_decide_eq_true hend
  exact ⟨t, hopen, breaker_recovers ⟨1, 1, 1, 1⟩ calmSettings (by decide) (by decide) (by decide) 0
    refusedRun t hrun hanswered⟩

end EventLedger
