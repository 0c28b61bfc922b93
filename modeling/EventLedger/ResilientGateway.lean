import EventLedger.BreakerCalls
import EventLedger.CallTraffic
import EventLedger.SubmissionAudit

/-!
# The Gateway with its breaker and its fault switch

In `gatewayService` the breaker's permission, its state and the injected fault are
choices of the surroundings.  Here they are what the client keeps: one breaker that
all handlers ask and report to at readings of a monotonic clock, and one fault
switch that `set_fault` moves.

Every run is one of `gatewayService` (`resilient_refines`), so what is known of all
of those holds here.  And in every run the handlers drive the breaker as
`BreakerCalls` describes it, each of them making one call at most
(`resilient_drives`).
-/
namespace EventLedger

open Program Prog Service LabelledRun

/-! ## The service -/

/-- What the Gateway keeps.  The last three fields are history: the code never reads them. -/
structure ResilientStore where
  db : GatewayDB
  circuit : CircuitBreaker
  /-- The latest reading of the clock. -/
  clock : ℚ
  fault : Option Fault
  /-- The calls the breaker has admitted. -/
  admitted : ℕ
  /-- The successes that have been reported to it. -/
  succeeded : ℕ
  /-- The requests that have left the client. -/
  sent : ℕ

/-- A Gateway that has just been started. -/
def ResilientStore.new (clock : ℚ) : ResilientStore := ⟨.new, {}, clock, none, 0, 0, 0⟩

/-- What an operation still reads from outside. -/
structure ResilientEnv where
  surroundings : Surroundings
  /-- `time.monotonic()`. -/
  clock : ℚ
  attempt : Option ℕ
  outcome : Outcome
  reachable : Bool
  metrics : Json × String

variable (breaker : BreakerConfig)

/-- What the operation reads, the client's part included. -/
def ResilientEnv.read (env : ResilientEnv) (s : ResilientStore) : GatewayEnv where
  surroundings := env.surroundings
  allowed := (s.circuit.allowRequest breaker env.clock).1
  circuit := s.circuit.state
  fault := s.fault
  attempt := env.attempt
  outcome := env.outcome
  reachable := env.reachable
  metrics := env.metrics

/-- What an operation does to the client. -/
def ResilientStore.drive (env : ResilientEnv) (s : ResilientStore) : ApiOp → ResilientStore
  | .core .allowRequest =>
    { s with
      circuit := (s.circuit.allowRequest breaker env.clock).2
      clock := env.clock
      admitted := if (s.circuit.allowRequest breaker env.clock).1 then s.admitted + 1
        else s.admitted }
  | .core .recordSuccess =>
    { s with
      circuit := s.circuit.recordSuccess breaker env.clock
      clock := env.clock
      succeeded := s.succeeded + 1 }
  | .core .recordFailure =>
    { s with circuit := s.circuit.recordFailure breaker env.clock, clock := env.clock }
  | .core (.send _ _) => { s with sent := env.attempt.elim s.sent fun _ => s.sent + 1 }
  | .fetch _ => { s with sent := s.sent + 1 }
  | .setFault fault => { s with fault := fault }
  | _ => s

/-- The operations on the breaker. -/
def ApiOp.OnBreaker : ApiOp → Bool
  | .core .allowRequest => true
  | .core .recordSuccess => true
  | .core .recordFailure => true
  | _ => false

/-- One operation of a handler; the clock the breaker reads never goes back. -/
def resilientExec (env : ResilientEnv) (s : ResilientStore) (o : ApiOp) :
    Option (ResilientStore × o.Ret) :=
  if o.OnBreaker ∧ env.clock < s.clock then none
  else (apiExec (env.read breaker s) s.db o).map fun (db, r) =>
    ({ s.drive breaker env o with db := db }, r)

/-- The Gateway, with its breaker and its fault switch. -/
def resilientGateway (cfg : GatewaySettings) :
    Service ApiRequest ApiOp ApiOp.Ret HttpResponse ResilientStore ResilientEnv where
  handle := handleApi cfg
  exec := resilientExec breaker

/-- A state of the Gateway. -/
abbrev ResilientState := Service.State ApiRequest ApiOp ApiOp.Ret HttpResponse ResilientStore

/-- A step of the Gateway. -/
abbrev ResilientLabel := Service.Label ApiRequest ResilientEnv

variable {breaker} {cfg : GatewaySettings} {env : ResilientEnv} {store store' : ResilientStore}
  {o : ApiOp} {r : o.Ret} {s t : ResilientState} {a : ResilientLabel} {ls : List ResilientLabel}

/-- **One operation.** -/
theorem resilientExec_cases (h : resilientExec breaker env store o = some (store', r)) :
    (o.OnBreaker → store.clock ≤ env.clock) ∧
      ∃ db, apiExec (env.read breaker store) store.db o = some (db, r) ∧
        store' = { store.drive breaker env o with db := db } := by
  unfold resilientExec at h
  split at h
  · cases h
  · rename_i hclock
    obtain ⟨⟨db, r'⟩, hexec, heq⟩ := Option.map_eq_some_iff.mp h
    cases heq
    exact ⟨fun hon => not_lt.mp fun hlt => hclock ⟨hon, hlt⟩, db, hexec, rfl⟩

/-- **Refinement.**  Whatever the Gateway does with its breaker and its fault switch, the Gateway
does whose breaker and fault the surroundings choose: the same requests arrive, and their handlers
perform the same operations, leave the same database and give the same answers. -/
theorem resilient_refines (breaker : BreakerConfig) (cfg : GatewaySettings)
    (ls : List ResilientLabel) (s t : ResilientState)
    (h : Run (resilientGateway breaker cfg).step s ls t) :
    ∃ ls', List.Forall₂ SameStep ls ls' ∧
      Run (gatewayService cfg).step ⟨s.store.db, s.threads⟩ ls' ⟨t.store.db, t.threads⟩ := by
  have hexec : ∀ (env : ResilientEnv) (store : ResilientStore) (o : ApiOp)
      (store' : ResilientStore) (r : o.Ret), resilientExec breaker env store o = some (store', r) →
        ∃ genv, (gatewayService cfg).exec genv store.db o = some (store'.db, r) := by
    intro env store o store' r hexec
    obtain ⟨-, db, hdb, rfl⟩ := resilientExec_cases hexec
    exact ⟨env.read breaker store, hdb⟩
  exact run_refines ResilientStore.db rfl hexec h

/-! ## How the handlers drive the breaker -/

/-- One more event. -/
theorem callStage_snoc {n : ℕ} (es : List (Event ApiOp ApiOp.Ret)) (e : Event ApiOp ApiOp.Ret) :
    callStage n (es ++ [e]) =
      (callStage n es).bind fun stage => (wireEvent e).elim (some stage) (stage.next n) := by
  rw [callStage, callStage, List.filterMap_append, List.foldlM_append]
  cases hwire : wireEvent e with
  | none => simp [hwire]
  | some w => simp [hwire]

/-- The events have brought a call in flight: it is admitted, and has not reported. -/
def InFlight (n : ℕ) (es : List (Event ApiOp ApiOp.Ret)) : Prop :=
  ∃ left, callStage n es = some (.calling left)

/-- The call of the `i`-th request is in flight. -/
def FlightAt (n : ℕ) (s : ResilientState) (i : ℕ) : Prop :=
  ∃ th, s.threads[i]? = some th ∧ InFlight n th.events

/-- Each place that satisfies `P` has one item of the list to itself, and no item is left over.  The
list may have its items in any order, and items may be equal: what is counted is which place has
which, so the pairs name every place once. -/
def OneEach {α : Type} (P : ℕ → Prop) (l : List α) : Prop :=
  ∃ pairs : List (ℕ × α), l.Perm (pairs.map Prod.snd) ∧ (pairs.map Prod.fst).Nodup ∧
    ∀ i, i ∈ pairs.map Prod.fst ↔ P i

section
variable {α : Type} {P Q : ℕ → Prop} {l : List α}

theorem OneEach.congr (h : OneEach P l) (hQ : ∀ i, Q i ↔ P i) : OneEach Q l := by
  obtain ⟨pairs, hperm, hnodup, hmem⟩ := h
  exact ⟨pairs, hperm, hnodup, fun i => (hmem i).trans (hQ i).symm⟩

theorem OneEach.add (h : OneEach P l) {i : ℕ} (hi : ¬ P i) (hQ : ∀ j, Q j ↔ j = i ∨ P j) (x : α) :
    OneEach Q (l ++ [x]) := by
  obtain ⟨pairs, hperm, hnodup, hmem⟩ := h
  refine ⟨(i, x) :: pairs, ?_, ?_, fun j => ?_⟩
  · exact List.perm_append_comm.trans (hperm.cons x)
  · exact List.nodup_cons.mpr ⟨fun hin => hi ((hmem i).mp hin), hnodup⟩
  · rw [List.map_cons, List.mem_cons, hmem, hQ]

theorem OneEach.remove [DecidableEq α] (h : OneEach P l) {i : ℕ} (hi : P i)
    (hQ : ∀ j, Q j ↔ j ≠ i ∧ P j) : ∃ x ∈ l, OneEach Q (l.erase x) := by
  obtain ⟨pairs, hperm, hnodup, hmem⟩ := h
  obtain ⟨⟨j, x⟩, hpair, rfl⟩ := List.mem_map.mp ((hmem i).mpr hi)
  obtain ⟨first, last, rfl⟩ := List.append_of_mem hpair
  have hrest : (first ++ (j, x) :: last).Perm ((j, x) :: (first ++ last)) := List.perm_middle
  have hfst := hrest.map Prod.fst
  have hothers := List.nodup_cons.mp (hfst.nodup_iff.mp hnodup)
  refine ⟨x, hperm.mem_iff.mpr (List.mem_map_of_mem hpair), first ++ last, ?_, hothers.2,
    fun k => ?_⟩
  · have herase := (hperm.trans (hrest.map Prod.snd)).erase x
    rwa [List.map_cons, List.erase_cons_head] at herase
  · rw [hQ, ← hmem, hfst.mem_iff, List.map_cons, List.mem_cons]
    constructor
    · intro hk
      exact ⟨fun heq => hothers.1 (heq ▸ hk), Or.inr hk⟩
    · rintro ⟨hne, rfl | hk⟩
      · exact absurd rfl hne
      · exact hk

end

/-- The calls of the threads drive the breaker: the abstract run of calls has the very breaker and
clock the client has, has admitted as many calls as the client, and has pending, one each, the calls
of the threads that have been admitted and have not reported.  `n` is the number of requests a call
may send. -/
structure Drives (n : ℕ) (s : ResilientState) (b : BreakerCalls) : Prop where
  breaker : b.breaker = s.store.circuit
  clock : b.clock = s.store.clock
  admitted : b.admitted.length = s.store.admitted
  /-- The pending calls are those in flight. -/
  pending : OneEach (FlightAt n s) b.pending

section
variable {n i j : ℕ} {req req' : ApiRequest} {es es' : List (Event ApiOp ApiOp.Ret)}
  {p q : ApiProg HttpResponse}

theorem flightAt_set (hthread : s.threads[i]? = some ⟨req, es, p⟩) :
    FlightAt n ⟨store, s.threads.set i ⟨req', es', q⟩⟩ j ↔
      (j = i ∧ InFlight n es') ∨ (j ≠ i ∧ FlightAt n s j) := by
  have hlt : i < s.threads.length := (List.getElem?_eq_some_iff.mp hthread).1
  unfold FlightAt
  by_cases hij : j = i
  · subst hij
    rw [List.getElem?_set_self hlt]
    simp
  · rw [List.getElem?_set_ne (Ne.symm hij)]
    simp [hij]

theorem flightAt_arrive :
    FlightAt n { s with threads := s.threads ++ [⟨req, [], p⟩] } i ↔ FlightAt n s i := by
  unfold FlightAt
  rcases Nat.lt_trichotomy i s.threads.length with hlt | rfl | hgt
  · rw [List.getElem?_append_left hlt]
  · rw [List.getElem?_concat_length, List.getElem?_eq_none le_rfl]
    refine iff_of_false ?_ (by simp)
    rintro ⟨th, hth, left, hleft⟩
    cases hth
    cases hleft
  · rw [List.getElem?_eq_none, List.getElem?_eq_none hgt.le]
    rw [List.length_append, List.length_singleton]
    exact hgt

/-- What an event makes of the call it belongs to. -/
theorem inFlight_snoc {e : Event ApiOp ApiOp.Ret} (hone : OneCall n (es ++ [e])) :
    (∀ ok, wireEvent e = some (.allowed ok) →
      ¬ InFlight n es ∧ (InFlight n (es ++ [e]) ↔ ok = true)) ∧
    (∀ ok, wireEvent e = some (.reported ok) → InFlight n es ∧ ¬ InFlight n (es ++ [e])) ∧
    (wireEvent e = none ∨ wireEvent e = some .sent →
      (InFlight n (es ++ [e]) ↔ InFlight n es)) := by
  obtain ⟨stage', hstage'⟩ := hone
  have hsnoc := callStage_snoc (n := n) es e
  rw [hstage'] at hsnoc
  obtain ⟨stage, hstage, hnext⟩ := Option.bind_eq_some_iff.mp hsnoc.symm
  simp only [InFlight, hstage, hstage', Option.some.injEq]
  cases hwire : wireEvent e with
  | none =>
    rw [hwire] at hnext
    cases hnext
    simp
  | some w =>
    rw [hwire] at hnext
    rcases CallStage.next_cases hnext with ⟨rfl, rfl, rfl⟩ | ⟨rfl, rfl, rfl⟩ |
      ⟨left, rfl, rfl, rfl⟩ | ⟨left, ok, rfl, rfl, rfl⟩
    · simp
    · simp
    · simp
    · simp

end

/-- Reporting a success. -/
def BreakerLabel.succeeds (l : BreakerLabel) : Bool :=
  match l.action with
  | .success _ => true
  | _ => false

/-- The operation on the breaker, and the clock it reads. -/
def BreakerLabel.operation (l : BreakerLabel) : ℚ × ApiOp :=
  match l.action with
  | .allow => (l.clock, .core .allowRequest)
  | .success _ => (l.clock, .core .recordSuccess)
  | .failure _ => (l.clock, .core .recordFailure)

/-- What a step does to the breaker: the operation its handler performs, if that is one on the
breaker, and the clock it reads. -/
def breakerOp (s : ResilientState) : ResilientLabel → List (ℚ × ApiOp)
  | .arrive _ => []
  | .act i env =>
    match s.threads[i]? with
    | some ⟨_, _, .act o _⟩ => if o.OnBreaker then [(env.clock, o)] else []
    | _ => []

/-- What the handlers do to the breaker along a run, in order. -/
def breakerOps (breaker : BreakerConfig) (cfg : GatewaySettings) (s : ResilientState) :
    List ResilientLabel → List (ℚ × ApiOp)
  | [] => []
  | a :: ls => breakerOp s a ++
      ((resilientGateway breaker cfg).step s a).elim [] fun t => breakerOps breaker cfg t ls

/-- The handlers have driven the breaker from `b₀` to where it is by these operations, `base`
successes having been reported before. -/
def DrivenFrom (breaker : BreakerConfig) (n : ℕ) (b₀ : BreakerCalls) (base : ℕ)
    (ops : List (ℚ × ApiOp)) (s : ResilientState) : Prop :=
  ∃ ls b, Run (BreakerCalls.step breaker) b₀ ls b ∧ Drives n s b ∧
    ls.countP BreakerLabel.succeeds + base = s.store.succeeded ∧
    ls.map BreakerLabel.operation = ops

section
variable {n i base : ℕ} {b₀ b : BreakerCalls} {req : ApiRequest}
  {es : List (Event ApiOp ApiOp.Ret)} {p q : ApiProg HttpResponse} {ops : List (ℚ × ApiOp)}

theorem apiExec_allow {genv : GatewayEnv} {db db' : GatewayDB} {ok : Bool}
    (h : apiExec genv db (.core .allowRequest) = some (db', ok)) : ok = genv.allowed := by
  cases h
  rfl

/-- An admitted call is pending. -/
theorem allow_calls (cfg : BreakerConfig) (clock : ℚ) (b : BreakerCalls) :
    ∃ calls, (b.allow cfg clock).admitted = b.admitted ++ calls ∧
      (b.allow cfg clock).pending = b.pending ++ calls ∧
      calls.length = if (b.breaker.allowRequest cfg clock).1 then 1 else 0 := by
  unfold BreakerCalls.allow
  obtain ⟨ok, next⟩ := b.breaker.allowRequest cfg clock
  refine ⟨_, rfl, rfl, ?_⟩
  cases ok with
  | true => rfl
  | false => rfl

/-- **The breaker is asked.** -/
theorem drives_allow (env : ResilientEnv) {ok : Bool} (hd : Drives n s b)
    (hthread : s.threads[i]? = some ⟨req, es, p⟩)
    (hone : OneCall n (es ++ [⟨.core .allowRequest, ok⟩]))
    (hok : ok = (s.store.circuit.allowRequest breaker env.clock).1) :
    Drives n ⟨s.store.drive breaker env (.core .allowRequest),
      s.threads.set i ⟨req, es ++ [⟨.core .allowRequest, ok⟩], q⟩⟩ (b.allow breaker env.clock) := by
  obtain ⟨hbefore, hafter⟩ := (inFlight_snoc hone).1 ok rfl
  have hnot : ¬ FlightAt n s i := by
    rintro ⟨th, hth, hflight⟩
    rw [hthread] at hth
    cases hth
    exact hbefore hflight
  obtain ⟨calls, hadmitted, hpending, hlength⟩ := allow_calls breaker env.clock b
  rw [hd.breaker, ← hok] at hlength
  refine ⟨?_, rfl, ?_, ?_⟩
  · show (b.breaker.allowRequest breaker env.clock).2 = _
    rw [hd.breaker]
    rfl
  · rw [hadmitted, List.length_append, hd.admitted, hlength]
    simp only [ResilientStore.drive, ← hok]
    split
    · rfl
    · rfl
  · rw [hpending]
    cases ok with
    | true =>
      obtain ⟨call, rfl⟩ := List.length_eq_one_iff.mp hlength
      refine hd.pending.add hnot (fun j => ?_) call
      rw [flightAt_set hthread, hafter]
      by_cases hij : j = i
      · simp [hij]
      · simp [hij]
    | false =>
      rw [List.eq_nil_of_length_eq_zero hlength, List.append_nil]
      refine hd.pending.congr fun j => ?_
      rw [flightAt_set hthread, hafter]
      by_cases hij : j = i
      · subst hij
        simp [hnot]
      · simp [hij]

/-- **The breaker is told.**  The thread's call is one of those pending. -/
theorem drives_report {o : ApiOp} {r : o.Ret} {ok : Bool} (store' : ResilientStore)
    (hd : Drives n s b)
    (hthread : s.threads[i]? = some ⟨req, es, p⟩) (hone : OneCall n (es ++ [⟨o, r⟩]))
    (hwire : wireEvent ⟨o, r⟩ = some (.reported ok)) :
    ∃ c ∈ b.pending, OneEach (FlightAt n ⟨store', s.threads.set i ⟨req, es ++ [⟨o, r⟩], q⟩⟩)
      (b.pending.erase c) := by
  obtain ⟨hbefore, hafter⟩ := (inFlight_snoc hone).2.1 ok hwire
  refine hd.pending.remove ⟨_, hthread, hbefore⟩ fun j => ?_
  rw [flightAt_set hthread]
  constructor
  · rintro (⟨-, h⟩ | h)
    · exact absurd h hafter
    · exact h
  · exact Or.inr

/-- An operation that is not on the breaker leaves it alone. -/
theorem drive_off (breaker : BreakerConfig) (env : ResilientEnv) (store : ResilientStore)
    (h : o.OnBreaker = false) :
    (store.drive breaker env o).circuit = store.circuit ∧
      (store.drive breaker env o).clock = store.clock ∧
      (store.drive breaker env o).admitted = store.admitted ∧
      (store.drive breaker env o).succeeded = store.succeeded := by
  cases o with
  | core op =>
    cases op with
    | allowRequest => cases h
    | recordSuccess => cases h
    | recordFailure => cases h
    | _ => exact ⟨rfl, rfl, rfl, rfl⟩
  | _ => exact ⟨rfl, rfl, rfl, rfl⟩

theorem wireEvent_off {e : Event ApiOp ApiOp.Ret} (h : e.1.OnBreaker = false) :
    wireEvent e = none ∨ wireEvent e = some .sent := by
  obtain ⟨o, r⟩ := e
  cases o with
  | core op =>
    cases op with
    | allowRequest => cases h
    | recordSuccess => cases h
    | recordFailure => cases h
    | send accountId payload =>
      cases r with
      | none => exact Or.inl rfl
      | some attempt => exact Or.inr rfl
    | _ => exact Or.inl rfl
  | fetch path => exact Or.inr rfl
  | _ => exact Or.inl rfl

/-- One more step of the calls, after which they drive the breaker again. -/
theorem drivenFrom_snoc {calls : List BreakerLabel} {b' : BreakerCalls} {l : BreakerLabel}
    (hrun : Run (BreakerCalls.step breaker) b₀ calls b)
    (hcount : calls.countP BreakerLabel.succeeds + base = s.store.succeeded)
    (hstep : BreakerCalls.step breaker b l = some b') (hd : Drives n t b')
    (hsucceeded : t.store.succeeded = s.store.succeeded + if l.succeeds then 1 else 0) :
    DrivenFrom breaker n b₀ base (calls.map BreakerLabel.operation ++ [l.operation]) t := by
  refine ⟨calls ++ [l], b', hrun.snoc hstep, hd, ?_, List.map_append⟩
  rw [List.countP_append, List.countP_singleton, hsucceeded]
  omega

/-- A step that is not on the breaker is none of the calls. -/
theorem drives_off (env : ResilientEnv) {o : ApiOp} {r : o.Ret} (db : GatewayDB)
    (hd : Drives n s b) (hon : o.OnBreaker = false)
    (hthread : s.threads[i]? = some ⟨req, es, p⟩) (hone : OneCall n (es ++ [⟨o, r⟩])) :
    Drives n ⟨{ s.store.drive breaker env o with db := db },
      s.threads.set i ⟨req, es ++ [⟨o, r⟩], q⟩⟩ b := by
  obtain ⟨hcircuit, hclock, hadmitted, -⟩ := drive_off breaker env s.store hon
  refine ⟨hd.breaker.trans hcircuit.symm, hd.clock.trans hclock.symm,
    hd.admitted.trans hadmitted.symm, hd.pending.congr fun j => ?_⟩
  rw [flightAt_set hthread, (inFlight_snoc hone).2.2 (wireEvent_off hon)]
  by_cases hij : j = i
  · subst hij
    simp [FlightAt, hthread]
  · simp [hij]

/-- **Every step** of the Gateway is at most one of the breaker. -/
theorem drivenFrom_step (h : (resilientGateway breaker cfg).Stepped s a t)
    (hone : ∀ th ∈ t.threads, OneCall n th.events) (hs : DrivenFrom breaker n b₀ base ops s) :
    DrivenFrom breaker n b₀ base (ops ++ breakerOp s a) t := by
  obtain ⟨ls, b, hrun, hd, hcount, rfl⟩ := hs
  cases h with
  | arrive req =>
    exact ⟨ls, b, hrun, ⟨hd.breaker, hd.clock, hd.admitted,
      hd.pending.congr fun j => flightAt_arrive⟩, hcount, (List.append_nil _).symm⟩
  | act i env req es o k store r hthread hexec =>
    obtain ⟨hclock, db, hdb, rfl⟩ := resilientExec_cases hexec
    have hlt : i < s.threads.length := (List.getElem?_eq_some_iff.mp hthread).1
    have hone : OneCall n (es ++ [⟨o, r⟩]) := hone ⟨req, es ++ [⟨o, r⟩], k r⟩
      (List.mem_of_getElem? (List.getElem?_set_self hlt))
    have hop : breakerOp s (.act i env) = if o.OnBreaker then [(env.clock, o)] else [] := by
      rw [breakerOp, hthread]
    rw [← hd.clock] at hclock
    rw [hop]
    -- an operation on the breaker is a step of the calls, any other is none
    cases hon : o.OnBreaker with
    | false =>
      have hsucceeded := (drive_off breaker env s.store hon).2.2.2
      exact ⟨ls, b, hrun, drives_off env db hd hon hthread hone, hcount.trans hsucceeded.symm,
        (List.append_nil _).symm⟩
    | true =>
      have hreading := hclock hon
      cases o with
      | core op =>
        cases op with
        | allowRequest =>
          have hnext := drives_allow env (q := k r) hd hthread hone
            (by rw [apiExec_allow hdb]; rfl)
          exact drivenFrom_snoc hrun hcount (BreakerCalls.step_allow hreading)
            ⟨hnext.breaker, hnext.clock, hnext.admitted, hnext.pending⟩ rfl
        | recordSuccess =>
          -- the report is that of whichever call the thread has pending
          obtain ⟨c, hc, hpending⟩ := drives_report (q := k r)
            { s.store.drive breaker env (.core .recordSuccess) with db := db } hd hthread hone rfl
          refine drivenFrom_snoc hrun hcount (BreakerCalls.step_success hreading hc)
            ⟨?_, rfl, hd.admitted, hpending⟩ rfl
          show b.breaker.recordSuccess breaker env.clock = _
          rw [hd.breaker]
          rfl
        | recordFailure =>
          obtain ⟨c, hc, hpending⟩ := drives_report (q := k r)
            { s.store.drive breaker env (.core .recordFailure) with db := db } hd hthread hone rfl
          refine drivenFrom_snoc hrun hcount (BreakerCalls.step_failure hreading hc)
            ⟨?_, rfl, hd.admitted, hpending⟩ rfl
          show b.breaker.recordFailure breaker env.clock = _
          rw [hd.breaker]
          rfl
        | _ => cases hon
      | _ => cases hon

/-- In every state the events of every thread are those of one call at most. -/
theorem run_oneCall (h : Run (resilientGateway breaker cfg).step (.initial store) ls t) :
    ∀ th ∈ t.threads, OneCall (cfg.maxRetries + 1) th.events := fun th hth =>
  (run_keeps (handleApi_oneCall cfg) h th hth).1

/-- **Every run** of the Gateway drives the breaker. -/
theorem drivenFrom_run {ls' : List ResilientLabel}
    (hreach : Run (resilientGateway breaker cfg).step (.initial store) ls s)
    (h : Run (resilientGateway breaker cfg).step s ls' t)
    (hs : DrivenFrom breaker (cfg.maxRetries + 1) b₀ base ops s) :
    DrivenFrom breaker (cfg.maxRetries + 1) b₀ base (ops ++ breakerOps breaker cfg s ls') t := by
  induction ls' generalizing s ls ops with
  | nil =>
    rw [breakerOps, List.append_nil]
    exact run_nil.mp h ▸ hs
  | cons a ls' ih =>
    obtain ⟨u, hstep, hrest⟩ := run_cons.mp h
    have hreach' := hreach.snoc hstep
    have hu := ih hreach' hrest (drivenFrom_step (step_cases hstep) (run_oneCall hreach') hs)
    rw [List.append_assoc] at hu
    rw [breakerOps, hstep]
    exact hu

theorem drives_initial (start : ℚ) :
    Drives n (.initial (.new start)) (BreakerCalls.initial start) :=
  ⟨rfl, rfl, rfl, [], List.Perm.nil, List.nodup_nil, fun i => by simp [FlightAt, State.initial]⟩

theorem drivenFrom_start (start : ℚ) :
    DrivenFrom breaker n (BreakerCalls.initial start) 0 [] (.initial (.new start)) :=
  ⟨[], BreakerCalls.initial start, run_nil.mpr rfl, drives_initial start, rfl, rfl⟩

end

/-- **The Gateway drives its breaker** as `BreakerCalls` describes it: in every run, in any
interleaving of any requests, what the handlers do to the breaker is, operation by operation and at
the same readings of the clock, a run of calls; every handler makes one call at most, and the
pending calls are, one each, those of the threads that have been admitted and have not
reported. -/
theorem resilient_drives (breaker : BreakerConfig) (cfg : GatewaySettings) (start : ℚ)
    (ls : List ResilientLabel) (t : ResilientState)
    (h : Run (resilientGateway breaker cfg).step (.initial (.new start)) ls t) :
    (∃ calls b, Run (BreakerCalls.step breaker) (BreakerCalls.initial start) calls b ∧
      calls.map BreakerLabel.operation =
        breakerOps breaker cfg (.initial (.new start)) ls ∧
      Drives (cfg.maxRetries + 1) t b ∧
      calls.countP BreakerLabel.succeeds = t.store.succeeded) ∧
      ∀ th ∈ t.threads, OneCall (cfg.maxRetries + 1) th.events := by
  obtain ⟨calls, b, hrun, hd, hcount, hops⟩ :=
    drivenFrom_run (run_nil.mpr rfl) h (drivenFrom_start start)
  exact ⟨⟨calls, b, hrun, hops, hd, hcount⟩, run_oneCall h⟩

/-- What an operation reads at this clock: every request is sent, and this becomes of it. -/
def envAt (clock : ℚ) (outcome : Outcome) : ResilientEnv where
  surroundings := ⟨sampleTimestamp, none⟩
  clock := clock
  attempt := some 0
  outcome := outcome
  reachable := true
  metrics := (.null, "")

/-- The `i`-th request performs its next `n` operations at this clock, and none of its requests is
answered. -/
def failingAt (i n : ℕ) (clock : ℚ) : List ResilientLabel :=
  List.replicate n (.act i (envAt clock .transportError))

/-- Two submissions are admitted, and the first one fails. -/
def trippingRun : List ResilientLabel :=
  .arrive (.submit sampleEvent) :: .arrive (.submit sampleEvent) ::
    (failingAt 1 2 0 ++ failingAt 0 17 0)

theorem resilient_drives_trip : ∃ t calls b,
    t.store.circuit.state = .opened ∧
      Run (BreakerCalls.step ⟨1, 1, 1, 1⟩) (BreakerCalls.initial 0) calls b ∧ Drives 3 t b ∧
      calls.map BreakerLabel.operation =
        [(0, .core .allowRequest), (0, .core .allowRequest), (0, .core .recordFailure)] := by
  obtain ⟨t, hrun, hopen⟩ := Option.map_eq_some_iff.mp
    (show (trippingRun.foldlM (resilientGateway ⟨1, 1, 1, 1⟩ calmSettings).step
      (.initial (.new 0))).map (fun t : ResilientState => t.store.circuit.state) = some .opened by
        decide +kernel)
  obtain ⟨⟨calls, b, hcalls, hops, hd, -⟩, -⟩ :=
    resilient_drives ⟨1, 1, 1, 1⟩ calmSettings 0 trippingRun t hrun
  exact ⟨t, calls, b, hopen, hcalls, hd, hops.trans rfl⟩

end EventLedger
