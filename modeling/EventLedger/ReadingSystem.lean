import EventLedger.BalanceSnapshots
import EventLedger.GatewayApi
import EventLedger.LedgerRuns
import EventLedger.ReadPaths

/-!
# Reading through the Gateway

The composed system with reads in it.  A client that reads a balance or an
account asks the Gateway, whose client asks the Account Service: over the same
breaker as the submissions, with the same retries, over the same network.  Each
fetch of a read is a message that the Account Service may receive at any time or
never, and each received one is handled while transactions arrive.
-/
namespace EventLedger

open Program Prog Service LabelledRun

/-! ## On the wire -/

/-- `BalanceResponse` as it is serialised. -/
def BalanceResponse.toJson (r : BalanceResponse) : Json :=
  .obj [("accountId", .str r.accountId), ("balance", .str r.balance),
    ("currency", r.currency.elim .null .str),
    ("transactionCount", .number (toString r.transactionCount))]

/-- `AccountDetailResponse` as it is serialised. -/
def AccountDetailResponse.toJson (r : AccountDetailResponse) : Json :=
  .obj [("accountId", .str r.accountId), ("balance", .str r.balance),
    ("currency", r.currency.elim .null .str),
    ("transactionCount", .number (toString r.transactionCount)),
    ("recentTransactions", .arr (r.recentTransactions.map TransactionResponse.toJson))]

/-- What a read is answered with; the other endpoints' replies are no answers to a read. -/
def AccountReply.readResponse : AccountReply → Option HttpResponse
  | .balance response => some ⟨200, .json response.toJson⟩
  | .account response => some ⟨200, .json response.toJson⟩
  | .internalError traceId => some ⟨500, .json (internalErrorBody traceId)⟩
  | _ => none

/-! ## The parties -/

/-- A read of an account at the Gateway. -/
inductive AccountRead where
  | balance (accountId : String)
  | account (accountId : String)
  deriving DecidableEq

/-- The path the client fetches for it. -/
def AccountRead.path : AccountRead → String
  | .balance accountId => balancePath accountId
  | .account accountId => accountPath accountId

/-- The account it is about. -/
def AccountRead.accountId : AccountRead → String
  | .balance accountId => accountId
  | .account accountId => accountId

/-- The Gateway's handler for it. -/
def AccountRead.handle (maxRetries : ℕ) : AccountRead → ApiProg HttpResponse
  | .balance accountId => readHandler (clientGetBalance maxRetries accountId)
  | .account accountId => readHandler (clientGetAccount maxRetries accountId)

/-- The endpoint of the Account Service for it. -/
def AccountRead.endpoint : AccountRead → AccountRequest
  | .balance accountId => .balance accountId
  | .account accountId => .account accountId

/-- A read in progress: its handler at the Gateway, and the message whose response it waits for. -/
structure Reader where
  thread : Thread AccountRead ApiOp ApiOp.Ret HttpResponse
  waiting : Option ℕ

/-- The Account Service on a read it has received. -/
inductive ReadHandler where
  | running (th : AccountThread)
  /-- Answered by another endpoint, or with an unhandled exception. -/
  | other (resp : HttpResponse)

/-- What it has been answered with. -/
def ReadHandler.response : ReadHandler → Option HttpResponse
  | .running ⟨_, _, .done reply⟩ => reply.readResponse
  | .running ⟨_, _, .act _ _⟩ => none
  | .other resp => some resp

/-- The endpoint of the Account Service a read is routed to. -/
def ReadRoute.endpoint : ReadRoute → Option AccountRequest
  | .balance accountId => some (.balance accountId)
  | .account accountId => some (.account accountId)
  | .invalidUrl => none
  | .elsewhere => none

/-- Receiving a read; `other` is what another endpoint answers. -/
def receiveRead (path : String) (other : HttpResponse) : ReadHandler :=
  match (readRoute path).endpoint with
  | some req => .running ⟨req, [], handleAccount req⟩
  | none => .other other

/-- The composed system, its reads, and the messages of the reads. -/
structure ReadingWorld where
  world : World
  readers : List Reader
  /-- The paths fetched so far; a message is known by its position. -/
  fetches : List String
  handlers : ℕ → Option ReadHandler

/-- One step. -/
inductive ReadingLabel where
  /-- A step of the composed system. -/
  | world (l : Label)
  /-- A read arrives at the Gateway. -/
  | read (request : AccountRead)
  /-- The `j`-th read performs its next operation, or sends its fetch. -/
  | reader (j : ℕ) (c : Choice)
  /-- The Account Service receives message `n`. -/
  | deliver (n : ℕ) (other : HttpResponse)
  /-- The handler of message `n` performs its next operation. -/
  | handler (n : ℕ) (env : Surroundings)
  /-- The handler of message `n` dies with an unhandled exception. -/
  | crash (n : ℕ) (env : Surroundings)

/-! ## Running -/

/-- One operation of a read at the Gateway, but for its fetch; it performs no other. -/
def readerExec (dep : Deployment) (c : Choice) (s : Shared) :
    (o : ApiOp) → Option (Shared × o.Ret)
  | .core .allowRequest =>
    let (ok, b) := s.circuit.allowRequest dep.breaker c.clock
    some ({ s with circuit := b }, ok)
  | .core .recordSuccess =>
    some ({ s with circuit := s.circuit.recordSuccess dep.breaker c.clock }, ())
  | .core .recordFailure =>
    some ({ s with circuit := s.circuit.recordFailure dep.breaker c.clock }, ())
  | .core .fault => some (s, s.fault)
  | .core .traceId => some (s, c.surroundings.traceId)
  | .core (.sleepBackoff _) => some (s, ())
  | _ => none

/-- What the wait for message `n` ends in; a response that has not been given cannot be awaited. -/
def ReadingWorld.awaited (w : ReadingWorld) (n : ℕ) : Network → Option Outcome
  | .responds => ((w.handlers n).bind ReadHandler.response).map .response
  | .fails => some .transportError
  | .raises => some .raised

/-- One operation of a handler of the Account Service; it performs no other. -/
def readExec (env : Surroundings) (db : AccountDB) : (o : AccountApiOp) → Option o.Ret
  | .listTransactions accountId => some (db.listTransactions accountId)
  | .balance accountId => some (db.balance accountId)
  | .core .traceId => some env.traceId
  | _ => none

/-- A thread after an operation. -/
def threadAfter {Req Op : Type} {Ret : Op → Type} {Ans : Type} (req : Req)
    (es : List (Event Op Ret)) (o : Op) (k : Ret o → Prog Op Ret Ans) (r : Ret o) :
    Thread Req Op Ret Ans := ⟨req, es ++ [⟨o, r⟩], k r⟩

namespace ReadingWorld

/-- Both services just started. -/
def initial : ReadingWorld := ⟨World.initial, [], [], fun _ => none⟩

/-- A fetch: it is sent, and then awaited; the client refuses a URL at once. -/
def fetchStep (c : Choice) (w : ReadingWorld) (j : ℕ) (req : AccountRead)
    (es : List (Event ApiOp ApiOp.Ret)) (path : String) (k : Outcome → ApiProg HttpResponse) :
    Option ℕ → Option ReadingWorld
  | none =>
    if readRoute path = .invalidUrl then some
      { w with readers := w.readers.set j ⟨threadAfter req es (.fetch path) k .raised, none⟩ }
    else some
      { w with fetches := w.fetches ++ [path]
               readers := w.readers.set j ⟨⟨req, es, .act (.fetch path) k⟩, some w.fetches.length⟩ }
  | some n => (w.awaited n c.network).map fun outcome =>
    { w with readers := w.readers.set j ⟨threadAfter req es (.fetch path) k outcome, none⟩ }

/-- Executing one step; `none` when it is not possible. -/
def step (dep : Deployment) (w : ReadingWorld) : ReadingLabel → Option ReadingWorld
  | .world l => (World.step dep w.world l).map fun world => { w with world := world }
  | .read request => some
    { w with readers := w.readers ++ [⟨⟨request, [], request.handle dep.maxRetries⟩, none⟩] }
  | .reader j c =>
    match w.readers[j]? with
    | some ⟨⟨req, es, .act (.fetch path) k⟩, waiting⟩ => fetchStep c w j req es path k waiting
    | some ⟨⟨req, es, .act o k⟩, waiting⟩ =>
      (readerExec dep c w.world.shared o).map fun (shared, r) =>
        { w with world := { w.world with shared := shared }
                 readers := w.readers.set j ⟨threadAfter req es o k r, waiting⟩ }
    | _ => none
  | .deliver n other =>
    match w.handlers n, w.fetches[n]? with
    | none, some path => some
      { w with handlers := Function.update w.handlers n (some (receiveRead path other)) }
    | _, _ => none
  | .handler n env =>
    match w.handlers n with
    | some (.running ⟨req, es, .act o k⟩) =>
      (readExec env w.world.shared.account o).map fun r =>
        { w with handlers := Function.update w.handlers n
                   (some (.running (threadAfter req es o k r))) }
    | _ => none
  | .crash n env =>
    match w.handlers n with
    | some (.running ⟨_, _, .act _ _⟩) => some
      { w with handlers := Function.update w.handlers n
                 (some (.other ⟨500, .json (internalErrorBody env.traceId)⟩)) }
    | _ => none

/-! ## What a step does -/

variable {dep : Deployment} {w w' : ReadingWorld}

/-- The kinds of steps. -/
inductive Stepped (dep : Deployment) (w : ReadingWorld) : ReadingLabel → ReadingWorld → Prop
  | world {l : Label} {world : World} (hstep : World.step dep w.world l = some world) :
    Stepped dep w (.world l) { w with world := world }
  | read (request : AccountRead) : Stepped dep w (.read request)
      { w with readers := w.readers ++ [⟨⟨request, [], request.handle dep.maxRetries⟩, none⟩] }
  | operation {j : ℕ} {c : Choice} {req : AccountRead} {es : List (Event ApiOp ApiOp.Ret)}
      {o : ApiOp} {k : o.Ret → ApiProg HttpResponse} {waiting : Option ℕ} {shared : Shared}
      {r : o.Ret} (hreader : w.readers[j]? = some ⟨⟨req, es, .act o k⟩, waiting⟩)
      (hexec : readerExec dep c w.world.shared o = some (shared, r)) : Stepped dep w (.reader j c)
      { w with world := { w.world with shared := shared }
               readers := w.readers.set j ⟨threadAfter req es o k r, waiting⟩ }
  | sent {j : ℕ} {c : Choice} {req : AccountRead} {es : List (Event ApiOp ApiOp.Ret)}
      {path : String} {k : Outcome → ApiProg HttpResponse}
      (hreader : w.readers[j]? = some ⟨⟨req, es, .act (.fetch path) k⟩, none⟩) :
      Stepped dep w (.reader j c)
      { w with fetches := w.fetches ++ [path]
               readers := w.readers.set j ⟨⟨req, es, .act (.fetch path) k⟩, some w.fetches.length⟩ }
  | fetched {j : ℕ} {c : Choice} {req : AccountRead} {es : List (Event ApiOp ApiOp.Ret)}
      {path : String} {k : Outcome → ApiProg HttpResponse} {waiting : Option ℕ} {outcome : Outcome}
      (hreader : w.readers[j]? = some ⟨⟨req, es, .act (.fetch path) k⟩, waiting⟩)
      (hfrom : ∀ resp, outcome = .response resp →
        ∃ n, waiting = some n ∧ (w.handlers n).bind ReadHandler.response = some resp) :
      Stepped dep w (.reader j c)
      { w with readers := w.readers.set j ⟨threadAfter req es (.fetch path) k outcome, none⟩ }
  | deliver {n : ℕ} {other : HttpResponse} {path : String} (hfresh : w.handlers n = none)
      (hsent : w.fetches[n]? = some path) : Stepped dep w (.deliver n other)
      { w with handlers := Function.update w.handlers n (some (receiveRead path other)) }
  | handler {n : ℕ} {env : Surroundings} {req : AccountRequest}
      {es : List (Event AccountApiOp AccountApiOp.Ret)} {o : AccountApiOp}
      {k : o.Ret → AccountApiProg AccountReply} {r : o.Ret}
      (hhandler : w.handlers n = some (.running ⟨req, es, .act o k⟩))
      (hexec : readExec env w.world.shared.account o = some r) : Stepped dep w (.handler n env)
      { w with handlers := Function.update w.handlers n
                 (some (.running (threadAfter req es o k r))) }
  | crash {n : ℕ} {env : Surroundings} {req : AccountRequest}
      {es : List (Event AccountApiOp AccountApiOp.Ret)} {o : AccountApiOp}
      {k : o.Ret → AccountApiProg AccountReply}
      (hhandler : w.handlers n = some (.running ⟨req, es, .act o k⟩)) :
      Stepped dep w (.crash n env)
      { w with handlers := Function.update w.handlers n
                 (some (.other ⟨500, .json (internalErrorBody env.traceId)⟩)) }

theorem fetchStep_cases {c : Choice} {j : ℕ} {req : AccountRead}
    {es : List (Event ApiOp ApiOp.Ret)} {path : String} {k : Outcome → ApiProg HttpResponse}
    {waiting : Option ℕ} (hreader : w.readers[j]? = some ⟨⟨req, es, .act (.fetch path) k⟩, waiting⟩)
    (h : fetchStep c w j req es path k waiting = some w') : Stepped dep w (.reader j c) w' := by
  cases waiting with
  | none =>
    rw [fetchStep] at h
    split at h
    · cases h
      exact .fetched hreader fun resp hresp => by cases hresp
    · cases h
      exact .sent hreader
  | some n =>
    obtain ⟨outcome, houtcome, rfl⟩ := Option.map_eq_some_iff.mp h
    refine .fetched hreader fun resp hresp => ⟨n, rfl, ?_⟩
    subst hresp
    cases hnetwork : c.network with
    | responds =>
      rw [hnetwork] at houtcome
      obtain ⟨resp', hresp', heq⟩ := Option.map_eq_some_iff.mp houtcome
      cases heq
      exact hresp'
    | fails =>
      rw [hnetwork] at houtcome
      cases houtcome
    | raises =>
      rw [hnetwork] at houtcome
      cases houtcome

/-- **Steps.**  Every step is of one of these kinds. -/
theorem step_cases {l : ReadingLabel} (h : step dep w l = some w') : Stepped dep w l w' := by
  cases l with
  | world l =>
    obtain ⟨world, hstep, rfl⟩ := Option.map_eq_some_iff.mp h
    exact .world hstep
  | read request =>
    cases h
    exact .read request
  | reader j c =>
    simp only [step] at h
    split at h
    · rename_i req es path k waiting hreader
      exact fetchStep_cases hreader h
    · rename_i req es o k waiting _ hreader
      obtain ⟨⟨shared, r⟩, hexec, rfl⟩ := Option.map_eq_some_iff.mp h
      exact .operation hreader hexec
    · cases h
  | deliver n other =>
    simp only [step] at h
    split at h
    · rename_i path hfresh hsent
      cases h
      exact .deliver hfresh hsent
    · cases h
  | handler n env =>
    simp only [step] at h
    split at h
    · rename_i req es o k hhandler
      obtain ⟨r, hexec, rfl⟩ := Option.map_eq_some_iff.mp h
      exact .handler hhandler hexec
    · cases h
  | crash n env =>
    simp only [step] at h
    split at h
    · rename_i req es o k hhandler
      cases h
      exact .crash hhandler
    · cases h

/-- An operation of a read leaves the ledger alone. -/
theorem readerExec_ledger {c : Choice} {s s' : Shared} {o : ApiOp} {r : o.Ret}
    (h : readerExec dep c s o = some (s', r)) : s'.ledger = s.ledger := by
  cases o with
  | core op =>
    cases op with
    | allowRequest =>
      cases h
      rfl
    | recordSuccess =>
      cases h
      rfl
    | recordFailure =>
      cases h
      rfl
    | fault =>
      cases h
      rfl
    | traceId =>
      cases h
      rfl
    | sleepBackoff attempt =>
      cases h
      rfl
    | _ => cases h
  | _ => cases h

/-- **Reads do not disturb.**  With reads in it, the composed system keeps its invariant, and the
ledger only grows. -/
theorem step_ok {l : ReadingLabel} (h : w.world.Ok dep) (hstep : step dep w l = some w') :
    w'.world.Ok dep ∧ Evolves w.world.ledger w'.world.ledger := by
  cases step_cases hstep with
  | world hworld => exact h.step hworld
  | operation hreader hexec =>
    rename_i shared r
    have hsame : shared.ledger = w.world.ledger := readerExec_ledger hexec
    have hevolves : Evolves w.world.ledger shared.ledger := by
      rw [hsame]
      exact Evolves.refl _
    exact ⟨h.move hevolves (hsame ▸ h.consistent), hevolves⟩
  | _ => exact ⟨h, Evolves.refl _⟩

theorem run_ok {ls : List ReadingLabel} (h : w.world.Ok dep) (hrun : Run (step dep) w ls w') :
    w'.world.Ok dep ∧ Evolves w.world.ledger w'.world.ledger := by
  have keep : ∀ u l v, u.world.Ok dep → step dep u l = some v → v.world.Ok dep :=
    fun u l v hu hstep => (step_ok hu hstep).1
  refine ⟨hrun.preserves keep h, ?_⟩
  exact hrun.relates (R := fun u v => Evolves u.world.ledger v.world.ledger)
    (fun u => Evolves.refl u.world.ledger) (fun _ _ _ => Evolves.trans) keep
    (fun u l v hu hstep => (step_ok hu hstep).2) h

end ReadingWorld

end EventLedger
