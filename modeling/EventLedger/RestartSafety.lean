import EventLedger.ExactlyOnce
import EventLedger.RestartingSystem

/-!
# Recording across restarts

The invariant of the composed system is kept by restarts as well.  A Gateway that
comes back with an empty database has lost its events, but no thread is left that
relied on them, and the handlers of the Account Service never look at them: a
handler is as safe after the loss as before, since everything the others can do
then they could have done with the events still there (`Consistent.graft`,
`handler_transfer`).

So every event is recorded once however often either process is restarted, as
long as the Account Service finds its transactions again
(`recorded_across_restarts`).
-/
namespace EventLedger

open Program LabelledRun KeyedTable

/-! ## What the Account Service does not look at -/

/-- The ledger with other events. -/
def Ledger.withEvents (l : Ledger) (events : Table StoredEvent.eventId)
    (creators : List (String × ℕ)) : Ledger :=
  { l with events := events, creators := creators }

/-- **Grafting.**  The events of one consistent ledger on another that has all else they rest on. -/
theorem Consistent.graft {l l' : Ledger} (h : Consistent l) (h' : Consistent l')
    (hevolves : Evolves l (l'.withEvents l.events l.creators)) :
    Consistent (l'.withEvents l.events l.creators) where
  attempt_origin := h'.attempt_origin
  transaction_origin := h'.transaction_origin
  event_origin row hrow := by
    obtain ⟨sent, body, haccepted, hbody, hrest⟩ := h.event_origin row hrow
    exact ⟨sent, body, haccepted.stable hevolves, hevolves.bodies _ _ hbody, hrest⟩
  transaction_of_event row hrow := by
    obtain ⟨tx, htx⟩ := h.transaction_of_event row hrow
    exact ⟨tx, hevolves.transactions _ _ htx⟩
  reply_attempt := h'.reply_attempt
  reply_stored := h'.reply_stored
  creator_unique := h.creator_unique
  creator_event := h.creator_event

/-- What evolves, evolves with other events. -/
theorem Evolves.withEvents {l l' : Ledger} (h : Evolves l l') (events : Table StoredEvent.eventId)
    (creators : List (String × ℕ)) :
    Evolves (l.withEvents events creators) (l'.withEvents events creators) where
  events := Table.Grows.refl _
  transactions := h.transactions
  attempts := h.attempts
  replies := h.replies
  bodies := h.bodies
  creators _ hc := hc
  received := h.received

/-- A ledger whose events are lost is consistent. -/
theorem Consistent.withoutEvents {l : Ledger} (h : Consistent l) :
    Consistent (l.withEvents Table.empty []) := by
  have hinitial : World.Ok defaultDeployment World.initial := World.initial_ok
  refine hinitial.consistent.graft h ?_
  exact
    { events := Table.Grows.refl _
      transactions := fun _ _ hget => by cases hget
      attempts := List.nil_prefix
      replies := fun _ _ hreply => by cases hreply
      bodies := fun _ _ hbody => by cases hbody
      creators := fun _ hc => hc
      received := fun _ ha => absurd ha List.not_mem_nil }

/-- A handler only reads and writes the Account Service's database. -/
theorem accountExec_frame {env : Surroundings} {t t' : Shared} {o : AccountOp} {r : o.Ret}
    (h : accountExec env t o = some (t', r)) : t' = { t with account := t'.account } ∧
      ∀ s : Shared, s.account = t.account →
        accountExec env s o = some ({ s with account := t'.account }, r) := by
  cases o with
  | insertTransaction tx =>
    simp only [accountExec] at h
    split at h
    · rename_i db hdb
      cases h
      refine ⟨rfl, fun s hs => ?_⟩
      simp only [accountExec, hs, hdb]
    · rename_i hdb
      cases h
      refine ⟨rfl, fun s hs => ?_⟩
      simp only [accountExec, hs, hdb]
      rw [← hs]
  | _ =>
    cases h
    refine ⟨rfl, fun s hs => ?_⟩
    rw [← hs]
    rfl

/-- The two states differ in what is recorded at the Gateway at most. -/
structure SameForAccount (s t : Shared) : Prop where
  consistent : Consistent s.ledger
  account : s.account = t.account
  attempts : s.attempts = t.attempts
  replies : s.replies = t.replies
  bodies : s.bodies = t.bodies
  received : s.received = t.received

theorem SameForAccount.ledger {s t : Shared} (h : SameForAccount s t) :
    s.ledger = t.ledger.withEvents s.ledger.events s.ledger.creators := by
  simp only [Shared.ledger, Ledger.withEvents, h.account, h.attempts, h.replies, h.bodies,
    h.received]

/-- **A handler is safe** whatever the Gateway has recorded. -/
theorem handler_transfer {s t : Shared} {sent : Attempt} {p : AccountProg AccountAnswer}
    (h : accountMachine.Safe (AnswerStored sent) p s) (hsame : SameForAccount s t) :
    accountMachine.Safe (AnswerStored sent) p t := by
  refine h.transfer hsame ?_ ?_ ?_
  · -- what the others do from `t`, they could do with the events of `s`
    intro s t t' hst hrely hinv
    have hevolves : Evolves s.ledger (t'.ledger.withEvents s.ledger.events s.ledger.creators) := by
      have hmoved := hrely.withEvents s.ledger.events s.ledger.creators
      rwa [← hst.ledger] at hmoved
    exact ⟨{ t' with gateway := { t'.gateway with events := s.gateway.events }
                     creators := s.creators },
      ⟨hst.consistent.graft hinv hevolves, rfl, rfl, rfl, rfl, rfl⟩, hevolves,
      hst.consistent.graft hinv hevolves⟩
  · -- an operation does the same in both states, and leaves `t` its own events
    intro s t env o t' r hst hinv hexec
    obtain ⟨hframe, hsame⟩ := accountExec_frame hexec
    refine ⟨_, hsame s hst.account, fun hinv' => ⟨?_, ?_⟩⟩
    · rw [hframe]
      exact ⟨hinv', rfl, hst.attempts, hst.replies, hst.bodies, hst.received⟩
    · have hledger : t'.ledger = Ledger.withEvents
          ({ s with account := t'.account } : Shared).ledger t.ledger.events t.ledger.creators := by
        rw [hframe]
        simp only [Shared.ledger, Ledger.withEvents, hst.attempts, hst.replies, hst.bodies,
          hst.received]
      have hevolves := accountExec_evolves hexec
      show Consistent t'.ledger
      rw [hledger] at hevolves ⊢
      exact Consistent.graft hinv hinv' hevolves
  · rintro answer s t hst hstored status response rfl
    obtain ⟨tx, duplicate, hget, hresponse⟩ := hstored status response rfl
    refine ⟨tx, duplicate, ?_, hresponse⟩
    show t.account.transactions.get sent.payload.eventId = some tx
    rw [← hst.account]
    exact hget

/-! ## The invariant -/

theorem World.answerOf_eq_some {w : World} {i : ℕ} {answer : Answer} :
    w.answerOf i = some answer ↔ w.Answered i answer := by
  unfold World.answerOf World.Answered
  constructor
  · intro h
    split at h
    · rename_i answer' hthread
      cases h
      exact hthread
    · cases h
  · intro h
    rw [h]

/-- Only the answers are left of the threads. -/
theorem World.answerOf_of_threads {w w' : World} {i : ℕ}
    (h : w'.threads i = (w.answerOf i).map Prog.done) : w'.answerOf i = w.answerOf i := by
  cases hanswer : w.answerOf i with
  | none =>
    rw [hanswer] at h
    rw [World.answerOf, h]
    rfl
  | some answer =>
    rw [hanswer] at h
    exact World.answerOf_eq_some.mpr h

/-- A step starts no thread for a submission that is known. -/
theorem World.threads_none {dep : Deployment} {w w' : World} {l : Label} {i : ℕ}
    {body : EventRequest} (hstep : World.step dep w l = some w')
    (hbody : w.ledger.bodies i = some body) (hi : w.threads i = none) : w'.threads i = none := by
  cases World.step_cases hstep with
  | submit hfresh =>
    rename_i j other
    have hne : i ≠ j := by
      rintro rfl
      cases hfresh.symm.trans hbody
    exact (Function.update_of_ne hne _ _).trans hi
  | gateway hthread hexec =>
    rename_i j c o k shared r
    have hne : i ≠ j := by
      rintro rfl
      cases hthread.symm.trans hi
    exact (Function.update_of_ne hne _ _).trans hi
  | _ => exact hi

namespace RestartingWorld

variable {dep : Deployment} {storages : Storages} {w w' : RestartingWorld}

/-- What the present Gateway has answered. -/
theorem answerOf_of_answered {i : ℕ} {answer : Answer} (h : w.world.Answered i answer) :
    w.answerOf i = some answer :=
  Option.or_eq_some_iff.mpr (.inl (World.answerOf_eq_some.mpr h))

/-- The event has its transaction. -/
def Applied (w : RestartingWorld) (body : EventRequest) : Prop :=
  ∃ tx, w.world.ledger.transactions.get body.eventId = some tx

/-- The invariant of the composed system, and what is left of the Gateways before. -/
structure Ok (dep : Deployment) (w : RestartingWorld) : Prop where
  world : World.Ok dep w.world
  /-- Nothing works for a submission that was answered by a Gateway before. -/
  past_gone : ∀ i answer, w.past i = some answer → w.world.threads i = none
  /-- If it was answered with a success, its transaction is there. -/
  past_applied : ∀ i answer, w.past i = some answer → ∃ body,
    w.world.ledger.bodies i = some body ∧ (answer.status < 400 → w.Applied body)

theorem initial_ok : Ok dep initial where
  world := World.initial_ok
  past_gone _ _ h := by cases h
  past_applied _ _ h := by cases h

/-- Whoever answered it, a submission that was answered with a success has its transaction. -/
theorem Ok.applied (h : Ok dep w) {i : ℕ} {answer : Answer} (hanswer : w.answerOf i = some answer) :
    ∃ body, w.world.ledger.bodies i = some body ∧ (answer.status < 400 → w.Applied body) := by
  rcases Option.or_eq_some_iff.mp hanswer with hnow | ⟨-, hpast⟩
  · have hanswered := World.answerOf_eq_some.mp hnow
    obtain ⟨body, hbody, -⟩ := h.world.answer_true hanswered
    exact ⟨body, hbody, fun hsuccess => (h.world.rows_of_success hanswered hbody hsuccess).2⟩
  · exact h.past_applied i answer hpast

/-- What neither a step nor a restart takes back. -/
structure Keeps (storages : Storages) (w w' : RestartingWorld) : Prop where
  transactions : w.world.ledger.transactions.Grows w'.world.ledger.transactions
  bodies : ∀ i body, w.world.ledger.bodies i = some body → w'.world.ledger.bodies i = some body
  answers : ∀ i answer, w.answerOf i = some answer → w'.answerOf i = some answer
  /-- A Gateway with a file also keeps its events. -/
  file : storages.gateway = .file → Evolves w.world.ledger w'.world.ledger ∧
    ∀ i answer, w.world.Answered i answer → w'.world.Answered i answer

theorem Keeps.refl (w : RestartingWorld) : Keeps storages w w :=
  ⟨Table.Grows.refl _, fun _ _ h => h, fun _ _ h => h, fun _ => ⟨Evolves.refl _, fun _ _ h => h⟩⟩

theorem Keeps.trans {w'' : RestartingWorld} (h : Keeps storages w w') (h' : Keeps storages w' w'') :
    Keeps storages w w'' where
  transactions := h.transactions.trans h'.transactions
  bodies i body hi := h'.bodies i body (h.bodies i body hi)
  answers i answer hi := h'.answers i answer (h.answers i answer hi)
  file hfile :=
    ⟨(h.file hfile).1.trans (h'.file hfile).1,
      fun i answer hi => (h'.file hfile).2 i answer ((h.file hfile).2 i answer hi)⟩

/-- **A step of the services.** -/
theorem Ok.step_world {l : Label} {world : World} (h : Ok dep w)
    (hworld : World.step dep w.world l = some world) :
    Ok dep { w with world := world } ∧ Keeps storages w { w with world := world } := by
  obtain ⟨hok, hevolves⟩ := h.world.step hworld
  -- the number of a submission is not used again
  have hgone : ∀ i answer, w.past i = some answer → world.threads i = none := by
    intro i answer hpast
    obtain ⟨body, hbody, -⟩ := h.past_applied i answer hpast
    exact World.threads_none hworld hbody (h.past_gone i answer hpast)
  refine ⟨⟨hok, hgone, fun i answer hpast => ?_⟩, hevolves.transactions, hevolves.bodies, ?_,
    fun _ => ⟨hevolves, fun i answer => h.world.answered_step hworld⟩⟩
  · obtain ⟨body, hbody, happlied⟩ := h.past_applied i answer hpast
    refine ⟨body, hevolves.bodies i body hbody, fun hsuccess => ?_⟩
    obtain ⟨tx, htx⟩ := happlied hsuccess
    exact ⟨tx, hevolves.transactions _ _ htx⟩
  · intro i answer hanswer
    rcases Option.or_eq_some_iff.mp hanswer with hnow | ⟨-, hpast⟩
    · have hanswered := h.world.answered_step hworld (World.answerOf_eq_some.mp hnow)
      exact answerOf_of_answered hanswered
    · have hnone : world.answerOf i = none := by
        rw [World.answerOf, hgone i answer hpast]
      exact Option.or_eq_some_iff.mpr (.inr ⟨hnone, hpast⟩)

/-- **A restart of the Gateway**, whether its database is lost or found again. -/
theorem Ok.restartGateway (h : Ok dep w) (storage : Storage) :
    Ok dep (w.restartGateway storage) := by
  cases storage with
  | memory =>
    -- no thread is left that relied on the events, and no handler looks at them
    have hthreads : ∀ i, (w.restartGateway .memory).world.threads i = none := fun _ => rfl
    refine ⟨⟨h.world.consistent.withoutEvents, ?_, ?_⟩, fun i _ _ => hthreads i, ?_⟩
    · intro i p hp
      rw [hthreads] at hp
      cases hp
    · intro a p hp
      obtain ⟨sent, hsent, honly, hsafe⟩ := h.world.handler_safe a p hp
      exact ⟨sent, hsent, honly,
        handler_transfer hsafe ⟨h.world.consistent, rfl, rfl, rfl, rfl, rfl⟩⟩
    · intro i answer hpast
      exact h.applied hpast
  | file =>
    -- the threads that are left were there before
    have hthread : ∀ i p, (w.world.answerOf i).map Prog.done = some p →
        w.world.threads i = some p := by
      intro i p hp
      obtain ⟨answer, hanswer, rfl⟩ := Option.map_eq_some_iff.mp hp
      exact World.answerOf_eq_some.mp hanswer
    have hsame : Evolves w.world.ledger (w.restartGateway .file).world.ledger := Evolves.refl _
    refine ⟨⟨h.world.consistent, fun i p hp => ?_, fun a p hp => ?_⟩, fun i answer hpast => ?_,
      h.past_applied⟩
    · obtain ⟨body, hbody, hsafe⟩ := h.world.thread_safe i p (hthread i p hp)
      exact ⟨body, hbody, hsafe.stable hsame⟩
    · obtain ⟨sent, hsent, honly, hsafe⟩ := h.world.handler_safe a p hp
      exact ⟨sent, hsent, honly, hsafe.stable hsame⟩
    · show (w.world.answerOf i).map Prog.done = none
      rw [World.answerOf, h.past_gone i answer hpast]
      rfl

theorem keeps_restartGateway (w : RestartingWorld) :
    Keeps storages w (w.restartGateway storages.gateway) := by
  cases hstorage : storages.gateway with
  | memory =>
    refine ⟨Table.Grows.refl _, fun _ _ h => h, fun i answer hanswer => hanswer, fun hfile => ?_⟩
    rw [hstorage] at hfile
    cases hfile
  | file =>
    have hanswers : ∀ i, (w.restartGateway .file).world.answerOf i = w.world.answerOf i :=
      fun _ => World.answerOf_of_threads rfl
    refine ⟨Table.Grows.refl _, fun _ _ h => h, fun i answer hanswer => ?_,
      fun _ => ⟨Evolves.refl _, fun i answer hanswered => ?_⟩⟩
    · rw [answerOf, hanswers]
      exact hanswer
    · rw [← World.answerOf_eq_some, hanswers]
      exact World.answerOf_eq_some.mpr hanswered

/-- **One step**, a restart among them, keeps the invariant and what is to be kept. -/
theorem Ok.step {l : RestartLabel} (h : Ok dep w) (hstep : step dep storages w l = some w')
    (hkeep : l = .restartAccount → storages.account = .file) :
    Ok dep w' ∧ Keeps storages w w' := by
  cases l with
  | step l =>
    simp only [RestartingWorld.step] at hstep
    split at hstep
    · obtain ⟨world, hworld, rfl⟩ := Option.map_eq_some_iff.mp hstep
      exact h.step_world hworld
    · cases hstep
  | restartGateway =>
    cases hstep
    exact ⟨h.restartGateway _, keeps_restartGateway w⟩
  | restartAccount =>
    cases hstep
    rw [hkeep rfl]
    exact ⟨⟨⟨h.world.consistent, h.world.thread_safe, h.world.handler_safe⟩, h.past_gone,
      h.past_applied⟩, Table.Grows.refl _, fun _ _ h => h, fun _ _ h => h,
      fun _ => ⟨Evolves.refl _, fun _ _ h => h⟩⟩

/-- **Runs**, with any number of restarts. -/
theorem run_ok {ls : List RestartLabel} (h : Ok dep w) (hrun : Run (step dep storages) w ls w')
    (hkeep : KeepsAccount storages ls) : Ok dep w' ∧ Keeps storages w w' := by
  have hcond : Along (RestartingWorld.step dep storages)
      (fun _ l _ => l = .restartAccount → storages.account = .file) w ls :=
    along_of_labels fun l hl _ _ hrestart => hkeep (hrestart ▸ hl)
  have hkept := hcond.preserves (D := fun _ _ _ => True)
    (I := fun u => Ok dep u ∧ Keeps storages w u) ?_ hrun ⟨h, Keeps.refl w⟩
  · exact hkept.1
  · rintro u l v ⟨hu, hkeeps⟩ hstep hl
    obtain ⟨hv, hkeeps'⟩ := hu.step hstep hl
    exact ⟨⟨hv, hkeeps.trans hkeeps'⟩, trivial⟩

/-! ## Recording -/

/-- Recording once, seen from a state and a later one, with any number of restarts before and
between.  What is said of transactions holds whatever the Gateway keeps its events in, since only
the Account Service's database is assumed to survive; an event in memory is lost with its Gateway,
so that events stay, and that one submission alone is told 201, is said of a Gateway with a file. -/
structure RecordedOnce (storages : Storages) (w w' : RestartingWorld) : Prop where
  /-- An event has at most one transaction. -/
  transactions_unique : (w.world.shared.account.transactions.rows.map (·.eventId)).Nodup
  /-- A transaction neither changes nor disappears. -/
  transactions_kept : ∀ tx ∈ w.world.shared.account.transactions.rows,
    tx ∈ w'.world.shared.account.transactions.rows
  /-- An event has at most one row in the Gateway. -/
  events_unique : (w.world.shared.gateway.events.rows.map (·.eventId)).Nodup
  /-- Every event has its transaction. -/
  transaction_of_event : ∀ row ∈ w.world.shared.gateway.events.rows,
    ∃ tx ∈ w.world.shared.account.transactions.rows, tx.eventId = row.eventId
  /-- After a success the transaction is there from then on, whatever the Gateway loses. -/
  applied : ∀ i body answer, w.world.shared.bodies i = some body → w.answerOf i = some answer →
    answer.status = 200 ∨ answer.status = 201 →
    ∃ tx ∈ w'.world.shared.account.transactions.rows, tx.eventId = body.eventId
  /-- A submission gets one answer. -/
  answer_final : ∀ i answer, w.answerOf i = some answer → w'.answerOf i = some answer
  /-- A Gateway with a file records as if it had never been restarted. -/
  file : storages.gateway = .file → World.ExactlyOnce w.world w'.world

/-- What exactly-once recording rests on. -/
theorem exactlyOnce_of_ok {w w' : World} (h : World.Ok dep w) (h' : World.Ok dep w')
    (hevolves : Evolves w.ledger w'.ledger)
    (hanswers : ∀ i answer, w.Answered i answer → w'.Answered i answer) :
    World.ExactlyOnce w w' where
  transactions_unique := w.shared.account.transactions.nodup
  transactions_kept _ htx := hevolves.transactions.mem htx
  events_unique := w.shared.gateway.events.nodup
  events_kept _ hrow := hevolves.events.mem hrow
  transaction_of_event row hrow :=
    Table.exists_get_iff.mp (h.consistent.transaction_of_event row hrow)
  recorded i body answer hbody hanswered hsuccess := by
    obtain ⟨⟨row, hrow⟩, tx, htx⟩ := h.rows_of_success hanswered hbody (by omega)
    exact ⟨Table.exists_get_iff.mp ⟨row, hevolves.events _ _ hrow⟩,
      Table.exists_get_iff.mp ⟨tx, hevolves.transactions _ _ htx⟩⟩
  answer_final := hanswers
  created_iff i status response hanswered := by
    obtain ⟨body, -, row, duplicate, -, hresponse, hstatus⟩ := h.answer_true hanswered
    obtain ⟨-, -, -, -, -, -, hduplicate⟩ := StoredEvent.toResponse_fields hresponse
    rw [hduplicate]
    rcases hstatus with ⟨rfl, rfl⟩ | ⟨rfl, rfl, -⟩
    · exact ⟨Or.inl rfl, by simp⟩
    · exact ⟨Or.inr rfl, by simp⟩
  created_once i j body body' answer answer' hbody hbody' hsame hanswered hanswered' h201
      h201' := by
    have hi := hevolves.creators _ (h.creator_of_created hanswered hbody h201)
    have hj := h'.creator_of_created hanswered' hbody' h201'
    rw [← hsame] at hj
    exact h'.consistent.creator_unique _ i j hi hj

/-- **Recording across restarts.**  In any two states of any run of both services in which either
process is restarted as often as it likes, a Gateway without a file losing all it has recorded each
time, every event is recorded once, as long as the Account Service keeps its transactions. -/
theorem recorded_across_restarts {ls ls' : List RestartLabel}
    (hrun : Run (step dep storages) initial ls w) (hrun' : Run (step dep storages) w ls' w')
    (hkeep : KeepsAccount storages (ls ++ ls')) : RecordedOnce storages w w' := by
  obtain ⟨hok, -⟩ := run_ok initial_ok hrun fun h => hkeep (List.mem_append_left _ h)
  obtain ⟨hok', hkeeps⟩ := run_ok hok hrun' fun h => hkeep (List.mem_append_right _ h)
  exact
    { transactions_unique := w.world.shared.account.transactions.nodup
      transactions_kept := fun tx htx => hkeeps.transactions.mem htx
      events_unique := w.world.shared.gateway.events.nodup
      transaction_of_event := fun row hrow =>
        Table.exists_get_iff.mp (hok.world.consistent.transaction_of_event row hrow)
      applied := by
        intro i body answer hbody hanswer hsuccess
        obtain ⟨body', hbody', happlied⟩ := hok.applied hanswer
        cases hbody.symm.trans hbody'
        obtain ⟨tx, htx⟩ := happlied (by omega)
        exact Table.exists_get_iff.mp ⟨tx, hkeeps.transactions _ _ htx⟩
      answer_final := hkeeps.answers
      file := fun hfile =>
        exactlyOnce_of_ok hok.world hok'.world (hkeeps.file hfile).1 (hkeeps.file hfile).2 }

/-! ## A run that can be executed -/

/-- The status submission `i` has been answered with. -/
def statusOf (w : RestartingWorld) (i : ℕ) : Option ℕ := (w.answerOf i).map Answer.status

/-- A Gateway that keeps its database in memory, with an Account Service that has a file. -/
def forgetful : Storages := ⟨.memory, .file⟩

/-- Submission 0 is recorded. -/
def firstRun (body : EventRequest) : List RestartLabel := (recordingRun 0 0 body).map .step

/-- Submission 1 is answered by a replay of the first, and recorded. -/
def replay (body : EventRequest) : List Label :=
  .submit 1 body :: List.replicate 5 (.gateway 1 calm) ++
    .deliver 1 :: List.replicate 3 (.account 1 calm.surroundings) ++
      List.replicate 5 (.gateway 1 calm)

/-- Both processes are restarted, and the event is submitted again. -/
def replayRun (body : EventRequest) : List RestartLabel :=
  [.restartGateway, .restartAccount] ++ (replay body).map .step

/-- The Gateway has forgotten the event it answered with a 201, and answers the replay with another;
there is one transaction. -/
theorem recorded_across_restarts_replayed : ∃ w w', RecordedOnce forgetful w w' ∧
    w.statusOf 0 = some 201 ∧ w'.statusOf 0 = some 201 ∧ w'.statusOf 1 = some 201 ∧
    w'.world.shared.account.transactions.rows.length = 1 := by
  have hfirst : (((firstRun sampleEvent).foldlM (step defaultDeployment forgetful) initial).map
      (·.statusOf 0)) = some (some 201) := by decide +kernel
  have hreplay : (((firstRun sampleEvent ++ replayRun sampleEvent).foldlM
      (step defaultDeployment forgetful) initial).map fun w =>
        (w.statusOf 1, w.world.shared.account.transactions.rows.length)) = some (some 201, 1) := by
    decide +kernel
  obtain ⟨w', hrun, hw'⟩ := Option.map_eq_some_iff.mp hreplay
  obtain ⟨hstatus', hlength⟩ := Prod.mk.inj hw'
  obtain ⟨w, hfirstRun, hreplayRun⟩ := run_append.mp hrun
  have hstatus : w.statusOf 0 = some 201 := by
    rw [show (firstRun sampleEvent).foldlM (step defaultDeployment forgetful) initial = some w
      from hfirstRun] at hfirst
    exact Option.some.inj hfirst
  have honce : RecordedOnce forgetful w w' :=
    recorded_across_restarts hfirstRun hreplayRun fun _ => rfl
  obtain ⟨answer, hanswer, h201⟩ := Option.map_eq_some_iff.mp hstatus
  refine ⟨w, w', honce, hstatus, ?_, hstatus', hlength⟩
  rw [statusOf, honce.answer_final 0 answer hanswer, Option.map_some, h201]

end RestartingWorld

end EventLedger
