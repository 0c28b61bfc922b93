import EventLedger.LedgerRuns

/-!
# The composed system with restarts

The composed system once more, where either process may be stopped and started
again at any moment.  Stopping the Gateway loses the submissions it has not
answered, its circuit breaker and the injected fault; stopping the Account
Service loses the handlers that have not sent their answers, so that whoever waits
for one of them gets a transport error.  Messages that are under way stay so.

A database in a file is found again as it was: every method commits before it
returns, so a process that is stopped in the middle of one has done all of it or
nothing.  A database in memory, the default of both services, is created anew.
-/
namespace EventLedger

open Program LabelledRun KeyedTable

/-- Where a service keeps its database. -/
inductive Storage where
  /-- `":memory:"`. -/
  | memory
  | file
  deriving DecidableEq

/-- What a service finds when it is started again. -/
def Storage.reopen {α : Type} (storage : Storage) (fresh kept : α) : α :=
  match storage with
  | .memory => fresh
  | .file => kept

/-- `GATEWAY_DB_PATH` and `ACCOUNT_DB_PATH`. -/
structure Storages where
  gateway : Storage
  account : Storage

/-- The composed system, with what is left of the processes before. -/
structure RestartingWorld where
  world : World
  /-- The answers that were given from a database that is gone. -/
  past : ℕ → Option Answer
  /-- The attempts that reached a process that is gone. -/
  cutOff : ℕ → Bool

/-- One step of the system. -/
inductive RestartLabel where
  | step (l : Label)
  | restartGateway
  | restartAccount

/-- What submission `i` has been answered. -/
def World.answerOf (w : World) (i : ℕ) : Option Answer :=
  match w.threads i with
  | some (.done answer) => some answer
  | _ => none

namespace RestartingWorld

/-- Both services started for the first time. -/
def initial : RestartingWorld := ⟨World.initial, fun _ => none, fun _ => false⟩

/-- What submission `i` has been answered, by this process or one before. -/
def answerOf (w : RestartingWorld) (i : ℕ) : Option Answer :=
  (w.world.answerOf i).or (w.past i)

/-- A handler that went with its process does nothing more. -/
def Goes (w : RestartingWorld) : Label → Bool
  | .account a _ => !w.cutOff a
  | .crash a _ => !w.cutOff a
  | _ => true

/-- The Gateway is stopped and started again. -/
def restartGateway (storage : Storage) (w : RestartingWorld) : RestartingWorld :=
  { w with
    world :=
      { w.world with
        shared :=
          { w.world.shared with
            gateway := storage.reopen GatewayDB.new w.world.shared.gateway
            circuit := {}
            fault := none
            creators := storage.reopen [] w.world.shared.creators }
        threads := fun i => storage.reopen none ((w.world.answerOf i).map Prog.done) }
    past := fun i => storage.reopen (w.answerOf i) (w.past i) }

/-- The Account Service is stopped and started again. -/
def restartAccount (storage : Storage) (w : RestartingWorld) : RestartingWorld :=
  { w with
    world :=
      { w.world with
        shared :=
          { w.world.shared with
            account := storage.reopen AccountDB.new w.world.shared.account } }
    cutOff := fun a => (w.world.handlers a).isSome }

/-- Executing one step; `none` when it is not possible. -/
def step (dep : Deployment) (storages : Storages) (w : RestartingWorld) :
    RestartLabel → Option RestartingWorld
  | .step l =>
    if w.Goes l then (World.step dep w.world l).map fun world => { w with world := world }
    else none
  | .restartGateway => some (w.restartGateway storages.gateway)
  | .restartAccount => some (w.restartAccount storages.account)

/-- What the Account Service has stored is never lost: it has a file, or is never restarted. -/
def KeepsAccount (storages : Storages) (ls : List RestartLabel) : Prop :=
  RestartLabel.restartAccount ∈ ls → storages.account = .file

end RestartingWorld

end EventLedger
