import Haste.Foundation.Runs
import Haste.Store.Open
import Haste.Store.Sweep

/-!
# The store as a state machine

A database file is closed or has a store open on it.  Each operation of the
machine is one atomic step: a whole `Create`, `Get` or `Meta`, or one of the
parts of a flush or a sweep, which other calls may come between.  A flush first
takes the queue of access times and then writes it back; a sweep flushes and
then deletes.  The flushes and sweeps are those of the sweeper goroutine, which
runs one after the other.  `FlushAccess` itself does not keep a second call out,
and `Close` makes one that the sweeper may be in the middle of; flushes that
overlap are steps of the machine in `Haste.Store.Reading`, which has every call
in its parts.
-/

namespace Haste
namespace Store

open Go
open Foundation
open Foundation.Transaction

/-- How far the sweeper has come with a flush or a sweep. -/
inductive Sweeper
  | idle
  /-- The queue is taken and not yet written back; a sweep follows or not. -/
  | flushing (pending : Access) (sweeping : Bool)
  /-- The flush of a sweep is committed. -/
  | sweeping (flushed : Int)

/-- `Store`: the database, the queue of access times and the sweeper. -/
structure OpenStore where
  options : Options
  db : Database
  access : Access
  sweeper : Sweeper

/-- A database file, with a store open on it or not.  A closed file comes with
the options it was last open with. -/
inductive System
  | closed (file : File) (last : Option Options)
  | opened (store : OpenStore)

/-- The steps of the machine. -/
inductive Op
  /-- `Open`, which may stop after some of its statements. -/
  | openFile (options : Options) (stopped : Option Nat)
  /-- The process closes its handles or dies. -/
  | shut
  | create (env : Env) (request : Request)
  | get (env : Env) (code : Bytes)
  | metadata (env : Env) (code : Bytes)
  /-- The start of the sweeper's `FlushAccess`, on its own or within `Sweep`. -/
  | takeAccess (sweeping : Bool)
  /-- The rest of `FlushAccess`. -/
  | flushAccess (env : Env)
  /-- The rest of `Sweep`. -/
  | sweep (env : Env)

/-- What a step answers. -/
inductive Answer
  | silent
  | opened
  | failed (error : Error)
  | created (paste : Paste)
  | got (paste : Paste) (content : Bytes)
  | described (paste : Paste)
  | flushed (count : Int)
  /-- A committed sweep, with the error of what follows the commit. -/
  | swept (result : SweepResult) (error : Option Error)
  deriving DecidableEq

/-- Whether a call has committed a write or a sweep. -/
def Answer.commits : Answer → Bool
  | .created _ => true
  | .swept _ _ => true
  | _ => false

namespace OpenStore

variable (store : OpenStore)

/-- `recordAccess`. -/
def recordAccess (seq : Nat) (accessedAt : Int) : OpenStore :=
  { store with access := store.access.insert seq accessedAt }

/-- `Create` on an open store. -/
def create (env : Env) (request : Request) : Answer × OpenStore :=
  match Store.create store.options env request store.db with
  | (.ok paste, db) => (.created paste, { store with db })
  | (.error error, db) => (.failed error, { store with db })

/-- `Get` on an open store. -/
def get (env : Env) (code : Bytes) : Answer × OpenStore :=
  match Store.get store.options env code store.db with
  | .ok (paste, content) =>
      (.got paste content, store.recordAccess paste.seq (unix env.now))
  | .error error => (.failed error, store)

/-- `Meta` on an open store. -/
def metadata (env : Env) (code : Bytes) : Answer × OpenStore :=
  match Store.metadata store.options env code store.db with
  | .ok paste => (.described paste, store)
  | .error error => (.failed error, store)

/-- The start of the sweeper's `FlushAccess`: the queue is swapped for an empty
one.  The sweeper starts none while it is in another. -/
def takeAccess (sweeping : Bool) : Answer × OpenStore :=
  match store.sweeper with
  | .idle =>
      (.silent, { store with
        access := ∅
        sweeper := .flushing store.access sweeping })
  | _ => (.silent, store)

/-- How a flush ends: on success a sweep goes on to delete. -/
def afterFlush (sweeping : Bool) :
    Except Error Int × Database → Answer × OpenStore
  | (.ok count, db) =>
      if sweeping then
        (.silent, { store with db, sweeper := .sweeping count })
      else (.flushed count, { store with db, sweeper := .idle })
  | (.error error, db) => (.failed error, { store with db, sweeper := .idle })

/-- The rest of `FlushAccess`: the taken entries are written back. -/
def flushAccess (env : Env) : Answer × OpenStore :=
  match store.sweeper with
  | .flushing pending sweeping =>
      store.afterFlush sweeping (transact (flushTx env pending) store.db)
  | _ => (.silent, store)

/-- How a sweep ends. -/
def afterSweepTx (env : Env) :
    Except Error SweepResult × Database → Answer × OpenStore
  | (.ok result, db) =>
      (.swept result (afterSweep env result db),
        { store with db, sweeper := .idle })
  | (.error error, db) => (.failed error, { store with db, sweeper := .idle })

/-- The rest of `Sweep`: the deleting transaction and what follows it. -/
def sweep (env : Env) : Answer × OpenStore :=
  match store.sweeper with
  | .sweeping flushed =>
      store.afterSweepTx env
        (transact (sweepTx store.options env flushed) store.db)
  | _ => (.silent, store)

end OpenStore

/-- `Open` on a file. -/
def openStore
    (options : Options)
    (stopped : Option Nat)
    (file : File)
    (last : Option Options) : Answer × System :=
  match openFile stopped file with
  | (true, next) =>
      (.opened, .opened
        { options, db := next.content, access := ∅, sweeper := .idle })
  | (false, next) => (.silent, .closed next last)

namespace System

/-- A step on an open store. -/
def onStore (result : Answer × OpenStore) : Answer × System :=
  (result.1, .opened result.2)

/-- One step and its answer.  What does not apply to the state does nothing. -/
def perform (system : System) (op : Op) : Answer × System :=
  match system, op with
  | .closed file last, .openFile options stopped =>
      openStore options stopped file last
  | .opened store, .shut => (.silent, .closed store.db.file (some store.options))
  | .opened store, .create env request => onStore (store.create env request)
  | .opened store, .get env code => onStore (store.get env code)
  | .opened store, .metadata env code => onStore (store.metadata env code)
  | .opened store, .takeAccess sweeping => onStore (store.takeAccess sweeping)
  | .opened store, .flushAccess env => onStore (store.flushAccess env)
  | .opened store, .sweep env => onStore (store.sweep env)
  | system, _ => (.silent, system)

/-- The answer of one step. -/
def answer (system : System) (op : Op) : Answer := (system.perform op).1

/-- The state after one step. -/
def step (system : System) (op : Op) : System := (system.perform op).2

/-- What the file holds. -/
def content : System → Database
  | .closed file _ => file.content
  | .opened store => store.db

/-- The options of the open store, or those the file was last open with. -/
def settings : System → Option Options
  | .closed _ last => last
  | .opened store => some store.options

/-- The state after a run. -/
abbrev run (system : System) (ops : List Op) : System :=
  Runs.run step system ops

theorem run_cons (system : System) (op : Op) (rest : List Op) :
    system.run (op :: rest) = (system.step op).run rest := rfl

theorem run_append (system : System) (before after : List Op) :
    system.run (before ++ after) = (system.run before).run after :=
  Runs.run_append step system before after

/-- In an open store the counter of stored bytes is exact. -/
def Sound : System → Prop
  | .closed _ _ => True
  | .opened store => store.db.Accounted

theorem sound_closed (file : File) (last : Option Options) :
    (System.closed file last).Sound := trivial

/-- The store on a file opened for the first time. -/
def openedFresh (options : Options) : OpenStore where
  options := options
  db := (openFile none .fresh).2.content
  access := ∅
  sweeper := .idle

theorem run_openFresh (options : Options) :
    (System.closed .fresh none).run [.openFile options none] =
      .opened (openedFresh options) := rfl

end System

end Store
end Haste
