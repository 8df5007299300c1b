import Mathlib.Data.List.Sort
import Pyre.Base.Run
import Pyre.Base.Table
import Pyre.Proto

/-!
The one-time migration of a single daemon's database to the shards and the index of the hybrid
mode, read or write by read or write. Each may fail, and the process may die and be started
again before any of them.

The files are those of the state directory: the old database, the sentinel, a shard for each
session and the search index.
-/

set_option autoImplicit false

namespace Pyre.Migration
open Base

/-- A row of `panes` in the old database. -/
structure PaneRow where
  rowid : Nat
  id : PaneId
  session : SessionId
  argv : Text
  cwd : Option Text
  closedAt : Option Int
  deriving DecidableEq, Repr

structure LegacyBlock where
  id : BlockId
  pane : PaneId
  session : SessionId
  command : Text
  startedAt : Int
  exitCode : Option Int
  stdoutBlobPath : Option Text
  deriving DecidableEq, Repr

structure LegacyDb where
  panes : List PaneRow
  blocks : List LegacyBlock
  rowids_nodup : (panes.map PaneRow.rowid).Nodup

/-- What a shard holds of a pane: `slot_idx`, `shell` and `cwd`. -/
abbrev ShardRow := Nat × Text × Text

abbrev Shard := Table Nat (Text × Text)

namespace LegacyDb

def empty : LegacyDb := ⟨[],[],List.nodup_nil⟩

/-- `SELECT DISTINCT session_id FROM panes` -/
def paneSessions (db : LegacyDb) : List SessionId := (db.panes.map PaneRow.session).dedup

/-- `SELECT DISTINCT session_id FROM blocks` -/
def blockSessions (db : LegacyDb) : List SessionId := (db.blocks.map LegacyBlock.session).dedup

/-- `SELECT rowid, argv, cwd FROM panes WHERE session_id = ?1 AND closed_at IS NULL` -/
def fetchPanesForSession (db : LegacyDb) (sid : SessionId) : List ShardRow :=
  (db.panes.filter fun row => row.session = sid ∧ row.closedAt = none).map fun row =>
    (row.rowid,row.argv,row.cwd.getD [])

end LegacyDb

/-- `Vec::dedup`: of equal neighbours one is kept. -/
def dedupNeighbours : List SessionId → List SessionId
  | a :: b :: ids => if a = b then dedupNeighbours (b :: ids) else a :: dedupNeighbours (b :: ids)
  | ids => ids

/-- Session ids sort as their UUIDs do. -/
def sortedIds (ids : List SessionId) : List SessionId :=
  dedupNeighbours (ids.insertionSort fun a b => a.uuid ≤ b.uuid)

structure Document where
  block : BlockId
  pane : PaneId
  session : SessionId
  startedAt : Int
  command : Text
  stdout : Text
  exitCode : Int
  deriving DecidableEq, Repr

def noExitCode : Int := -9223372036854775808

/-- The document of a block; `blob` is what was read at the path of its output, if anything. -/
def LegacyBlock.document (b : LegacyBlock) (blob : Option Text) : Document where
  block := b.id
  pane := b.pane
  session := b.session
  startedAt := b.startedAt
  command := b.command
  stdout := if b.stdoutBlobPath.isSome then blob.getD [] else []
  exitCode := b.exitCode.getD noExitCode

structure Disk where
  legacy : Option LegacyDb
  sentinel : Bool
  shards : Table SessionId Shard
  index : Option (List Document)

namespace Disk

def db (d : Disk) : LegacyDb := d.legacy.getD .empty

def shard (d : Disk) (sid : SessionId) : Shard := (d.shards.lookup sid).getD ∅

def HasShard (d : Disk) (sid : SessionId) : Prop := (d.shards.lookup sid).isSome

instance (d : Disk) (sid : SessionId) : Decidable (d.HasShard sid) :=
  inferInstanceAs (Decidable (_ = true))

/-- The file is made if there is none. -/
def openShard (d : Disk) (sid : SessionId) : Disk :=
  { d with shards := d.shards.insert sid (d.shard sid) }

/-- The insertion of a row, which replaces one with the same slot. -/
def insertPane (d : Disk) (sid : SessionId) (row : ShardRow) : Disk :=
  { d with shards := d.shards.insert sid ((d.shard sid).insert row.1 row.2) }

end Disk

inductive MigrationReport where
  | alreadyDone
  | noLegacy
  | migrated (sessions blocks : Nat)
  deriving DecidableEq, Repr

/-- What `migrate_to_hybrid` has collected: the sessions still to be looked at, the blocks, and
how many sessions it has counted. -/
structure Collected where
  todo : List SessionId
  blocks : List LegacyBlock
  migrated : Nat

/-- What the process does next. -/
inductive Phase where
  | down
  | createDir
  | findSentinel
  | findLegacy
  | backup
  | openLegacy
  | collectPaneSessions
  | collectBlockSessions (paneSids : List SessionId)
  | collectBlocks (ids : List SessionId)
  | nextSession (c : Collected)
  | createSessionDir (sid : SessionId) (c : Collected)
  | openShard (sid : SessionId) (c : Collected)
  | createTable (sid : SessionId) (c : Collected)
  | fetchPanes (sid : SessionId) (c : Collected)
  | insertPanes (sid : SessionId) (rows : List ShardRow) (c : Collected)
  | findIndex (c : Collected)
  | removeIndex (c : Collected)
  | openIndex (c : Collected)
  | addBlocks (rest : List LegacyBlock) (c : Collected)
  | createSentinel (report : MigrationReport)
  | fillSentinel (report : MigrationReport)
  | done (report : MigrationReport)
  | failed

structure Progress where
  disk : Disk
  phase : Phase

/-- The process is started, after it has died or returned; the next read or write is done, or
fails; a block is added to the index, with its output as far as it can be read, or is not. -/
inductive MigrationStep where
  | boot
  | op (ok : Bool)
  | addBlock (blob : Option Text) (ok : Bool)
  deriving DecidableEq, Repr

namespace Progress

def start (legacy : Option LegacyDb) (index : Option (List Document)) : Progress :=
  ⟨⟨legacy,false,∅,index⟩,.down⟩

/-- On to the next phase, or the error is returned. -/
def orFail (s : Progress) (ok : Bool) (phase : Phase) : Progress :=
  { s with phase := if ok then phase else .failed }

/-- As `orFail`, where the write changes the files. -/
def writeOrFail (s : Progress) (ok : Bool) (disk : Disk) (phase : Phase) : Progress :=
  if ok then ⟨disk,phase⟩ else { s with phase := .failed }

def perform (s : Progress) (ok : Bool) : Option Progress :=
  match s.phase with
  | .down => none
  | .createDir => some (s.orFail ok .findSentinel)
  | .findSentinel =>
    some { s with phase := if ok ∧ s.disk.sentinel then .done .alreadyDone else .findLegacy }
  | .findLegacy =>
    some { s with phase := if ok ∧ s.disk.legacy.isSome then .backup else .createSentinel .noLegacy }
  | .backup => some (s.orFail ok .openLegacy)
  | .openLegacy => some (s.orFail ok .collectPaneSessions)
  -- a query that fails yields no rows from here on
  | .collectPaneSessions =>
    some { s with phase := .collectBlockSessions (if ok then s.disk.db.paneSessions else []) }
  | .collectBlockSessions paneSids =>
    let blockSids := if ok then s.disk.db.blockSessions else []
    some { s with phase := .collectBlocks (sortedIds (paneSids ++ blockSids)) }
  | .collectBlocks ids =>
    some { s with phase := .nextSession ⟨ids,if ok then s.disk.db.blocks else [],0⟩ }
  | .nextSession c =>
    match c.todo with
    | [] => some { s with phase := .findIndex c }
    | sid :: rest =>
      some { s with phase :=
        if ok ∧ s.disk.HasShard sid then
          .nextSession { c with todo := rest, migrated := c.migrated+1 }
        else .createSessionDir sid { c with todo := rest } }
  | .createSessionDir sid c => some (s.orFail ok (.openShard sid c))
  | .openShard sid c => some (s.writeOrFail ok (s.disk.openShard sid) (.createTable sid c))
  | .createTable sid c => some (s.orFail ok (.fetchPanes sid c))
  | .fetchPanes sid c =>
    some { s with phase :=
      .insertPanes sid (if ok then s.disk.db.fetchPanesForSession sid else []) c }
  | .insertPanes sid rows c =>
    match rows with
    | [] => some { s with phase := .nextSession { c with migrated := c.migrated+1 } }
    | row :: rest => some (s.writeOrFail ok (s.disk.insertPane sid row) (.insertPanes sid rest c))
  | .findIndex c =>
    some { s with phase := if ok ∧ s.disk.index.isSome then .removeIndex c else .openIndex c }
  | .removeIndex c => some (s.writeOrFail ok { s.disk with index := none } (.openIndex c))
  | .openIndex c =>
    some (s.writeOrFail ok { s.disk with index := some (s.disk.index.getD []) }
      (.addBlocks c.blocks c))
  | .addBlocks rest c =>
    match rest with
    | [] => some { s with phase := .createSentinel (.migrated c.migrated c.blocks.length) }
    | _ :: _ => none
  | .createSentinel report =>
    some (s.writeOrFail ok { s.disk with sentinel := true } (.fillSentinel report))
  | .fillSentinel report => some (s.orFail ok (.done report))
  | .done _ => none
  | .failed => none

def step (s : Progress) : MigrationStep → Option Progress
  | .boot => some { s with phase := .createDir }
  | .op ok => s.perform ok
  | .addBlock blob ok =>
    match s.phase with
    | .addBlocks (b :: rest) c =>
      -- a block that cannot be added is passed over
      some ⟨if ok then { s.disk with index := s.disk.index.map (· ++ [b.document blob]) }
        else s.disk,.addBlocks rest c⟩
    | _ => none

end Progress

theorem mem_dedupNeighbours {sid : SessionId} (ids : List SessionId) :
    sid ∈ dedupNeighbours ids ↔ sid ∈ ids := by
  fun_induction dedupNeighbours ids with
  | case1 b ids ih => simp [ih]
  | case2 a b ids h ih => simp [ih]
  | case3 ids h => rfl

theorem mem_sortedIds {sid : SessionId} {ids : List SessionId} :
    sid ∈ sortedIds ids ↔ sid ∈ ids := by
  rw [sortedIds,mem_dedupNeighbours,List.mem_insertionSort]

end Pyre.Migration
