import Sparcs.Gateway.DbAccess

/-! When the lock on the database connection is given back: only `getCurrentDataFileSet` has
a handler that does so.
-/

namespace Sparcs.Gateway

open Discovery FuelLoop
open Locked

/-- The numbers of a row can be read, as far as they are in range. -/
def DirectoryFields.Reads (row : DirectoryFields) : Prop :=
  row.year.isSome ∧ ∃ month, row.month = some month
    ∧ (¬(month.toUInt32 < 1 ∨ month.toUInt32 > 12) → ∃ day, row.day = some day
      ∧ (¬day.toUInt32 ≤ 0 → row.hour.isSome ∧ row.id.isSome))

/-- The first transaction of `getCurrentDirectory` throws nowhere. -/
def DirectoryAnswers.Selects (a : DirectoryAnswers) : Prop :=
  a.opens ∧ a.commits ∧ ∃ r, a.selectCurrent = some r
    ∧ ((∃ row, r = [row] ∧ row.Reads)
      ∨ r.length ≠ 1 ∧ ∃ r, a.selectProcessed = some r ∧ ∀ row, r = [row] → row.Reads)

/-- A turn throws nowhere in what it does with the directory's row. -/
def DirectoryTurn.Succeeds (a : DirectoryTurn) (dataDir : DataDir) : Prop :=
  (a.verifyDataDirPresent = .dirPresent → dataDir.state = .proposed →
    a.addDirRecord.Succeeds ∧ a.selectCurrent.Succeeds
      ∧ ((a.selectCurrent.exec.getD []).head?.bind DirectoryFields.id).isSome)
  ∧ (a.verifyDataDirPresent = .dirNotPresent → dataDir.state = .current →
    a.abandonDirRecord.Succeeds)

/-- No turn of the loop does. -/
def TurnsSucceed : List DirectoryTurn → DataDir → Prop
  | [], _ => True
  | a :: rest, dataDir =>
      let checked := if dataDir.state = .processed then incDataDir dataDir else dataDir
      (dataDir.state = .processed → isDataDirAtPresent checked a.firstClock = false) →
        a.Succeeds checked
        ∧ (a.verifyDataDirPresent = .dirNotPresent →
            isDataDirAtPresent (incDataDir checked) a.clock = false →
              TurnsSucceed rest (incDataDir checked))

/-- Nothing that `getCurrentDirectory` does with the lock held throws. -/
def DirectoryAnswers.Succeeds (a : DirectoryAnswers) (dataDir : DataDir) : Prop :=
  a.Selects
  ∧ ∀ start, (selectDataDir a dataDir).result = some (some start) →
      TurnsSucceed a.turns { start with epochDay := createTimeFromDataDir start / 86400 }

/-- There is exactly one configuration row, and it can be read and the query committed. -/
def CassandraAnswers.Succeeds (a : CassandraAnswers) : Prop :=
  a.opens ∧ a.commits ∧ ∃ row, a.select = some [row] ∧ row.read.isSome

def RabbitmqAnswers.Succeeds (a : RabbitmqAnswers) : Prop :=
  a.opens ∧ a.commits ∧ ∃ row, a.select = some [row] ∧ (row.read a.upmuSerialNumber).isSome

theorem Statement.leaves_run {α : Type} (statement : Statement α) : Leaves 1 1 statement.run :=
  .bind (.throwUnless _) fun _ => .bind (.call _) fun _ => .bind (.throwUnless _) fun _ => .pure

theorem Statement.run_isSome {α : Type} (statement : Statement α)
    : statement.run.result.isSome ↔ statement.Succeeds := by
  obtain ⟨opens, exec, commits⟩ := statement
  cases opens <;> cases exec <;> cases commits <;> simp [run, throwUnless, Succeeds]

theorem Statement.run_eq_some {α : Type} (statement : Statement α) (r : α)
    : statement.run.result = some r ↔ statement.Succeeds ∧ statement.exec = some r := by
  obtain ⟨opens, exec, commits⟩ := statement
  cases opens <;> cases exec <;> cases commits <;> simp [run, throwUnless, Succeeds]

theorem leaves_closeTransaction (commits : Bool) : Leaves 1 0 (closeTransaction commits) :=
  .bind (.throwUnless _) fun _ => .release

theorem leaves_readDataDir (commits : Bool) (state : DataDirState) (row : DirectoryFields)
    (dataDir : DataDir)
    : Leaves 1 0 (readDataDir commits state row dataDir) := by
  have close {value : Option DataDir}
      : Leaves 1 0 (do closeTransaction commits; return value) :=
    .bind (leaves_closeTransaction commits) fun _ => .pure
  refine .bind (.call _) fun year => .bind (.call _) fun month => ?_
  split
  · exact close
  · refine .bind (.call _) fun day => ?_
    split
    · exact close
    · exact .bind (.call _) fun hour => .bind (.call _) fun id => close

theorem leaves_selectDataDir (a : DirectoryAnswers) (dataDir : DataDir)
    : Leaves 0 0 (selectDataDir a dataDir) := by
  refine .bind .acquire fun _ => .bind (.throwUnless _) fun _ => .bind (.call _) fun r => ?_
  split
  · exact leaves_readDataDir ..
  · refine .bind (.call _) fun r => ?_
    split
    · exact leaves_readDataDir ..
    · exact .bind (leaves_closeTransaction _) fun _ => .pure

theorem leaves_checkDataDir (a : DirectoryTurn) (dataDir : DataDir)
    : Leaves 0 0 (checkDataDir a dataDir) := by
  unfold checkDataDir
  split
  · exact .pure
  · split
    · refine .bind ?_ fun _ => .pure
      exact .bind .acquire fun _ => .bind (Statement.leaves_run _) fun _ =>
        .bind (Statement.leaves_run _) fun _ => .bind (.call _) fun _ => .release
    · exact .pure
  · split
    · refine .bind ?_ fun _ => .pure
      exact .bind .acquire fun _ => .bind (Statement.leaves_run _) fun _ => .release
    · exact .pure

theorem leaves_directoryTurn (a : DirectoryTurn) (dataDir : DataDir)
    : Leaves 0 0 (directoryTurn a dataDir) := by
  unfold directoryTurn
  dsimp only
  split_ifs
  · exact .pure
  · exact leaves_checkDataDir ..
  · exact leaves_checkDataDir ..

/-- By induction on the turns: each leaves the lock as it finds it. -/
theorem leaves_directoryLoop (turns : List DirectoryTurn) (dataDir : DataDir)
    : Leaves 0 0 (directoryLoop turns dataDir) := by
  induction turns generalizing dataDir with
  | nil => exact .pure
  | cons a rest ih =>
      refine .bind (leaves_directoryTurn a dataDir) fun turn => ?_
      cases turn with
      | again next => exact ih next
      | leave sts => exact .pure

theorem leaves_findDirectory (a : DirectoryAnswers) (dataDir : DataDir)
    : Leaves 0 0 (findDirectory a dataDir) := by
  refine .bind (leaves_selectDataDir a dataDir) fun selected => ?_
  cases selected with
  | none => exact .pure
  | some start => exact leaves_directoryLoop ..

theorem closeTransaction_isSome {α : Type} (commits : Bool) (value : α)
    : (do closeTransaction commits; return value : Locked α).result.isSome ↔ commits := by
  cases commits <;> simp [closeTransaction, throwUnless]

theorem readDataDir_isSome (commits : Bool) (state : DataDirState) (row : DirectoryFields)
    (dataDir : DataDir)
    : (readDataDir commits state row dataDir).result.isSome ↔ commits ∧ row.Reads := by
  obtain ⟨year, month, day, hour, id⟩ := row
  unfold readDataDir DirectoryFields.Reads
  cases year with
  | none => simp
  | some year =>
      cases month with
      | none => simp
      | some month =>
          simp only [result_bind, result_call, Option.bind_some, Option.isSome_some, true_and,
            Option.some.injEq, exists_eq_left']
          split_ifs with outOfRange
          · simp only [outOfRange, not_true_eq_false, false_implies, and_true]
            exact closeTransaction_isSome ..
          · cases day with
            | none =>
                refine iff_of_false (by simp) ?_
                intro reads
                obtain ⟨day, missing, -⟩ := reads.2 outOfRange
                cases missing
            | some day =>
                simp only [outOfRange, not_false_eq_true, true_implies, result_bind, result_call,
                  Option.bind_some, Option.some.injEq, exists_eq_left']
                split_ifs with early
                · simp only [early, not_true_eq_false, false_implies, and_true]
                  exact closeTransaction_isSome ..
                · cases hour with
                  | none => simp [early]
                  | some hour =>
                      cases id with
                      | none => simp [early]
                      | some id =>
                          simp only [early, not_false_eq_true, true_implies, result_bind,
                            result_call, Option.bind_some, Option.isSome_some, and_true]
                          rw [← result_bind]
                          exact closeTransaction_isSome ..

/-- The first transaction ends without an exception. -/
theorem selectDataDir_isSome (a : DirectoryAnswers) (dataDir : DataDir)
    : (selectDataDir a dataDir).result.isSome ↔ a.Selects := by
  obtain ⟨opens, selectCurrent, selectProcessed, commits, turns⟩ := a
  unfold selectDataDir DirectoryAnswers.Selects
  cases opens with
  | false => simp [throwUnless]
  | true =>
      cases selectCurrent with
      | none => simp [throwUnless]
      | some r =>
          simp only [throwUnless, if_true, result_bind, result_acquire, result_call,
            Option.bind_some, Option.some.injEq, exists_eq_left', true_and]
          split
          next row =>
            rw [readDataDir_isSome]
            simp
          next notOne =>
            have length : r.length ≠ 1 := by
              intro one
              obtain ⟨row, single⟩ := List.length_eq_one_iff.mp one
              exact notOne row single
            have onlySecond (selects : Prop)
                : ((∃ row, r = [row] ∧ row.Reads) ∨ r.length ≠ 1 ∧ selects) ↔ selects := by
              constructor
              · intro either
                rcases either with ⟨row, single, -⟩ | ⟨-, holds⟩
                · exact absurd single (notOne row)
                · exact holds
              · intro holds
                exact .inr ⟨length, holds⟩
            rw [onlySecond]
            cases selectProcessed with
            | none => simp
            | some r =>
                simp only [result_bind, result_call, Option.bind_some, Option.some.injEq,
                  exists_eq_left']
                split
                next row =>
                  rw [readDataDir_isSome]
                  simp
                next notOne =>
                  rw [closeTransaction_isSome]
                  have noRow (row : DirectoryFields) : r ≠ [row] := fun single => notOne row single
                  simp [noRow]

theorem addDataDir_isSome (a : DirectoryTurn)
    : (addDataDir a).result.isSome
      ↔ a.addDirRecord.Succeeds ∧ a.selectCurrent.Succeeds
        ∧ ((a.selectCurrent.exec.getD []).head?.bind DirectoryFields.id).isSome := by
  simp only [addDataDir, result_bind_isSome, result_acquire, result_release, result_call,
    Option.isSome_some, and_true, Statement.run_eq_some]
  constructor
  · intro ends
    obtain ⟨_, _, _, ⟨adds, _⟩, r, ⟨selects, answer⟩, id, read⟩ := ends
    refine ⟨adds, selects, ?_⟩
    rw [answer, Option.getD_some, read]
    rfl
  · intro succeeds
    obtain ⟨adds, selects, reads⟩ := succeeds
    obtain ⟨r, answer⟩ := Option.isSome_iff_exists.mp selects.2.1
    rw [answer, Option.getD_some] at reads
    obtain ⟨id, read⟩ := Option.isSome_iff_exists.mp reads
    obtain ⟨added, done⟩ := Option.isSome_iff_exists.mp adds.2.1
    exact ⟨(), trivial, added, ⟨adds, done⟩, r, ⟨selects, answer⟩, id, read⟩

theorem abandonDataDir_isSome (a : DirectoryTurn)
    : (abandonDataDir a).result.isSome ↔ a.abandonDirRecord.Succeeds := by
  rw [← Statement.run_isSome, abandonDataDir, result_bind, result_acquire, Option.bind_some,
    result_bind]
  cases a.abandonDirRecord.run.result <;> simp

/-- Where a turn goes after the check. -/
def afterCheck (a : DirectoryTurn) (dataDir : DataDir) : Turn DataDir DataDirStatus :=
  match a.verifyDataDirPresent with
  | .dirNotPresent => leaveDataDir a dataDir
  | _ => .leave .dataDirOk

/-- A check throws nowhere just when its statements succeed. -/
theorem checkDataDir_eq_some (a : DirectoryTurn) (dataDir : DataDir)
    (turn : Turn DataDir DataDirStatus)
    : (checkDataDir a dataDir).result = some turn
      ↔ a.Succeeds dataDir ∧ turn = afterCheck a dataDir := by
  unfold checkDataDir DirectoryTurn.Succeeds afterCheck
  cases a.verifyDataDirPresent with
  | ftpNotResp =>
      dsimp only
      rw [result_pure_eq_some]
      simp
  | dirPresent =>
      dsimp only
      split_ifs with proposed
      · rw [result_then_eq_some, addDataDir_isSome]
        simp [proposed]
      · rw [result_pure_eq_some]
        simp [proposed]
  | dirNotPresent =>
      dsimp only
      split_ifs with current
      · rw [result_then_eq_some, abandonDataDir_isSome]
        simp [current]
      · rw [result_pure_eq_some]
        simp [current]

/-- The check and whatever follows it, for a continuation that leaves a loop without an
exception.
-/
theorem checkDataDir_bind_isSome {α : Type} (a : DirectoryTurn) (checked : DataDir)
    (goOn : Turn DataDir DataDirStatus → Locked α) {ends : DataDir → Prop}
    (again : ∀ next, (goOn (.again next)).result.isSome ↔ ends next)
    (leave : ∀ sts, (goOn (.leave sts)).result.isSome)
    : (checkDataDir a checked >>= goOn).result.isSome
      ↔ a.Succeeds checked
        ∧ (a.verifyDataDirPresent = .dirNotPresent →
          isDataDirAtPresent (incDataDir checked) a.clock = false →
            ends (incDataDir checked)) := by
  have follows
      : (goOn (afterCheck a checked)).result.isSome
        ↔ (a.verifyDataDirPresent = .dirNotPresent →
          isDataDirAtPresent (incDataDir checked) a.clock = false →
            ends (incDataDir checked)) := by
    unfold afterCheck leaveDataDir
    cases a.verifyDataDirPresent with
    | ftpNotResp => simp [leave]
    | dirPresent => simp [leave]
    | dirNotPresent =>
        dsimp only
        split_ifs with present
        · simp [leave, present]
        · simp [again, present]
  rw [← follows, result_bind_isSome]
  simp only [checkDataDir_eq_some, and_assoc, exists_and_left, exists_eq_left]

/-- By induction on the turns, where each either leaves the loop or goes on to the next hour. -/
theorem directoryLoop_isSome (turns : List DirectoryTurn) (dataDir : DataDir)
    : (directoryLoop turns dataDir).result.isSome ↔ TurnsSucceed turns dataDir := by
  induction turns generalizing dataDir with
  | nil => simp [directoryLoop, TurnsSucceed]
  | cons a rest ih =>
      rw [directoryLoop, TurnsSucceed, directoryTurn]
      dsimp only
      split_ifs with processed present
      · simp [processed, present]
      · rw [checkDataDir_bind_isSome a _ _ ih (by simp)]
        simp [present]
      · rw [checkDataDir_bind_isSome a _ _ ih (by simp)]
        simp [processed]

/-- Nothing throws in the `try` block just when every statement in it succeeds. -/
theorem findDirectory_isSome (a : DirectoryAnswers) (dataDir : DataDir)
    : (findDirectory a dataDir).result.isSome ↔ a.Succeeds dataDir := by
  rw [findDirectory, DirectoryAnswers.Succeeds, ← selectDataDir_isSome a dataDir, result_bind]
  cases selected : (selectDataDir a dataDir).result with
  | none => simp
  | some start =>
      cases start with
      | none => simp
      | some start =>
          simp only [Option.bind_some, Option.isSome_some, true_and, Option.some.injEq,
            forall_eq']
          exact directoryLoop_isSome ..

theorem getCurrentDirectory_givesBack_iff (a : DirectoryAnswers) (dataDir : DataDir)
    : GivesBack (getCurrentDirectory a dataDir) ↔ a.Succeeds dataDir := by
  rw [← findDirectory_isSome]
  exact (leaves_findDirectory a dataDir).givesBack_catching_iff _

theorem leaves_readProcessed (rows : List FileFields) : Leaves 1 1 (readProcessed rows) := by
  induction rows with
  | nil => exact .pure
  | cons row rows ih =>
      refine .bind (.call _) fun s => ?_
      split
      · exact .bind (.call _) fun t => .bind ih fun _ => .pure
      · exact ih

/-- The handler gives the lock back where an exception has left it held. -/
theorem getCurrentDataFileSet_givesBack (search : Statement (List FileFields))
    : GivesBack (getCurrentDataFileSet search) := by
  refine (Leaves.catching ?_ (.bind .release fun _ => .pure)).givesBack
    (catching_isSome (by simp))
  refine .bind .acquire fun _ => .bind search.leaves_run fun r => ?_
  split
  · exact .bind .release fun _ => .pure
  · exact .bind (leaves_readProcessed r) fun _ => .bind .release fun _ => .pure

theorem createStringOperationsRecord_givesBack (add : Statement Unit)
    : GivesBack (createStringOperationsRecord add) := by
  have leaves : Leaves 0 0 (createStringOperationsRecord add) :=
    .bind .acquire fun _ => .catching (.bind add.leaves_run fun _ => .release) .release
  refine leaves.givesBack ?_
  rw [createStringOperationsRecord, result_bind]
  exact catching_isSome rfl

/-- A configuration query gives the lock back only for one row, all of whose fields can be
read.
-/
theorem givesBack_selectOneRow_iff {ρ γ δ : Type} (opens : Bool) (select : Option (List ρ))
    (read : ρ → Option γ) (commits : Bool) (ends : Option γ → δ) (handled : δ)
    : GivesBack
        (catching
          (do return ends (← selectOneRow opens select read commits))
          (return handled))
      ↔ opens ∧ commits ∧ ∃ row, select = some [row] ∧ (read row).isSome := by
  by_cases single : ∃ row, select = some [row]
  · obtain ⟨row, rfl⟩ := single
    have leaves : Leaves 0 0 (selectOneRow opens (some [row]) read commits) := by
      refine .bind .acquire fun _ => .bind (.throwUnless _) fun _ => ?_
      rw [call_some_bind]
      exact .bind (.call _) fun _ => .bind (.throwUnless _) fun _ =>
        .bind .release fun _ => .pure
    rw [(leaves.bind fun _ => .pure).givesBack_catching_iff]
    cases opens <;> cases commits <;> cases reads : read row <;>
      simp [selectOneRow, throwUnless, reads]
  · have kept
        : (catching (do return ends (← selectOneRow opens select read commits))
            (return handled)).balance
          = 1 := by
      cases opens with
      | false => rfl
      | true =>
          cases select with
          | none => rfl
          | some r =>
              rcases r with _ | ⟨row, _ | ⟨row', rest⟩⟩
              · rfl
              · exact absurd ⟨row, rfl⟩ single
              · rfl
    refine iff_of_false ?_ ?_
    · rw [GivesBack, kept]
      decide
    · intro succeeds
      obtain ⟨-, -, row, one, -⟩ := succeeds
      exact single ⟨row, one⟩

theorem cassandraInit_givesBack_iff (a : CassandraAnswers)
    : GivesBack (cassandraInit a) ↔ a.Succeeds := by
  rw [cassandraInit, givesBack_bind_iff, givesBack_selectOneRow_iff, CassandraAnswers.Succeeds]
  intro cassConnected
  split <;> rfl

theorem initService_givesBack_iff (a : RabbitmqAnswers)
    : GivesBack (initService a) ↔ a.dbConn = false ∨ a.Succeeds := by
  unfold initService
  split_ifs with connected
  · rw [givesBack_bind_iff, givesBack_selectOneRow_iff, RabbitmqAnswers.Succeeds]
    · simp [connected]
    · intro goesOn
      split_ifs
      · exact .bind (createStringOperationsRecord_givesBack _) fun _ =>
          .bind (createStringOperationsRecord_givesBack _) fun _ =>
            .bind (createStringOperationsRecord_givesBack _) fun _ => .pure
      · exact .pure
  · simp only [Bool.eq_false_of_not_eq_true connected, true_or, iff_true]
    exact .pure

/-- The lock is given back as often as it is taken: by `getCurrentDataFileSet` always, by
`getCurrentDirectory` if nothing throws under the lock, and by `cassandraInit` and a connected
`initService` if there is moreover exactly one configuration row.
-/
theorem dbAccess_givesBack_iff (directory : DirectoryAnswers) (dataDir : DataDir)
    (search : Statement (List FileFields)) (cassandra : CassandraAnswers)
    (rabbitmq : RabbitmqAnswers)
    : (GivesBack (getCurrentDirectory directory dataDir) ↔ directory.Succeeds dataDir)
      ∧ GivesBack (getCurrentDataFileSet search)
      ∧ (GivesBack (cassandraInit cassandra) ↔ cassandra.Succeeds)
      ∧ (GivesBack (initService rabbitmq) ↔ rabbitmq.dbConn = false ∨ rabbitmq.Succeeds) :=
  ⟨getCurrentDirectory_givesBack_iff directory dataDir, getCurrentDataFileSet_givesBack search,
    cassandraInit_givesBack_iff cassandra, initService_givesBack_iff rabbitmq⟩

/-- An empty table `cassandra` leaves the lock held, and so does a query of the directories
that throws.
-/
theorem dbAccess_keeps_lock
    : ¬GivesBack (cassandraInit { select := some [] })
      ∧ ¬GivesBack (getCurrentDirectory { selectCurrent := none } {}) := by
  decide

end Sparcs.Gateway
