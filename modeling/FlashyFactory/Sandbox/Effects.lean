import FlashyFactory.Sandbox.Worker

/-! # What a command does

`Ledger.row_step` for the rows of `run_sandboxes`, and what an answer tells about the command. -/

namespace FlashyFactory

namespace Ledger
variable {l : Ledger}

/-- **The rows of `run_sandboxes`** are written by two operations, each for its own run. -/
theorem row_step (crates : Crates) (l : Ledger) (host : Host) (op : Op) (r : ℕ) :
    let l' := l.step crates ⟨host, op⟩
    l'.runSandboxes.get? r = l.runSandboxes.get? r ∨
    (∃ sandbox, op = .recordRunSandbox sandbox ∧ sandbox.runId = r ∧
      l.runSandboxes.get? r = none ∧
      l'.runSandboxes.get? r = some { sandbox with updatedAt := sandbox.createdAt }) ∨
    (∃ state exitCode logs removed row logs' now, op = .finishRunSandbox r state exitCode logs removed ∧
      l.runSandboxes.get? r = some row ∧
      l'.runSandboxes.get? r = some (sandboxFinished state exitCode logs' now removed row)) := by
  by_cases hwrites : .runSandboxes ∈ op.writes
  · cases op with
    | recordRunSandbox sandbox =>
      simp only [step, perform, recordRunSandbox]
      split
      · exact .inl rfl
      split
      · exact .inl rfl
      next hnone =>
      split
      · exact .inl rfl
      · simp only [LedgerResult.ledger, KeyedTable.get?_insert]
        by_cases hr : r = sandbox.runId
        · subst hr
          exact .inr (.inl ⟨sandbox, rfl, rfl, hnone, by simp⟩)
        · exact .inl (by simp [hr])
    | finishRunSandbox runId state exitCode logs removed =>
      simp only [step, perform, finishRunSandbox]
      split
      · simp only [LedgerResult.ledger, KeyedTable.get?_modify]
        by_cases hr : r = runId
        · subst hr
          cases hrow : l.runSandboxes.get? r with
          | none => exact .inl (by simp)
          | some row =>
            exact .inr (.inr ⟨state, exitCode, logs, removed, row,
              logs.map (truncateTailUtf8 · maxActivityBytes), host.nowMillis 0, rfl, rfl, by simp⟩)
        · exact .inl (by simp [hr])
      · exact .inl rfl
    | _ => simp [Op.writes] at hwrites
  · exact .inl (congrArg (·.get? r) ((step_changes crates l ⟨host, op⟩).runSandboxes hwrites))

theorem recordRunSandbox_ok (h : l.failure? crates ⟨host, .recordRunSandbox sandbox⟩ = none) :
    (l.step crates ⟨host, .recordRunSandbox sandbox⟩).runSandboxes.get? sandbox.runId =
      some { sandbox with updatedAt := sandbox.createdAt } := by
  revert h
  simp only [failure?, step, perform, recordRunSandbox]
  split
  · intro h
    cases h
  split
  · intro h
    cases h
  split
  · intro h
    cases h
  · intro _
    simp [LedgerResult.ledger, KeyedTable.get?_insert]

end Ledger

namespace World

theorem row_callLedger (crates : Crates) (w : World) (host : Host) (op : Op) (r : ℕ) :
    let w' := w.callLedger crates ⟨host, op⟩
    w'.row r = w.row r ∨
    (∃ sandbox, op = .recordRunSandbox sandbox ∧ sandbox.runId = r ∧ w.row r = none ∧
      w'.row r = some { sandbox with updatedAt := sandbox.createdAt }) ∨
    (∃ state exitCode logs removed row logs' now, op = .finishRunSandbox r state exitCode logs removed ∧
      w.row r = some row ∧
      w'.row r = some (Ledger.sandboxFinished state exitCode logs' now removed row)) :=
  w.ledger.row_step crates host op r

theorem row_finish (crates : Crates) (w : World) (host : Host) (r : ℕ) (state : SandboxState)
    (exitCode : Option ℤ) (logs : Option String) (removed : Bool) : ∃ logs' now,
    (w.callLedger crates ⟨host, .finishRunSandbox r state exitCode logs removed⟩).row r =
      (w.row r).map (Ledger.sandboxFinished state exitCode logs' now removed) := by
  refine ⟨logs.map (truncateTailUtf8 · maxActivityBytes), host.nowMillis 0, ?_⟩
  simp only [row, callLedger, Ledger.step, Ledger.perform, Ledger.finishRunSandbox]
  split
  · simp [LedgerResult.ledger, KeyedTable.get?_modify]
  · next hits =>
    cases hrow : w.ledger.runSandboxes.get? r with
    | none => simpa [LedgerResult.ledger] using hrow
    | some x => exact absurd (KeyedTable.hits_iff.mpr ⟨x, hrow, rfl⟩) hits

variable {w : World} {o : Choice} {refusal : Option String} {after : World}

variable (w o refusal after) in
/-- A command leaves the world as it was or takes effect. -/
theorem settle_or (v : α) : (w.settle o refusal v after).2 = w ∨
    (w.settle o refusal v after).2 = after ∧ refusal = none := by
  simp only [settle]
  split
  · split
    · exact .inr ⟨rfl, rfl⟩
    · exact .inl rfl
  · exact .inl rfl
  · exact .inl rfl
  · exact .inr ⟨rfl, rfl⟩

/-- The three ways in which a command can end. -/
theorem settle_rule {P : Except (List String) α → World → Prop} {v : α}
    (hok : refusal = none → P (.ok v) after) (hno : ∀ chain, P (.error chain) w)
    (hyes : refusal = none → ∀ chain, P (.error chain) after) :
    P (w.settle o refusal v after).1 (w.settle o refusal v after).2 := by
  simp only [settle]
  split
  · split
    · exact hyes rfl _
    · exact hno _
  · exact hno _
  · exact hno _
  · exact hok rfl

end World
end FlashyFactory
