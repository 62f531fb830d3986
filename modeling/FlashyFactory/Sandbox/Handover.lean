import FlashyFactory.Sandbox.Invariant

/-! # The work of an agent and its sandbox

A sandbox in which an agent was started exists and is on record, or its workspace has been handed
over to the host since the agent stopped. -/

namespace FlashyFactory
open Process Script

namespace World

/-- **No agent work is discarded with a sandbox**, and no sandbox exists without a record. -/
structure WorkKept (S : SandboxWorker) (w : World) : Prop where
  kept : ∀ r, w.spawned (sandboxName S.instanceId r) = true →
    w.preserved (sandboxName S.instanceId r) = true ∨ w.Holds S r
  recorded : ∀ r, sandboxName S.instanceId r ∈ w.sandboxes →
    ∃ row, w.row r = some row ∧ row.sandboxName = sandboxName S.instanceId r

/-- A recovery writes the row of a run only when its worker is gone, and no snapshot is taken of a
sandbox whose agent is still running. -/
def Orderly (w : World) (roles : ℕ → Option Role) (p : ℕ) : Cmd → Prop
  | .write (.finishRunSandbox r _ _ _ _) => roles p = some .recovery →
    ∀ q clone prompt now, roles q ≠ some (.worker r clone prompt now)
  | .snapshot name => w.running name = false
  | _ => True

variable {S : SandboxWorker} {w w' : World} {ms ms' : Watches} {p q r r' : ℕ} {m m' : Watch}
  {role : Role} {name : String}

/-! ## Commands of a worker -/

theorem PhaseAt.spawned {phase : Phase} (h : PhaseAt S w r phase) (hu : phase.unstarted = true) :
    w.spawned (sandboxName S.instanceId r) = false := by
  cases phase with
  | fresh | dropped => exact h
  | recorded | made | ready => exact h.1
  | started | closing => cases hu

/-- The row of a run whose agent may still be started says nothing of a removal. -/
theorem RunInv.not_closed (H : RunInv S w ms r) (hp : WorksOn ms p r m)
    (hm : m.phase.maySpawn = true) {x : RunSandbox} (hrow : w.row r = some x) : ¬ x.Closed :=
  fun hc => by
  have hpast := (H.closed hrow hc).past p m hp
  rw [hm] at hpast
  cases hpast

theorem RunInv.delivered (H : RunInv S w ms r) (hp : WorksOn ms p r m) (hm : m.Released S r) :
    Delivered S w r := by
  intro hs
  obtain ⟨-, hphase, hrestored⟩ := H.worker hp
  rcases hm with hu | hh
  · rw [hphase.spawned hu] at hs
    cases hs
  · exact hrestored hh

/-- The world stays as it is. -/
theorem WorkerStep.stay (H : RunInv S w ms r) (hp : WorksOn ms p r m)
    (hphase : PhaseAt S w r m'.phase) (hhandoff : m'.handoff = m.handoff)
    (hmay : m.phase.maySpawn = false → m'.phase.maySpawn = false) : WorkerStep S w w r m m' where
  others _ _ := .refl
  launched := rfl
  facts := H.facts
  closed _ hrow hc := ⟨(H.closed hrow hc).kept, hmay ((H.closed hrow hc).past p m hp)⟩
  past hm hd := ⟨hd, hmay hm⟩
  phase := hphase
  restored h := (H.worker hp).2.2 (hhandoff ▸ h)

theorem WorkerStep.create (H : RunInv S w ms r) (hp : WorksOn ms p r m)
    (hm : m.phase = .recorded) (hhandoff : m'.handoff = m.handoff)
    (hphase : m'.phase = .made ∨ m'.phase = .dropped) :
    WorkerStep S w (w.createSandbox (sandboxName S.instanceId r)) r m m' := by
  obtain ⟨-, hat, hrestored⟩ := H.worker hp
  rw [hm] at hat
  obtain ⟨hspawned, row, hrow, hremoved⟩ := hat
  have hmay : m.phase.maySpawn = true := by rw [hm]; rfl
  refine ⟨fun r' hr => ?_, rfl, ⟨fun h => (H.row h).2, fun _ => ?_, fun hs => ?_⟩,
    fun row hrow hc => (H.not_closed hp hmay hrow hc).elim, fun h => ?_, ?_,
    fun h => hrestored (hhandoff ▸ h)⟩
  · exact ⟨rfl, .rfl, by simp [createSandbox, sandboxName_inj, hr], rfl, rfl⟩
  · exact Option.isSome_iff_exists.mpr ⟨row, hrow⟩
  · exact absurd (hspawned.symm.trans hs) nofun
  · exact absurd (hmay.symm.trans h) nofun
  · rcases hphase with h | h <;> rw [h]
    · exact ⟨hspawned, List.mem_cons_self, row, hrow, hremoved⟩
    · exact hspawned

theorem WorkerStep.spawn (H : RunInv S w ms r) (hp : WorksOn ms p r m)
    (hm : m.phase = .ready) (hnone : m'.handoff = none) (hphase : m'.phase = .started) :
    WorkerStep S w (w.spawnAgent (sandboxName S.instanceId r)) r m m' := by
  obtain ⟨-, hat, -⟩ := H.worker hp
  rw [hm] at hat
  obtain ⟨-, hexists, row, hrow, hcreated, hremoved⟩ := hat
  have hmay : m.phase.maySpawn = true := by rw [hm]; rfl
  refine ⟨fun r' hr => ?_, rfl, ⟨fun h => (H.row h).2, H.recorded, fun _ => .inr ?_⟩,
    fun row hrow hc => (H.not_closed hp hmay hrow hc).elim, fun h => ?_, ?_, fun h => ?_⟩
  · have hne : sandboxName S.instanceId r' ≠ sandboxName S.instanceId r := by
      simpa [sandboxName_inj] using hr
    exact ⟨rfl, .rfl, .rfl, by simp [spawnAgent, hne], by simp [spawnAgent, hne]⟩
  · exact ⟨hexists, row, hrow, hremoved⟩
  · exact absurd (hmay.symm.trans h) nofun
  · rw [hphase]
    exact ⟨row, hrow, hcreated, hremoved⟩
  · rw [hnone] at h
    cases h

theorem Phase.maySpawn_drop {phase : Phase} : phase.drop.maySpawn = false := by cases phase <;> rfl

theorem PhaseAt.drop {phase : Phase} (h : PhaseAt S w r phase) (hrow : w'.row r = w.row r)
    (hspawned : w'.spawned (sandboxName S.instanceId r) = w.spawned (sandboxName S.instanceId r)) :
    PhaseAt S w' r phase.drop := by
  cases phase with
  | fresh | dropped => exact hspawned.trans h
  | recorded | made | ready => exact hspawned.trans h.1
  | started =>
    simp only [Phase.drop, PhaseAt, hrow]
    exact h
  | closing => trivial

theorem WorkerStep.remove (H : RunInv S w ms r) (hp : WorksOn ms p r m) (hm : m.Released S r)
    (hhandoff : m'.handoff = m.handoff) (hphase : m'.phase = m.phase.drop) :
    WorkerStep S w (w.removeSandbox (sandboxName S.instanceId r)) r m m' := by
  obtain ⟨-, hat, hrestored⟩ := H.worker hp
  have hdelivered := H.delivered hp hm
  have hmay : m'.phase.maySpawn = false := by rw [hphase]; exact Phase.maySpawn_drop
  refine ⟨fun r' hr => ?_, rfl, ⟨fun h => (H.row h).2, fun h => ?_, fun hs => .inl (hdelivered hs)⟩,
    fun _ _ _ => ⟨hdelivered, hmay⟩, fun _ _ => ⟨hdelivered, hmay⟩, ?_, fun h => hrestored (hhandoff ▸ h)⟩
  · exact ⟨rfl, .rfl, by simp [removeSandbox, stopAgent, sandboxName_inj, hr], rfl, rfl⟩
  · simp [removeSandbox] at h
  · rw [hphase]
    exact hat.drop rfl rfl

/-- A stage of the hand-over that succeeded marks the sandbox at its end. -/
theorem noteHandoff_preserved {h : Option Handoff} :
    (w.noteHandoff p h).preserved name = true ↔
      w.preserved name = true ∨ h = some (.restored name) := by
  unfold noteHandoff
  split
  · next other =>
    by_cases hn : name = other
    · simp [hn]
    · have hne : ¬ other = name := fun h => hn h.symm
      simp [hn, hne]
  · next hh =>
    refine ⟨.inl, fun hn => hn.elim id fun hn => (hh name hn).elim⟩

theorem noteHandoff_same {h : Option Handoff} (hw : SameRun S r w w')
    (hn : h ≠ some (.restored (sandboxName S.instanceId r))) : SameRun S r w (w'.noteHandoff p h) := by
  refine ⟨hw.row, hw.launched, hw.sandboxes, hw.spawned, ?_⟩
  have hiff : (w'.noteHandoff p h).preserved (sandboxName S.instanceId r) = true ↔
      w'.preserved (sandboxName S.instanceId r) = true ∨
        h = some (.restored (sandboxName S.instanceId r)) := noteHandoff_preserved
  rw [← hw.preserved]
  exact Bool.eq_iff_iff.mpr (hiff.trans (or_iff_left hn))

theorem Facts.handoff {h : Option Handoff} (F : Facts S w r) (hw : SameRun S r w w') :
    Facts S (w'.noteHandoff p h) r := by
  have hrow : (w'.noteHandoff p h).row r = w.row r := hw.row
  refine ⟨fun hx => F.row (hrow ▸ hx), fun hn => ?_, fun hs => ?_⟩
  · rw [hrow]
    exact F.recorded (hw.sandboxes.mp hn)
  · rcases F.kept (hw.spawned ▸ hs) with hk | hk
    · exact .inl (noteHandoff_preserved.mpr (.inl (hw.preserved ▸ hk)))
    · refine .inr ⟨hw.sandboxes.mpr hk.1, ?_⟩
      rw [hrow]
      exact hk.2

/-- A stage of the hand-over. -/
theorem WorkerStep.handoff {h : Option Handoff} (H : RunInv S w ms r) (hp : WorksOn ms p r m)
    (hw : ∀ r, SameRun S r w w') (hlaunched : w'.launched = w.launched)
    (hown : ∀ x, h = some x → x.name = sandboxName S.instanceId r) :
    WorkerStep S w (w'.noteHandoff p h) r m { m with handoff := h } := by
  obtain ⟨hl, hat, -⟩ := H.worker hp
  have hdelivered : Delivered S w r → Delivered S (w'.noteHandoff p h) r := by
    intro hd hs
    refine noteHandoff_preserved.mpr (.inl ?_)
    rw [(hw r).preserved]
    exact hd ((hw r).spawned ▸ hs)
  have hrow : (w'.noteHandoff p h).row r = w.row r := (hw r).row
  refine ⟨fun r' hr => ?_, hlaunched, H.facts.handoff (hw r), fun x hx hc => ?_,
    fun hm hd => ⟨hdelivered hd, hm⟩, ?_, fun h => noteHandoff_preserved.mpr (.inr h)⟩
  · refine noteHandoff_same (hw r') fun hh => hr ?_
    exact sandboxName_inj.mp (hown _ hh)
  · have hsettled := H.closed (hrow ▸ hx) hc
    exact ⟨hdelivered hsettled.kept, hsettled.past p m hp⟩
  · have hsame := hat.frame (hw r)
    revert hsame
    cases m.phase <;> exact id

theorem Phase.not_maySpawn_finish {phase : Phase} {created : Bool}
    (h : phase.maySpawn = false ∨ created = false) : (phase.finish created).maySpawn = false := by
  cases phase <;> cases created <;> first | rfl | cases h <;> contradiction

/-- A write that is not about the row of the run. -/
theorem sameRun_write (crates : Crates) (host : Host) (op : Op)
    (hrecord : ∀ sandbox, op = .recordRunSandbox sandbox → sandbox.runId ≠ r)
    (hfinish : ∀ state exitCode logs removed,
      op ≠ .finishRunSandbox r state exitCode logs removed) :
    SameRun S r w (w.callLedger crates ⟨host, op⟩) := by
  refine ⟨?_, .rfl, .rfl, rfl, rfl⟩
  rcases w.row_callLedger crates host op r with
    h | ⟨sandbox, hop, hr, -⟩ | ⟨_, _, _, _, _, _, _, hop, -⟩
  · exact h
  · exact (hrecord sandbox hop hr).elim
  · exact (hfinish _ _ _ _ hop).elim

/-- The row of a run is inserted. -/
theorem WorkerStep.record {sandbox : RunSandbox} {host : Host} (crates : Crates)
    (H : RunInv S w ms r) (hp : WorksOn ms p r m) (hm : m.phase = .fresh)
    (hrun : sandbox.runId = r) (hname : sandbox.sandboxName = sandboxName S.instanceId r)
    (hstate : sandbox.state = .creating) (hremoved : sandbox.removedAt = none)
    (hhandoff : m'.handoff = m.handoff)
    (hphase : m'.phase = .dropped ∨ m'.phase = .recorded ∧
      w.ledger.failure? crates ⟨host, .recordRunSandbox sandbox⟩ = none) :
    WorkerStep S w (w.callLedger crates ⟨host, .recordRunSandbox sandbox⟩)
      r m m' := by
  obtain ⟨-, hat, hrestored⟩ := H.worker hp
  rw [hm] at hat
  have hmay : m.phase.maySpawn = true := by rw [hm]; rfl
  have hrow : ∀ x, (w.callLedger crates ⟨host, .recordRunSandbox sandbox⟩).row r = some x →
      w.row r = some x ∨ x = { sandbox with updatedAt := sandbox.createdAt } := by
    intro x hx
    rcases w.row_callLedger crates host (.recordRunSandbox sandbox) r with
      h | ⟨_, ⟨⟩, -, -, h⟩ | ⟨_, _, _, _, _, _, _, ⟨⟩, -⟩
    · exact .inl (h.symm.trans hx)
    · exact .inr (Option.some.inj (hx.symm.trans h))
  refine ⟨fun r' hr => ?_, rfl, ⟨fun {x} hx => ?_, fun h => ?_, fun hs => ?_⟩, fun x hx hc => ?_,
    fun h => ?_, ?_, fun h => hrestored (hhandoff ▸ h)⟩
  · exact sameRun_write crates host _ (fun _ h => by cases h; exact fun h => hr (h.symm.trans hrun)) nofun
  · rcases hrow x hx with h | rfl
    · exact (H.row h).2
    · exact hname
  · obtain ⟨x, hx⟩ := Option.isSome_iff_exists.mp (H.recorded h)
    rcases w.row_callLedger crates host (.recordRunSandbox sandbox) r with
      h | ⟨_, -, -, -, h⟩ | ⟨_, _, _, _, _, _, _, ⟨⟩, -⟩
    · simp [h, hx]
    · simp [h]
  · exact absurd (hat.symm.trans hs) nofun
  · rcases hrow x hx with h | rfl
    · exact (H.not_closed hp hmay h hc).elim
    · rcases hc with hc | hc <;> simp [hstate, hremoved] at hc
  · exact absurd (hmay.symm.trans h) nofun
  · rcases hphase with h | ⟨h, hok⟩ <;> rw [h]
    · exact hat
    · exact ⟨hat, { sandbox with updatedAt := sandbox.createdAt },
        hrun ▸ Ledger.recordRunSandbox_ok hok, hremoved⟩

theorem closed_sandboxFinished {x : RunSandbox}
    (h : (Ledger.sandboxFinished state exitCode logs now removed x).Closed) :
    closes state removed = true ∨ x.Closed := by
  rcases h with h | h
  · exact .inl (by simpa [closes] using .inl h)
  · cases removed with
    | true => exact .inl (by simp [closes])
    | false => exact .inr (.inr (by simpa [Ledger.sandboxFinished] using h))

/-- What a write of the row of a run does to the facts about it. -/
theorem Facts.finish {state : SandboxState} {exitCode : Option ℤ} {logs : Option String}
    {removed : Bool} {host : Host} (crates : Crates) (F : Facts S w r)
    (hclose : closes state removed = true → Delivered S w r) :
    Facts S (w.callLedger crates ⟨host, .finishRunSandbox r state exitCode logs removed⟩) r := by
  obtain ⟨logs', now, hrow'⟩ := row_finish crates w host r state exitCode logs removed
  refine ⟨fun {x'} h => ?_, fun hn => by rw [hrow', Option.isSome_map]; exact F.recorded hn,
    fun hs => ?_⟩
  · obtain ⟨x, hx, rfl⟩ := Option.map_eq_some_iff.mp (hrow'.symm.trans h)
    exact (F.row hx : x.sandboxName = _)
  · rcases F.kept hs with hk | ⟨hexists, x, hx, hremoved⟩
    · exact .inl hk
    · cases removed with
      | true => exact .inl (hclose (by simp [closes]) hs)
      | false => exact .inr ⟨hexists, _, by rw [hrow', hx]; rfl, by simpa [Ledger.sandboxFinished]⟩

theorem PhaseAt.finish_false {phase : Phase} (h : PhaseAt S w r phase) :
    PhaseAt S w r (phase.finish false) := by
  cases phase with
  | fresh | dropped => exact h
  | recorded | made | ready => exact h.1
  | started | closing => trivial

/-- The row of the run is written. -/
theorem WorkerStep.finish {state : SandboxState} {exitCode : Option ℤ} {logs : Option String}
    {removed created : Bool} {host : Host} (crates : Crates) (H : RunInv S w ms r)
    (hp : WorksOn ms p r m) (hclose : closes state removed = true → m.Released S r)
    (hhandoff : m'.handoff = m.handoff) (hphase : m'.phase = m.phase.finish created)
    (hcreated : created = true → state = .created ∧ removed = false) :
    WorkerStep S w (w.callLedger crates ⟨host, .finishRunSandbox r state exitCode logs removed⟩)
      r m m' := by
  obtain ⟨-, hat, hrestored⟩ := H.worker hp
  obtain ⟨logs', now, hrow'⟩ := row_finish crates w host r state exitCode logs removed
  have hdelivered : closes state removed = true → Delivered S w r := fun h => H.delivered hp (hclose h)
  refine ⟨fun r' hr => ?_, rfl, H.facts.finish crates hdelivered, fun x' hx' hc => ?_, fun hm hd => ?_,
    ?_, fun h => hrestored (hhandoff ▸ h)⟩
  · exact sameRun_write crates host _ nofun fun _ _ _ _ h => by cases h; exact hr rfl
  · obtain ⟨x, hx, rfl⟩ := Option.map_eq_some_iff.mp (hrow'.symm.trans hx')
    rcases closed_sandboxFinished hc with hc | hc
    · refine ⟨hdelivered hc, hphase ▸ Phase.not_maySpawn_finish (.inr ?_)⟩
      cases created with
      | false => rfl
      | true =>
        obtain ⟨rfl, rfl⟩ := hcreated rfl
        cases hc
    · have hsettled := H.closed hx hc
      exact ⟨hsettled.kept, hphase ▸ Phase.not_maySpawn_finish (.inl (hsettled.past p m hp))⟩
  · exact ⟨hd, hphase ▸ Phase.not_maySpawn_finish (.inl hm)⟩
  · rw [hphase]
    cases created with
    | false =>
      have hdone := hat.finish_false
      revert hdone
      cases m.phase <;> exact id
    | true =>
      obtain ⟨rfl, rfl⟩ := hcreated rfl
      revert hat
      cases m.phase with
      | made =>
        rintro ⟨hspawned, hexists, x, hx, hremoved⟩
        exact ⟨hspawned, hexists, _, by rw [hrow', hx]; rfl, rfl, by simpa [Ledger.sandboxFinished]⟩
      | fresh | dropped => exact id
      | recorded | ready => exact And.left
      | started | closing => exact fun _ => trivial

/-! ## Commands of a recovery -/

theorem RecoveryStep.finish {state : SandboxState} {exitCode : Option ℤ} {logs : Option String}
    {removed : Bool} {host : Host} (crates : Crates) (H : RunInv S w ms r)
    (hclose : closes state removed = true → Delivered S w r) :
    RecoveryStep S w (w.callLedger crates ⟨host, .finishRunSandbox r state exitCode logs removed⟩)
      r := by
  obtain ⟨logs', now, hrow'⟩ := row_finish crates w host r state exitCode logs removed
  refine ⟨fun r' hr => ?_, rfl, H.facts.finish crates hclose, rfl, id, fun x' hx' hc => ?_⟩
  · exact sameRun_write crates host _ nofun fun _ _ _ _ h => by cases h; exact hr rfl
  · obtain ⟨x, hx, rfl⟩ := Option.map_eq_some_iff.mp (hrow'.symm.trans hx')
    rcases closed_sandboxFinished hc with hc | hc
    · exact hclose hc
    · exact (H.closed hx hc).kept

theorem RecoveryStep.remove (H : RunInv S w ms r) (hd : Delivered S w r) :
    RecoveryStep S w (w.removeSandbox (sandboxName S.instanceId r)) r := by
  refine ⟨fun r' hr => ?_, rfl, ⟨fun h => (H.row h).2, fun h => ?_, fun hs => .inl (hd hs)⟩, rfl, id,
    fun _ _ _ => hd⟩
  · exact ⟨rfl, .rfl, by simp [removeSandbox, stopAgent, sandboxName_inj, hr], rfl, rfl⟩
  · simp [removeSandbox] at h

theorem RecoveryStep.stay (H : RunInv S w ms r) : RecoveryStep S w w r :=
  ⟨fun _ _ => .refl, rfl, H.facts, rfl, id, fun _ hx hc => (H.closed hx hc).kept⟩

/-- A stage of the hand-over of the run. -/
theorem RecoveryStep.handoff {h : Option Handoff} (H : RunInv S w ms r)
    (hw : ∀ r, SameRun S r w w') (hlaunched : w'.launched = w.launched)
    (hown : ∀ x, h = some x → x.name = sandboxName S.instanceId r) :
    RecoveryStep S w (w'.noteHandoff p h) r := by
  have hpreserved : w.preserved (sandboxName S.instanceId r) = true →
      (w'.noteHandoff p h).preserved (sandboxName S.instanceId r) = true := fun hk =>
    noteHandoff_preserved.mpr (.inl ((hw r).preserved ▸ hk))
  have hrow : (w'.noteHandoff p h).row r = w.row r := (hw r).row
  refine ⟨fun r' hr => ?_, hlaunched, H.facts.handoff (hw r), (hw r).spawned, hpreserved,
    fun x hx hc hs => ?_⟩
  · refine noteHandoff_same (hw r') fun hh => hr ?_
    exact sandboxName_inj.mp (hown _ hh)
  · exact hpreserved ((H.closed (hrow ▸ hx) hc).kept ((hw r).spawned ▸ hs))

/-! ## All commands -/

/-- What a command has to keep: the answer is possible, and the invariant holds for the watch
after it. -/
def Keeps (S : SandboxWorker) (ms : Watches) (p : ℕ) (role : Role) (m : Watch) (c : Cmd)
    (a : c.Answer) (w' : World) : Prop :=
  Watch.may S role m c a ∧ Inv S w' (Function.update ms p (some (role, m.next c a)))

theorem Inv.same (H : Inv S w ms) (hw : ∀ r, SameRun S r w w') (hhandoff : w'.handoff = w.handoff) :
    Inv S w' ms :=
  ⟨fun r => (H.run r).frame (hw r) fun hq => .inr ⟨_, hq, .refl⟩,
    fun hq => hhandoff ▸ H.handoff hq, H.owned⟩

theorem exec_neutral {c : Cmd} (crates : Crates) (o : Choice) (hc : c.neutral = true) :
    (∀ r, SameRun S r w (w.exec crates p c o).2) ∧ (w.exec crates p c o).2.handoff = w.handoff := by
  have hsettle : ∀ {α} {refusal} {v : α} {after},
      (∀ r, SameRun S r w after) ∧ after.handoff = w.handoff →
      (∀ r, SameRun S r w (w.settle o refusal v after).2) ∧
        (w.settle o refusal v after).2.handoff = w.handoff := by
    intro α refusal v after h
    rcases settle_or w o refusal after v with hw | ⟨hw, -⟩
    · rw [hw]
      exact ⟨fun _ => .refl, rfl⟩
    · rwa [hw]
  cases c with
  | write op =>
    have hop : .runSandboxes ∉ op.writes := by simpa [Cmd.neutral] using hc
    refine hsettle ⟨fun r => sameRun_write crates o.host op ?_ ?_, rfl⟩
    · rintro _ rfl
      simp [Op.writes] at hop
    · rintro _ _ _ _ rfl
      simp [Op.writes] at hop
  | observation => exact ⟨fun _ => .refl, rfl⟩
  | create | spawn | rm | snapshot | fetch | reset | runSandbox | unremovedRunSandboxes => cases hc
  | stop name => exact hsettle ⟨fun _ => ⟨rfl, .rfl, .rfl, rfl, rfl⟩, rfl⟩
  | _ => exact hsettle ⟨fun _ => .refl, rfl⟩

theorem keeps_neutral {c : Cmd} (crates : Crates) (o : Choice) (H : Inv S w ms)
    (hp : ms p = some (role, m)) (hc : c.neutral = true) :
    Keeps S ms p role m c (w.exec crates p c o).1 (w.exec crates p c o).2 := by
  obtain ⟨hw, hhandoff⟩ := exec_neutral (S := S) (w := w) (p := p) crates o hc
  constructor
  · cases c with
    | create | spawn | rm | snapshot | fetch | reset | runSandbox | unremovedRunSandboxes => cases hc
    | _ => cases role <;> trivial
  · rw [Cmd.neutral_next hc, ← hp, Function.update_eq_self]
    exact H.same hw hhandoff

theorem Inv.handoff_stays (H : Inv S w ms) (hp : ms p = some (role, m))
    (hm : m'.handoff = m.handoff) : w.handoff = Function.update w.handoff p m'.handoff := by
  rw [hm, ← H.handoff hp, Function.update_eq_self]

/-- A process learns what is true. -/
theorem Inv.learn (H : Inv S w ms) (hp : ms p = some (role, m)) (hphase : m'.phase = m.phase)
    (hhandoff : m'.handoff = m.handoff) (htaken : m'.taken = m.taken)
    (hread : ∀ r ∈ m'.read, r ∈ m.read ∨ r ∈ w.launched)
    (hseen : ∀ r ∈ m'.seen, r ∈ m.seen ∨ Settled S w ms r) :
    Inv S w (Function.update ms p (some (role, m'))) := by
  have hsame : ∀ r, SameWatch S w ms r role m m' := by
    intro r
    cases role with
    | worker => exact fun _ => ⟨hphase, hhandoff⟩
    | recovery => exact ⟨hread r, by rw [htaken], hseen r, fun h hh _ => hhandoff ▸ hh⟩
  refine H.update (fun r => (H.run r).other_step hp .refl (hsame r)) (H.handoff_stays hp hhandoff)
    fun h hh => ?_
  have howned := H.owned hp (hhandoff ▸ hh)
  cases role with
  | worker => exact howned
  | recovery =>
    simp only [Owned, htaken]
    exact howned

theorem keeps_runSandbox {r' : ℕ} (crates : Crates) (o : Choice) (H : Inv S w ms)
    (hp : ms p = some (role, m)) :
    Keeps S ms p role m (.runSandbox r') (w.exec crates p (.runSandbox r') o).1
      (w.exec crates p (.runSandbox r') o).2 := by
  have hstay : Inv S w (Function.update ms p (some (role, m))) := by
    rwa [← hp, Function.update_eq_self]
  refine settle_rule (P := Keeps S ms p role m (.runSandbox r')) (fun _ => ?_)
    (fun _ => ⟨by cases role <;> trivial, hstay⟩) fun _ _ => ⟨by cases role <;> trivial, hstay⟩
  cases hrow : w.row r' with
  | none => exact ⟨by cases role <;> trivial, hstay⟩
  | some x =>
    constructor
    · cases role with
      | worker r clone prompt now =>
        rintro rfl hstarted
        have hphase := ((H.run r').worker ⟨_, _, _, hp⟩).2.1
        rw [hstarted] at hphase
        obtain ⟨y, hy, hcreated, -⟩ := hphase
        obtain rfl := Option.some.inj (hrow.symm.trans hy)
        exact hcreated
      | recovery => exact ((H.run r').row hrow).2
    · refine H.learn hp rfl rfl rfl (fun r hr => ?_) fun _ hr => .inl hr
      rcases List.mem_cons.mp hr with rfl | hr
      · exact .inr ((H.run r).row hrow).1
      · exact .inl hr

theorem keeps_unremovedRunSandboxes {instanceId : String} (crates : Crates) (o : Choice)
    (H : Inv S w ms) (hp : ms p = some (role, m)) :
    Keeps S ms p role m (.unremovedRunSandboxes instanceId)
      (w.exec crates p (.unremovedRunSandboxes instanceId) o).1
      (w.exec crates p (.unremovedRunSandboxes instanceId) o).2 := by
  have hstay : Inv S w (Function.update ms p (some (role, m))) := by
    rwa [← hp, Function.update_eq_self]
  have hrows : ∀ x ∈ w.ledger.unremovedRunSandboxes instanceId, w.row x.runId = some x := by
    intro x hx
    rw [Ledger.unremovedRunSandboxes, List.mem_insertionSort, List.mem_filter] at hx
    exact KeyedTable.get?_of_mem hx.1
  refine settle_rule (P := Keeps S ms p role m (.unremovedRunSandboxes instanceId)) (fun _ => ?_)
    (fun _ => ⟨by cases role <;> trivial, hstay⟩) fun _ _ => ⟨by cases role <;> trivial, hstay⟩
  refine ⟨by cases role <;> trivial, H.learn hp rfl rfl rfl (fun r hr => ?_) fun r hr => ?_⟩
  · rcases List.mem_append.mp hr with hr | hr
    · obtain ⟨x, hx, rfl⟩ := List.mem_map.mp hr
      exact .inr ((H.run x.runId).row (hrows x hx)).1
    · exact .inl hr
  · rcases List.mem_append.mp hr with hr | hr
    · obtain ⟨x, hx, rfl⟩ := List.mem_map.mp hr
      obtain ⟨hx, hstate⟩ := List.mem_filter.mp hx
      exact .inr ((H.run x.runId).closed (hrows x hx) (.inl (by simpa using hstate)))
    · exact .inl hr

theorem exec_hands {c : Cmd} (crates : Crates) (o : Choice) (hc : c.hands = true)
    (horderly : ∀ name, c = .snapshot name → w.running name = false) : ∃ w',
    (w.exec crates p c o).2 =
      w'.noteHandoff p (Handoff.next (w.handoff p) c (w.exec crates p c o).1.isOk) ∧
    (∀ r, SameRun S r w w') ∧ w'.launched = w.launched ∧ w'.handoff = w.handoff := by
  have hsettle : ∀ {refusal after}, (∀ r, SameRun S r w after) ∧ after.launched = w.launched ∧
      after.handoff = w.handoff → (∀ r, SameRun S r w (w.settle o refusal () after).2) ∧
      (w.settle o refusal () after).2.launched = w.launched ∧
      (w.settle o refusal () after).2.handoff = w.handoff := by
    intro refusal after h
    rcases settle_or w o refusal after () with hw | ⟨hw, -⟩
    · rw [hw]
      exact ⟨fun _ => .refl, rfl, rfl⟩
    · rwa [hw]
  cases c with
  | snapshot name =>
    refine ⟨(w.settle o (w.missing o name) () w).2, ?_, hsettle ⟨fun _ => .refl, rfl, rfl⟩⟩
    simp [exec, horderly name rfl]
  | fetch clone name => exact ⟨_, rfl, hsettle ⟨fun _ => ⟨rfl, .rfl, .rfl, rfl, rfl⟩, rfl, rfl⟩⟩
  | reset clone =>
    refine ⟨_, rfl, hsettle ?_⟩
    unfold resetClone
    split
    · exact ⟨fun _ => .refl, rfl, rfl⟩
    · exact ⟨fun _ => ⟨rfl, .rfl, .rfl, rfl, rfl⟩, rfl, rfl⟩
  | _ => cases hc

theorem Watch.next_hands {c : Cmd} (hc : c.hands = true) (a : c.Answer) :
    m.next c a = { m with handoff := Handoff.next m.handoff c a.isOk } := by
  cases c with
  | snapshot | fetch | reset => rfl
  | _ => cases hc

/-- A stage is about the sandbox of the snapshot, or of the stage before. -/
theorem Handoff.next_owned {c : Cmd} {b : Bool} {h' : Handoff} {o : Option Handoff}
    (hc : c.hands = true) (hnext : Handoff.next o c b = some h') :
    c = .snapshot h'.name ∨ ∃ h, o = some h ∧ h.name = h'.name := by
  cases c with
  | snapshot name =>
    cases b with
    | true =>
      cases hnext
      exact .inl rfl
    | false => cases hnext
  | fetch clone name =>
    cases b with
    | true =>
      simp only [Handoff.next] at hnext
      split at hnext
      · next ho =>
        cases hnext
        exact .inr ⟨_, ho, rfl⟩
      · cases hnext
    | false => cases hnext
  | reset clone =>
    cases b with
    | true =>
      simp only [Handoff.next] at hnext
      split at hnext
      · split at hnext
        · cases hnext
          exact .inr ⟨_, rfl, rfl⟩
        · cases hnext
      · cases hnext
    | false => cases hnext
  | _ => cases hc

theorem keeps_hands {c : Cmd} (crates : Crates) (o : Choice) (H : Inv S w ms)
    (hp : ms p = some (role, m)) (hc : c.hands = true) (hok : Watch.ok S role m c)
    (horderly : ∀ name, c = .snapshot name → w.running name = false) :
    Keeps S ms p role m c (w.exec crates p c o).1 (w.exec crates p c o).2 := by
  obtain ⟨w', hw, hsame, hlaunched, hhandoff⟩ :=
    exec_hands (S := S) (w := w) (p := p) crates o hc horderly
  have hmay : Watch.may S role m c (w.exec crates p c o).1 := by
    cases c with
    | snapshot | fetch | reset => cases role <;> trivial
    | _ => cases hc
  refine ⟨hmay, ?_⟩
  have hnext := Watch.next_hands (m := m) hc (w.exec crates p c o).1
  rw [hw, H.handoff hp]
  generalize (w.exec crates p c o).1 = a at hnext ⊢
  rw [hnext]
  generalize hh : Handoff.next m.handoff c a.isOk = h
  have hupdate : (w'.noteHandoff p h).handoff = Function.update w.handoff p h := by
    simp [noteHandoff, hhandoff]
  have howned : ∀ x, h = some x → Owned S { m with handoff := h } x role := by
    rintro x rfl
    rcases Handoff.next_owned hc hh with rfl | ⟨x', hx', hname⟩
    · cases role <;> exact hok
    · have hx := H.owned hp hx'
      cases role with
      | worker => exact hname.symm.trans hx
      | recovery => exact hx.imp fun _ hr => ⟨hr.1, hname.symm.trans hr.2⟩
  cases role with
  | worker r clone prompt now =>
    have hstep : WorkerStep S w (w'.noteHandoff p h) r m { m with handoff := h } :=
      .handoff (H.run r) ⟨_, _, _, hp⟩ hsame hlaunched howned
    exact H.worker_step hp hstep hupdate howned
  | recovery =>
    cases h with
    | none =>
      refine H.update (fun r => (H.run r).other_step hp ?_ ⟨.inl, .rfl, .inl, nofun⟩) hupdate nofun
      exact noteHandoff_same (hsame r) nofun
    | some x =>
      obtain ⟨r, htaken, hname⟩ := howned x rfl
      have hown : ∀ y, some x = some y → y.name = sandboxName S.instanceId r := by
        rintro _ ⟨⟩
        exact hname
      refine H.recovery_step hp (((H.run r).recovery hp).taken htaken)
        (.handoff (H.run r) hsame hlaunched hown) (fun r' hr => ⟨.inl, .rfl, .inl, ?_⟩) id htaken hupdate
        howned fun hx => noteHandoff_preserved.mpr (.inr hx)
      rintro _ ⟨⟩ hname'
      exact (hr (sandboxName_inj.mp (hname'.symm.trans hname))).elim

/-- A command of a worker that is not one of `preserve_workspace`. -/
theorem Inv.worker_command {clone prompt : String} {now : ℤ} (H : Inv S w ms)
    (hp : ms p = some (.worker r clone prompt now, m)) (W : WorkerStep S w w' r m m')
    (hw : w'.handoff = w.handoff) (hm : m'.handoff = m.handoff) :
    Inv S w' (Function.update ms p (some (.worker r clone prompt now, m'))) :=
  H.worker_step hp W (hw.trans (H.handoff_stays hp hm)) fun _ hh => H.owned hp (hm ▸ hh)

theorem keeps_worker {c : Cmd} {clone prompt : String} {now : ℤ} (crates : Crates) (o : Choice)
    (H : Inv S w ms) (hp : ms p = some (.worker r clone prompt now, m))
    (hok : Watch.ok S (.worker r clone prompt now) m c)
    (horderly : ∀ name, c = .snapshot name → w.running name = false) :
    Keeps S ms p (.worker r clone prompt now) m c (w.exec crates p c o).1
      (w.exec crates p c o).2 := by
  have hworker : WorksOn ms p r m := ⟨_, _, _, hp⟩
  have R := H.run r
  obtain ⟨-, hat, -⟩ := R.worker hworker
  cases c with
  | create name config path =>
    obtain ⟨rfl, hm⟩ := hok
    rw [hm] at hat
    refine settle_rule (P := Keeps S ms p _ m (.create _ config path)) (fun _ => ⟨trivial, ?_⟩)
      (fun _ => ⟨trivial, ?_⟩) fun _ _ => ⟨trivial, ?_⟩
    · exact H.worker_command hp (.create R hworker hm rfl (.inl rfl)) rfl rfl
    · refine H.worker_command hp (.stay R hworker hat.1 rfl fun _ => rfl) rfl rfl
    · exact H.worker_command hp (.create R hworker hm rfl (.inr rfl)) rfl rfl
  | spawn name =>
    obtain ⟨rfl, hm, hnone⟩ := hok
    rw [hm] at hat
    have hspawn : Inv S (w.spawnAgent (sandboxName S.instanceId r))
        (Function.update ms p (some (.worker r clone prompt now, { m with phase := .started }))) :=
      H.worker_command hp (.spawn R hworker hm hnone rfl) rfl rfl
    refine settle_rule (P := Keeps S ms p _ m (.spawn _)) (fun _ => ⟨trivial, hspawn⟩)
      (fun _ => ⟨trivial, ?_⟩) fun _ _ => ⟨trivial, hspawn⟩
    exact H.worker_command hp (.stay R hworker hat.2.2 rfl fun _ => rfl) rfl rfl
  | rm name =>
    obtain ⟨rfl, hm⟩ := hok
    have hremove : Inv S (w.removeSandbox (sandboxName S.instanceId r)) (Function.update ms p
        (some (.worker r clone prompt now, { m with phase := m.phase.drop }))) :=
      H.worker_command hp (.remove R hworker hm rfl rfl) rfl rfl
    refine settle_rule (P := Keeps S ms p _ m (.rm _)) (fun _ => ⟨trivial, hremove⟩)
      (fun _ => ⟨trivial, ?_⟩) fun _ _ => ⟨trivial, hremove⟩
    exact H.worker_command hp (.stay R hworker (hat.drop rfl rfl) rfl fun _ => Phase.maySpawn_drop) rfl rfl
  | write op =>
    cases op with
    | recordRunSandbox sandbox =>
      obtain ⟨hm, hrun, hname, hstate, hremoved⟩ := hok
      rw [hm] at hat
      refine settle_rule (P := Keeps S ms p _ m (.write (.recordRunSandbox sandbox)))
        (fun hrefusal => ⟨trivial, ?_⟩) (fun _ => ⟨trivial, ?_⟩) fun _ _ => ⟨trivial, ?_⟩
      · refine H.worker_command hp (.record _ R hworker hm hrun hname hstate hremoved rfl ?_) rfl rfl
        exact .inr ⟨rfl, Option.map_eq_none_iff.mp hrefusal⟩
      · exact H.worker_command hp (.stay R hworker hat rfl fun _ => rfl) rfl rfl
      · exact H.worker_command hp (.record _ R hworker hm hrun hname hstate hremoved rfl (.inl rfl)) rfl rfl
    | finishRunSandbox r' state exitCode logs removed =>
      obtain ⟨rfl, hclose⟩ := hok
      refine settle_rule (P := Keeps S ms p _ m (.write (.finishRunSandbox r' state exitCode logs removed)))
        (fun hrefusal => ⟨trivial, ?_⟩) (fun _ => ⟨trivial, ?_⟩) fun _ _ => ⟨trivial, ?_⟩
      · refine H.worker_command hp (.finish crates R hworker hclose rfl rfl fun h => ?_) rfl rfl
        simpa [Except.isOk, Except.toBool] using h
      · refine H.worker_command hp (.stay R hworker ?_ rfl fun h => ?_) rfl rfl
        · simpa [Watch.next, Except.isOk, Except.toBool] using hat.finish_false
        · exact Phase.not_maySpawn_finish (.inl h)
      · refine H.worker_command hp (.finish crates R hworker hclose rfl rfl fun h => ?_) rfl rfl
        simp [Except.isOk, Except.toBool] at h
    | _ => exact keeps_neutral crates o H hp rfl
  | snapshot | fetch | reset => exact keeps_hands crates o H hp rfl hok horderly
  | runSandbox => exact keeps_runSandbox crates o H hp
  | unremovedRunSandboxes => exact keeps_unremovedRunSandboxes crates o H hp
  | _ => exact keeps_neutral crates o H hp rfl

/-- A command of a recovery about a run that it has taken over or takes over now. -/
theorem Inv.recovery_command (H : Inv S w ms) (hp : ms p = some (.recovery, m))
    (habandoned : Abandoned w ms r) (W : RecoveryStep S w w' r)
    (hpreserved : w'.preserved = w.preserved) (hw : w'.handoff = w.handoff)
    (hread : m'.read = m.read) (hseen : m'.seen = m.seen) (hhandoff : m'.handoff = m.handoff)
    (htaken : ∀ r', r' ∈ m'.taken ↔ r' = r ∨ r' ∈ m.taken) :
    Inv S w' (Function.update ms p (some (.recovery, m'))) := by
  refine H.recovery_step hp habandoned W (fun r' hr => ⟨?_, ?_, ?_, ?_⟩) (by rw [hseen]; exact id)
    ((htaken r).mpr (.inl rfl)) (hw.trans (H.handoff_stays hp hhandoff)) (fun h hh => ?_) fun h => ?_
  · rw [hread]
    exact .inl
  · exact (htaken r').trans (or_iff_right hr)
  · rw [hseen]
    exact .inl
  · exact fun h hh _ => hhandoff ▸ hh
  · obtain ⟨r', hr', hname⟩ := H.owned hp (hhandoff ▸ hh)
    exact ⟨r', (htaken r').mpr (.inr hr'), hname⟩
  · rw [hpreserved]
    exact ((H.run r).recovery hp).restored (hhandoff ▸ h)

theorem keeps_recovery {c : Cmd} (crates : Crates) (o : Choice) (H : Inv S w ms)
    (hp : ms p = some (.recovery, m)) (hok : Watch.ok S .recovery m c)
    (horderly : w.Orderly (Machine.roles ms) p c) :
    Keeps S ms p .recovery m c (w.exec crates p c o).1 (w.exec crates p c o).2 := by
  cases c with
  | create | spawn => exact hok.elim
  | rm name =>
    obtain ⟨r, htaken, rfl⟩ := H.owned hp hok
    have R := (H.run r).recovery hp
    have hinv : ∀ {w'}, RecoveryStep S w w' r → w'.preserved = w.preserved → w'.handoff = w.handoff →
        Inv S w' (Function.update ms p (some (.recovery, { m with phase := m.phase.drop }))) :=
      fun W hk hh => H.recovery_command hp (R.taken htaken) W hk hh rfl rfl rfl fun r' =>
        ⟨.inr, fun h => h.elim (fun h => h ▸ htaken) id⟩
    have hremove := hinv (.remove (H.run r) fun _ => R.restored hok) rfl rfl
    exact settle_rule (P := Keeps S ms p _ m (.rm _)) (fun _ => ⟨trivial, hremove⟩)
      (fun _ => ⟨trivial, hinv (.stay (H.run r)) rfl rfl⟩) fun _ _ => ⟨trivial, hremove⟩
  | write op =>
    cases op with
    | recordRunSandbox => exact hok.elim
    | finishRunSandbox r state exitCode logs removed =>
      obtain ⟨hread, hclose⟩ := hok
      have R := (H.run r).recovery hp
      have habandoned : Abandoned w ms r := by
        refine ⟨R.read hread, fun q n hq => ?_⟩
        obtain ⟨clone, prompt, now, hq⟩ := hq
        exact horderly (by simp [Machine.roles, hp]) q clone prompt now (by simp [Machine.roles, hq])
      have hdelivered : closes state removed = true → Delivered S w r := fun h hs =>
        (hclose h).elim (fun h => (R.seen h).kept hs) R.restored
      have hinv : ∀ {w' phase}, RecoveryStep S w w' r → w'.preserved = w.preserved →
          w'.handoff = w.handoff → Inv S w' (Function.update ms p
            (some (.recovery, { m with phase := phase, taken := r :: m.taken }))) :=
        fun W hk hh => H.recovery_command hp habandoned W hk hh rfl rfl rfl fun _ => List.mem_cons
      have hfinish : ∀ host phase,
          Inv S (w.callLedger crates ⟨host, .finishRunSandbox r state exitCode logs removed⟩)
            (Function.update ms p
              (some (.recovery, { m with phase := phase, taken := r :: m.taken }))) :=
        fun _ _ => hinv (.finish crates (H.run r) hdelivered) rfl rfl
      exact settle_rule
        (P := Keeps S ms p _ m (.write (.finishRunSandbox r state exitCode logs removed)))
        (fun _ => ⟨trivial, hfinish _ _⟩) (fun _ => ⟨trivial, hinv (.stay (H.run r)) rfl rfl⟩)
        fun _ _ => ⟨trivial, hfinish _ _⟩
    | _ => exact keeps_neutral crates o H hp rfl
  | snapshot name =>
    refine keeps_hands crates o H hp rfl hok ?_
    rintro _ ⟨⟩
    exact horderly
  | fetch | reset => exact keeps_hands crates o H hp rfl hok fun _ h => by cases h
  | runSandbox => exact keeps_runSandbox crates o H hp
  | unremovedRunSandboxes => exact keeps_unremovedRunSandboxes crates o H hp
  | _ => exact keeps_neutral crates o H hp rfl

/-! ## Runs -/

theorem Inv.crash (H : Inv S w ms) (p : ℕ) : Inv S w (Function.update ms p none) := by
  have hms : ∀ {q x}, Function.update ms p none q = some x → ms q = some x := by
    intro q x hq
    by_cases hp : q = p
    · simp [hp] at hq
    · simpa [hp] using hq
  exact ⟨fun r => (H.run r).frame .refl fun hq => .inr ⟨_, hms hq, .refl⟩,
    fun hq => H.handoff (hms hq), fun hq => H.owned (hms hq)⟩

/-- A worker is started for a run that never had one: nothing is known of the run yet. -/
theorem RunInv.launch {clone prompt : String} {now : ℤ} (H : RunInv S w ms r)
    (hr : r ∉ w.launched) :
    RunInv S (w.start p (.worker r clone prompt now))
      (Function.update ms p (some (.worker r clone prompt now, {}))) r := by
  have hspawned : w.spawned (sandboxName S.instanceId r) = false := by
    by_contra h
    exact hr (H.spawned (by simpa using h))
  have hrow : w.row r = none := by
    by_contra h
    obtain ⟨x, hx⟩ := Option.ne_none_iff_exists'.mp h
    exact hr (H.row hx).1
  have hl : r ∈ (w.start p (.worker r clone prompt now)).launched := List.mem_cons_self
  have honly : ∀ {q n}, WorksOn (Function.update ms p (some (.worker r clone prompt now, {}))) q r n →
      q = p ∧ n = {} := by
    intro q n hq
    rcases worksOn_update hq with ⟨rfl, rfl, -⟩ | ⟨-, hq⟩
    · exact ⟨rfl, rfl⟩
    · exact (hr (H.worker hq).1).elim
  refine ⟨fun hx => ?_, fun h => H.recorded h, fun _ => hl, fun hq hq' => ?_, fun hx => ?_, fun hs => ?_,
    fun hq => ?_, fun {q n} hq => ?_⟩
  · exact absurd (hrow.symm.trans hx) nofun
  · exact (honly hq).1.trans (honly hq').1.symm
  · exact absurd (hrow.symm.trans hx) nofun
  · exact absurd (hspawned.symm.trans hs) nofun
  · obtain ⟨-, rfl⟩ := honly hq
    exact ⟨hl, hspawned, nofun⟩
  · rcases update_cases hq with ⟨-, hy⟩ | ⟨-, hq⟩
    · cases hy
    · have R := H.recovery hq
      exact ⟨fun _ => hl, fun h => (hr (R.taken h).1).elim, fun h => (hr (R.seen h).launched).elim,
        R.handoff, R.restored⟩

theorem Inv.start (H : Inv S w ms) (hstart : w.mayStart role = true) :
    Inv S (w.start p role) (Function.update ms p (some (role, {}))) := by
  have hrun : ∀ r, RunInv S (w.start p role) (Function.update ms p (some (role, {}))) r := by
    intro r
    cases role with
    | worker r' clone prompt now =>
      simp only [mayStart, Bool.and_eq_true, Bool.not_eq_true', List.contains_eq_mem,
        decide_eq_false_iff_not] at hstart
      by_cases hr : r = r'
      · subst hr
        exact (H.run r).launch hstart.1.2
      · refine (H.run r).frame ⟨rfl, by simp [World.start, hr], .rfl, rfl, rfl⟩ fun {q _ _} hq => ?_
        rcases update_cases hq with ⟨-, hy⟩ | ⟨-, hq⟩
        · cases hy
          exact .inl fun h => hr h.symm
        · exact .inr ⟨_, hq, .refl⟩
    | recovery =>
      refine (H.run r).frame ⟨rfl, .rfl, .rfl, rfl, rfl⟩ fun {q _ _} hq => ?_
      rcases update_cases hq with ⟨-, hy⟩ | ⟨-, hq⟩
      · cases hy
        exact .inl rfl
      · exact .inr ⟨_, hq, .refl⟩
  refine H.update hrun ?_ (by simp)
  cases role <;> rfl

theorem Inv.outside (H : Inv S w ms) (crates : Crates) (e : Outside) :
    Inv S (w.outside crates e) ms := by
  cases e with
  | call c =>
    simp only [World.outside]
    split
    · exact H
    · next hwrites =>
      obtain ⟨host, op⟩ := c
      refine H.same (fun r => sameRun_write crates host op ?_ ?_) rfl
      · rintro _ rfl
        simp [Op.writes] at hwrites
      · rintro _ _ _ _ rfl
        simp [Op.writes] at hwrites
  | agentEnds name => exact H.same (fun _ => ⟨rfl, .rfl, .rfl, rfl, rfl⟩) rfl
  | fetch clone => exact H.same (fun _ => ⟨rfl, .rfl, .rfl, rfl, rfl⟩) rfl

theorem Inv.initial : Inv S {} fun _ => none where
  run r := by
    refine ⟨fun h => ?_, nofun, nofun, ?_, fun h => ?_, nofun, ?_, nofun⟩
    · cases h
    · rintro _ _ _ _ ⟨_, _, _, ⟨⟩⟩
    · cases h
    · rintro _ _ ⟨_, _, _, ⟨⟩⟩
  handoff := nofun
  owned := nofun

theorem orderly_snapshot {roles : ℕ → Option Role} {c : Cmd} (h : w.Orderly roles p c) (name : String)
    (hc : c = .snapshot name) : w.running name = false := by
  subst hc
  exact h

/-- The proof by invariant. -/
theorem keeps (S : Setup) :
    Machine.Keeps S.machine (monitor S.worker) (fun _ => {}) Orderly (Inv S.worker) where
  program role := by
    cases role with
    | worker r clone prompt now => exact safe_detach.mpr (executeSandboxTask_fine S.crates)
    | recovery => exact safe_detach.mpr (reconcileSandboxWorkers_fine S.owner)
  act := fun {w ms p role m c} H hp hok hC o => by
    cases role with
    | worker r clone prompt now => exact keeps_worker S.crates o H hp hok (orderly_snapshot hC)
    | recovery => exact keeps_recovery S.crates o H hp hok hC
  crash H p := H.crash p
  start H _ hstart := H.start hstart
  env H e := H.outside S.crates e

/-- **No agent work is discarded with a sandbox**, as long as a recovery leaves the runs alone whose
worker is alive and no snapshot is taken of a sandbox whose agent still runs. -/
theorem no_work_discarded (S : Setup) (es : List (Event ℕ Role Choice Outside))
    (hes : Transition.Meets S.machine.step (Machine.Issues Orderly) Daemons.initial es) :
    (Transition.run S.machine.step Daemons.initial es).world.WorkKept S.worker := by
  have hnone : Machine.Tracks (monitor S.worker) Daemons.initial fun _ => none := fun _ => trivial
  obtain ⟨ms, -, H⟩ := (keeps S).invariant hes hnone Inv.initial
  refine ⟨fun r => (H.run r).kept, fun r hr => ?_⟩
  obtain ⟨row, hrow⟩ := Option.isSome_iff_exists.mp ((H.run r).recorded hr)
  exact ⟨row, hrow, ((H.run r).row hrow).2⟩

/-- `Orderly` for a process that is a worker. -/
def OrderlyWorker (w : World) (roles : ℕ → Option Role) (p : ℕ) (c : Cmd) : Prop :=
  roles p ≠ some .recovery ∧ match c with
    | .snapshot name => w.running name = false
    | _ => True

instance : Decidable (OrderlyWorker w roles p c) := by
  unfold OrderlyWorker
  cases c <;> infer_instance

theorem OrderlyWorker.orderly {roles : ℕ → Option Role} {c : Cmd} (h : OrderlyWorker w roles p c) :
    w.Orderly roles p c := by
  unfold Orderly
  split
  · exact fun hp => (h.1 hp).elim
  · exact h.2
  · trivial

/-- The agent works in its sandbox. -/
def working : List (Event ℕ Role Choice Outside) :=
  outsideCalls exampleHost [exampleDaemon, examplePoll "r1" true, exampleClaim,
    .reserveTaskWorkspace cloneWorkspace] ++
  .start 1 (exampleWorker 1) :: acts 1 9

/-- It ends, its work is handed over, and the removal of the sandbox fails. -/
def notRemoved : List (Event ℕ Role Choice Outside) :=
  working ++ .env (.agentEnds (sandboxName "c0ffee" 1)) :: acts 1 13 ++
  [.act 1 { host := exampleHost, failure := some ["timed out"] }]

set_option maxRecDepth 4000 in
theorem work_kept_notRemoved :
    (Transition.run exampleSetup.machine.step Daemons.initial notRemoved).world.WorkKept
      exampleSetup.worker := by
  have hmeets : Transition.Meets exampleSetup.machine.step (Machine.Issues OrderlyWorker)
      Daemons.initial notRemoved := by decide
  exact no_work_discarded exampleSetup notRemoved
    (hmeets.mono fun _ _ => Machine.Issues.mono fun _ _ _ _ => OrderlyWorker.orderly)

/-- The run is cancelled, `sbx stop` fails twice, and the sandbox is handed over and removed while
the agent still works in it. -/
def stillWorking : List (Event ℕ Role Choice Outside) :=
  working ++ .act 1 { host := exampleHost, woken := .cancelled } ::
  List.replicate 2 (.act 1 { host := exampleHost, failure := some ["timed out"] }) ++ acts 1 9

set_option maxRecDepth 4000 in
theorem work_discarded_stillWorking : ¬ ∀ (S : Setup) (es : List (Event ℕ Role Choice Outside)),
    (Transition.run S.machine.step Daemons.initial es).world.WorkKept S.worker := by
  intro h
  have hkept := (h exampleSetup stillWorking).kept 1 (by decide)
  have hgone : (Transition.run exampleSetup.machine.step Daemons.initial
      stillWorking).world.sandboxes = [] := by decide
  rcases hkept with hkept | ⟨hexists, -⟩
  · revert hkept
    decide
  · rw [hgone] at hexists
    cases hexists

end World
end FlashyFactory
