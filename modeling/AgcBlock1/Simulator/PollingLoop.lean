import AgcBlock1.Simulator.FrontPanel

/-! The polling loop of `main`: while no key is pending, clock the AGC in batches of up to
`genStateCntr` ticks, checking the breakpoint and the watch after every tick, and clear the
single step switch at `TP1` after each batch. -/

namespace AgcBlock1

/-- The monitor's switches `MON::PURST`, `MON::RUN`, `MON::STEP`, `MON::INST`, `MON::FCLK`,
`MON::SA` and `MON::SCL_ENAB`. -/
structure Monitor where
  purst : BitVec 32
  run : BitVec 32
  step : BitVec 32
  inst : BitVec 32
  fclk : BitVec 32
  sa : BitVec 32
  sclEnab : BitVec 32
  deriving DecidableEq, Repr

/-- The switches at startup. -/
def Monitor.initial : Monitor := ⟨1, 0, 0, 1, 0, 0, 1⟩

/-- What the front panel uses of the rest of the simulator, whose source is not part of this
model: a tick (`CLK::clkAGC` then `genAGCStates`) and `genAGCStates` alone, as functions of
the core and the switches; `ADR::getEffectiveAddress`; `MEM::readMemory`; and whether
`TPG::register_SG` reads `TP1`. -/
structure CoreInterface (Core : Type) where
  tick : Core → Monitor → Core
  genAGCStates : Core → Monitor → Core
  effectiveAddress : Core → BitVec 32
  readMemory : Core → BitVec 32 → BitVec 32
  atTp1 : Core → Bool

/-- The state the loop works on: the core, the switches, `singleClock`, and the breakpoint and
the watch. -/
structure PanelState (Core : Type) where
  core : Core
  monitor : Monitor
  singleClock : Bool
  checks : Checks
  deriving DecidableEq

/-- A core that counts the ticks it makes with the single step switch on, and is always at
`TP1`. -/
def stepCounter : CoreInterface Nat :=
  ⟨fun count monitor => if monitor.step ≠ 0 then count + 1 else count, fun count _ => count,
    fun _ => 0, fun _ _ => 0, fun _ => true⟩

/-- Running fast with the single step switch on, no breakpoint and no watch. -/
def steppingFast : PanelState Nat :=
  ⟨0, { Monitor.initial with run := 1, step := 1, fclk := 1 }, false, ⟨false, 0, false, 0, 0⟩⟩

/-- A core that counts every tick, at the address of its count. -/
def tickCounter : CoreInterface Nat :=
  ⟨fun count _ => count + 1, fun count _ => count, fun count => BitVec.ofNat 32 count, fun _ _ => 0,
    fun _ => true⟩

/-- Running fast with the single step switch off and a breakpoint at `5`. -/
def breakpointAtFive : PanelState Nat :=
  ⟨0, { Monitor.initial with run := 1, fclk := 1 }, false, ⟨true, 5, false, 0, 0⟩⟩

section Loop

variable {Core : Type} (agc : CoreInterface Core)

/-- `if (breakpointEnab && breakpoint == ADR::getEffectiveAddress()) MON::RUN = 0;` -/
def breakpointCheck (state : PanelState Core) : PanelState Core :=
  if state.checks.breakpointEnab ∧ state.checks.breakpoint = agc.effectiveAddress state.core then
    { state with monitor := { state.monitor with run := 0 } }
  else state

/-- The watch check: `RUN` cleared when the watched word changed, and the word kept in
`oldWatchValue`. -/
def watchCheck (state : PanelState Core) : PanelState Core :=
  if state.checks.watchEnab then
    let newWatchValue := agc.readMemory state.core state.checks.watchAddr
    { state with
      monitor :=
        if newWatchValue ≠ state.checks.oldWatchValue then { state.monitor with run := 0 }
        else state.monitor,
      checks := { state.checks with oldWatchValue := newWatchValue } }
  else state

/-- The body of the `do`-`while` loop: a tick with `singleClock = false`, then the breakpoint
and the watch checks. -/
def tickOnce (state : PanelState Core) : PanelState Core :=
  watchCheck agc (breakpointCheck agc
    { state with core := agc.tick state.core state.monitor, singleClock := false })

/-- The `do`-`while` loop with `genStateCntr` ticks left: the states after each tick, and the
last one. -/
def runBatch : (genStateCntr : Nat) → PanelState Core → List (PanelState Core) × PanelState Core
  | 0, state => ([], state)
  | genStateCntr + 1, state =>
      let state := tickOnce agc state
      if state.monitor.fclk ≠ 0 ∧ state.monitor.run ≠ 0 ∧ genStateCntr > 0 then
        let rest := runBatch genStateCntr state
        (state :: rest.1, rest.2)
      else ([state], state)

/-- `if (MON::STEP && TPG::register_SG.read() == TP1) MON::STEP = 0;` -/
def clearStep (state : PanelState Core) : PanelState Core :=
  if state.monitor.step ≠ 0 ∧ agc.atTp1 state.core then
    { state with monitor := { state.monitor with step := 0 } }
  else state

/-- One pass of `while (!_kbhit())` with batches of `genStateCntr` ticks: the states after each
tick, and the state at the end of the pass. -/
def pollPass (genStateCntr : Nat) (state : PanelState Core) :
    List (PanelState Core) × PanelState Core :=
  let batch :=
    if state.monitor.fclk ≠ 0 ∨ state.singleClock then runBatch agc genStateCntr state
    else ([], state)
  (batch.1, clearStep agc batch.2)

/-- `passes` passes of the polling loop: the states after each tick, and the last state. -/
def pollPasses (genStateCntr : Nat) :
    (passes : Nat) → PanelState Core → List (PanelState Core) × PanelState Core
  | 0, state => ([], state)
  | passes + 1, state =>
      let first := pollPass agc genStateCntr state
      let rest := pollPasses genStateCntr passes first.2
      (first.1 ++ rest.1, rest.2)

variable {agc} {state : PanelState Core}

/-! ### What a tick can do to the switches -/

/-- The switches after a check: unchanged, or with `RUN` cleared. -/
def RunMayClear (before after : Monitor) : Prop :=
  after = before ∨ after = { before with run := 0 }

theorem runMayClear_trans {first second third : Monitor} (earlier : RunMayClear first second)
    (later : RunMayClear second third) : RunMayClear first third := by
  rcases earlier with rfl | rfl <;> rcases later with rfl | rfl <;> simp [RunMayClear]

@[simp] theorem breakpointCheck_core (state : PanelState Core) :
    (breakpointCheck agc state).core = state.core := by
  unfold breakpointCheck
  split <;> rfl

@[simp] theorem breakpointCheck_checks (state : PanelState Core) :
    (breakpointCheck agc state).checks = state.checks := by
  unfold breakpointCheck
  split <;> rfl

theorem breakpointCheck_monitor (state : PanelState Core) :
    RunMayClear state.monitor (breakpointCheck agc state).monitor := by
  unfold breakpointCheck RunMayClear
  split <;> simp

theorem watchCheck_monitor (state : PanelState Core) :
    RunMayClear state.monitor (watchCheck agc state).monitor := by
  unfold watchCheck RunMayClear
  split
  · dsimp only
    split <;> simp
  · simp

theorem tickOnce_monitor : RunMayClear state.monitor (tickOnce agc state).monitor := by
  unfold tickOnce
  exact runMayClear_trans (breakpointCheck_monitor
    { state with core := agc.tick state.core state.monitor, singleClock := false })
    (watchCheck_monitor _)

@[simp] theorem tickOnce_core : (tickOnce agc state).core = agc.tick state.core state.monitor := by
  unfold tickOnce watchCheck breakpointCheck
  split <;> split <;> rfl

@[simp] theorem tickOnce_singleClock : (tickOnce agc state).singleClock = false := by
  unfold tickOnce watchCheck breakpointCheck
  split <;> split <;> rfl

theorem tickOnce_step : (tickOnce agc state).monitor.step = state.monitor.step := by
  rcases @tickOnce_monitor _ agc state with same | cleared <;> simp [*]

theorem tickOnce_fclk : (tickOnce agc state).monitor.fclk = state.monitor.fclk := by
  rcases @tickOnce_monitor _ agc state with same | cleared <;> simp [*]

theorem tickOnce_run :
    (tickOnce agc state).monitor.run = state.monitor.run ∨ (tickOnce agc state).monitor.run = 0 := by
  rcases @tickOnce_monitor _ agc state with same | cleared <;> simp [*]

theorem runBatch_step (genStateCntr : Nat) :
    (runBatch agc genStateCntr state).2.monitor.step = state.monitor.step := by
  induction genStateCntr generalizing state with
  | zero => rfl
  | succ genStateCntr induction =>
      simp only [runBatch]
      split
      · rw [induction, tickOnce_step]
      · exact tickOnce_step

theorem runBatch_of_stops
    (stops : ¬ ((tickOnce agc state).monitor.fclk ≠ 0 ∧ (tickOnce agc state).monitor.run ≠ 0))
    (genStateCntr : Nat) :
    runBatch agc (genStateCntr + 1) state = ([tickOnce agc state], tickOnce agc state) := by
  simp only [runBatch]
  rw [if_neg fun continues => stops ⟨continues.1, continues.2.1⟩]

theorem runBatch_of_continues
    (continues : (tickOnce agc state).monitor.fclk ≠ 0 ∧ (tickOnce agc state).monitor.run ≠ 0)
    (genStateCntr : Nat) :
    runBatch agc (genStateCntr + 2) state =
      (tickOnce agc state :: (runBatch agc (genStateCntr + 1) (tickOnce agc state)).1,
        (runBatch agc (genStateCntr + 1) (tickOnce agc state)).2) := by
  simp only [runBatch]
  rw [if_pos ⟨continues.1, continues.2, Nat.succ_pos _⟩]

@[simp] theorem clearStep_fclk : (clearStep agc state).monitor.fclk = state.monitor.fclk := by
  unfold clearStep
  split <;> rfl

@[simp] theorem clearStep_singleClock : (clearStep agc state).singleClock = state.singleClock := by
  unfold clearStep
  split <;> rfl

@[simp] theorem clearStep_core : (clearStep agc state).core = state.core := by
  unfold clearStep
  split <;> rfl

@[simp] theorem clearStep_checks : (clearStep agc state).checks = state.checks := by
  unfold clearStep
  split <;> rfl

@[simp] theorem clearStep_run : (clearStep agc state).monitor.run = state.monitor.run := by
  unfold clearStep
  split <;> rfl

variable (agc) in
theorem clearStep_of_stepOff (stepOff : state.monitor.step = 0) : clearStep agc state = state := by
  simp [clearStep, stepOff]

/-! ### Where a batch stops -/

theorem runBatch_ne_nil (genStateCntr : Nat) : (runBatch agc (genStateCntr + 1) state).1 ≠ [] := by
  simp only [runBatch]
  split <;> simp

theorem checks_running {ticked : PanelState Core}
    (running : (watchCheck agc (breakpointCheck agc ticked)).monitor.run ≠ 0) :
    (ticked.checks.breakpointEnab = true →
        agc.effectiveAddress ticked.core ≠ ticked.checks.breakpoint) ∧
      (ticked.checks.watchEnab = true →
        agc.readMemory ticked.core ticked.checks.watchAddr = ticked.checks.oldWatchValue) := by
  constructor
  · intro enabled hit
    have fired : (breakpointCheck agc ticked).monitor.run = 0 := by
      simp [breakpointCheck, enabled, hit]
    rcases watchCheck_monitor (breakpointCheck agc ticked) with same | cleared
    · exact running (by rw [same, fired])
    · exact running (by rw [cleared])
  · intro enabled
    by_contra changed
    unfold watchCheck at running
    simp [enabled, changed] at running

theorem tickOnce_running (running : (tickOnce agc state).monitor.run ≠ 0) :
    (state.checks.breakpointEnab = true →
        agc.effectiveAddress (tickOnce agc state).core ≠ state.checks.breakpoint) ∧
      (state.checks.watchEnab = true →
        agc.readMemory (tickOnce agc state).core state.checks.watchAddr = state.checks.oldWatchValue) := by
  rw [tickOnce_core]
  exact checks_running running

theorem tickOnce_checks_of_running (running : (tickOnce agc state).monitor.run ≠ 0) :
    (tickOnce agc state).checks = state.checks := by
  have unchanged := (tickOnce_running running).2
  rw [tickOnce_core] at unchanged
  unfold tickOnce watchCheck
  split
  case isTrue enabled =>
    simp only [breakpointCheck_checks] at enabled ⊢
    rw [breakpointCheck_core, unchanged enabled]
  case isFalse => exact breakpointCheck_checks _

theorem runBatch_stops_at_breakpoint_or_watch (genStateCntr : Nat) :
    ∀ ticked ∈ (runBatch agc genStateCntr state).1.dropLast,
      (state.checks.breakpointEnab = true →
          agc.effectiveAddress ticked.core ≠ state.checks.breakpoint) ∧
        (state.checks.watchEnab = true →
          agc.readMemory ticked.core state.checks.watchAddr = state.checks.oldWatchValue) := by
  induction genStateCntr generalizing state with
  | zero => simp [runBatch]
  | succ genStateCntr induction =>
      intro ticked member
      simp only [runBatch] at member
      split at member
      case isTrue continues =>
        obtain ⟨-, running, more⟩ := continues
        obtain ⟨left, rfl⟩ : ∃ left, genStateCntr = left + 1 := ⟨genStateCntr - 1, by omega⟩
        rw [List.dropLast_cons_of_ne_nil (runBatch_ne_nil left)] at member
        rcases List.mem_cons.mp member with rfl | later
        · exact tickOnce_running running
        · simpa only [tickOnce_checks_of_running running] using induction ticked later
      case isFalse => simp at member

/-! ### When batching cannot be seen -/

/-- The single step switch is off, or the clock is manual, or the AGC is halted. The loop
never turns a switch on, so this lasts. -/
def BatchInvisible (monitor : Monitor) : Prop :=
  monitor.step = 0 ∨ monitor.fclk = 0 ∨ monitor.run = 0

theorem batchInvisible_tickOnce (quiet : BatchInvisible state.monitor) :
    BatchInvisible (tickOnce agc state).monitor := by
  unfold BatchInvisible at *
  rw [tickOnce_step, tickOnce_fclk]
  rcases @tickOnce_run _ agc state with same | cleared
  · rwa [same]
  · exact .inr (.inr cleared)

theorem batchInvisible_runBatch (quiet : BatchInvisible state.monitor) (genStateCntr : Nat) :
    BatchInvisible (runBatch agc genStateCntr state).2.monitor := by
  induction genStateCntr generalizing state with
  | zero => exact quiet
  | succ genStateCntr induction =>
      simp only [runBatch]
      split
      · exact induction (batchInvisible_tickOnce quiet)
      · exact batchInvisible_tickOnce quiet

theorem batchInvisible_clearStep (quiet : BatchInvisible state.monitor) :
    BatchInvisible (clearStep agc state).monitor := by
  unfold clearStep
  split
  · exact .inl rfl
  · exact quiet

theorem batchInvisible_pollPass (quiet : BatchInvisible state.monitor) (genStateCntr : Nat) :
    BatchInvisible (pollPass agc genStateCntr state).2.monitor := by
  apply batchInvisible_clearStep
  split
  · exact batchInvisible_runBatch quiet genStateCntr
  · exact quiet

/-! ### Passes of one tick -/

theorem pollPasses_add (genStateCntr first second : Nat) (state : PanelState Core) :
    pollPasses agc genStateCntr (first + second) state =
      ((pollPasses agc genStateCntr first state).1 ++
          (pollPasses agc genStateCntr second (pollPasses agc genStateCntr first state).2).1,
        (pollPasses agc genStateCntr second (pollPasses agc genStateCntr first state).2).2) := by
  induction first generalizing state with
  | zero => simp [pollPasses]
  | succ first induction =>
      rw [Nat.succ_add]
      simp [pollPasses, induction]

theorem pollPasses_prefix (genStateCntr : Nat) {fewer more : Nat} (le : fewer ≤ more)
    (state : PanelState Core) :
    (pollPasses agc genStateCntr fewer state).1 <+: (pollPasses agc genStateCntr more state).1 := by
  obtain ⟨extra, rfl⟩ := Nat.exists_eq_add_of_le le
  rw [pollPasses_add]
  exact List.prefix_append _ _

theorem pollPasses_one (genStateCntr : Nat) (state : PanelState Core) :
    pollPasses agc genStateCntr 1 state = pollPass agc genStateCntr state := by
  simp [pollPasses]

variable (agc) in
theorem pollPass_of_idle (idle : ¬ (state.monitor.fclk ≠ 0 ∨ state.singleClock = true))
    (genStateCntr : Nat) : pollPass agc genStateCntr state = ([], clearStep agc state) := by
  simp only [pollPass, if_neg idle]

variable (agc) in
theorem pollPass_one (stepOff : state.monitor.step = 0)
    (ticking : state.monitor.fclk ≠ 0 ∨ state.singleClock = true) :
    pollPass agc 1 state = ([tickOnce agc state], tickOnce agc state) := by
  simp only [pollPass, if_pos ticking, runBatch]
  simp only [gt_iff_lt, Nat.lt_irrefl, and_false, if_false,
    clearStep_of_stepOff agc (tickOnce_step.trans stepOff)]

variable (agc) in
theorem runBatch_eq_pollPasses (stepOff : state.monitor.step = 0)
    (ticking : state.monitor.fclk ≠ 0 ∨ state.singleClock = true) (genStateCntr : Nat) :
    ∃ passes, 0 < passes ∧ pollPasses agc 1 passes state = runBatch agc (genStateCntr + 1) state := by
  induction genStateCntr generalizing state with
  | zero =>
      refine ⟨1, Nat.one_pos, ?_⟩
      rw [pollPasses_one, pollPass_one agc stepOff ticking]
      simp [runBatch]
  | succ genStateCntr induction =>
      by_cases continues :
          (tickOnce agc state).monitor.fclk ≠ 0 ∧ (tickOnce agc state).monitor.run ≠ 0
      · obtain ⟨passes, -, rest⟩ := induction (tickOnce_step.trans stepOff) (.inl continues.1)
        refine ⟨passes + 1, Nat.succ_pos _, ?_⟩
        rw [runBatch_of_continues continues, ← rest]
        simp only [pollPasses, pollPass_one agc stepOff ticking]
        rfl
      · refine ⟨1, Nat.one_pos, ?_⟩
        rw [pollPasses_one, pollPass_one agc stepOff ticking, runBatch_of_stops continues]

variable (agc) in
theorem pollPass_eq_pollPasses (quiet : BatchInvisible state.monitor) {genStateCntr : Nat}
    (positive : 0 < genStateCntr) :
    ∃ passes, 0 < passes ∧ pollPasses agc 1 passes state = pollPass agc genStateCntr state := by
  obtain ⟨left, rfl⟩ : ∃ left, genStateCntr = left + 1 := ⟨genStateCntr - 1, by omega⟩
  by_cases ticking : state.monitor.fclk ≠ 0 ∨ state.singleClock = true
  case neg =>
    refine ⟨1, Nat.one_pos, ?_⟩
    rw [pollPasses_one, pollPass_of_idle agc ticking, pollPass_of_idle agc ticking]
  case pos =>
    by_cases continues :
        (tickOnce agc state).monitor.fclk ≠ 0 ∧ (tickOnce agc state).monitor.run ≠ 0
    case neg =>
      refine ⟨1, Nat.one_pos, ?_⟩
      rw [pollPasses_one]
      simp only [pollPass, if_pos ticking, runBatch_of_stops continues]
    case pos =>
      have stepOff : state.monitor.step = 0 :=
        tickOnce_step.symm.trans ((@batchInvisible_tickOnce _ agc state quiet).resolve_right
          fun stopped => stopped.elim continues.1 continues.2)
      obtain ⟨passes, positive, batch⟩ := runBatch_eq_pollPasses agc stepOff ticking left
      refine ⟨passes, positive, ?_⟩
      simp only [pollPass, if_pos ticking,
        clearStep_of_stepOff agc ((runBatch_step _).trans stepOff), batch]

variable (agc) in
theorem pollPasses_eq_single (quiet : BatchInvisible state.monitor) {genStateCntr : Nat}
    (positive : 0 < genStateCntr) (passes : Nat) :
    ∃ single, passes ≤ single ∧
      pollPasses agc 1 single state = pollPasses agc genStateCntr passes state := by
  induction passes generalizing state with
  | zero => exact ⟨0, le_rfl, rfl⟩
  | succ passes induction =>
      obtain ⟨first, firstPositive, firstPass⟩ := pollPass_eq_pollPasses agc quiet positive
      obtain ⟨rest, restLe, restPasses⟩ := induction (batchInvisible_pollPass quiet genStateCntr)
      refine ⟨first + rest, by omega, ?_⟩
      rw [pollPasses_add, firstPass, restPasses]
      rfl

theorem pollPasses_batch_invisible (agc : CoreInterface Core) {genStateCntr : Nat}
    (positive : 0 < genStateCntr) {state : PanelState Core} (quiet : BatchInvisible state.monitor) :
    (∀ passes, ∃ single, pollPasses agc 1 single state = pollPasses agc genStateCntr passes state) ∧
      ∀ passes, (pollPasses agc 1 passes state).1 <+: (pollPasses agc genStateCntr passes state).1 := by
  refine ⟨fun passes => ?_, fun passes => ?_⟩
  · obtain ⟨single, -, same⟩ := pollPasses_eq_single agc quiet positive passes
    exact ⟨single, same⟩
  · obtain ⟨single, le, same⟩ := pollPasses_eq_single agc quiet positive passes
    exact same ▸ pollPasses_prefix 1 le state

theorem pollPasses_batch_invisible_breakpoint :
    0 < 100 ∧ BatchInvisible breakpointAtFive.monitor ∧
      (∀ passes, ∃ single,
        pollPasses tickCounter 1 single breakpointAtFive = pollPasses tickCounter 100 passes breakpointAtFive) ∧
      ∀ passes,
        (pollPasses tickCounter 1 passes breakpointAtFive).1 <+: (pollPasses tickCounter 100 passes breakpointAtFive).1 :=
  ⟨by decide, .inl rfl, pollPasses_batch_invisible tickCounter (by decide) (.inl rfl)⟩

end Loop

theorem pollPasses_batch_keeps_step :
    ((pollPasses stepCounter 100 1 steppingFast).1.take 2).map PanelState.core = [1, 2] ∧
      (pollPasses stepCounter 1 2 steppingFast).1.map PanelState.core = [1, 1] := by
  decide

theorem runBatch_stops_at_breakpoint_or_watch_missed :
    tickOnce stepCounter { steppingFast with checks := ⟨true, 5, false, 0, 0⟩ } ∈
        (runBatch stepCounter 2 { steppingFast with checks := ⟨true, 5, false, 0, 0⟩ }).1.dropLast ∧
      ((⟨true, 5, false, 0, 0⟩ : Checks).breakpointEnab = true →
        stepCounter.effectiveAddress
          (tickOnce stepCounter { steppingFast with checks := ⟨true, 5, false, 0, 0⟩ }).core ≠ 5) := by
  have member : tickOnce stepCounter { steppingFast with checks := ⟨true, 5, false, 0, 0⟩ } ∈
      (runBatch stepCounter 2 { steppingFast with checks := ⟨true, 5, false, 0, 0⟩ }).1.dropLast := by
    decide
  exact ⟨member, (runBatch_stops_at_breakpoint_or_watch 2 _ member).1⟩

end AgcBlock1
