import AgcBlock1.Simulator.PollingLoop

/-! The breakpoint and the watch over whole runs of the polling loop. Every tick compares the
watched word with `oldWatchValue` and then stores it there, so from a state whose watch holds
the current word, each tick halts the AGC exactly when it reaches the breakpoint or changes the
watched word since the tick before it. `toggleWatch` leaves the watch holding the current word. -/

namespace AgcBlock1

section Checks

variable {Core : Type} (agc : CoreInterface Core)

/-- The word at the watched address, in the core as it is. -/
def watchedWord (state : PanelState Core) : BitVec 32 :=
  agc.readMemory state.core state.checks.watchAddr

/-- The enabled watch holds the word the core has now. -/
def WatchSynced (state : PanelState Core) : Prop :=
  state.checks.watchEnab = true → state.checks.oldWatchValue = watchedWord agc state

/-- What a tick does to `RUN`, from the state before it to the state after it: cleared when the
tick reaches the enabled breakpoint or changes the word the enabled watch looks at, and
otherwise left as it was. -/
def TickHalts (before after : PanelState Core) : Prop :=
  after.monitor.run =
    if (before.checks.breakpointEnab = true ∧
          before.checks.breakpoint = agc.effectiveAddress after.core) ∨
        (before.checks.watchEnab = true ∧
          agc.readMemory after.core before.checks.watchAddr ≠ watchedWord agc before)
    then 0 else before.monitor.run

instance (before after : PanelState Core) : Decidable (TickHalts agc before after) :=
  inferInstanceAs (Decidable (_ = _))

variable {agc} {state : PanelState Core}

theorem tickOnce_checks :
    (tickOnce agc state).checks =
      if state.checks.watchEnab then
        { state.checks with
          oldWatchValue := agc.readMemory (agc.tick state.core state.monitor) state.checks.watchAddr }
      else state.checks := by
  unfold tickOnce watchCheck
  simp only [breakpointCheck_checks, breakpointCheck_core]
  split <;> simp

theorem breakpointCheck_run (state : PanelState Core) :
    (breakpointCheck agc state).monitor.run =
      if state.checks.breakpointEnab = true ∧
          state.checks.breakpoint = agc.effectiveAddress state.core then 0
      else state.monitor.run := by
  unfold breakpointCheck
  split <;> rfl

theorem watchCheck_run (state : PanelState Core) :
    (watchCheck agc state).monitor.run =
      if state.checks.watchEnab = true ∧
          agc.readMemory state.core state.checks.watchAddr ≠ state.checks.oldWatchValue then 0
      else state.monitor.run := by
  unfold watchCheck
  split_ifs <;> simp_all

theorem tickOnce_run_eq :
    (tickOnce agc state).monitor.run =
      if (state.checks.breakpointEnab = true ∧
            state.checks.breakpoint = agc.effectiveAddress (agc.tick state.core state.monitor)) ∨
          (state.checks.watchEnab = true ∧
            agc.readMemory (agc.tick state.core state.monitor) state.checks.watchAddr ≠
              state.checks.oldWatchValue)
      then 0 else state.monitor.run := by
  unfold tickOnce
  rw [watchCheck_run, breakpointCheck_run]
  simp only [breakpointCheck_checks, breakpointCheck_core]
  split_ifs <;> first | rfl | tauto

theorem watchSynced_tickOnce : WatchSynced agc (tickOnce agc state) := by
  intro enabled
  rw [tickOnce_checks] at enabled ⊢
  split_ifs at enabled ⊢ with watching
  · simp [watchedWord, tickOnce_checks, watching]
  · exact absurd enabled watching

theorem tickHalts_tickOnce (synced : WatchSynced agc state) :
    TickHalts agc state (tickOnce agc state) := by
  unfold TickHalts
  rw [tickOnce_run_eq, tickOnce_core]
  by_cases watching : state.checks.watchEnab = true
  · rw [synced watching]
  · simp [watching]

theorem watchSynced_clearStep (synced : WatchSynced agc state) :
    WatchSynced agc (clearStep agc state) := by
  simpa [WatchSynced, watchedWord] using synced

theorem watchSynced_toggleWatch (previous : Nat → Char) (keys : List Char) :
    WatchSynced agc
      { state with checks := (toggleWatch (agc.readMemory state.core) previous keys state.checks).2 } := by
  unfold toggleWatch
  split <;> simp [WatchSynced, watchedWord, *]

theorem tickHalts_clearStep (after : PanelState Core) :
    TickHalts agc (clearStep agc state) after ↔ TickHalts agc state after := by
  simp [TickHalts, watchedWord]

private theorem chain_append_getLastD {α : Type} {R : α → α → Prop} :
    ∀ {first : α} {earlier later : List α}, List.Chain R first earlier →
      List.Chain R (earlier.getLastD first) later → List.Chain R first (earlier ++ later)
  | _, [], _, _, rest => rest
  | _, _ :: _, _, .cons step chain, rest =>
      .cons step (chain_append_getLastD chain (by rwa [List.getLastD_cons] at rest))

private theorem chain_head_congr {α : Type} {R : α → α → Prop} {first first' : α}
    (same : ∀ next, R first next ↔ R first' next) :
    ∀ {later : List α}, List.Chain R first later ↔ List.Chain R first' later
  | [] => by simp
  | _ :: _ => by simp only [List.chain_cons, same]

theorem runBatch_tickHalts (genStateCntr : Nat) :
    ∀ {state : PanelState Core}, WatchSynced agc state →
      List.Chain (TickHalts agc) state (runBatch agc genStateCntr state).1 ∧
        (runBatch agc genStateCntr state).2 = (runBatch agc genStateCntr state).1.getLastD state ∧
        WatchSynced agc (runBatch agc genStateCntr state).2 := by
  induction genStateCntr with
  | zero => exact fun synced => ⟨.nil, rfl, synced⟩
  | succ genStateCntr induction =>
      intro state synced
      simp only [runBatch]
      split
      · obtain ⟨chain, last, synced'⟩ := induction (@watchSynced_tickOnce _ agc state)
        exact ⟨.cons (tickHalts_tickOnce synced) chain, by rw [List.getLastD_cons, last], synced'⟩
      · exact ⟨.cons (tickHalts_tickOnce synced) .nil, rfl, watchSynced_tickOnce⟩

theorem pollPass_tickHalts (genStateCntr : Nat) (synced : WatchSynced agc state) :
    List.Chain (TickHalts agc) state (pollPass agc genStateCntr state).1 ∧
      (∀ next, TickHalts agc (pollPass agc genStateCntr state).2 next ↔
        TickHalts agc ((pollPass agc genStateCntr state).1.getLastD state) next) ∧
      WatchSynced agc (pollPass agc genStateCntr state).2 := by
  simp only [pollPass]
  split
  · obtain ⟨chain, last, synced'⟩ := runBatch_tickHalts genStateCntr synced
    exact ⟨chain, fun next => by rw [tickHalts_clearStep, last], watchSynced_clearStep synced'⟩
  · exact ⟨.nil, fun next => tickHalts_clearStep next, watchSynced_clearStep synced⟩

theorem pollPasses_tickHalts (genStateCntr passes : Nat) :
    (∀ state : PanelState Core, WatchSynced agc state →
      List.Chain (TickHalts agc) state (pollPasses agc genStateCntr passes state).1) ∧
    ∀ (state : PanelState Core) (previous : Nat → Char) (keys : List Char),
      List.Chain (TickHalts agc)
        { state with checks := (toggleWatch (agc.readMemory state.core) previous keys state.checks).2 }
        (pollPasses agc genStateCntr passes
          { state with checks := (toggleWatch (agc.readMemory state.core) previous keys state.checks).2 }).1 := by
  have synced : ∀ state : PanelState Core, WatchSynced agc state →
      List.Chain (TickHalts agc) state (pollPasses agc genStateCntr passes state).1 := by
    induction passes with
    | zero => exact fun _ _ => .nil
    | succ passes induction =>
        intro state synced
        obtain ⟨chain, same, synced'⟩ := pollPass_tickHalts genStateCntr synced
        exact chain_append_getLastD chain ((chain_head_congr same).mp (induction _ synced'))
  exact ⟨synced, fun state previous keys => synced _ (watchSynced_toggleWatch previous keys)⟩

theorem pollPasses_tickHalts_watching :
    WatchSynced stepCounter { steppingFast with checks := ⟨false, 0, true, 7, 0⟩ } ∧
      List.Chain (TickHalts stepCounter) { steppingFast with checks := ⟨false, 0, true, 7, 0⟩ }
        (pollPasses stepCounter 100 2 { steppingFast with checks := ⟨false, 0, true, 7, 0⟩ }).1 ∧
      List.Chain (TickHalts stepCounter)
        { steppingFast with checks := (toggleWatch (stepCounter.readMemory steppingFast.core)
            (fun _ => '\x00') ['7', '\n'] steppingFast.checks).2 }
        (pollPasses stepCounter 100 2
          { steppingFast with checks := (toggleWatch (stepCounter.readMemory steppingFast.core)
            (fun _ => '\x00') ['7', '\n'] steppingFast.checks).2 }).1 :=
  ⟨fun _ => rfl, (pollPasses_tickHalts 100 2).1 _ fun _ => rfl,
    (pollPasses_tickHalts 100 2).2 steppingFast (fun _ => '\x00') ['7', '\n']⟩

/-- A watch whose `oldWatchValue` is stale, as after a key that wrote the watched word, halts the
AGC at the first tick though the tick leaves the word as it was. -/
example :
    (tickOnce stepCounter { steppingFast with checks := ⟨false, 0, true, 7, 1⟩ }).monitor.run = 0 ∧
      watchedWord stepCounter (tickOnce stepCounter { steppingFast with checks := ⟨false, 0, true, 7, 1⟩ }) =
        watchedWord stepCounter { steppingFast with checks := ⟨false, 0, true, 7, 1⟩ } := by
  decide

end Checks

end AgcBlock1
