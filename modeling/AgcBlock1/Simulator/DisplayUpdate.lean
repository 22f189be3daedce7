import AgcBlock1.Simulator.PollingLoop

/-! `updateAGCDisplay`, called after every batch of the polling loop. With the clock fast and
the AGC running, the display is refreshed at the start of an instruction once two seconds have
passed or the DSKY changed, and at the latest 501 calls later; with the clock fast and the AGC
halted, once each time it waits; with the clock manual, at every call. `checkElapsedTime(2)`
reports the two seconds, so that running fast with no DSKY change the display is refreshed at
most once per two seconds of `clock()`. -/

namespace AgcBlock1

/-- The statics of `updateAGCDisplay` (`displayTimeout`, `clockCounter`, `displayOnce`) and the
global `dskyChanged`. -/
structure DisplayState where
  displayTimeout : Bool
  clockCounter : Int
  displayOnce : Bool
  dskyChanged : Bool
  deriving DecidableEq, Repr

def DisplayState.initial : DisplayState := ⟨false, 0, false, false⟩

/-- What a call reads besides its statics and the switches: whether `checkElapsedTime(2)`
reports two seconds, the sequencer (`TPG::register_SG` at `TP12`, `STBY` or `WAIT`, and
`SEQ::register_SNI`), and whether the DSKY set `dskyChanged` since the last call. -/
structure DisplayInputs where
  elapsed : Bool
  atTp12 : Bool
  sni : Bool
  atStby : Bool
  atWait : Bool
  dskyChanged : Bool

/-- The call's first lines: `dskyChanged` as the DSKY left it, and `displayTimeout` set once
`checkElapsedTime(2)` reports two seconds. -/
def noteElapsed (inputs : DisplayInputs) (display : DisplayState) : DisplayState :=
  let display := { display with dskyChanged := display.dskyChanged || inputs.dskyChanged }
  if inputs.elapsed then { display with displayTimeout := true } else display

/-- The branch for the clock fast and the AGC running: once a refresh is owed, count the call,
and refresh at the start of an instruction (`TP12` with `SNI`), in standby, after 500 counted
calls, or when the DSKY changed. -/
def refreshRunning (inputs : DisplayInputs) (display : DisplayState) : DisplayState × Bool :=
  if display.displayTimeout ∨ display.dskyChanged then
    let display := { display with clockCounter := display.clockCounter + 1 }
    if (inputs.atTp12 ∧ inputs.sni) ∨ inputs.atStby ∨ display.clockCounter > 500 ∨
        display.dskyChanged then
      ({ display with displayTimeout := false, clockCounter := 0, dskyChanged := false }, true)
    else (display, false)
  else (display, false)

/-- The branch for the clock fast and the AGC halted: refresh once on entering `WAIT`. -/
def refreshHalted (inputs : DisplayInputs) (display : DisplayState) : DisplayState × Bool :=
  if inputs.atWait then
    if display.displayOnce = false then ({ display with displayOnce := true, clockCounter := 0 }, true)
    else (display, false)
  else ({ display with displayOnce := false }, false)

/-- One call: the new statics, and whether it calls `MON::displayAGC()`; with the clock manual
it always does. -/
def updateAGCDisplay (monitor : Monitor) (inputs : DisplayInputs) (display : DisplayState) :
    DisplayState × Bool :=
  let display := noteElapsed inputs display
  if monitor.fclk ≠ 0 then
    if monitor.run ≠ 0 then refreshRunning inputs display else refreshHalted inputs display
  else (display, true)

theorem updateAGCDisplay_running {monitor : Monitor} (fast : monitor.fclk ≠ 0 ∧ monitor.run ≠ 0)
    (inputs : DisplayInputs) (display : DisplayState) :
    updateAGCDisplay monitor inputs display = refreshRunning inputs (noteElapsed inputs display) := by
  unfold updateAGCDisplay
  rw [if_pos fast.1, if_pos fast.2]

theorem updateAGCDisplay_halted {monitor : Monitor} (halted : monitor.fclk ≠ 0 ∧ monitor.run = 0)
    (inputs : DisplayInputs) (display : DisplayState) :
    updateAGCDisplay monitor inputs display = refreshHalted inputs (noteElapsed inputs display) := by
  unfold updateAGCDisplay
  rw [if_pos halted.1, if_neg (not_not_intro halted.2)]

@[simp] theorem noteElapsed_clockCounter (inputs : DisplayInputs) (display : DisplayState) :
    (noteElapsed inputs display).clockCounter = display.clockCounter := by
  unfold noteElapsed
  split <;> rfl

@[simp] theorem noteElapsed_displayOnce (inputs : DisplayInputs) (display : DisplayState) :
    (noteElapsed inputs display).displayOnce = display.displayOnce := by
  unfold noteElapsed
  split <;> rfl

@[simp] theorem noteElapsed_displayTimeout (inputs : DisplayInputs) (display : DisplayState) :
    (noteElapsed inputs display).displayTimeout = (display.displayTimeout || inputs.elapsed) := by
  unfold noteElapsed
  cases inputs.elapsed <;> simp

@[simp] theorem noteElapsed_dskyChanged (inputs : DisplayInputs) (display : DisplayState) :
    (noteElapsed inputs display).dskyChanged = (display.dskyChanged || inputs.dskyChanged) := by
  unfold noteElapsed
  split <;> rfl

theorem refreshRunning_cases (inputs : DisplayInputs) (display : DisplayState) :
    ((refreshRunning inputs display).2 = true ∧
        (display.displayTimeout = true ∨ display.dskyChanged = true) ∧
        (refreshRunning inputs display).1.displayTimeout = false ∧
        (refreshRunning inputs display).1.dskyChanged = false ∧
        (refreshRunning inputs display).1.clockCounter = 0) ∨
      (refreshRunning inputs display =
          ({ display with clockCounter := display.clockCounter + 1 }, false) ∧
        (display.displayTimeout = true ∨ display.dskyChanged = true) ∧
        display.clockCounter + 1 ≤ 500) ∨
      (refreshRunning inputs display = (display, false) ∧
        ¬ (display.displayTimeout = true ∨ display.dskyChanged = true)) := by
  unfold refreshRunning
  dsimp only
  split_ifs with owed refresh
  · exact .inl ⟨rfl, owed, rfl, rfl, rfl⟩
  · simp only [gt_iff_lt, not_or] at refresh
    exact .inr (.inl ⟨rfl, owed, by omega⟩)
  · exact .inr (.inr ⟨rfl, owed⟩)

/-- Successive calls, each with the switches and inputs of its batch: the last statics, and
for each call whether it refreshed the display. -/
def displayRun : List (Monitor × DisplayInputs) → DisplayState → DisplayState × List Bool
  | [], display => (display, [])
  | (monitor, inputs) :: rest, display =>
      let first := updateAGCDisplay monitor inputs display
      let later := displayRun rest first.1
      (later.1, first.2 :: later.2)

theorem displayRun_cons (monitor : Monitor) (inputs : DisplayInputs)
    (rest : List (Monitor × DisplayInputs)) (display : DisplayState) :
    displayRun ((monitor, inputs) :: rest) display =
      ((displayRun rest (updateAGCDisplay monitor inputs display).1).1,
        (updateAGCDisplay monitor inputs display).2 ::
          (displayRun rest (updateAGCDisplay monitor inputs display).1).2) := rfl

/-! ## The counter stays small -/

/-- `clockCounter` between calls: never negative, never past 500. -/
def CounterBounded (display : DisplayState) : Prop :=
  0 ≤ display.clockCounter ∧ display.clockCounter ≤ 500

instance (display : DisplayState) : Decidable (CounterBounded display) :=
  inferInstanceAs (Decidable (_ ∧ _))

theorem counterBounded_initial : CounterBounded DisplayState.initial := by
  simp [CounterBounded, DisplayState.initial]

theorem counterBounded_refreshRunning {display : DisplayState} (bounded : CounterBounded display)
    (inputs : DisplayInputs) : CounterBounded (refreshRunning inputs display).1 := by
  unfold CounterBounded at *
  rcases refreshRunning_cases inputs display with ⟨-, -, -, -, zero⟩ | ⟨counted, -, room⟩ | ⟨same, -⟩
  · omega
  · rw [counted]
    exact ⟨by dsimp only; omega, room⟩
  · rw [same]
    exact bounded

theorem counterBounded_refreshHalted {display : DisplayState} (bounded : CounterBounded display)
    (inputs : DisplayInputs) : CounterBounded (refreshHalted inputs display).1 := by
  unfold CounterBounded at *
  unfold refreshHalted
  split_ifs <;> simp [bounded]

theorem counterBounded_update {display : DisplayState} (bounded : CounterBounded display)
    (monitor : Monitor) (inputs : DisplayInputs) :
    CounterBounded (updateAGCDisplay monitor inputs display).1 := by
  have noted : CounterBounded (noteElapsed inputs display) := by
    simpa [CounterBounded] using bounded
  unfold updateAGCDisplay
  split_ifs
  · exact counterBounded_refreshRunning noted inputs
  · exact counterBounded_refreshHalted noted inputs
  · exact noted

theorem displayRun_counterBounded :
    ∀ (calls : List (Monitor × DisplayInputs)) {display : DisplayState},
      CounterBounded display → CounterBounded (displayRun calls display).1
  | [], _, bounded => bounded
  | (monitor, inputs) :: rest, _, bounded =>
      displayRun_counterBounded rest (counterBounded_update bounded monitor inputs)

theorem displayRun_counterBounded_initial :
    CounterBounded DisplayState.initial ∧
      CounterBounded (displayRun [({ Monitor.initial with run := 1, fclk := 1 },
        ⟨true, false, false, false, false, false⟩)] DisplayState.initial).1 :=
  ⟨counterBounded_initial, displayRun_counterBounded _ counterBounded_initial⟩

/-! ## Running with the clock fast -/

/-- A refresh is owed: two seconds have passed or the DSKY changed. -/
def RefreshOwed (display : DisplayState) : Prop :=
  display.displayTimeout = true ∨ display.dskyChanged = true

theorem refreshOwed_noteElapsed {display : DisplayState} (owed : RefreshOwed display)
    (inputs : DisplayInputs) : RefreshOwed (noteElapsed inputs display) := by
  unfold noteElapsed
  rcases owed with owed | owed <;> split <;> simp [RefreshOwed, owed]

theorem refreshRunning_owed (inputs : DisplayInputs) {display : DisplayState}
    (owed : RefreshOwed display) :
    (refreshRunning inputs display).2 = true ∨
      (RefreshOwed (refreshRunning inputs display).1 ∧
        (refreshRunning inputs display).1.clockCounter = display.clockCounter + 1) := by
  rcases refreshRunning_cases inputs display with ⟨shown, -⟩ | ⟨counted, -⟩ | ⟨-, none⟩
  · exact .inl shown
  · rw [counted]
    exact .inr ⟨owed, rfl⟩
  · exact absurd owed none

theorem updateAGCDisplay_owed {monitor : Monitor} (fast : monitor.fclk ≠ 0 ∧ monitor.run ≠ 0)
    (inputs : DisplayInputs) {display : DisplayState} (owed : RefreshOwed display) :
    (updateAGCDisplay monitor inputs display).2 = true ∨
      (RefreshOwed (updateAGCDisplay monitor inputs display).1 ∧
        (updateAGCDisplay monitor inputs display).1.clockCounter = display.clockCounter + 1) := by
  rw [updateAGCDisplay_running fast, ← noteElapsed_clockCounter inputs display]
  exact refreshRunning_owed inputs (refreshOwed_noteElapsed owed inputs)

theorem displayRun_refreshes_within :
    ∀ (calls : List (Monitor × DisplayInputs)) {display : DisplayState},
      (∀ call ∈ calls, call.1.fclk ≠ 0 ∧ call.1.run ≠ 0) → RefreshOwed display →
      CounterBounded display → 501 - display.clockCounter.toNat ≤ calls.length →
      true ∈ (displayRun calls display).2.take (501 - display.clockCounter.toNat)
  | [], display, _, _, bounded, long => by
      unfold CounterBounded at bounded
      simp at long
      omega
  | (monitor, inputs) :: rest, display, fast, owed, bounded, long => by
      have room : 501 - display.clockCounter.toNat = 501 - (display.clockCounter + 1).toNat + 1 := by
        unfold CounterBounded at bounded
        omega
      rw [displayRun_cons, room, List.take_succ_cons]
      rcases updateAGCDisplay_owed (fast _ (List.mem_cons_self _ _)) inputs owed with
        refreshed | ⟨owed', counted⟩
      · exact refreshed ▸ List.mem_cons_self _ _
      · apply List.mem_cons_of_mem
        have bounded' := counterBounded_update bounded monitor inputs
        rw [← counted] at room ⊢
        exact displayRun_refreshes_within rest (fun call member => fast call (List.mem_cons_of_mem _ member))
          owed' bounded' (by simp at long; omega)

theorem displayRun_refreshes_within_idle :
    (∀ call ∈ List.replicate 501 ({ Monitor.initial with run := 1, fclk := 1 },
        (⟨false, false, false, false, false, false⟩ : DisplayInputs)), call.1.fclk ≠ 0 ∧ call.1.run ≠ 0) ∧
      RefreshOwed ⟨true, 0, false, false⟩ ∧ CounterBounded ⟨true, 0, false, false⟩ ∧
      501 - (0 : Int).toNat ≤ (List.replicate 501 ({ Monitor.initial with run := 1, fclk := 1 },
        (⟨false, false, false, false, false, false⟩ : DisplayInputs))).length ∧
      true ∈ (displayRun (List.replicate 501 ({ Monitor.initial with run := 1, fclk := 1 },
        (⟨false, false, false, false, false, false⟩ : DisplayInputs))) ⟨true, 0, false, false⟩).2.take
          (501 - (0 : Int).toNat) := by
  have fast : ∀ call ∈ List.replicate 501 ({ Monitor.initial with run := 1, fclk := 1 },
      (⟨false, false, false, false, false, false⟩ : DisplayInputs)), call.1.fclk ≠ 0 ∧ call.1.run ≠ 0 := by
    intro call member
    rw [List.eq_of_mem_replicate member]
    decide
  have owed : RefreshOwed ⟨true, 0, false, false⟩ := .inl rfl
  have bounded : CounterBounded ⟨true, 0, false, false⟩ := by decide
  have long : 501 - (0 : Int).toNat ≤ (List.replicate 501 ({ Monitor.initial with run := 1, fclk := 1 },
      (⟨false, false, false, false, false, false⟩ : DisplayInputs))).length := by
    rw [List.length_replicate]
    exact Nat.sub_le _ _
  exact ⟨fast, owed, bounded, long, displayRun_refreshes_within _ fast owed bounded long⟩

/-! ## Halted with the clock fast -/

theorem displayRun_waiting :
    ∀ (calls : List (Monitor × DisplayInputs)) {display : DisplayState},
      (∀ call ∈ calls, call.1.fclk ≠ 0 ∧ call.1.run = 0 ∧ call.2.atWait = true) →
      display.displayOnce = true → (displayRun calls display).2 = List.replicate calls.length false
  | [], _, _, _ => rfl
  | (monitor, inputs) :: rest, display, waiting, shown => by
      obtain ⟨fast, halted, atWait⟩ : monitor.fclk ≠ 0 ∧ monitor.run = 0 ∧ inputs.atWait = true :=
        waiting _ (List.mem_cons_self _ _)
      have quiet : (updateAGCDisplay monitor inputs display).2 = false ∧
          (updateAGCDisplay monitor inputs display).1.displayOnce = true := by
        rw [updateAGCDisplay_halted ⟨fast, halted⟩]
        simp [refreshHalted, atWait, shown]
      rw [displayRun_cons, quiet.1, List.length_cons, List.replicate_succ]
      exact congrArg (List.cons false) (displayRun_waiting rest
        (fun call member => waiting call (List.mem_cons_of_mem _ member)) quiet.2)

theorem displayRun_waiting_once (monitor : Monitor) (inputs : DisplayInputs)
    (calls : List (Monitor × DisplayInputs)) {display : DisplayState}
    (waiting : ∀ call ∈ (monitor, inputs) :: calls,
      call.1.fclk ≠ 0 ∧ call.1.run = 0 ∧ call.2.atWait = true)
    (entering : display.displayOnce = false) :
    (displayRun ((monitor, inputs) :: calls) display).2 = true :: List.replicate calls.length false := by
  obtain ⟨fast, halted, atWait⟩ : monitor.fclk ≠ 0 ∧ monitor.run = 0 ∧ inputs.atWait = true :=
    waiting _ (List.mem_cons_self _ _)
  have first : (updateAGCDisplay monitor inputs display).2 = true ∧
      (updateAGCDisplay monitor inputs display).1.displayOnce = true := by
    rw [updateAGCDisplay_halted ⟨fast, halted⟩]
    simp [refreshHalted, atWait, entering]
  rw [displayRun_cons, first.1]
  exact congrArg (List.cons true) (displayRun_waiting calls
    (fun call member => waiting call (List.mem_cons_of_mem _ member)) first.2)

theorem displayRun_waiting_once_idle :
    (∀ call ∈ [({ Monitor.initial with fclk := 1 }, (⟨false, false, false, false, true, false⟩ :
        DisplayInputs)), ({ Monitor.initial with fclk := 1 }, ⟨false, false, false, false, true, false⟩)],
        call.1.fclk ≠ 0 ∧ call.1.run = 0 ∧ call.2.atWait = true) ∧
      DisplayState.initial.displayOnce = false ∧
      (displayRun [({ Monitor.initial with fclk := 1 }, ⟨false, false, false, false, true, false⟩),
          ({ Monitor.initial with fclk := 1 }, ⟨false, false, false, false, true, false⟩)]
        DisplayState.initial).2 = true :: List.replicate 1 false :=
  ⟨by decide, rfl, displayRun_waiting_once _ _ [({ Monitor.initial with fclk := 1 },
    ⟨false, false, false, false, true, false⟩)] (by decide) rfl⟩

/-! ## The two-second timer -/

/-- `CLOCKS_PER_SEC`, which POSIX sets to one million. -/
def clocksPerSec : Int := 1000000

/-- `checkElapsedTime(s)`: the static `start` after the call, and the result. `start` is `none`
until the first call with `s ≠ 0`, which sets it from a first reading of `clock()`; `finish` is
the call's other reading. The source's `(double) (finish - start) / CLOCKS_PER_SEC >= s` is
taken as `finish - start ≥ s * CLOCKS_PER_SEC`, which it is for the `s = 2` of its one caller
and differences of `clock()` below `2^53`. -/
def checkElapsedTime (s : Int) (startReading finish : Int) (start : Option Int) : Option Int × Bool :=
  if s = 0 then (start, true)
  else
    let start := start.getD startReading
    if finish - start ≥ s * clocksPerSec then (some finish, true) else (some start, false)

/-- Successive calls of `checkElapsedTime(s)`, each with its two readings of `clock()`: the last
`start`, and each call's result. -/
def elapsedRun (s : Int) : List (Int × Int) → Option Int → Option Int × List Bool
  | [], start => (start, [])
  | (startReading, finish) :: rest, start =>
      let first := checkElapsedTime s startReading finish start
      let later := elapsedRun s rest first.1
      (later.1, first.2 :: later.2)

/-- The calls of `updateAGCDisplay`, each with the result of its `checkElapsedTime(2)` as the
report of two seconds. -/
def withElapsed (calls : List (Monitor × DisplayInputs)) (elapsed : List Bool) :
    List (Monitor × DisplayInputs) :=
  List.zipWith (fun call elapsed => (call.1, { call.2 with elapsed := elapsed })) calls elapsed

theorem checkElapsedTime_started {s : Int} (positive : s ≠ 0) (startReading finish start : Int) :
    checkElapsedTime s startReading finish (some start) =
      if finish - start ≥ s * clocksPerSec then (some finish, true) else (some start, false) := by
  simp [checkElapsedTime, positive]

theorem elapsedRun_count_mul_le {s stop : Int} (positive : 0 < s) :
    ∀ (readings : List (Int × Int)) {start : Int}, start ≤ stop →
      (∀ reading ∈ readings, reading.2 ≤ stop) →
      ((elapsedRun s readings (some start)).2.count true : Int) * (s * clocksPerSec) ≤ stop - start
  | [], _, _, _ => by simp [elapsedRun]; omega
  | (startReading, finish) :: rest, start, started, before => by
      have later : ∀ reading ∈ rest, reading.2 ≤ stop :=
        fun reading member => before reading (List.mem_cons_of_mem _ member)
      simp only [elapsedRun, checkElapsedTime_started positive.ne']
      split
      case isTrue elapsed =>
        have counted := @elapsedRun_count_mul_le s stop positive rest finish
          (before _ (List.mem_cons_self _ _)) later
        simp only [List.count_cons_self, Nat.cast_succ, add_one_mul]
        omega
      case isFalse =>
        simpa using elapsedRun_count_mul_le positive rest started later

theorem mem_withElapsed : ∀ {calls : List (Monitor × DisplayInputs)} {elapsed : List Bool}
    {call : Monitor × DisplayInputs}, call ∈ withElapsed calls elapsed →
      ∃ original ∈ calls, ∃ report, call = (original.1, { original.2 with elapsed := report })
  | [], _, _, member => by simp [withElapsed] at member
  | _ :: _, [], _, member => by simp [withElapsed] at member
  | original :: calls, report :: elapsed, call, member => by
      rcases List.mem_cons.mp member with rfl | later
      · exact ⟨original, List.mem_cons_self _ _, report, rfl⟩
      · obtain ⟨earlier, within, report', rfl⟩ := mem_withElapsed later
        exact ⟨earlier, List.mem_cons_of_mem _ within, report', rfl⟩

theorem countP_withElapsed_le :
    ∀ (calls : List (Monitor × DisplayInputs)) (elapsed : List Bool),
      (withElapsed calls elapsed).countP (·.2.elapsed) ≤ elapsed.count true
  | [], _ => by simp [withElapsed]
  | _ :: _, [] => by simp [withElapsed]
  | call :: calls, report :: elapsed => by
      have later := countP_withElapsed_le calls elapsed
      cases report <;> simp_all [withElapsed]

theorem updateAGCDisplay_budget {monitor : Monitor} (fast : monitor.fclk ≠ 0 ∧ monitor.run ≠ 0)
    {inputs : DisplayInputs} (still : inputs.dskyChanged = false) {display : DisplayState}
    (quiet : display.dskyChanged = false) :
    (updateAGCDisplay monitor inputs display).1.dskyChanged = false ∧
      (if (updateAGCDisplay monitor inputs display).2 then 1 else 0) +
          (if (updateAGCDisplay monitor inputs display).1.displayTimeout then 1 else 0) ≤
        (if inputs.elapsed then 1 else 0) + (if display.displayTimeout then 1 else 0) := by
  rw [updateAGCDisplay_running fast]
  rcases refreshRunning_cases inputs (noteElapsed inputs display) with
    ⟨shown, owed, cleared, unchanged, -⟩ | ⟨counted, -⟩ | ⟨same, -⟩
  · simp only [noteElapsed_displayTimeout, noteElapsed_dskyChanged, quiet, still, Bool.or_false,
      Bool.false_eq_true, or_false, Bool.or_eq_true] at owed
    rw [shown, cleared, unchanged]
    rcases owed with timeout | elapsed <;> simp [*]
  · rw [counted]
    simp only [noteElapsed_displayTimeout, noteElapsed_dskyChanged, quiet, still, Bool.or_false]
    cases inputs.elapsed <;> cases display.displayTimeout <;> simp
  · rw [same]
    simp only [noteElapsed_displayTimeout, noteElapsed_dskyChanged, quiet, still, Bool.or_false]
    cases inputs.elapsed <;> cases display.displayTimeout <;> simp

theorem displayRun_budget :
    ∀ (calls : List (Monitor × DisplayInputs)) {display : DisplayState},
      (∀ call ∈ calls, call.1.fclk ≠ 0 ∧ call.1.run ≠ 0 ∧ call.2.dskyChanged = false) →
      display.dskyChanged = false →
      (displayRun calls display).2.count true ≤
        calls.countP (·.2.elapsed) + (if display.displayTimeout then 1 else 0)
  | [], _, _, _ => by simp [displayRun]
  | (monitor, inputs) :: rest, display, fast, quiet => by
      obtain ⟨fclk, run, still⟩ : monitor.fclk ≠ 0 ∧ monitor.run ≠ 0 ∧ inputs.dskyChanged = false :=
        fast _ (List.mem_cons_self _ _)
      obtain ⟨quiet', step⟩ := updateAGCDisplay_budget ⟨fclk, run⟩ still quiet
      have later := displayRun_budget rest
        (fun call member => fast call (List.mem_cons_of_mem _ member)) quiet'
      rw [displayRun_cons, List.count_cons, List.countP_cons, beq_true]
      dsimp only
      omega

theorem displayRun_refreshes_bounded_by_clock {start stop : Int} (window : start ≤ stop)
    (calls : List (Monitor × DisplayInputs)) (readings : List (Int × Int))
    (fast : ∀ call ∈ calls, call.1.fclk ≠ 0 ∧ call.1.run ≠ 0 ∧ call.2.dskyChanged = false)
    (before : ∀ reading ∈ readings, reading.2 ≤ stop) {display : DisplayState}
    (quiet : display.dskyChanged = false) (fresh : display.displayTimeout = false) :
    ((displayRun (withElapsed calls (elapsedRun 2 readings (some start)).2) display).2.count true : Int) *
      (2 * clocksPerSec) ≤ stop - start := by
  have fast' : ∀ call ∈ withElapsed calls (elapsedRun 2 readings (some start)).2,
      call.1.fclk ≠ 0 ∧ call.1.run ≠ 0 ∧ call.2.dskyChanged = false := by
    intro call member
    obtain ⟨original, within, report, rfl⟩ := mem_withElapsed member
    exact fast original within
  have refreshes := displayRun_budget _ fast' quiet
  have reports := countP_withElapsed_le calls (elapsedRun 2 readings (some start)).2
  have timed := @elapsedRun_count_mul_le 2 stop (by decide) readings start window before
  rw [fresh, if_neg Bool.false_ne_true, Nat.add_zero] at refreshes
  calc ((displayRun (withElapsed calls (elapsedRun 2 readings (some start)).2) display).2.count true : Int) *
        (2 * clocksPerSec)
      ≤ ((elapsedRun 2 readings (some start)).2.count true : Int) * (2 * clocksPerSec) := by
        gcongr
        · decide
        · exact_mod_cast refreshes.trans reports
    _ ≤ stop - start := timed

theorem displayRun_refreshes_bounded_by_clock_sample :
    (0 : Int) ≤ 4000000 ∧
      (∀ call ∈ [({ Monitor.initial with run := 1, fclk := 1 },
          (⟨false, false, false, false, false, false⟩ : DisplayInputs))],
        call.1.fclk ≠ 0 ∧ call.1.run ≠ 0 ∧ call.2.dskyChanged = false) ∧
      (∀ reading ∈ [((0 : Int), (2000000 : Int))], reading.2 ≤ 4000000) ∧
      DisplayState.initial.dskyChanged = false ∧ DisplayState.initial.displayTimeout = false ∧
      ((displayRun (withElapsed [({ Monitor.initial with run := 1, fclk := 1 },
          ⟨false, false, false, false, false, false⟩)] (elapsedRun 2 [(0, 2000000)] (some 0)).2)
        DisplayState.initial).2.count true : Int) * (2 * clocksPerSec) ≤ 4000000 - 0 :=
  ⟨by decide, by decide, by decide, rfl, rfl,
    displayRun_refreshes_bounded_by_clock (by decide) _ _ (by decide) (by decide) rfl rfl⟩

end AgcBlock1
