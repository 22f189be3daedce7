import AgcBlock1.Simulator.PollingLoop
import Mathlib.Logic.Relation

/-! The front panel over a whole session: polling passes and keys in any order. The switch keys
toggle or set one switch each, so every switch stays 0 or 1; with the clock manual, each `F1`
makes exactly one tick. Event by event, a session is a trace of polls, handlers and looks at the
keyboard that do nothing, with the ticks of its polls. -/

namespace AgcBlock1

/-- `(switch + 1) % 2`, as the switch keys compute it. -/
def toggle (switch : BitVec 32) : BitVec 32 := (switch + 1) % 2

/-- What `_getch()` gives at the prompt: a key, or a function key's code after a `'\0'`. -/
inductive KeyPress
  | key (key : Char)
  | function (code : Char)
  deriving DecidableEq

/-- The switches after a key's handler: `c`, `r`, `s`, `a`, `n` and `p` toggle one, `F2` and
`F4` set the clock manual and fast; no other handler writes a switch. -/
def keySwitches (press : KeyPress) (monitor : Monitor) : Monitor :=
  match press with
  | .key key =>
      if key = 'c' then { monitor with sclEnab := toggle monitor.sclEnab }
      else if key = 'r' then { monitor with run := toggle monitor.run }
      else if key = 's' then { monitor with step := toggle monitor.step }
      else if key = 'a' then { monitor with sa := toggle monitor.sa }
      else if key = 'n' then { monitor with inst := toggle monitor.inst }
      else if key = 'p' then { monitor with purst := toggle monitor.purst }
      else monitor
  | .function code =>
      if code = '\x3c' then { monitor with fclk := 0 }
      else if code = '\x3e' then { monitor with fclk := 1 }
      else monitor

/-- A step of the front panel: a pass of the polling loop, or a key's handler. A handler may
change the core, the breakpoint, the watch and `singleClock` in ways this model leaves open; its
switches are `keySwitches`. -/
inductive SessionStep {Core : Type} (agc : CoreInterface Core) (genStateCntr : Nat) :
    PanelState Core → PanelState Core → Prop
  | poll (state : PanelState Core) : SessionStep agc genStateCntr state (pollPass agc genStateCntr state).2
  | key (press : KeyPress) (state after : PanelState Core)
      (switches : after.monitor = keySwitches press state.monitor) :
      SessionStep agc genStateCntr state after

/-- Every switch holds 0 or 1, as the display's `%1d` fields assume. -/
def Monitor.Binary (monitor : Monitor) : Prop :=
  monitor.purst.toNat ≤ 1 ∧ monitor.run.toNat ≤ 1 ∧ monitor.step.toNat ≤ 1 ∧
    monitor.inst.toNat ≤ 1 ∧ monitor.fclk.toNat ≤ 1 ∧ monitor.sa.toNat ≤ 1 ∧
    monitor.sclEnab.toNat ≤ 1

instance (monitor : Monitor) : Decidable monitor.Binary :=
  inferInstanceAs (Decidable (_ ∧ _))

theorem toggle_toNat_le (switch : BitVec 32) : (toggle switch).toNat ≤ 1 := by
  have below : (toggle switch).toNat < 2 := by
    simp only [toggle, BitVec.toNat_umod]
    exact Nat.mod_lt _ (by decide)
  omega

section Session

variable {Core : Type} {agc : CoreInterface Core} {monitor : Monitor} {state : PanelState Core}

theorem binary_ite {condition : Prop} [Decidable condition] {chosen other : Monitor}
    (binary : chosen.Binary) (binary' : other.Binary) : (if condition then chosen else other).Binary := by
  split <;> assumption

theorem binary_keySwitches (press : KeyPress) (binary : monitor.Binary) :
    (keySwitches press monitor).Binary := by
  obtain ⟨purst, run, step, inst, fclk, sa, sclEnab⟩ := binary
  cases press <;> simp only [keySwitches] <;> repeat' apply binary_ite
  all_goals simp only [Monitor.Binary, toggle_toNat_le, purst, run, step, inst, fclk, sa, sclEnab,
    and_self, true_and, and_true]
  all_goals decide

theorem binary_of_runMayClear {after : Monitor} (binary : monitor.Binary)
    (check : RunMayClear monitor after) : after.Binary := by
  obtain ⟨purst, run, step, inst, fclk, sa, sclEnab⟩ := binary
  rcases check with rfl | rfl
  · exact ⟨purst, run, step, inst, fclk, sa, sclEnab⟩
  · exact ⟨purst, by simp, step, inst, fclk, sa, sclEnab⟩

theorem binary_runBatch (binary : state.monitor.Binary) (genStateCntr : Nat) :
    (runBatch agc genStateCntr state).2.monitor.Binary := by
  induction genStateCntr generalizing state with
  | zero => exact binary
  | succ genStateCntr induction =>
      simp only [runBatch]
      split
      · exact induction (binary_of_runMayClear binary tickOnce_monitor)
      · exact binary_of_runMayClear binary tickOnce_monitor

theorem binary_clearStep (binary : state.monitor.Binary) : (clearStep agc state).monitor.Binary := by
  unfold clearStep
  split
  · obtain ⟨purst, run, step, inst, fclk, sa, sclEnab⟩ := binary
    exact ⟨purst, run, by simp, inst, fclk, sa, sclEnab⟩
  · exact binary

theorem binary_pollPass (binary : state.monitor.Binary) (genStateCntr : Nat) :
    (pollPass agc genStateCntr state).2.monitor.Binary := by
  apply binary_clearStep
  split
  · exact binary_runBatch binary genStateCntr
  · exact binary

theorem binary_sessionStep {genStateCntr : Nat} {after : PanelState Core}
    (step : SessionStep agc genStateCntr state after) (binary : state.monitor.Binary) :
    after.monitor.Binary := by
  cases step with
  | poll => exact binary_pollPass binary genStateCntr
  | key press _ _ switches => exact switches ▸ binary_keySwitches press binary

theorem sessionStep_switches_binary {genStateCntr : Nat} {start reached : PanelState Core}
    (startup : start.monitor = Monitor.initial)
    (run : Relation.ReflTransGen (SessionStep agc genStateCntr) start reached) :
    reached.monitor.Binary := by
  induction run with
  | refl => rw [startup]; decide
  | tail _ step binary => exact binary_sessionStep step binary

end Session

theorem sessionStep_switches_binary_startup :
    ({ steppingFast with monitor := Monitor.initial } : PanelState Nat).monitor = Monitor.initial ∧
      Relation.ReflTransGen (SessionStep stepCounter 100) { steppingFast with monitor := Monitor.initial }
        (pollPass stepCounter 100 { steppingFast with monitor := Monitor.initial }).2 ∧
      (pollPass stepCounter 100 { steppingFast with monitor := Monitor.initial }).2.monitor.Binary :=
  ⟨rfl, .single (.poll _), sessionStep_switches_binary rfl (.single (.poll _))⟩

/-! ## With the clock manual, one tick per `F1` -/

/-- `singleClock` after a key's handler: `F1` sets it, and no other handler writes it. -/
def keySingleClock (press : KeyPress) (singleClock : Bool) : Bool :=
  match press with
  | .key _ => singleClock
  | .function code => if code = '\x3b' then true else singleClock

/-- A key's handler. What it does to the core, the breakpoint and the watch is `handle`, which
this model leaves open; the switches follow `keySwitches` and `singleClock` follows
`keySingleClock`. -/
def pressKey {Core : Type} (handle : KeyPress → PanelState Core → Core × Checks) (press : KeyPress)
    (state : PanelState Core) : PanelState Core :=
  ⟨(handle press state).1, keySwitches press state.monitor, keySingleClock press state.singleClock,
    (handle press state).2⟩

/-- A session from a key on, as rounds of a key and the polling passes made before the next key
is pending: the ticks made, in order, and the state reached. -/
def keySession {Core : Type} (agc : CoreInterface Core) (genStateCntr : Nat)
    (handle : KeyPress → PanelState Core → Core × Checks) :
    List (KeyPress × Nat) → PanelState Core → List (PanelState Core) × PanelState Core
  | [], state => ([], state)
  | (press, passes) :: rest, state =>
      let polled := pollPasses agc genStateCntr passes (pressKey handle press state)
      let later := keySession agc genStateCntr handle rest polled.2
      (polled.1 ++ later.1, later.2)

/-- The clock manual and no single clock asked for: a pass makes no tick. -/
def ManualIdle {Core : Type} (state : PanelState Core) : Prop :=
  state.monitor.fclk = 0 ∧ state.singleClock = false

section ManualClock

variable {Core : Type} {agc : CoreInterface Core} {genStateCntr : Nat}
  {handle : KeyPress → PanelState Core → Core × Checks} {state : PanelState Core}

theorem keySession_cons (press : KeyPress) (passes : Nat) (rest : List (KeyPress × Nat))
    (state : PanelState Core) :
    keySession agc genStateCntr handle ((press, passes) :: rest) state =
      ((pollPasses agc genStateCntr passes (pressKey handle press state)).1 ++
          (keySession agc genStateCntr handle rest
            (pollPasses agc genStateCntr passes (pressKey handle press state)).2).1,
        (keySession agc genStateCntr handle rest
          (pollPasses agc genStateCntr passes (pressKey handle press state)).2).2) := rfl

theorem keySwitches_fclk {monitor : Monitor} (manual : monitor.fclk = 0) {press : KeyPress}
    (notFast : press ≠ .function '\x3e') : (keySwitches press monitor).fclk = 0 := by
  cases press with
  | key key => simp only [keySwitches, apply_ite Monitor.fclk, manual, ite_self]
  | function code =>
      have notF4 : code ≠ '\x3e' := fun fastKey => notFast (congrArg KeyPress.function fastKey)
      simp only [keySwitches, apply_ite Monitor.fclk, if_neg notF4, manual, ite_self]

variable (agc) in
theorem manualIdle_clearStep (idle : ManualIdle state) : ManualIdle (clearStep agc state) := by
  simpa [ManualIdle] using idle

variable (agc genStateCntr) in
theorem pollPasses_manualIdle (idle : ManualIdle state) (passes : Nat) :
    (pollPasses agc genStateCntr passes state).1 = [] ∧
      ManualIdle (pollPasses agc genStateCntr passes state).2 := by
  induction passes generalizing state with
  | zero => exact ⟨rfl, idle⟩
  | succ passes induction =>
      have ticking : ¬ (state.monitor.fclk ≠ 0 ∨ state.singleClock = true) := by
        simp [idle.1, idle.2]
      obtain ⟨none, idle'⟩ := induction (manualIdle_clearStep agc idle)
      simp only [pollPasses, pollPass_of_idle agc ticking genStateCntr, List.nil_append]
      exact ⟨none, idle'⟩

variable (agc) in
theorem pollPasses_singleClock (manual : state.monitor.fclk = 0) (single : state.singleClock = true)
    (positive : 0 < genStateCntr) {passes : Nat} (polled : 0 < passes) :
    (pollPasses agc genStateCntr passes state).1 = [tickOnce agc state] ∧
      ManualIdle (pollPasses agc genStateCntr passes state).2 := by
  obtain ⟨passes, rfl⟩ : ∃ rest, passes = rest + 1 := ⟨passes - 1, by omega⟩
  obtain ⟨left, rfl⟩ : ∃ left, genStateCntr = left + 1 := ⟨genStateCntr - 1, by omega⟩
  have stops : ¬ ((tickOnce agc state).monitor.fclk ≠ 0 ∧ (tickOnce agc state).monitor.run ≠ 0) :=
    fun fast => fast.1 (tickOnce_fclk.trans manual)
  have idle : ManualIdle (clearStep agc (tickOnce agc state)) :=
    manualIdle_clearStep agc ⟨tickOnce_fclk.trans manual, tickOnce_singleClock⟩
  obtain ⟨none, idle'⟩ := pollPasses_manualIdle agc (left + 1) idle passes
  simp only [pollPasses, pollPass, single, or_true, if_true, runBatch_of_stops stops]
  exact ⟨by rw [none, List.append_nil], idle'⟩

theorem round_ticks (idle : ManualIdle state) {press : KeyPress} (notFast : press ≠ .function '\x3e')
    (positive : 0 < genStateCntr) {passes : Nat} (polled : 0 < passes) :
    (pollPasses agc genStateCntr passes (pressKey handle press state)).1.length =
        (if press = .function '\x3b' then 1 else 0) ∧
      ManualIdle (pollPasses agc genStateCntr passes (pressKey handle press state)).2 := by
  have manual : (pressKey handle press state).monitor.fclk = 0 := keySwitches_fclk idle.1 notFast
  by_cases single : press = .function '\x3b'
  case pos =>
    subst single
    obtain ⟨tick, idle'⟩ := pollPasses_singleClock agc manual rfl positive polled
    exact ⟨by rw [tick, if_pos rfl]; rfl, idle'⟩
  case neg =>
    have keeps : (pressKey handle press state).singleClock = false := by
      cases press with
      | key => exact idle.2
      | function code =>
          simp only [pressKey, keySingleClock]
          rw [if_neg fun same => single (congrArg KeyPress.function same)]
          exact idle.2
    obtain ⟨none, idle'⟩ := pollPasses_manualIdle agc genStateCntr ⟨manual, keeps⟩ passes
    exact ⟨by rw [none, if_neg single]; rfl, idle'⟩

theorem keySession_one_tick_per_single_clock (positive : 0 < genStateCntr) :
    ∀ (rounds : List (KeyPress × Nat)) {state : PanelState Core}, ManualIdle state →
      (∀ round ∈ rounds, round.1 ≠ .function '\x3e' ∧ 0 < round.2) →
      (keySession agc genStateCntr handle rounds state).1.length =
        rounds.countP fun round => round.1 = .function '\x3b'
  | [], _, _, _ => rfl
  | (press, passes) :: rest, state, idle, rounds => by
      obtain ⟨notFast, polled⟩ := rounds _ (List.mem_cons_self _ _)
      obtain ⟨ticks, idle'⟩ := @round_ticks _ agc genStateCntr handle state idle press notFast positive
        passes polled
      rw [keySession_cons, List.length_append, ticks, List.countP_cons,
        keySession_one_tick_per_single_clock positive rest idle'
          fun round member => rounds round (List.mem_cons_of_mem _ member)]
      by_cases single : press = .function '\x3b' <;> simp [single, Nat.add_comm]

theorem keySession_one_tick_per_single_clock_sample :
    0 < 100 ∧ ManualIdle ({ steppingFast with monitor := Monitor.initial } : PanelState Nat) ∧
      (∀ round ∈ [(KeyPress.function '\x3b', 2), (.key 'd', 1), (.function '\x3b', 1)],
        round.1 ≠ .function '\x3e' ∧ 0 < round.2) ∧
      (keySession stepCounter 100 (fun _ state => (state.core, state.checks))
          [(.function '\x3b', 2), (.key 'd', 1), (.function '\x3b', 1)]
          { steppingFast with monitor := Monitor.initial }).1.length =
        [(KeyPress.function '\x3b', 2), (.key 'd', 1), (.function '\x3b', 1)].countP
          fun round => round.1 = .function '\x3b' :=
  ⟨by decide, ⟨rfl, rfl⟩, by decide, keySession_one_tick_per_single_clock (by decide) _ ⟨rfl, rfl⟩ (by decide)⟩

/-- Two `F1` with no pass between them make one tick: the loop polls only while no key is
pending. -/
example : (keySession stepCounter 100 (fun _ state => (state.core, state.checks))
    [(.function '\x3b', 0), (.function '\x3b', 1)] { steppingFast with monitor := Monitor.initial }).1.length = 1 := by
  decide

end ManualClock

/-! ## Sessions event by event -/

/-- What the session sees of one look at the keyboard: a pass of the polling loop, a key's
handler, or nothing. -/
inductive PanelEvent
  | poll
  | press (press : KeyPress)
  | none
  deriving DecidableEq

/-- One event and the ticks it makes: a poll makes the pass's ticks; a handler makes none and sets
the switches and `singleClock` as its key says, leaving the core and the checks to the handler;
nothing changes nothing. -/
inductive PanelStep {Core : Type} (agc : CoreInterface Core) (genStateCntr : Nat) :
    PanelEvent → PanelState Core → List (PanelState Core) → PanelState Core → Prop
  | poll (state : PanelState Core) :
      PanelStep agc genStateCntr .poll state (pollPass agc genStateCntr state).1
        (pollPass agc genStateCntr state).2
  | press (press : KeyPress) (state after : PanelState Core)
      (switches : after.monitor = keySwitches press state.monitor)
      (singleClock : after.singleClock = keySingleClock press state.singleClock) :
      PanelStep agc genStateCntr (.press press) state [] after
  | none (state : PanelState Core) : PanelStep agc genStateCntr .none state [] state

/-- Events one after another, with the ticks of each in order. -/
inductive PanelTrace {Core : Type} (agc : CoreInterface Core) (genStateCntr : Nat) :
    List PanelEvent → PanelState Core → List (PanelState Core) → PanelState Core → Prop
  | nil (state : PanelState Core) : PanelTrace agc genStateCntr [] state [] state
  | cons {event : PanelEvent} {events : List PanelEvent} {state middle final : PanelState Core}
      {ticks later : List (PanelState Core)} (step : PanelStep agc genStateCntr event state ticks middle)
      (rest : PanelTrace agc genStateCntr events middle later final) :
      PanelTrace agc genStateCntr (event :: events) state (ticks ++ later) final

section Events

variable {Core : Type} {agc : CoreInterface Core} {genStateCntr : Nat}

theorem PanelStep.reachable {event : PanelEvent} {state after : PanelState Core}
    {ticks : List (PanelState Core)} (step : PanelStep agc genStateCntr event state ticks after) :
    Relation.ReflTransGen (SessionStep agc genStateCntr) state after := by
  cases step with
  | poll => exact .single (.poll _)
  | press press _ _ switches => exact .single (.key press _ _ switches)
  | none => exact .refl

theorem PanelTrace.reachable {events : List PanelEvent} {state final : PanelState Core}
    {ticks : List (PanelState Core)} (trace : PanelTrace agc genStateCntr events state ticks final) :
    Relation.ReflTransGen (SessionStep agc genStateCntr) state final := by
  induction trace with
  | nil => exact .refl
  | cons step _ induction => exact step.reachable.trans induction

end Events

end AgcBlock1
