import AgcBlock1.Simulator.Session
import AgcBlock1.Simulator.SourceListing

/-! `main`'s loop as a state machine over what it finds each time it looks at the keyboard: a
key, or none. At the top of the loop a key goes through `switch (key)`, and with none pending a
pass of the polling loop is made; a command that reads a line with `getCommand` takes the keys up
to the newline, and the AGC does not run meanwhile; a `'\0'` is followed by a function key's
code. -/

namespace AgcBlock1

/-- What `main` finds when it looks at the keyboard. With `nodelay` set, `getch()` does not wait:
with no key pending, `_kbhit()` is false and a pass of the polling loop is made, and a `_getch()`
returns `ERR`, which `getCommand` ignores and no function key's `case` matches. -/
inductive Input
  | noKey
  | key (key : Char)
  deriving DecidableEq, Repr

/-- The commands that read a line with `getCommand`. -/
inductive LineCommand
  | breakpoint | watch | incr | decr | interrupt | load | examine
  deriving DecidableEq, Repr

/-- Where `main` is: at the top of its loop, inside a command's `getCommand` with the keys typed
so far, after a `'\0'` at the `_getch()` that reads a function key's code, or gone (after `q`,
or in a load whose read loop never ends). -/
inductive Mode
  | ready
  | line (command : LineCommand) (keys : List Char)
  | functionKey
  | gone
  deriving DecidableEq, Repr

/-- The state `main` works on: the polling loop's, `getCommand`'s static `s`, the global
`filename`, and where `main` is. -/
structure Panel (Core : Type) where
  state : PanelState Core
  s : Nat → Char
  filename : List Char
  mode : Mode

/-- What the key handlers use besides the polling loop's interface, from parts of the simulator
whose source is not part of this model: `MEM::writeMemory`, `KBD::keypress` with the key's
`KEYIN` code, `PAR::CLR_PALM`, and setting a request line (`CTR::pcUp`, `CTR::pcDn`,
`INT::rupt`); and what `main` runs with: the files `fopen` finds, the batch size, the fuel of
the file loops, and the values `loadMemory`'s uninitialised `addr` and `data` hold. -/
structure MainEnvironment (Core : Type) where
  agc : CoreInterface Core
  writeMemory : Core → BitVec 32 → BitVec 32 → Core
  keypress : Core → Char → Core
  clearParityAlarm : Core → Core
  raiseLine : Core → Buffer → Int → Core
  files : List Char → Option (List Char)
  genStateCntr : Nat
  fuel : Nat
  loadAddr : BitVec 32
  loadData : BitVec 32

/-- `main` after `initscr()` and the rest: `singleClock` false, the switches, breakpoint and
watch at their initial values, `s` and `filename` zero, and `genAGCStates()` done. -/
def Panel.startup {Core : Type} (env : MainEnvironment Core) (core : Core) : Panel Core :=
  ⟨⟨env.agc.genAGCStates core Monitor.initial, Monitor.initial, false, ⟨false, 0, false, 0, 0⟩⟩,
    fun _ => '\x00', [], .ready⟩

/-- What a step of `main` leaves behind: the states after each tick, the stores into arrays, the
lines read by `getCommand`, each with its command, and the codes read after a `'\0'`. -/
structure MainOutput (Core : Type) where
  ticks : List (PanelState Core)
  stores : List Store
  lines : List (LineCommand × List Char)
  codes : List Char

instance {Core : Type} : Append (MainOutput Core) :=
  ⟨fun first later => ⟨first.ticks ++ later.ticks, first.stores ++ later.stores,
    first.lines ++ later.lines, first.codes ++ later.codes⟩⟩

def MainOutput.none {Core : Type} : MainOutput Core := ⟨[], [], [], []⟩

@[simp] theorem MainOutput.append_ticks {Core : Type} (first later : MainOutput Core) :
    (first ++ later).ticks = first.ticks ++ later.ticks := rfl

@[simp] theorem MainOutput.append_stores {Core : Type} (first later : MainOutput Core) :
    (first ++ later).stores = first.stores ++ later.stores := rfl

@[simp] theorem MainOutput.append_lines {Core : Type} (first later : MainOutput Core) :
    (first ++ later).lines = first.lines ++ later.lines := rfl

@[simp] theorem MainOutput.append_codes {Core : Type} (first later : MainOutput Core) :
    (first ++ later).codes = first.codes ++ later.codes := rfl

/-! ## `switch (key)` -/

/-- The keys `KBD::keypress` takes: digits, `+`, `-`, `.` (CLEAR), `/` (VERB), `*` (NOUN), `g`
(KEY RELEASE), `h` (ERROR RESET) and `j` (ENTER). -/
def dskyKeys : List Char :=
  ['0', '1', '2', '3', '4', '5', '6', '7', '8', '9', '+', '-', '.', '/', '*', 'g', 'h', 'j']

/-- The `case` a key falls in. `m` only shows the menu and a key with no `case` is only echoed,
so both do nothing here. -/
inductive KeyAction
  | quit
  | nothing
  | generate
  | listing
  | line (command : LineCommand)
  | breakpoint
  | watch
  | clearAlarm
  | dsky
  | functionKey
  deriving DecidableEq, Repr

/-- `d`, `z` and `x` only call `genAGCStates()`; the switch keys `c`, `r`, `s`, `a`, `n` and `p`
first toggle their switch. -/
def keyAction (key : Char) : KeyAction :=
  if key = 'q' then .quit
  else if key ∈ ['d', 'z', 'x', 'c', 'r', 's', 'a', 'n', 'p'] then .generate
  else if key = 'l' then .line .load
  else if key = 'e' then .line .examine
  else if key = 'f' then .listing
  else if key = ']' then .line .incr
  else if key = '[' then .line .decr
  else if key = 'i' then .line .interrupt
  else if key = 'b' then .breakpoint
  else if key = 'y' then .watch
  else if key = ';' then .clearAlarm
  else if key ∈ dskyKeys then .dsky
  else if key = '\x00' then .functionKey
  else .nothing

section Step

variable {Core : Type} (env : MainEnvironment Core)

/-- `main` at the top of its loop takes `key`. A command that reads a line starts it; `b` and
`y` read one only when they set the breakpoint or the watch. -/
def readyKey (key : Char) (panel : Panel Core) : Panel Core × MainOutput Core :=
  let state := panel.state
  match keyAction key with
  | .quit => ({ panel with mode := .gone }, .none)
  | .nothing => (panel, .none)
  | .generate =>
      let monitor := keySwitches (.key key) state.monitor
      ({ panel with state := { state with monitor, core := env.agc.genAGCStates state.core monitor } },
        .none)
  | .listing =>
      (panel, ⟨[], (showSourceCode env.files env.fuel panel.filename
        (env.agc.effectiveAddress state.core).toNat).stores, [], []⟩)
  | .line command => ({ panel with mode := .line command [] }, .none)
  | .breakpoint =>
      if state.checks.breakpointEnab then
        ({ panel with state := { state with checks := (toggleBreakpoint panel.s [] state.checks).2 } },
          .none)
      else ({ panel with mode := .line .breakpoint [] }, .none)
  | .watch =>
      if state.checks.watchEnab then
        ({ panel with state := { state with
            checks := (toggleWatch (env.agc.readMemory state.core) panel.s [] state.checks).2 } },
          .none)
      else ({ panel with mode := .line .watch [] }, .none)
  | .clearAlarm => ({ panel with state := { state with core := env.clearParityAlarm state.core } }, .none)
  | .dsky => ({ panel with state := { state with core := env.keypress state.core key } }, .none)
  | .functionKey => ({ panel with mode := .functionKey }, .none)

/-- The code after a `'\0'`: `F1` asks for a single clock, `F2` and `F4` set the clock manual
and fast and call `genAGCStates()`; another code is only echoed. -/
def functionKey (code : Char) (panel : Panel Core) : Panel Core :=
  let state := panel.state
  if code = '\x3b' then { panel with state := { state with singleClock := true }, mode := .ready }
  else if code = '\x3c' ∨ code = '\x3e' then
    let monitor := keySwitches (.function code) state.monitor
    { panel with
      state := { state with monitor, core := env.agc.genAGCStates state.core monitor },
      mode := .ready }
  else { panel with mode := .ready }

/-- The command once `getCommand` returns the line typed, from the `s` it started with: the new
state and the stores. A load whose read loop never ends leaves `main` gone. -/
def finishLine (command : LineCommand) (keys : List Char) (panel : Panel Core) :
    Panel Core × List Store :=
  let state := panel.state
  let previous := panel.s
  let panel := { panel with s := (getCommand previous keys).s, mode := .ready }
  let text := (getCommand previous keys).text
  match command with
  | .breakpoint =>
      let set := toggleBreakpoint previous keys state.checks
      ({ panel with state := { state with checks := set.2 } }, set.1)
  | .watch =>
      let set := toggleWatch (env.agc.readMemory state.core) previous keys state.checks
      ({ panel with state := { state with checks := set.2 } }, set.1)
  | .incr =>
      ({ panel with state := { state with core := env.raiseLine state.core .pcUp (atoi text) } },
        incrCntr previous keys)
  | .decr =>
      ({ panel with state := { state with core := env.raiseLine state.core .pcDn (atoi text) } },
        decrCntr previous keys)
  | .interrupt =>
      ({ panel with state := { state with core := env.raiseLine state.core .rupt (atoi text - 1) } },
        interrupt previous keys)
  | .load =>
      let outcome := loadMemory env.files env.fuel env.loadAddr env.loadData previous keys
      match outcome.writes with
      | none => ({ panel with filename := outcome.filename, mode := .gone }, outcome.stores)
      | some writes =>
          ({ panel with
              filename := outcome.filename,
              state := { state with
                core := writes.foldl (fun core write => env.writeMemory core write.1 write.2) state.core } },
            outcome.stores)
  | .examine => (panel, (examineMemory previous keys).stores)

/-- One step of `main`. With no key pending, only the top of the loop runs the AGC; the `ERR`
that a function key's `_getch()` returns only ends the `switch`. -/
def mainStep (panel : Panel Core) : Input → Panel Core × MainOutput Core
  | .noKey =>
      match panel.mode with
      | .ready =>
          let pass := pollPass env.agc env.genStateCntr panel.state
          ({ panel with state := pass.2 }, ⟨pass.1, [], [], []⟩)
      | .functionKey => ({ panel with mode := .ready }, .none)
      | _ => (panel, .none)
  | .key key =>
      match panel.mode with
      | .ready => readyKey env key panel
      | .line command keys =>
          if key = '\n' then
            let finished := finishLine env command keys panel
            (finished.1, ⟨[], finished.2, [(command, keys)], []⟩)
          else ({ panel with mode := .line command (keys ++ [key]) }, .none)
      | .functionKey => (functionKey env key panel, ⟨[], [], [], [key]⟩)
      | .gone => (panel, .none)

/-- `main` over a sequence of inputs: the state reached and everything the steps left behind. -/
def mainRun : List Input → Panel Core → Panel Core × MainOutput Core
  | [], panel => (panel, .none)
  | input :: rest, panel =>
      let first := mainStep env panel input
      let later := mainRun rest first.1
      (later.1, first.2 ++ later.2)

/-- The event an input is for the session: only a look at the keyboard at the top of the loop
that finds no key polls; a key at the top of the loop, the newline that ends a line and a
function key's code run a handler; a key typed into a line, an `ERR` after a `'\0'` and any
input once `main` is gone do nothing. -/
def Mode.event : Mode → Input → PanelEvent
  | .ready, .noKey => .poll
  | .ready, .key key => .press (.key key)
  | .line _ _, .key key => if key = '\n' then .press (.key '\n') else .none
  | .functionKey, .key code => .press (.function code)
  | _, _ => .none

/-- The events of a run of `main`, each input in the mode `main` is in when it comes. -/
def mainEvents : List Input → Panel Core → List PanelEvent
  | [], _ => []
  | input :: rest, panel => panel.mode.event input :: mainEvents rest (mainStep env panel input).1

end Step

/-- The tick-counting core, with handlers that leave it alone, no files, and batches of 100. -/
def countingEnvironment : MainEnvironment Nat :=
  ⟨stepCounter, fun core _ _ => core, fun core _ => core, id, fun core _ _ => core, fun _ => none, 100,
    0, 0, 0⟩

/-! ## Every run of `main` is a run of the session -/

section Refinement

variable {Core : Type} {env : MainEnvironment Core}

theorem keyAction_of_switch {key : Char} (switch : key ∈ ['c', 'r', 's', 'a', 'n', 'p']) :
    keyAction key = .generate := by
  simp only [List.mem_cons, List.mem_singleton, List.not_mem_nil, or_false] at switch
  rcases switch with rfl | rfl | rfl | rfl | rfl | rfl <;> decide

theorem keySwitches_key_of_not_switch {key : Char} (other : key ∉ ['c', 'r', 's', 'a', 'n', 'p'])
    (monitor : Monitor) : keySwitches (.key key) monitor = monitor := by
  simp only [List.mem_cons, List.mem_singleton, List.not_mem_nil, or_false, not_or] at other
  obtain ⟨c, r, s, a, n, p⟩ := other
  simp only [keySwitches, if_neg c, if_neg r, if_neg s, if_neg a, if_neg n, if_neg p]

theorem readyKey_frame (key : Char) (panel : Panel Core) :
    (readyKey env key panel).1.filename = panel.filename ∧
      (readyKey env key panel).1.state.singleClock = panel.state.singleClock ∧
      (readyKey env key panel).2.ticks = [] ∧ (readyKey env key panel).2.lines = [] ∧
      (readyKey env key panel).2.codes = [] := by
  unfold readyKey
  dsimp only
  split <;> (try split) <;> exact ⟨rfl, rfl, rfl, rfl, rfl⟩

theorem readyKey_monitor (key : Char) (panel : Panel Core) :
    (readyKey env key panel).1.state.monitor = keySwitches (.key key) panel.state.monitor := by
  by_cases switch : key ∈ ['c', 'r', 's', 'a', 'n', 'p']
  · simp only [readyKey, keyAction_of_switch switch]
  · rw [keySwitches_key_of_not_switch switch]
    unfold readyKey
    dsimp only
    split <;> (try split) <;> first | rfl | exact keySwitches_key_of_not_switch switch _

theorem functionKey_monitor (code : Char) (panel : Panel Core) :
    (functionKey env code panel).state.monitor = keySwitches (.function code) panel.state.monitor := by
  unfold functionKey
  split_ifs with single fast
  · subst single
    rfl
  · rfl
  · simp only [keySwitches, if_neg (not_or.mp fast).1, if_neg (not_or.mp fast).2]

theorem finishLine_frame (command : LineCommand) (keys : List Char) (panel : Panel Core) :
    (finishLine env command keys panel).1.state.monitor = panel.state.monitor ∧
      (finishLine env command keys panel).1.state.singleClock = panel.state.singleClock := by
  unfold finishLine
  cases command <;> dsimp only
  all_goals (try split) <;> exact ⟨rfl, rfl⟩

theorem functionKey_singleClock (code : Char) (panel : Panel Core) :
    (functionKey env code panel).state.singleClock = keySingleClock (.function code) panel.state.singleClock := by
  unfold functionKey keySingleClock
  split_ifs with single <;> simp [single]

theorem mainStep_panelStep (panel : Panel Core) (input : Input) :
    PanelStep env.agc env.genStateCntr (panel.mode.event input) panel.state
      (mainStep env panel input).2.ticks (mainStep env panel input).1.state := by
  cases input with
  | noKey =>
      dsimp only [mainStep]
      cases mode : panel.mode
      case ready => exact .poll _
      all_goals exact .none _
  | key key =>
      dsimp only [mainStep]
      cases mode : panel.mode with
      | ready =>
          rw [(readyKey_frame key panel).2.2.1]
          exact .press _ _ _ (readyKey_monitor key panel) (readyKey_frame key panel).2.1
      | line command keys =>
          dsimp only [Mode.event]
          split
          · exact .press _ _ _ ((finishLine_frame _ _ panel).1.trans
              (keySwitches_key_of_not_switch (by decide) _).symm) (finishLine_frame _ _ panel).2
          · exact .none _
      | functionKey =>
          exact .press _ _ _ (functionKey_monitor key panel) (functionKey_singleClock key panel)
      | gone => exact .none _

theorem mainRun_panelTrace (inputs : List Input) (panel : Panel Core) :
    PanelTrace env.agc env.genStateCntr (mainEvents env inputs panel) panel.state
      (mainRun env inputs panel).2.ticks (mainRun env inputs panel).1.state := by
  induction inputs generalizing panel with
  | nil => exact .nil _
  | cons input rest induction => exact .cons (mainStep_panelStep panel input) (induction _)

theorem mainRun_reachable (inputs : List Input) (panel : Panel Core) :
    Relation.ReflTransGen (SessionStep env.agc env.genStateCntr) panel.state
      (mainRun env inputs panel).1.state :=
  (mainRun_panelTrace inputs panel).reachable

end Refinement

/-! ## Every store of a run of `main` -/

/-- What a command needs of its line beyond `getCommand`'s stores into `s`: room in the arrays it
copies the line into (`b`, `cntrname`, `iname` and `filename` are as long as `s`; `fname` also
takes the ".obj" a load appends, and `theAddress` is shorter), and a request line for the
number it parses. -/
def RoomFor : LineCommand → List Char → Prop
  | .breakpoint, _ | .watch, _ => True
  | .incr, line => 0 ≤ atoi line ∧ atoi line < Buffer.pcUp.size
  | .decr, line => 0 ≤ atoi line ∧ atoi line < Buffer.pcDn.size
  | .interrupt, line => 0 ≤ atoi line - 1 ∧ atoi line - 1 < Buffer.rupt.size
  | .load, line => line.length + ".obj".length < Buffer.fname.size
  | .examine, line => line.length < Buffer.theAddress.size

instance RoomFor.decidable : (command : LineCommand) → (line : List Char) → Decidable (RoomFor command line)
  | .breakpoint, _ | .watch, _ => instDecidableTrue
  | .incr, line => inferInstanceAs (Decidable (0 ≤ atoi line ∧ atoi line < Buffer.pcUp.size))
  | .decr, line => inferInstanceAs (Decidable (0 ≤ atoi line ∧ atoi line < Buffer.pcDn.size))
  | .interrupt, line => inferInstanceAs (Decidable (0 ≤ atoi line - 1 ∧ atoi line - 1 < Buffer.rupt.size))
  | .load, line => inferInstanceAs (Decidable (line.length + ".obj".length < Buffer.fname.size))
  | .examine, line => inferInstanceAs (Decidable (line.length < Buffer.theAddress.size))

/-- A line fits its command: `getCommand` stores every printable key and the terminator inside
`s`, and the command has room for the line. -/
def LineFits (command : LineCommand) (keys : List Char) : Prop :=
  CursorFits [] (typedKeys keys) ∧ (editLine keys).length < Buffer.s.size ∧ RoomFor command (editLine keys)

instance (command : LineCommand) (keys : List Char) : Decidable (LineFits command keys) :=
  inferInstanceAs (Decidable (CursorFits [] (typedKeys keys) ∧ (editLine keys).length < Buffer.s.size ∧
    RoomFor command (editLine keys)))

/-- `b` and `y` read a line only while their check is off: each handler tests its flag first,
and nothing else runs while the line is read. -/
def Mode.ChecksOff (checks : Checks) : Mode → Prop
  | .line .breakpoint _ => checks.breakpointEnab = false
  | .line .watch _ => checks.watchEnab = false
  | _ => True

/-- What holds of every panel that a run of `main` reaches while the lines read fit: the name
last loaded leaves room in `fname` for the ".lst" that `f` appends, and a breakpoint or watch
line is read only while that check is off. -/
structure Panel.Consistent {Core : Type} (panel : Panel Core) : Prop where
  filename_fits : panel.filename.length + ".lst".length < Buffer.fname.size
  checks_off : panel.mode.ChecksOff panel.state.checks

/-- The stores made so far for the line `main` is reading. -/
def Panel.lineStores {Core : Type} (panel : Panel Core) : List Store :=
  match panel.mode with
  | .line _ keys => ((typedKeys keys).foldl getCommandKey ⟨0, panel.s, []⟩).stores
  | _ => []

/-- The line `main` is reading fits `s` so far. -/
def Panel.LineFitsSoFar {Core : Type} (panel : Panel Core) : Prop :=
  match panel.mode with
  | .line _ keys => CursorFits [] (typedKeys keys)
  | _ => True

section Stores

variable {Core : Type} {env : MainEnvironment Core}

private theorem ite_ne_of_ne {condition : Prop} [Decidable condition] {chosen other avoided : KeyAction}
    (chosenNe : chosen ≠ avoided) (otherNe : other ≠ avoided) :
    (if condition then chosen else other) ≠ avoided := by
  split <;> assumption

theorem keyAction_ne_line {key : Char} {command : LineCommand}
    (readsCheck : command = .breakpoint ∨ command = .watch) : keyAction key ≠ .line command := by
  rcases readsCheck with rfl | rfl <;>
  · unfold keyAction
    repeat' apply ite_ne_of_ne
    all_goals decide

theorem lineStores_inBounds_iff (panel : Panel Core) :
    (∀ store ∈ panel.lineStores, store.InBounds) ↔ panel.LineFitsSoFar := by
  unfold Panel.lineStores Panel.LineFitsSoFar
  split
  · rw [getCommandKey_run_inBounds_iff _ (CommandLine.holds_start _)]
    simp
  · simp

theorem raiseRequest_stores_inBounds_iff (name lines : Buffer) (offset : Int) (previous : Nat → Char)
    (keys : List Char) :
    (∀ store ∈ raiseRequest name lines offset previous keys, store.InBounds) ↔
      CursorFits [] (typedKeys keys) ∧ (editLine keys).length < Buffer.s.size ∧
        (editLine keys).length < name.size ∧
          0 ≤ atoi (editLine keys) - offset ∧ atoi (editLine keys) - offset < lines.size := by
  simp only [raiseRequest, List.forall_mem_append, getCommand_stores_inBounds_iff,
    strcpyStores_inBounds_iff, getCommand_text]
  simp [Store.InBounds, and_assoc]

theorem finishLine_stores_inBounds_iff (command : LineCommand) (keys : List Char) {panel : Panel Core}
    (off : (Mode.line command keys).ChecksOff panel.state.checks) :
    (∀ store ∈ (finishLine env command keys panel).2, store.InBounds) ↔ LineFits command keys := by
  have line := getCommand_stores_inBounds_iff panel.s keys
  have text := getCommand_text panel.s keys
  cases command with
  | breakpoint | watch =>
      simp only [Mode.ChecksOff] at off
      simp only [finishLine, toggleBreakpoint, toggleWatch, off, Bool.false_eq_true, if_false]
      rw [List.forall_mem_append, line, strcpyStores_inBounds_iff, text]
      simp [LineFits, RoomFor, Buffer.size]
  | incr | decr | interrupt =>
      simp only [finishLine, incrCntr, decrCntr, interrupt, raiseRequest_stores_inBounds_iff]
      simp [LineFits, RoomFor, Buffer.size]
  | load =>
      have stores : (finishLine env .load keys panel).2 =
          (loadMemory env.files env.fuel env.loadAddr env.loadData panel.s keys).stores := by
        simp only [finishLine]
        split <;> rfl
      rw [stores]
      simp only [loadMemory, List.forall_mem_append, line, strcpyStores_inBounds_iff,
        strcatStores_inBounds_iff, text]
      simp [LineFits, RoomFor, Buffer.size, show ".obj".length = 4 from rfl, and_assoc]
  | examine =>
      simp only [finishLine, examineMemory]
      rw [List.forall_mem_append, line, strcpyStores_inBounds_iff, text]
      simp [LineFits, RoomFor, Buffer.size, and_assoc]

example : ¬ LineFits .examine (List.replicate 20 '7') := by decide

example : LineFits .breakpoint (List.replicate 80 '7' ++ ['\x08']) := by decide

theorem readyKey_stores_inBounds {panel : Panel Core} (consistent : panel.Consistent) (key : Char) :
    ∀ store ∈ (readyKey env key panel).2.stores, store.InBounds := by
  have fits : panel.filename.length + 4 < 80 := consistent.filename_fits
  unfold readyKey
  dsimp only
  split <;> (try split) <;> first
    | exact fun _ member => by cases member
    | simp only [showSourceCode, List.forall_mem_append, strcpyStores_inBounds_iff,
        strcatStores_inBounds_iff]
      exact ⟨by simp only [Buffer.size]; omega, fits⟩

theorem readyKey_consistent {panel : Panel Core} (consistent : panel.Consistent) (ready : panel.mode = .ready)
    (key : Char) : (readyKey env key panel).1.Consistent := by
  have lineOff (command : LineCommand) (action : keyAction key = .line command) :
      (Mode.line command []).ChecksOff panel.state.checks := by
    cases command <;> first | trivial | exact absurd action (keyAction_ne_line (by simp))
  refine ⟨(readyKey_frame key panel).1 ▸ consistent.filename_fits, ?_⟩
  unfold readyKey
  dsimp only
  split <;> (try split) <;> first | exact lineOff _ ‹_› | simp_all [Mode.ChecksOff]

theorem functionKey_consistent {panel : Panel Core} (consistent : panel.Consistent) (code : Char) :
    (functionKey env code panel).Consistent := by
  unfold functionKey
  dsimp only
  split_ifs <;> exact ⟨consistent.filename_fits, trivial⟩

theorem finishLine_consistent {panel : Panel Core} (consistent : panel.Consistent) (command : LineCommand)
    (keys : List Char) (fits : LineFits command keys) : (finishLine env command keys panel).1.Consistent := by
  unfold finishLine
  cases command <;> dsimp only
  case load =>
    have loaded : (getCommand panel.s keys).text.length + ".lst".length < Buffer.fname.size := by
      rw [getCommand_text]
      exact fits.2.2
    split <;> exact ⟨loaded, trivial⟩
  all_goals exact ⟨consistent.filename_fits, trivial⟩

theorem mainStep_stores_inBounds_iff {panel : Panel Core} (consistent : panel.Consistent) (input : Input) :
    (∀ store ∈ (mainStep env panel input).2.stores, store.InBounds) ↔
      ∀ line ∈ (mainStep env panel input).2.lines, LineFits line.1 line.2 := by
  cases input with
  | noKey =>
      dsimp only [mainStep]
      split <;> simp [MainOutput.none]
  | key key =>
      dsimp only [mainStep]
      split
      · rw [(readyKey_frame key panel).2.2.2.1]
        simpa using readyKey_stores_inBounds consistent key
      · rename_i command keys reading
        split
        · simpa using finishLine_stores_inBounds_iff command keys (reading ▸ consistent.checks_off)
        · simp [MainOutput.none]
      all_goals simp [MainOutput.none]

theorem mainStep_consistent {panel : Panel Core} (consistent : panel.Consistent) (input : Input)
    (fits : ∀ line ∈ (mainStep env panel input).2.lines, LineFits line.1 line.2) :
    (mainStep env panel input).1.Consistent := by
  cases input with
  | noKey =>
      dsimp only [mainStep]
      split
      · exact ⟨consistent.filename_fits, by rw [‹panel.mode = .ready›]; trivial⟩
      · exact ⟨consistent.filename_fits, trivial⟩
      · exact consistent
  | key key =>
      revert fits
      dsimp only [mainStep]
      cases reading : panel.mode with
      | ready => exact fun _ => readyKey_consistent consistent reading key
      | line command keys =>
          have off := reading ▸ consistent.checks_off
          dsimp only
          split
          · exact fun fits => finishLine_consistent consistent command keys (fits _ (List.mem_singleton_self _))
          · exact fun _ => ⟨consistent.filename_fits, by cases command <;> exact off⟩
      | functionKey => exact fun _ => functionKey_consistent consistent key
      | gone => exact fun _ => consistent

theorem mainRun_stores_inBounds_iff {panel : Panel Core} (consistent : panel.Consistent)
    (inputs : List Input) :
    (∀ store ∈ (mainRun env inputs panel).2.stores ++ (mainRun env inputs panel).1.lineStores,
        store.InBounds) ↔
      (∀ line ∈ (mainRun env inputs panel).2.lines, LineFits line.1 line.2) ∧
        (mainRun env inputs panel).1.LineFitsSoFar := by
  induction inputs generalizing panel with
  | nil => simpa [mainRun, MainOutput.none] using lineStores_inBounds_iff panel
  | cons input rest induction =>
      simp only [mainRun, MainOutput.append_stores, MainOutput.append_lines, List.append_assoc,
        List.forall_mem_append] at induction ⊢
      rw [mainStep_stores_inBounds_iff consistent, and_assoc]
      exact and_congr_right fun fits => induction (mainStep_consistent consistent input fits)

theorem Panel.startup_consistent (core : Core) : (Panel.startup env core).Consistent :=
  ⟨(by decide : ([] : List Char).length + ".lst".length < Buffer.fname.size), trivial⟩

theorem mainRun_startup_stores_inBounds_iff (core : Core) (inputs : List Input) :
    (∀ store ∈ (mainRun env inputs (Panel.startup env core)).2.stores ++
        (mainRun env inputs (Panel.startup env core)).1.lineStores, store.InBounds) ↔
      (∀ line ∈ (mainRun env inputs (Panel.startup env core)).2.lines, LineFits line.1 line.2) ∧
        (mainRun env inputs (Panel.startup env core)).1.LineFitsSoFar :=
  mainRun_stores_inBounds_iff (Panel.startup_consistent core) inputs

end Stores

/-! ## The name `f` lists -/

section Filename

variable {Core : Type} {env : MainEnvironment Core}

theorem finishLine_filename (command : LineCommand) (keys : List Char) (panel : Panel Core) :
    (finishLine env command keys panel).1.filename =
      if command = .load then editLine keys else panel.filename := by
  unfold finishLine
  cases command <;> dsimp only
  case load => split <;> exact getCommand_text panel.s keys
  all_goals rfl

theorem functionKey_filename (code : Char) (panel : Panel Core) :
    (functionKey env code panel).filename = panel.filename := by
  unfold functionKey
  split_ifs <;> rfl

theorem mainStep_filename (panel : Panel Core) (input : Input) :
    (mainStep env panel input).1.filename =
      ((((mainStep env panel input).2.lines.filter (·.1 == .load)).getLast?).map (editLine ·.2)).getD
        panel.filename := by
  cases input with
  | noKey =>
      dsimp only [mainStep]
      split <;> rfl
  | key key =>
      dsimp only [mainStep]
      split
      · rw [(readyKey_frame key panel).1, (readyKey_frame key panel).2.2.2.1]
        rfl
      · split
        · rw [finishLine_filename]
          rename_i command _ _ _
          cases command <;> rfl
        · rfl
      · exact functionKey_filename key panel
      · rfl

theorem mainRun_filename (inputs : List Input) (panel : Panel Core) :
    (mainRun env inputs panel).1.filename =
      ((((mainRun env inputs panel).2.lines.filter (·.1 == .load)).getLast?).map (editLine ·.2)).getD
        panel.filename := by
  induction inputs generalizing panel with
  | nil => rfl
  | cons input rest induction =>
      simp only [mainRun, MainOutput.append_lines, List.filter_append, List.getLast?_append]
      rw [induction, mainStep_filename]
      cases ((mainRun env rest (mainStep env panel input).1).2.lines.filter (·.1 == .load)).getLast? <;>
        rfl

example :
    (mainRun countingEnvironment [.key 'l', .key 'x', .key '\n', .key 'f']
      (Panel.startup countingEnvironment 0)).1.filename = ['x'] := by
  decide

end Filename

/-! ## With the clock manual, each tick needs its own `F1` -/

section ManualClock

variable {Core : Type} {agc : CoreInterface Core} {env : MainEnvironment Core}

theorem pollPass_manual {state : PanelState Core} (manual : state.monitor.fclk = 0) (genStateCntr : Nat) :
    (pollPass agc genStateCntr state).1.length + (pollPass agc genStateCntr state).2.singleClock.toNat ≤
        state.singleClock.toNat ∧
      (pollPass agc genStateCntr state).2.monitor.fclk = 0 := by
  cases single : state.singleClock
  case false =>
    rw [pollPass_of_idle agc (by simp [manual, single]) genStateCntr]
    simp [manual, single]
  case true =>
    cases genStateCntr with
    | zero => simp [pollPass, runBatch, manual, single]
    | succ left =>
        have stops : ¬ ((tickOnce agc state).monitor.fclk ≠ 0 ∧ (tickOnce agc state).monitor.run ≠ 0) :=
          fun fast => fast.1 (tickOnce_fclk.trans manual)
        simp [pollPass, single, runBatch_of_stops stops, tickOnce_fclk, manual]

theorem mainStep_manual {panel : Panel Core} (manual : panel.state.monitor.fclk = 0) (input : Input)
    (noFast : '\x3e' ∉ (mainStep env panel input).2.codes) :
    (mainStep env panel input).2.ticks.length + (mainStep env panel input).1.state.singleClock.toNat ≤
        (mainStep env panel input).2.codes.count '\x3b' + panel.state.singleClock.toNat ∧
      (mainStep env panel input).1.state.monitor.fclk = 0 := by
  cases input with
  | noKey =>
      dsimp only [mainStep]
      split
      · simpa using pollPass_manual manual env.genStateCntr
      all_goals simp [MainOutput.none, manual]
  | key key =>
      revert noFast
      dsimp only [mainStep]
      split
      · intro _
        obtain ⟨-, single, ticks, -, codes⟩ := readyKey_frame key panel
        rw [ticks, codes, single, readyKey_monitor]
        exact ⟨by simp, keySwitches_fclk manual (by simp)⟩
      · split
        · intro _
          simp [finishLine_frame, manual]
        · intro _
          simp [MainOutput.none, manual]
      · intro noFast
        have notF4 : key ≠ '\x3e' := fun same => noFast (by simp [same])
        rw [functionKey_singleClock, functionKey_monitor]
        refine ⟨?_, keySwitches_fclk manual fun same => notF4 (KeyPress.function.inj same)⟩
        by_cases single : key = '\x3b' <;> simp [single, keySingleClock]
      · intro _
        simp [MainOutput.none, manual]

theorem mainRun_ticks_le_singleClocks {panel : Panel Core} (manual : panel.state.monitor.fclk = 0)
    (inputs : List Input) (noFast : '\x3e' ∉ (mainRun env inputs panel).2.codes) :
    (mainRun env inputs panel).2.ticks.length + (mainRun env inputs panel).1.state.singleClock.toNat ≤
        (mainRun env inputs panel).2.codes.count '\x3b' + panel.state.singleClock.toNat ∧
      (mainRun env inputs panel).1.state.monitor.fclk = 0 := by
  induction inputs generalizing panel with
  | nil => simp [mainRun, MainOutput.none, manual]
  | cons input rest induction =>
      simp only [mainRun, MainOutput.append_ticks, MainOutput.append_codes, List.mem_append, not_or,
        List.length_append, List.count_append] at noFast ⊢
      obtain ⟨first, manual'⟩ := mainStep_manual manual input noFast.1
      obtain ⟨later, manual''⟩ := induction manual' noFast.2
      exact ⟨by omega, manual''⟩

end ManualClock

theorem mainRun_ticks_le_singleClocks_f1 :
    (Panel.startup countingEnvironment 0).state.monitor.fclk = 0 ∧
      '\x3e' ∉ (mainRun countingEnvironment [.key '\x00', .key '\x3b', .noKey]
        (Panel.startup countingEnvironment 0)).2.codes ∧
      (mainRun countingEnvironment [.key '\x00', .key '\x3b', .noKey]
            (Panel.startup countingEnvironment 0)).2.ticks.length +
          (mainRun countingEnvironment [.key '\x00', .key '\x3b', .noKey]
            (Panel.startup countingEnvironment 0)).1.state.singleClock.toNat ≤
        (mainRun countingEnvironment [.key '\x00', .key '\x3b', .noKey]
            (Panel.startup countingEnvironment 0)).2.codes.count '\x3b' +
          (Panel.startup countingEnvironment 0).state.singleClock.toNat ∧
      (mainRun countingEnvironment [.key '\x00', .key '\x3b', .noKey]
        (Panel.startup countingEnvironment 0)).1.state.monitor.fclk = 0 :=
  ⟨rfl, by decide, mainRun_ticks_le_singleClocks rfl _ (by decide)⟩

end AgcBlock1
