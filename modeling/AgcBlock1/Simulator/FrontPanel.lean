import AgcBlock1.Simulator.ObjectFile

/-! The operator's prompts. `getCommand` reads keys into its static buffer `s`; each command
copies the line into a buffer of its own and parses it. Every store into an array is
recorded with the array and the index, so that its bounds can be checked. -/

namespace AgcBlock1

/-! ## Arrays and stores -/

/-- The arrays the prompts store into. -/
inductive Buffer where
  | s | b | cntrname | iname | filename | theAddress | fname | pcUp | pcDn | rupt
  deriving DecidableEq, Repr

/-- Modelled from the spec: `CTR.h` is not under `src/`; the spec gives the counter request
lines as `pcUp[0..6]` and `pcDn[0..6]`. -/
def counterCells : Nat := 7

/-- Modelled from the spec: `INT.h` is not under `src/`; the spec gives the interrupt request
lines as `rupt[0..4]`. -/
def interruptLines : Nat := 5

/-- The declared length of each array. -/
def Buffer.size : Buffer → Nat
  | .s | .b | .cntrname | .iname | .filename | .fname => 80
  | .theAddress => 20
  | .pcUp | .pcDn => counterCells
  | .rupt => interruptLines

/-- One store `buffer[index] = ...`. -/
structure Store where
  buffer : Buffer
  index : Int
  deriving DecidableEq, Repr

def Store.InBounds (store : Store) : Prop :=
  0 ≤ store.index ∧ store.index < store.buffer.size

instance : DecidablePred Store.InBounds :=
  fun store => inferInstanceAs (Decidable (0 ≤ store.index ∧ store.index < store.buffer.size))

/-- `strcpy(dst, src)`: the characters and the terminator, at indices `0` to `src.length`. -/
def strcpyStores (dst : Buffer) (src : List Char) : List Store :=
  (List.range (src.length + 1)).map fun index : Nat => ⟨dst, index⟩

/-- `strcat(dst, src)` onto a string of `length` characters. -/
def strcatStores (dst : Buffer) (length : Nat) (src : List Char) : List Store :=
  (List.range (src.length + 1)).map fun index : Nat => ⟨dst, length + index⟩

theorem strcatStores_inBounds_iff (dst : Buffer) (length : Nat) (src : List Char) :
    (∀ store ∈ strcatStores dst length src, store.InBounds) ↔
      length + src.length < dst.size := by
  constructor
  · intro inBounds
    have last := inBounds ⟨dst, length + src.length⟩
      (List.mem_map.mpr ⟨src.length, List.mem_range.mpr (Nat.lt_succ_self _), rfl⟩)
    simp only [Store.InBounds] at last
    omega
  · intro short store member
    obtain ⟨index, below, rfl⟩ := List.mem_map.mp member
    simp only [List.mem_range] at below
    simp only [Store.InBounds]
    omega

theorem strcpyStores_eq_strcatStores (dst : Buffer) (src : List Char) :
    strcpyStores dst src = strcatStores dst 0 src := by
  simp [strcpyStores, strcatStores]

theorem strcpyStores_inBounds_iff (dst : Buffer) (src : List Char) :
    (∀ store ∈ strcpyStores dst src, store.InBounds) ↔ src.length < dst.size := by
  rw [strcpyStores_eq_strcatStores, strcatStores_inBounds_iff, Nat.zero_add]

/-! ## `getCommand` -/

/-- `getCommand`'s loop variables: the cursor `sp` as an index into `s`, the contents of
`s`, and the stores made. -/
structure CommandLine where
  sp : Nat
  s : Nat → Char
  stores : List Store

/-- One key: a printable key is stored at the cursor, which moves on; a backspace (code 8)
moves the cursor back unless it is at the start; any other key is ignored. -/
def getCommandKey (line : CommandLine) (key : Char) : CommandLine :=
  if isPrint key then ⟨line.sp + 1, Function.update line.s line.sp key, line.stores ++ [⟨.s, line.sp⟩]⟩
  else if key.toNat = 8 ∧ line.sp ≠ 0 then { line with sp := line.sp - 1 }
  else line

/-- The keys `getCommand`'s loop takes: those before the first newline. -/
def typedKeys (keys : List Char) : List Char :=
  keys.takeWhile (· ≠ '\n')

/-- `getCommand` on the keys typed, from what the static `s` held before (a C static array
starts as zeros). The keys up to the newline go through the loop; the terminator is then
stored at the cursor. -/
def getCommand (previous : Nat → Char) (keys : List Char) : CommandLine :=
  let line := (typedKeys keys).foldl getCommandKey ⟨0, previous, []⟩
  ⟨line.sp, Function.update line.s line.sp '\x00', line.stores ++ [⟨.s, line.sp⟩]⟩

/-- The string `getCommand` returns: `s` up to the terminator at the cursor. -/
def CommandLine.text (line : CommandLine) : List Char :=
  (List.range line.sp).map line.s

/-- The line as the operator edits it: printable keys are appended, a backspace deletes the
last character. -/
def editKey (line : List Char) (key : Char) : List Char :=
  if isPrint key then line ++ [key] else if key.toNat = 8 then line.dropLast else line

def editLine (keys : List Char) : List Char :=
  (typedKeys keys).foldl editKey []

/-- The loop invariant of `getCommand`: the cursor is the length of the edited line, and `s`
holds that line below the cursor. -/
def CommandLine.Holds (line : CommandLine) (edited : List Char) : Prop :=
  line.sp = edited.length ∧ ∀ index (below : index < edited.length), line.s index = edited[index]

theorem getCommandKey_holds {line : CommandLine} {edited : List Char}
    (holds : line.Holds edited) (key : Char) :
    (getCommandKey line key).Holds (editKey edited key) := by
  obtain ⟨cursor, contents⟩ := holds
  by_cases printable : isPrint key
  · simp only [getCommandKey, editKey, printable, if_true]
    refine ⟨by simp [cursor], fun index below => ?_⟩
    rw [List.length_append, List.length_singleton] at below
    rcases Nat.lt_succ_iff_lt_or_eq.mp below with earlier | last
    · rw [List.getElem_append_left earlier]
      exact (Function.update_noteq (by omega) _ _).trans (contents index earlier)
    · subst last
      simp [Function.update_apply, cursor]
  · by_cases backspace : key.toNat = 8
    · by_cases start : line.sp = 0
      · have empty : edited = [] := List.eq_nil_of_length_eq_zero (cursor ▸ start)
        simp [getCommandKey, editKey, printable, backspace, start, empty, CommandLine.Holds, cursor]
      · simp only [getCommandKey, editKey, printable, backspace, start, if_true, if_false,
          Bool.false_eq_true, ne_eq, not_false_eq_true, and_self]
        refine ⟨by simp [cursor], fun index below => ?_⟩
        rw [List.getElem_dropLast]
        exact contents index _
    · simp only [getCommandKey, editKey, printable, backspace, false_and, if_false,
        Bool.false_eq_true]
      exact ⟨cursor, contents⟩

theorem getCommandKey_run : ∀ (typed : List Char) {line : CommandLine} {edited : List Char},
    line.Holds edited → (typed.foldl getCommandKey line).Holds (typed.foldl editKey edited)
  | [], _, _, holds => holds
  | key :: rest, _, _, holds => getCommandKey_run rest (getCommandKey_holds holds key)

theorem getCommand_text (previous : Nat → Char) (keys : List Char) :
    (getCommand previous keys).text = editLine keys := by
  obtain ⟨cursor, contents⟩ := @getCommandKey_run (typedKeys keys) ⟨0, previous, []⟩ []
    ⟨rfl, fun _ below => absurd below (Nat.not_lt_zero _)⟩
  apply List.ext_getElem
  · simp [CommandLine.text, getCommand, editLine, cursor]
  · intro index below _
    simp only [CommandLine.text, getCommand, List.length_map, List.length_range] at below
    simp only [CommandLine.text, getCommand, editLine, List.getElem_map, List.getElem_range,
      Function.update_apply, if_neg (Nat.ne_of_lt below)]
    exact contents index (cursor ▸ below)

private theorem getCommandKey_step {line : CommandLine} {count : Nat} (cursor : line.sp ≤ count)
    (stores : ∀ store ∈ line.stores, store.buffer = .s ∧ 0 ≤ store.index ∧ store.index < count)
    (key : Char) :
    (getCommandKey line key).sp ≤ count + (if isPrint key then 1 else 0) ∧
      ∀ store ∈ (getCommandKey line key).stores,
        store.buffer = .s ∧ 0 ≤ store.index ∧
          store.index < ((count + if isPrint key then 1 else 0 : Nat) : Int) := by
  unfold getCommandKey
  by_cases printable : isPrint key
  · simp only [printable, if_true, List.mem_append, List.mem_singleton]
    refine ⟨by omega, ?_⟩
    rintro store (earlier | rfl)
    · obtain ⟨buffer, low, high⟩ := stores store earlier
      exact ⟨buffer, low, by omega⟩
    · exact ⟨rfl, Int.ofNat_nonneg _, by dsimp only; omega⟩
  · simp only [printable, Bool.false_eq_true, if_false, Nat.add_zero]
    split_ifs
    · exact ⟨by dsimp only; omega, stores⟩
    · exact ⟨cursor, stores⟩

private theorem getCommandKey_run_bound : ∀ (typed : List Char) (line : CommandLine) (count : Nat),
    line.sp ≤ count → (∀ store ∈ line.stores, store.buffer = .s ∧ 0 ≤ store.index ∧ store.index < count) →
    (typed.foldl getCommandKey line).sp ≤ count + typed.countP isPrint ∧
      ∀ store ∈ (typed.foldl getCommandKey line).stores,
        store.buffer = .s ∧ 0 ≤ store.index ∧ store.index < count + typed.countP isPrint
  | [], _, _, cursor, stores => by simpa using And.intro cursor stores
  | key :: rest, line, count, cursor, stores => by
      obtain ⟨cursor', stores'⟩ := getCommandKey_step cursor stores key
      obtain ⟨cursor'', stores''⟩ := getCommandKey_run_bound rest _ _ cursor' stores'
      rw [List.foldl_cons, List.countP_cons]
      refine ⟨by omega, fun store member => ?_⟩
      obtain ⟨buffer, low, high⟩ := stores'' store member
      exact ⟨buffer, low, by omega⟩

theorem getCommand_stores_inBounds (previous : Nat → Char) {keys : List Char}
    (short : (typedKeys keys).countP isPrint < 80) :
    ∀ store ∈ (getCommand previous keys).stores, store.InBounds := by
  obtain ⟨cursor, stores⟩ := getCommandKey_run_bound (typedKeys keys) ⟨0, previous, []⟩ 0
    (Nat.zero_le _) (by simp)
  intro store member
  simp only [getCommand, List.mem_append, List.mem_singleton] at member
  rcases member with earlier | rfl
  · obtain ⟨buffer, low, high⟩ := stores store earlier
    simp only [Store.InBounds, buffer, Buffer.size]
    omega
  · simp only [Store.InBounds, Buffer.size]
    omega

theorem editLine_length_le (keys : List Char) :
    (editLine keys).length ≤ (typedKeys keys).countP isPrint := by
  have step : ∀ (typed line : List Char),
      (typed.foldl editKey line).length ≤ line.length + typed.countP isPrint := by
    intro typed
    induction typed with
    | nil => simp
    | cons key rest induction =>
        intro line
        have later := induction (editKey line key)
        have grows : (editKey line key).length ≤ line.length + if isPrint key then 1 else 0 := by
          unfold editKey
          split_ifs <;> simp
        rw [List.foldl_cons, List.countP_cons]
        split_ifs at grows ⊢ <;> omega
  simpa using step (typedKeys keys) []

theorem CommandLine.holds_start (previous : Nat → Char) : CommandLine.Holds ⟨0, previous, []⟩ [] :=
  ⟨rfl, fun _ below => absurd below (Nat.not_lt_zero _)⟩

/-- Every printable key comes while the line, `edited` and then what the keys before it made of
it, is shorter than `s`: `getCommand` stores a printable key at the cursor, which is the line's
length. -/
def CursorFits : List Char → List Char → Prop
  | _, [] => True
  | edited, key :: keys =>
      (isPrint key = true → edited.length < Buffer.s.size) ∧ CursorFits (editKey edited key) keys

instance CursorFits.decidable : (edited keys : List Char) → Decidable (CursorFits edited keys)
  | _, [] => instDecidableTrue
  | edited, key :: keys =>
      have := CursorFits.decidable (editKey edited key) keys
      inferInstanceAs (Decidable ((isPrint key = true → edited.length < Buffer.s.size) ∧ _))

theorem getCommandKey_stores (line : CommandLine) (key : Char) :
    (getCommandKey line key).stores = line.stores ++ if isPrint key then [⟨.s, line.sp⟩] else [] := by
  unfold getCommandKey
  split_ifs <;> simp

private theorem getCommandKey_inBounds_iff {line : CommandLine} {edited : List Char}
    (cursor : line.sp = edited.length) (key : Char) :
    (∀ store ∈ (getCommandKey line key).stores, store.InBounds) ↔
      (∀ store ∈ line.stores, store.InBounds) ∧ (isPrint key = true → edited.length < Buffer.s.size) := by
  rw [getCommandKey_stores, List.forall_mem_append]
  by_cases printable : isPrint key <;> simp [printable, Store.InBounds, cursor]

theorem getCommandKey_run_inBounds_iff : ∀ (typed : List Char) {line : CommandLine} {edited : List Char},
    line.Holds edited →
      ((∀ store ∈ (typed.foldl getCommandKey line).stores, store.InBounds) ↔
        (∀ store ∈ line.stores, store.InBounds) ∧ CursorFits edited typed)
  | [], _, _, _ => iff_of_eq (and_true _).symm
  | key :: rest, _, _, holds => by
      rw [List.foldl_cons, getCommandKey_run_inBounds_iff rest (getCommandKey_holds holds key),
        getCommandKey_inBounds_iff holds.1, CursorFits, and_assoc]

theorem getCommand_stores_inBounds_iff (previous : Nat → Char) (keys : List Char) :
    (∀ store ∈ (getCommand previous keys).stores, store.InBounds) ↔
      CursorFits [] (typedKeys keys) ∧ (editLine keys).length < Buffer.s.size := by
  have start := CommandLine.holds_start previous
  rw [getCommand, List.forall_mem_append, getCommandKey_run_inBounds_iff _ start]
  simp [Store.InBounds, (getCommandKey_run (typedKeys keys) start).1, editLine]

/-! ## Commands -/

/-- `incrCntr`, `decrCntr` and `interrupt`: read a line, copy it into the local buffer `name`,
and raise `lines[atoi(name) - offset]`. -/
def raiseRequest (name lines : Buffer) (offset : Int) (previous : Nat → Char)
    (keys : List Char) : List Store :=
  let line := getCommand previous keys
  line.stores ++ strcpyStores name line.text ++ [⟨lines, atoi line.text - offset⟩]

/-- `CTR::pcUp[atoi(cntrname)] = 1`. -/
def incrCntr : (Nat → Char) → List Char → List Store :=
  raiseRequest .cntrname .pcUp 0

/-- `CTR::pcDn[atoi(cntrname)] = 1`. -/
def decrCntr : (Nat → Char) → List Char → List Store :=
  raiseRequest .cntrname .pcDn 0

/-- `INT::rupt[atoi(iname) - 1] = 1`. -/
def interrupt : (Nat → Char) → List Char → List Store :=
  raiseRequest .iname .rupt 1

theorem raiseRequest_inBounds_iff {name lines : Buffer} (named : name.size = 80) (offset : Int)
    (previous : Nat → Char) {keys : List Char} (short : (typedKeys keys).countP isPrint < 80) :
    (∀ store ∈ raiseRequest name lines offset previous keys, store.InBounds) ↔
      0 ≤ atoi (editLine keys) - offset ∧ atoi (editLine keys) - offset < lines.size := by
  have copied := (strcpyStores_inBounds_iff name (getCommand previous keys).text).mpr
    (by rw [getCommand_text, named]; exact lt_of_le_of_lt (editLine_length_le keys) short)
  simp only [raiseRequest, List.mem_append, List.mem_singleton]
  constructor
  · intro inBounds
    simpa [Store.InBounds, getCommand_text] using inBounds _ (Or.inr rfl)
  · rintro request store ((typed | copy) | rfl)
    · exact getCommand_stores_inBounds previous short store typed
    · exact copied store copy
    · simpa [Store.InBounds, getCommand_text] using request

theorem raiseRequest_inBounds_iff_priority_three :
    Buffer.iname.size = 80 ∧ (typedKeys ['3', '\n']).countP isPrint < 80 ∧
      ((∀ store ∈ raiseRequest .iname .rupt 1 (fun _ => '\x00') ['3', '\n'], store.InBounds) ↔
        0 ≤ atoi (editLine ['3', '\n']) - 1 ∧ atoi (editLine ['3', '\n']) - 1 < Buffer.rupt.size) :=
  ⟨rfl, by decide, @raiseRequest_inBounds_iff .iname .rupt rfl 1 (fun _ => '\x00') _ (by decide)⟩

theorem interrupt_priority_zero_outside_rupt :
    (⟨.rupt, -1⟩ : Store) ∈ interrupt (fun _ => '\x00') ['0', '\n'] ∧
      ¬ (⟨.rupt, -1⟩ : Store).InBounds := by
  decide

/-- The breakpoint and the watch that the polling loop checks after every tick. -/
structure Checks where
  breakpointEnab : Bool
  breakpoint : BitVec 32
  watchEnab : Bool
  watchAddr : BitVec 32
  oldWatchValue : BitVec 32
  deriving DecidableEq, Repr

/-- `toggleBreakpoint`: setting reads an octal address into `b`; clearing reads nothing. -/
def toggleBreakpoint (previous : Nat → Char) (keys : List Char) (checks : Checks) :
    List Store × Checks :=
  if checks.breakpointEnab then ([], { checks with breakpointEnab := false })
  else
    let line := getCommand previous keys
    (line.stores ++ strcpyStores .b line.text,
      { checks with breakpoint := BitVec.ofInt 32 (strtol line.text 8), breakpointEnab := true })

/-- `toggleWatch`: setting reads an octal address into `b` and the word held there. -/
def toggleWatch (readMemory : BitVec 32 → BitVec 32) (previous : Nat → Char) (keys : List Char)
    (checks : Checks) : List Store × Checks :=
  if checks.watchEnab then ([], { checks with watchEnab := false })
  else
    let line := getCommand previous keys
    let watchAddr := BitVec.ofInt 32 (strtol line.text 8)
    (line.stores ++ strcpyStores .b line.text,
      { checks with watchAddr, watchEnab := true, oldWatchValue := readMemory watchAddr })

/-- What `loadMemory` does: its stores, the new `filename`, and the `MEM::writeMemory` calls
(`none` when the read loop has not reached `EOF` within `fuel` calls of `fscanf`). When no
file has the name, `fopen` fails and nothing is written. -/
structure LoadOutcome where
  stores : List Store
  filename : List Char
  writes : Option (List (BitVec 32 × BitVec 32))

def loadMemory (files : List Char → Option (List Char)) (fuel : Nat) (addr data : BitVec 32)
    (previous : Nat → Char) (keys : List Char) : LoadOutcome :=
  let line := getCommand previous keys
  ⟨line.stores ++ strcpyStores .filename line.text ++ strcpyStores .fname line.text ++
      strcatStores .fname line.text.length ".obj".toList,
    line.text,
    match files (line.text ++ ".obj".toList) with
    | none => some []
    | some text => loadLoop fuel text addr data⟩

/-! ## `examineMemory` -/

/-- `for (unsigned i = address; i < bound; i++)`: the addresses read and printed. -/
def examineLoop (bound i : BitVec 32) : List (BitVec 32) :=
  if below : i < bound then i :: examineLoop bound (i + 1) else []
termination_by bound.toNat - i.toNat
decreasing_by bv_omega

/-- What `examineMemory` does: its stores, and the addresses it hands to `MEM::readMemory`. -/
structure ExamineOutcome where
  stores : List Store
  reads : List (BitVec 32)

def examineMemory (previous : Nat → Char) (keys : List Char) : ExamineOutcome :=
  let line := getCommand previous keys
  let address := BitVec.ofInt 32 (strtol line.text 8)
  ⟨line.stores ++ strcpyStores .theAddress line.text, examineLoop (address + 23) address⟩

theorem examineLoop_eq (bound : BitVec 32) :
    ∀ i, examineLoop bound i = (List.range (bound.toNat - i.toNat)).map fun k => i + BitVec.ofNat 32 k := by
  intro i
  induction i using examineLoop.induct bound with
  | case1 i below induction =>
      have small := bound.isLt
      rw [BitVec.lt_def] at below
      have next : (i + 1).toNat = i.toNat + 1 := by bv_omega
      rw [examineLoop, dif_pos (BitVec.lt_def.mpr below), induction, next,
        show bound.toNat - i.toNat = bound.toNat - (i.toNat + 1) + 1 by omega,
        List.range_succ_eq_map]
      simp only [List.map_cons, List.map_map, BitVec.ofNat_eq_ofNat, BitVec.add_zero]
      congr 1
      apply List.map_congr_left
      intro k _
      simp only [Function.comp, BitVec.add_assoc]
      congr 1
      bv_omega
  | case2 i above =>
      rw [examineLoop, dif_neg above]
      rw [BitVec.lt_def] at above
      simp [show bound.toNat - i.toNat = 0 by omega]

theorem examineLoop_window (address : BitVec 32) :
    examineLoop (address + 23) address =
      if address.toNat + 23 < 2 ^ 32 then (List.range 23).map (address + BitVec.ofNat 32 ·)
      else [] := by
  have small := address.isLt
  rw [examineLoop_eq]
  split_ifs with fits
  · rw [show (address + 23).toNat - address.toNat = 23 by bv_omega]
  · rw [show (address + 23).toNat - address.toNat = 0 by bv_omega]
    rfl

theorem examineMemory_reads (previous : Nat → Char) (keys : List Char) :
    (examineMemory previous keys).reads =
      if (BitVec.ofInt 32 (strtol (editLine keys) 8)).toNat + 23 < 2 ^ 32 then
        (List.range 23).map (BitVec.ofInt 32 (strtol (editLine keys) 8) + BitVec.ofNat 32 ·)
      else [] := by
  simp only [examineMemory, getCommand_text, examineLoop_window]

theorem examineMemory_minus_one_reads_nothing :
    (examineMemory (fun _ => '\x00') ['-', '1', '\n']).reads = [] := by
  simp only [examineMemory]
  rw [examineLoop_eq]
  decide

end AgcBlock1
