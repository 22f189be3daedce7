import AgcBlock1.Foundation.Loop
import AgcBlock1.Foundation.Stdio
import Mathlib.Data.List.Chain

/-! The memory image file (`.obj`). `saveMemory` prints one line per address; the read loop of
`loadMemory` hands every pair `fscanf` reads to `MEM::writeMemory`, and a call of
`MEM::writeMemory` is recorded as the pair of its arguments. -/

namespace AgcBlock1

/-! ## The read loop -/

/-- The read loop's variables: the unread rest of the file, `addr` and `data`, and the
`MEM::writeMemory` calls made so far, oldest first. -/
structure LoadState where
  input : List Char
  addr : BitVec 32
  data : BitVec 32
  writes : List (BitVec 32 × BitVec 32)

/-- One pass of `while (fscanf(fp, "%o %o", &addr, &data) != EOF) MEM::writeMemory(addr, data);`. -/
def loadBody (state : LoadState) : Flow LoadState :=
  let scan := fscanfOctalPair state.input state.addr state.data
  if scan.count = EOF then .stop { state with input := scan.rest }
  else .next ⟨scan.rest, scan.addr, scan.data, state.writes ++ [(scan.addr, scan.data)]⟩

/-- The `MEM::writeMemory` calls of the read loop on the text of a file, from the values
`addr` and `data` hold when it starts (they are not initialised in `loadMemory`); `none`
when `fuel` calls of `fscanf` do not reach `EOF`. -/
def loadLoop (fuel : Nat) (text : List Char) (addr data : BitVec 32) :
    Option (List (BitVec 32 × BitVec 32)) :=
  (loop loadBody fuel ⟨text, addr, data, []⟩).map LoadState.writes

section

variable {input : List Char} {addr data : BitVec 32} {writes : List (BitVec 32 × BitVec 32)}
  {scan : PairScan}

theorem loadBody_eof (read : fscanfOctalPair input addr data = scan) (eof : scan.count = EOF) :
    loadBody ⟨input, addr, data, writes⟩ = .stop ⟨scan.rest, addr, data, writes⟩ := by
  simp [loadBody, read, eof]

theorem loadBody_read (read : fscanfOctalPair input addr data = scan) (notEof : scan.count ≠ EOF) :
    loadBody ⟨input, addr, data, writes⟩ =
      .next ⟨scan.rest, scan.addr, scan.data, writes ++ [(scan.addr, scan.data)]⟩ := by
  simp [loadBody, read, notEof]

end

/-! ## Text that starts no numeral -/

private theorem isSpace_eq_false_of_dropWhile {input more : List Char} {c : Char}
    (first : input.dropWhile isSpace = c :: more) : isSpace c = false := by
  have head := List.head_dropWhile_not isSpace input (by simp [first])
  simpa [first] using head

theorem loop_loadBody_unmatched {input more : List Char} {c : Char}
    (first : input.dropWhile isSpace = c :: more) (notDigit : isBaseDigit 8 c = false)
    (notSign : c ≠ '-' ∧ c ≠ '+') (fuel : Nat) (addr data : BitVec 32)
    (writes : List (BitVec 32 × BitVec 32)) :
    loop loadBody fuel ⟨input, addr, data, writes⟩ = none := by
  refine loop_eq_none_of_stuck (fun state => state.input.dropWhile isSpace = c :: more)
    (fun ⟨input, addr, data, writes⟩ stuck => ?_) fuel _ first
  have scan : fscanfOctalPair input addr data = ⟨0, addr, data, c :: more⟩ := by
    simp [fscanfOctalPair, scanOctal_unmatched stuck notDigit notSign]
  refine ⟨_, loadBody_read scan (by simp [EOF]), ?_⟩
  simp [List.dropWhile_cons_of_neg, isSpace_eq_false_of_dropWhile stuck]

theorem loadLoop_letter_never_ends (fuel : Nat) (addr data : BitVec 32) :
    loadLoop fuel ['x'] addr data = none := by
  simp [loadLoop, @loop_loadBody_unmatched ['x'] [] 'x' (by decide)
    (by decide) (by decide)]

/-! ## Sequences of numerals -/

/-- An octal numeral of a `.obj` file and the white space after it. -/
structure Numeral where
  digits : List Char
  blank : List Char
  digits_ne_nil : digits ≠ []
  octal : ∀ c ∈ digits, isBaseDigit 8 c
  spaces : ∀ c ∈ blank, isSpace c

namespace Numeral

def text (numeral : Numeral) : List Char :=
  numeral.digits ++ numeral.blank

/-- The word `%o` stores for the numeral. -/
def value (numeral : Numeral) : BitVec 32 :=
  unsignedConversion false (digitsValue 8 numeral.digits)

end Numeral

/-- Numerals one after another, each but the last followed by white space. -/
def Separated (numerals : List Numeral) : Prop :=
  numerals.Chain' fun numeral _ => numeral.blank ≠ []

/-- What the read loop writes for a sequence of numerals: one call per pair; an odd last
numeral is written with the data of the pair before it, or with the value `data` starts
with. -/
def loadWrites : List (BitVec 32) → BitVec 32 → List (BitVec 32 × BitVec 32)
  | [], _ => []
  | [addr], data => [(addr, data)]
  | addr :: data :: rest, _ => (addr, data) :: loadWrites rest data

private theorem takeWhile_blank_append {blank more : List Char}
    (spaces : ∀ c ∈ blank, isSpace c) (ends : blank = [] → more.takeWhile (isBaseDigit 8) = []) :
    (blank ++ more).takeWhile (isBaseDigit 8) = [] := by
  cases blank with
  | nil => exact ends rfl
  | cons c rest =>
      have space := spaces c (List.mem_cons_self _ _)
      have notDigit : isBaseDigit 8 c = false :=
        Bool.eq_false_iff.mpr fun digit => by simp [not_isSpace_of_isBaseDigit digit] at space
      simp [List.takeWhile_cons, notDigit]

private theorem takeWhile_after_numeral {numeral : Numeral} {rest : List Numeral}
    (separated : Separated (numeral :: rest)) :
    (numeral.blank ++ (rest.map Numeral.text).flatten).takeWhile (isBaseDigit 8) = [] := by
  refine takeWhile_blank_append numeral.spaces fun empty => ?_
  cases rest with
  | nil => rfl
  | cons next rest => exact absurd empty (List.chain'_cons.mp separated).1

private theorem scanOctal_digits (numeral : Numeral) {rest : List Char}
    (ends : rest.takeWhile (isBaseDigit 8) = []) :
    scanOctal (numeral.digits ++ rest) = .converted numeral.value rest := by
  simpa using @scanOctal_numeral [] numeral.digits rest (fun _ => by simp) numeral.octal
    numeral.digits_ne_nil ends

theorem fscanfOctalPair_blank {lead : List Char} (spaces : ∀ c ∈ lead, isSpace c)
    (addr data : BitVec 32) : fscanfOctalPair lead addr data = ⟨EOF, addr, data, []⟩ := by
  simp [fscanfOctalPair, scanOctal_blank spaces]

theorem fscanfOctalPair_last {lead : List Char} (spaces : ∀ c ∈ lead, isSpace c)
    (last : Numeral) (addr data : BitVec 32) :
    fscanfOctalPair (lead ++ last.text) addr data = ⟨1, last.value, data, []⟩ := by
  have first := scanOctal_numeral spaces last.octal last.digits_ne_nil
    (by simpa using @takeWhile_blank_append last.blank [] last.spaces fun _ => rfl)
  rw [Numeral.text, fscanfOctalPair, first]
  simp [scanOctal, List.dropWhile_eq_nil_iff.mpr last.spaces, Numeral.value]

theorem fscanfOctalPair_pair {lead more : List Char} (spaces : ∀ c ∈ lead, isSpace c)
    (first second : Numeral) (gap : first.blank ≠ [])
    (ends : (second.blank ++ more).takeWhile (isBaseDigit 8) = []) (addr data : BitVec 32) :
    fscanfOctalPair (lead ++ (first.text ++ (second.text ++ more))) addr data =
      ⟨2, first.value, second.value, second.blank ++ more⟩ := by
  have scanFirst := scanOctal_numeral spaces first.octal first.digits_ne_nil
    (@takeWhile_blank_append first.blank (second.digits ++ (second.blank ++ more)) first.spaces
      (absurd · gap))
  simp only [Numeral.text, List.append_assoc] at scanFirst ⊢
  rw [fscanfOctalPair, scanFirst]
  simp only [dropWhile_isSpace_blank_append first.spaces second.octal second.digits_ne_nil,
    scanOctal_digits second ends]
  rfl

theorem loop_loadBody_numerals :
    ∀ (numerals : List Numeral) (lead : List Char) (addr data : BitVec 32)
      (writes : List (BitVec 32 × BitVec 32)) (fuel : Nat),
      (∀ c ∈ lead, isSpace c) → Separated numerals → (numerals.length + 1) / 2 < fuel →
      (loop loadBody fuel ⟨lead ++ (numerals.map Numeral.text).flatten, addr, data, writes⟩).map
          LoadState.writes = some (writes ++ loadWrites (numerals.map Numeral.value) data)
  | [], lead, addr, data, writes, fuel, spaces, _, enough => by
      obtain ⟨fuel, rfl⟩ : ∃ rest, fuel = rest + 1 := ⟨fuel - 1, by simp at enough; omega⟩
      have eof := fscanfOctalPair_blank spaces addr data
      simp only [List.map_nil, List.flatten_nil, List.append_nil]
      rw [loop_stop (loadBody_eof eof rfl)]
      simp [loadWrites]
  | [last], lead, addr, data, writes, fuel, spaces, _, enough => by
      obtain ⟨fuel, rfl⟩ : ∃ rest, fuel = rest + 2 := ⟨fuel - 2, by simp at enough; omega⟩
      have read := fscanfOctalPair_last spaces last addr data
      have eof := @fscanfOctalPair_blank [] (fun _ => by simp) last.value data
      simp only [List.map_cons, List.map_nil, List.flatten_cons, List.flatten_nil,
        List.append_nil]
      rw [loop_next (loadBody_read read (by simp [EOF])), loop_stop (loadBody_eof eof rfl)]
      simp [loadWrites]
  | first :: second :: rest, lead, addr, data, writes, fuel, spaces, separated, enough => by
      obtain ⟨fuel, rfl⟩ : ∃ rest, fuel = rest + 1 := ⟨fuel - 1, by simp at enough; omega⟩
      have tail := (List.chain'_cons.mp separated).2
      have read := fscanfOctalPair_pair spaces first second (List.chain'_cons.mp separated).1
        (takeWhile_after_numeral tail) addr data
      simp only [List.map_cons, List.flatten_cons] at read ⊢
      rw [loop_next (loadBody_read read (by simp [EOF]))]
      have later := loop_loadBody_numerals rest second.blank first.value second.value
        (writes ++ [(first.value, second.value)]) fuel second.spaces tail.tail
        (by simp at enough; omega)
      simpa [loadWrites] using later

theorem loadLoop_numerals (numerals : List Numeral) {lead : List Char}
    (spaces : ∀ c ∈ lead, isSpace c) (separated : Separated numerals) (addr data : BitVec 32)
    {fuel : Nat} (enough : (numerals.length + 1) / 2 < fuel) :
    loadLoop fuel (lead ++ (numerals.map Numeral.text).flatten) addr data =
      some (loadWrites (numerals.map Numeral.value) data) := by
  simpa [loadLoop] using loop_loadBody_numerals numerals lead addr data [] fuel spaces separated enough

/-- The numerals of the file `20 5`, one pair. -/
def pairNumerals : List Numeral :=
  [⟨['2', '0'], [' '], by decide, by decide, by decide⟩, ⟨['5'], ['\n'], by decide, by decide, by decide⟩]

theorem loadLoop_numerals_pair :
    (∀ c ∈ [' '], isSpace c) ∧ Separated pairNumerals ∧ (pairNumerals.length + 1) / 2 < 2 ∧
      loadLoop 2 ([' '] ++ (pairNumerals.map Numeral.text).flatten) 0 0 =
        some (loadWrites (pairNumerals.map Numeral.value) 0) :=
  ⟨by decide, by simp [Separated, pairNumerals], by decide,
    loadLoop_numerals pairNumerals (by decide) (by simp [Separated, pairNumerals]) 0 0 (by decide)⟩

theorem loadLoop_odd_count_writes_stale_data (addr data : BitVec 32) :
    loadLoop 3 "20 5 21".toList addr data = some [(0o20, 5), (0o21, 5)] ∧
      loadLoop 2 "20".toList addr data = some [(0o20, data)] :=
  ⟨rfl, rfl⟩

/-! ## `saveMemory` -/

/-- The addresses `saveMemory` writes: `for (unsigned addr = 020; addr <= 031777; addr++)`. -/
def savedAddresses : List (BitVec 32) :=
  (List.range' 0o20 (0o31777 + 1 - 0o20)).map (BitVec.ofNat 32)

/-- `sprintf(buf, "%06o %06o\n", addr, MEM::readMemory(addr))`. -/
def memoryLine (addr word : BitVec 32) : List Char :=
  formatOctal 6 addr.toNat ++ ' ' :: formatOctal 6 word.toNat ++ ['\n']

/-- The text `saveMemory` writes, for the words `MEM::readMemory` returns. -/
def saveMemory (readMemory : BitVec 32 → BitVec 32) : List Char :=
  (savedAddresses.map fun addr => memoryLine addr (readMemory addr)).flatten

/-- A word as `%06o` prints it, with the white space after it. -/
def wordNumeral (word : BitVec 32) (blank : List Char) (spaces : ∀ c ∈ blank, isSpace c) :
    Numeral :=
  ⟨formatOctal 6 word.toNat, blank, formatOctal_ne_nil _ _, isBaseDigit_of_mem_formatOctal _ _,
    spaces⟩

@[simp] theorem wordNumeral_value (word : BitVec 32) (blank : List Char)
    (spaces : ∀ c ∈ blank, isSpace c) : (wordNumeral word blank spaces).value = word := by
  simp [Numeral.value, wordNumeral]

/-- The two numerals of one line of the file. -/
def lineNumerals (addr word : BitVec 32) : List Numeral :=
  [wordNumeral addr [' '] (by decide), wordNumeral word ['\n'] (by decide)]

/-- The numerals of the lines for `addrs`. -/
def linesNumerals (readMemory : BitVec 32 → BitVec 32) (addrs : List (BitVec 32)) :
    List Numeral :=
  addrs.flatMap fun addr => lineNumerals addr (readMemory addr)

section

variable (readMemory : BitVec 32 → BitVec 32)

private theorem linesNumerals_cons (addr : BitVec 32) (rest : List (BitVec 32)) :
    linesNumerals readMemory (addr :: rest) =
      lineNumerals addr (readMemory addr) ++ linesNumerals readMemory rest :=
  List.flatMap_cons _ _ _

private theorem linesNumerals_text : ∀ addrs : List (BitVec 32),
    ((linesNumerals readMemory addrs).map Numeral.text).flatten =
      (addrs.map fun addr => memoryLine addr (readMemory addr)).flatten
  | [] => rfl
  | addr :: rest => by
      rw [linesNumerals_cons, List.map_append, List.flatten_append, linesNumerals_text rest,
        List.map_cons, List.flatten_cons]
      simp [lineNumerals, wordNumeral, Numeral.text, memoryLine]

private theorem linesNumerals_value : ∀ addrs : List (BitVec 32),
    (linesNumerals readMemory addrs).map Numeral.value =
      addrs.flatMap fun addr => [addr, readMemory addr]
  | [] => rfl
  | addr :: rest => by
      rw [linesNumerals_cons, List.map_append, linesNumerals_value rest, List.flatMap_cons]
      simp [lineNumerals]

private theorem linesNumerals_length : ∀ addrs : List (BitVec 32),
    (linesNumerals readMemory addrs).length = 2 * addrs.length
  | [] => rfl
  | addr :: rest => by
      rw [linesNumerals_cons, List.length_append, linesNumerals_length rest]
      simp [lineNumerals]
      omega

private theorem linesNumerals_separated : ∀ addrs : List (BitVec 32),
    Separated (linesNumerals readMemory addrs)
  | [] => List.chain'_nil
  | [_] => by simp [Separated, linesNumerals, lineNumerals, wordNumeral]
  | addr :: next :: rest => by
      have later := linesNumerals_separated (next :: rest)
      simp only [Separated, linesNumerals, lineNumerals, List.flatMap_cons, List.cons_append,
        List.nil_append] at later ⊢
      exact List.chain'_cons.mpr ⟨by simp [wordNumeral],
        List.chain'_cons.mpr ⟨by simp [wordNumeral], later⟩⟩

theorem loadWrites_pairs : ∀ (addrs : List (BitVec 32)) (data : BitVec 32),
    loadWrites (addrs.flatMap fun addr => [addr, readMemory addr]) data =
      addrs.map fun addr => (addr, readMemory addr)
  | [], _ => rfl
  | addr :: rest, _ => by
      rw [List.flatMap_cons, List.cons_append, List.cons_append, List.nil_append, loadWrites,
        loadWrites_pairs rest, List.map_cons]

theorem loadLoop_memoryLines (addrs : List (BitVec 32)) (addr data : BitVec 32) (fuel : Nat)
    (enough : addrs.length < fuel) :
    loadLoop fuel (addrs.map fun address => memoryLine address (readMemory address)).flatten
        addr data = some (addrs.map fun address => (address, readMemory address)) := by
  have run := loop_loadBody_numerals (linesNumerals readMemory addrs) [] addr data [] fuel
    (by simp) (linesNumerals_separated readMemory addrs)
    (by rw [linesNumerals_length]; omega)
  rw [List.nil_append, linesNumerals_text, linesNumerals_value, loadWrites_pairs] at run
  simpa [loadLoop] using run

end

theorem loadLoop_saveMemory (readMemory : BitVec 32 → BitVec 32) (addr data : BitVec 32)
    (fuel : Nat) (enough : 13296 < fuel) :
    loadLoop fuel (saveMemory readMemory) addr data =
      some ((List.range' 0o20 13296).map fun address =>
        (BitVec.ofNat 32 address, readMemory (BitVec.ofNat 32 address))) := by
  have addresses : savedAddresses = (List.range' 0o20 13296).map (BitVec.ofNat 32) := rfl
  have counted : savedAddresses.length < fuel := by
    rw [addresses, List.length_map, List.length_range']
    exact enough
  rw [saveMemory, loadLoop_memoryLines readMemory savedAddresses addr data fuel counted, addresses,
    List.map_map]
  rfl

theorem loadLoop_saveMemory_complement :
    13296 < 13297 ∧
      loadLoop 13297 (saveMemory fun address => ~~~address) 0 0 =
        some ((List.range' 0o20 13296).map fun address =>
          (BitVec.ofNat 32 address, ~~~(BitVec.ofNat 32 address))) :=
  ⟨by decide, loadLoop_saveMemory (fun address => ~~~address) 0 0 13297 (by decide)⟩

end AgcBlock1
