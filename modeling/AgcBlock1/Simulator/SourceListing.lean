import AgcBlock1.Simulator.FrontPanel

/-! `showSourceCode`: find the first record of the listing file whose first five columns hold
the current address, seek back nine records with the ring `foffset` of record offsets, and
print 23 records from there. -/

namespace AgcBlock1

/-- The columns of the address in a listing line. -/
def startCol : Nat := 0
def colLen : Nat := 5

/-- Records printed, and records kept in `foffset` (nine before the selected one and itself). -/
def maxLines : Nat := 23
def noffset : Nat := 10

def maxLineLen : Nat := 79

/-- The C string a character array holds: its characters before the first NUL. -/
def cString (chars : List Char) : List Char :=
  chars.takeWhile (· ≠ '\x00')

theorem cString_take (chars : List Char) (count : Nat) :
    cString (chars.take count) = (cString chars).take count := by
  induction chars generalizing count with
  | nil => simp [cString]
  | cons c rest induction =>
      cases count with
      | zero => simp [cString]
      | succ count =>
          by_cases nul : c = '\x00'
          · simp [cString, nul]
          · simpa [cString, nul] using induction count

/-! ## Records -/

/-- Splits text into the pieces that successive calls `fgets(s, 256, fp)` return. -/
def recordsFrom : (fuel : Nat) → List Char → List (List Char)
  | 0, _ => []
  | fuel + 1, text =>
      if (fgetsChars 255 text).1 = [] then []
      else (fgetsChars 255 text).1 :: recordsFrom fuel (text.drop (fgetsChars 255 text).1.length)

/-- The records of a file: its lines, a line longer than 255 characters cut into pieces. -/
def records (file : List Char) : List (List Char) :=
  recordsFrom file.length file

private theorem fgetsChars_length_le_text (text : List Char) :
    (fgetsChars 255 text).1.length ≤ text.length :=
  (fgetsChars_begins_text 255 text).length_le

private theorem recordsFrom_fuel : ∀ (fuel fuel' : Nat) (text : List Char),
    text.length ≤ fuel → text.length ≤ fuel' → recordsFrom fuel text = recordsFrom fuel' text
  | 0, 0, _, _, _ => rfl
  | 0, _ + 1, text, short, _ => by
      rw [List.eq_nil_of_length_eq_zero (Nat.le_zero.mp short)]
      simp [recordsFrom, fgetsChars]
  | _ + 1, 0, text, _, short => by
      rw [List.eq_nil_of_length_eq_zero (Nat.le_zero.mp short)]
      simp [recordsFrom, fgetsChars]
  | fuel + 1, fuel' + 1, text, short, short' => by
      unfold recordsFrom
      split_ifs with empty
      · rfl
      · have nonempty : 0 < (fgetsChars 255 text).1.length := List.length_pos.mpr empty
        have bound := fgetsChars_length_le_text text
        rw [recordsFrom_fuel fuel fuel' _ (by simp; omega) (by simp; omega)]

theorem records_eq (text : List Char) :
    records text = if (fgetsChars 255 text).1 = [] then []
      else (fgetsChars 255 text).1 :: records (text.drop (fgetsChars 255 text).1.length) := by
  cases text with
  | nil => simp [records, recordsFrom, fgetsChars]
  | cons c rest =>
      rw [records, List.length_cons, recordsFrom]
      split_ifs with empty
      · rfl
      · have nonempty : 0 < (fgetsChars 255 (c :: rest)).1.length := List.length_pos.mpr empty
        have bound := fgetsChars_length_le_text (c :: rest)
        rw [records, recordsFrom_fuel _ _ _ (by simp at bound ⊢; omega) le_rfl]

theorem records_nil : records [] = [] := by
  simp [records, recordsFrom]

theorem records_of_ne_nil {text record : List Char} (read : (fgetsChars 255 text).1 = record)
    (nonempty : record ≠ []) : records text = record :: records (text.drop record.length) := by
  rw [records_eq, read, if_neg nonempty]

private theorem records_induction (motive : List Char → Prop) (empty : motive [])
    (step : ∀ text, text ≠ [] → motive (text.drop (fgetsChars 255 text).1.length) → motive text) :
    ∀ text, motive text := by
  intro text
  induction text using WellFounded.induction (measure List.length).wf with
  | h text induction =>
      by_cases nil : text = []
      · exact nil ▸ empty
      · apply step text nil (induction _ _)
        have nonempty : 0 < (fgetsChars 255 text).1.length :=
          List.length_pos.mpr ((@fgetsChars_eq_nil_iff 255 (by decide) text).not.mpr nil)
        show (text.drop _).length < text.length
        rw [List.length_drop]
        have := List.length_pos.mpr nil
        omega

theorem records_flatten : ∀ text, (records text).flatten = text :=
  records_induction _ (by simp [records_nil]) fun text nil later => by
    have nonempty := (@fgetsChars_eq_nil_iff 255 (by decide) text).not.mpr nil
    rw [records_of_ne_nil rfl nonempty, List.flatten_cons, later]
    exact List.prefix_iff_eq_append.mp (fgetsChars_begins_text 255 text)

theorem ne_nil_of_mem_records : ∀ text, ∀ record ∈ records text, record ≠ [] :=
  records_induction _ (by simp [records_nil]) fun text nil later record member => by
    have nonempty := (@fgetsChars_eq_nil_iff 255 (by decide) text).not.mpr nil
    rw [records_of_ne_nil rfl nonempty] at member
    rcases List.mem_cons.mp member with rfl | member
    · exact nonempty
    · exact later record member

theorem records_drop (text : List Char) :
    ∀ index, (records text).drop index = records ((records text).drop index).flatten
  | 0 => by rw [List.drop_zero, records_flatten]
  | index + 1 => by
      have earlier := records_drop text index
      rw [← List.drop_drop, earlier]
      set rest := ((records text).drop index).flatten
      by_cases nil : rest = []
      · simp [nil, records_nil]
      · have nonempty := (@fgetsChars_eq_nil_iff 255 (by decide) rest).not.mpr nil
        rw [records_of_ne_nil rfl nonempty, List.drop_one, List.tail_cons, records_flatten]

/-- Where record `index` starts: the length of the records before it. -/
def recordOffset (file : List Char) (index : Nat) : Nat :=
  ((records file).take index).flatten.length

theorem records_split (file : List Char) (index : Nat) :
    ((records file).take index).flatten ++ ((records file).drop index).flatten = file := by
  rw [← List.flatten_append, List.take_append_drop, records_flatten]

theorem drop_recordOffset (file : List Char) (index : Nat) :
    file.drop (recordOffset file index) = ((records file).drop index).flatten := by
  calc file.drop (recordOffset file index)
      = (((records file).take index).flatten ++ ((records file).drop index).flatten).drop
          ((records file).take index).flatten.length := by rw [records_split]; rfl
    _ = ((records file).drop index).flatten := List.drop_left _ _

theorem recordOffset_zero (file : List Char) : recordOffset file 0 = 0 := by
  simp [recordOffset]

theorem recordOffset_succ (file : List Char) {index : Nat}
    (below : index < (records file).length) :
    recordOffset file (index + 1) = recordOffset file index + (records file)[index].length := by
  rw [recordOffset, recordOffset, List.take_succ, List.getElem?_eq_getElem below]
  simp only [Option.toList_some, List.flatten_append, List.flatten_cons, List.flatten_nil,
    List.append_nil, List.length_append]

theorem recordOffset_le (file : List Char) (index : Nat) :
    recordOffset file index ≤ file.length := by
  calc recordOffset file index
      ≤ (((records file).take index).flatten ++ ((records file).drop index).flatten).length := by
        rw [recordOffset, List.length_append]
        exact Nat.le_add_right _ _
    _ = file.length := by rw [records_split]

theorem fgetsChars_recordOffset (file : List Char) {index : Nat}
    (below : index < (records file).length) :
    (fgetsChars 255 (file.drop (recordOffset file index))).1 = (records file)[index] ∧
      ((fgetsChars 255 (file.drop (recordOffset file index))).2 = true →
        index + 1 = (records file).length) := by
  rw [drop_recordOffset]
  set rest := ((records file).drop index).flatten with restEq
  have suffix := records_drop file index
  rw [← restEq, ← List.getElem_cons_drop _ _ below] at suffix
  have nonempty : (fgetsChars 255 rest).1 ≠ [] := by
    intro empty
    rw [records_eq rest, if_pos empty] at suffix
    exact List.cons_ne_nil _ _ suffix
  rw [records_of_ne_nil rfl nonempty] at suffix
  obtain ⟨head, tail⟩ := List.cons.inj suffix
  refine ⟨head.symm, fun atEnd => ?_⟩
  have whole := fgetsChars_atEnd atEnd
  have later : (records file).drop (index + 1) = [] := by
    rw [← List.drop_drop, ← List.getElem_cons_drop _ _ below, List.drop_one, List.tail_cons,
      tail, whole, List.drop_length, records_nil]
  simp only [List.drop_eq_nil_iff] at later
  omega

theorem fgetsChars_recordOffset_length (file : List Char) :
    (fgetsChars 255 (file.drop (recordOffset file (records file).length))).1 = [] := by
  rw [drop_recordOffset, List.drop_length]
  rfl

theorem fgetsChars_at_record {file : List Char} {index pos : Nat}
    (atRecord : pos = recordOffset file index) (inFile : index < (records file).length) :
    fgetsChars 255 (file.drop pos) = ((records file)[index], (fgetsChars 255 (file.drop pos)).2) ∧
      ((fgetsChars 255 (file.drop pos)).2 = true → index + 1 = (records file).length) ∧
      (records file)[index] ≠ [] ∧ pos + (records file)[index].length = recordOffset file (index + 1) ∧
      recordOffset file (index + 1) ≤ file.length := by
  obtain ⟨read, last⟩ := fgetsChars_recordOffset file inFile
  subst atRecord
  exact ⟨Prod.ext read rfl, last, ne_nil_of_mem_records file _ (List.getElem_mem inFile),
    (recordOffset_succ file inFile).symm, recordOffset_le file _⟩

/-! ## The loop -/

/-- `op = (op + 1) % noffset`. -/
def nextSlot (op : Fin noffset) : Fin noffset :=
  ⟨(op.val + 1) % noffset, Nat.mod_lt _ (by decide)⟩

/-- The loop's variables and the stream: the file position, the end-of-file indicator, `op`,
`foffset`, `foundit`, `lineCount`, and the records printed, each after the mark before it. -/
structure ListingState where
  pos : Nat
  eof : Bool
  op : Fin noffset
  foffset : Fin noffset → Nat
  foundit : Bool
  lineCount : Nat
  printed : List (Char × List Char)

/-- After `fopen` and the initialisation of `op`, `foffset`, `foundit` and `lineCount`. -/
def listingStart : ListingState :=
  ⟨0, false, ⟨0, by decide⟩, fun _ => 0, false, 0, []⟩

/-- One pass of `while (!feof(fp))`, with `cadr` the string `sprintf(CADR, "%05o", ...)`
wrote. Until the record is found, each pass first keeps the position in `foffset`. -/
def listingBody (file cadr : List Char) (state : ListingState) : Flow ListingState :=
  if state.eof then .stop state
  else
    let state := if state.foundit then state
      else { state with foffset := Function.update state.foffset state.op state.pos,
                        op := nextSlot state.op }
    let line := fgetsChars 255 (file.drop state.pos)
    if line.1 = [] then .next { state with eof := true }
    else
      let state := { state with pos := state.pos + line.1.length, eof := line.2 }
      if state.foundit then
        let state := { state with
          printed := state.printed ++
            [(if cString ((line.1.drop startCol).take colLen) = cadr then '>' else ' ',
              cString (line.1.take maxLineLen))],
          lineCount := state.lineCount + 1 }
        if maxLines ≤ state.lineCount then .stop state else .next state
      else if cString ((line.1.drop startCol).take colLen) = cadr then
        .next { state with foundit := true, pos := state.foffset state.op, eof := false }
      else .next state

/-- What `showSourceCode` does for the listing of the program loaded last and the current
effective address: the stores that build `fname`, and the records printed (`none` when `fuel`
passes do not finish the loop). When no file has the name, `fopen` fails and nothing is
printed. -/
structure ListingOutcome where
  stores : List Store
  printed : Option (List (Char × List Char))

def showSourceCode (files : List Char → Option (List Char)) (fuel : Nat) (filename : List Char)
    (address : Nat) : ListingOutcome :=
  ⟨strcpyStores .fname filename ++ strcatStores .fname filename.length ".lst".toList,
    match files (filename ++ ".lst".toList) with
    | none => some []
    | some file => (loop (listingBody file (formatOctal 5 address)) fuel listingStart).map
        ListingState.printed⟩

section

variable {file cadr record : List Char} {atEnd : Bool} {state : ListingState}

theorem listingBody_eof (atEof : state.eof = true) : listingBody file cadr state = .stop state := by
  simp [listingBody, atEof]

theorem listingBody_search_end (notEof : state.eof = false) (searching : state.foundit = false)
    (empty : (fgetsChars 255 (file.drop state.pos)).1 = []) :
    listingBody file cadr state = .next { state with
      foffset := Function.update state.foffset state.op state.pos, op := nextSlot state.op,
      eof := true } := by
  simp [listingBody, notEof, searching, empty]

theorem listingBody_search_skip (notEof : state.eof = false) (searching : state.foundit = false)
    (line : fgetsChars 255 (file.drop state.pos) = (record, atEnd)) (nonempty : record ≠ [])
    (other : cString ((record.drop startCol).take colLen) ≠ cadr) :
    listingBody file cadr state = .next { state with
      foffset := Function.update state.foffset state.op state.pos, op := nextSlot state.op,
      pos := state.pos + record.length, eof := atEnd } := by
  simp [listingBody, notEof, searching, line, nonempty, other]

theorem listingBody_search_found (notEof : state.eof = false) (searching : state.foundit = false)
    (line : fgetsChars 255 (file.drop state.pos) = (record, atEnd)) (nonempty : record ≠ [])
    (found : cString ((record.drop startCol).take colLen) = cadr) :
    listingBody file cadr state = .next { state with
      foffset := Function.update state.foffset state.op state.pos, op := nextSlot state.op,
      pos := Function.update state.foffset state.op state.pos (nextSlot state.op),
      foundit := true, eof := false } := by
  simp [listingBody, notEof, searching, line, nonempty, found]

theorem listingBody_print_end (notEof : state.eof = false) (printing : state.foundit = true)
    (empty : (fgetsChars 255 (file.drop state.pos)).1 = []) :
    listingBody file cadr state = .next { state with eof := true } := by
  simp [listingBody, notEof, printing, empty]

theorem listingBody_print (notEof : state.eof = false) (printing : state.foundit = true)
    (line : fgetsChars 255 (file.drop state.pos) = (record, atEnd)) (nonempty : record ≠ []) :
    listingBody file cadr state =
      let printed := { state with
        pos := state.pos + record.length, eof := atEnd,
        printed := state.printed ++
          [(if cString ((record.drop startCol).take colLen) = cadr then '>' else ' ',
            cString (record.take maxLineLen))],
        lineCount := state.lineCount + 1 }
      if maxLines ≤ state.lineCount + 1 then .stop printed else .next printed := by
  simp [listingBody, notEof, printing, line, nonempty]

end

/-! ## The window -/

/-- A record of the window as the listing's specification states it, with its mark: `>` when its
first five characters are `cadr`. -/
def markRecord (cadr record : List Char) : Char × List Char :=
  (if record.take 5 = cadr then '>' else ' ', record)

/-- The window as the listing's specification states it: the records from nine before the first
one whose first five characters are `cadr`, 23 of them or up to the end of the file, each with
its mark; none when no record matches. -/
def listingWindow (file cadr : List Char) : List (Char × List Char) :=
  match (records file).findIdx? (fun record => record.take 5 == cadr) with
  | none => []
  | some first => (((records file).drop (first - 9)).take 23).map (markRecord cadr)

/-- What `printw("%s", out)` shows of a record: `strncpy(out, s, maxLineLen)` stops at a NUL,
and `out` ends after 79 characters. -/
def shownText (record : List Char) : List Char :=
  (cString record).take maxLineLen

theorem listingWindow_of_findIdx {file cadr : List Char} {first : Nat}
    (found : (records file).findIdx? (fun record => record.take 5 == cadr) = some first) :
    listingWindow file cadr = (((records file).drop (first - 9)).take 23).map (markRecord cadr) := by
  simp [listingWindow, found]

theorem valString_eq_iff {cadr : List Char} (five : cadr.length = colLen) (noNul : '\x00' ∉ cadr)
    (record : List Char) :
    cString ((record.drop startCol).take colLen) = cadr ↔ record.take 5 = cadr := by
  rw [startCol, List.drop_zero, cString_take]
  constructor
  · intro read
    have long : colLen ≤ (cString record).length := by
      have := congrArg List.length read
      rw [List.length_take] at this
      omega
    have whole : cString record ++ record.drop (cString record).length = record :=
      List.prefix_iff_eq_append.mp <| List.takeWhile_prefix _
    calc record.take 5
        = (cString record ++ record.drop (cString record).length).take colLen := by rw [whole]; rfl
      _ = cadr := by rw [List.take_append_of_le_length long, read]
  · intro read
    rw [← cString_take, colLen, read, cString, List.takeWhile_eq_self_iff]
    intro c member
    simp only [decide_eq_true_eq]
    rintro rfl
    exact noNul member

/-! ## The ring of offsets -/

/-- The record whose offset slot `slot` of `foffset` holds after `count` passes: the latest
record below `count` whose number is `slot` modulo `noffset`, or the initial zero, the offset
of record 0, when there is none. -/
def lastInSlot (count slot : Nat) : Nat :=
  if slot < count then count - 1 - (count - 1 - slot) % noffset else 0

theorem lastInSlot_succ {count slot : Nat} (small : slot < noffset) :
    lastInSlot (count + 1) slot = if slot = count % noffset then count else lastInSlot count slot := by
  unfold lastInSlot noffset at *
  split_ifs <;> omega

theorem lastInSlot_next (count : Nat) :
    lastInSlot (count + 1) ((count + 1) % noffset) = count - 9 := by
  unfold lastInSlot noffset
  split_ifs <;> omega

theorem ring_update {file : List Char} {count : Nat} {offsets : Fin noffset → Nat} {op : Fin noffset}
    (ring : ∀ slot, offsets slot = recordOffset file (lastInSlot count slot))
    (atOp : op.val = count % noffset) (slot : Fin noffset) :
    Function.update offsets op (recordOffset file count) slot =
      recordOffset file (lastInSlot (count + 1) slot) := by
  rw [lastInSlot_succ slot.isLt, Function.update_apply]
  by_cases same : slot = op
  · simp [same, atOp]
  · have different : slot.val ≠ count % noffset := fun equal => same (Fin.ext (equal.trans atOp.symm))
    simp [same, different, ring]

theorem nextSlot_val {op : Fin noffset} {count : Nat} (atOp : op.val = count % noffset) :
    (nextSlot op).val = (count + 1) % noffset := by
  simp only [nextSlot, atOp, noffset]
  omega

/-! ## The loop's invariant -/

/-- The loop before the record is found: records below `count` read and none of them
matching, the stream at record `count`, and `foffset` holding offsets by `lastInSlot`. -/
structure Searching (file cadr : List Char) (count : Nat) (state : ListingState) : Prop where
  le : count ≤ (records file).length
  pos : state.pos = recordOffset file count
  eof : state.eof = true → count = (records file).length
  op : state.op.val = count % noffset
  ring : ∀ slot, state.foffset slot = recordOffset file (lastInSlot count slot)
  unmatched : ∀ index, index < count → ∀ (inFile : index < (records file).length),
    (records file)[index].take 5 ≠ cadr
  foundit : state.foundit = false
  lineCount : state.lineCount = 0
  printed : state.printed = []

/-- The loop after the seek: `first` is the matching record, and `count` records of the window
printed, the stream at the next one. -/
structure Printing (file cadr : List Char) (first count : Nat) (state : ListingState) : Prop where
  found : (records file).findIdx? (fun record => record.take 5 == cadr) = some first
  below : count < maxLines
  le : first - 9 + count ≤ (records file).length
  pos : state.pos = recordOffset file (first - 9 + count)
  eof : state.eof = true → first - 9 + count = (records file).length
  foundit : state.foundit = true
  lineCount : state.lineCount = count
  printed : state.printed = ((listingWindow file cadr).take count).map (Prod.map id shownText)

/-- The window printed. -/
def WindowPrinted (file cadr : List Char) (state : ListingState) : Prop :=
  state.printed = (listingWindow file cadr).map (Prod.map id shownText)

def ListingInvariant (file cadr : List Char) (state : ListingState) : Prop :=
  (∃ count, Searching file cadr count state) ∨ (∃ first count, Printing file cadr first count state) ∨
    state.eof = true ∧ WindowPrinted file cadr state

/-- Bounds the passes left: the seek back happens once, and every other pass reads a record or
meets the end of the file. -/
def listingMeasure (file : List Char) (state : ListingState) : Nat :=
  (if state.foundit then 0 else file.length + 2) + (file.length - state.pos) +
    (if state.eof then 0 else 1)

theorem searching_start (file cadr : List Char) : Searching file cadr 0 listingStart :=
  ⟨Nat.zero_le _, (recordOffset_zero file).symm, (fun never => nomatch never), rfl,
    fun _ => by simp [listingStart, lastInSlot, recordOffset_zero], (fun _ never => nomatch never),
    rfl, rfl, rfl⟩

section Passes

variable {file cadr : List Char} {state : ListingState}

theorem listingWindow_of_unmatched
    (unmatched : ∀ index (inFile : index < (records file).length), (records file)[index].take 5 ≠ cadr) :
    listingWindow file cadr = [] := by
  have none : (records file).findIdx? (fun record => record.take 5 == cadr) = none := by
    refine List.findIdx?_eq_none_iff.mpr fun record member => ?_
    obtain ⟨index, inFile, rfl⟩ := List.mem_iff_getElem.mp member
    simpa using unmatched index inFile
  simp [listingWindow, none]

theorem take_listingWindow_of_full {first count : Nat}
    (found : (records file).findIdx? (fun record => record.take 5 == cadr) = some first)
    (full : (records file).length ≤ first - 9 + count ∨ maxLines ≤ count) :
    (listingWindow file cadr).take count = listingWindow file cadr := by
  rw [List.take_of_length_le]
  rw [listingWindow_of_findIdx found, List.length_map, List.length_take, List.length_drop]
  unfold maxLines at full
  omega

theorem printed_succ {first count : Nat} (printing : Printing file cadr first count state)
    (inFile : first - 9 + count < (records file).length) :
    ((listingWindow file cadr).take (count + 1)).map (Prod.map id shownText) =
      state.printed ++ [Prod.map id shownText (markRecord cadr (records file)[first - 9 + count])] := by
  have below := printing.below
  unfold maxLines at below
  rw [printing.printed, List.take_succ, List.map_append, listingWindow_of_findIdx printing.found]
  simp [List.getElem?_take, List.getElem?_drop, below, inFile]

theorem windowPrinted_of_full {first count : Nat} (printing : Printing file cadr first count state)
    (atEnd : first - 9 + count = (records file).length) : WindowPrinted file cadr state := by
  rw [WindowPrinted, printing.printed, take_listingWindow_of_full printing.found (.inl atEnd.ge)]

theorem seek_offset_nine_back {count : Nat} (searching : Searching file cadr count state) :
    Function.update state.foffset state.op state.pos (nextSlot state.op) =
      recordOffset file (count - 9) := by
  rw [searching.pos, ring_update searching.ring searching.op, nextSlot_val searching.op,
    lastInSlot_next]

theorem findIdx?_of_searching {count : Nat} (searching : Searching file cadr count state)
    (inFile : count < (records file).length) (matched : (records file)[count].take 5 = cadr) :
    (records file).findIdx? (fun record => record.take 5 == cadr) = some count :=
  List.findIdx?_eq_some_iff_getElem.mpr ⟨inFile, by simpa using matched,
    fun index before => by simpa using searching.unmatched index before _⟩

theorem printedLine_eq (five : cadr.length = colLen) (noNul : '\x00' ∉ cadr) (record : List Char) :
    (if cString ((record.drop startCol).take colLen) = cadr then '>' else ' ',
        cString (record.take maxLineLen)) = Prod.map id shownText (markRecord cadr record) := by
  simp only [valString_eq_iff five noNul]
  simp only [markRecord, shownText, cString_take, Prod.map_apply, id]

theorem searching_pass (five : cadr.length = colLen) (noNul : '\x00' ∉ cadr) {count : Nat}
    (searching : Searching file cadr count state) :
    (∃ next, listingBody file cadr state = .next next ∧ ListingInvariant file cadr next ∧
        listingMeasure file next < listingMeasure file state) ∨
      ∃ final, listingBody file cadr state = .stop final ∧ WindowPrinted file cadr final := by
  by_cases inFile : count < (records file).length
  case neg =>
    have atEnd : count = (records file).length := by have := searching.le; omega
    have nothing : listingWindow file cadr = [] :=
      listingWindow_of_unmatched fun index inFile' => searching.unmatched index (atEnd ▸ inFile') inFile'
    have printed : WindowPrinted file cadr state := by simp [WindowPrinted, nothing, searching.printed]
    cases notEof : state.eof
    case true => exact .inr ⟨state, listingBody_eof notEof, printed⟩
    case false =>
      have empty : (fgetsChars 255 (file.drop state.pos)).1 = [] := by
        rw [searching.pos, atEnd]
        exact fgetsChars_recordOffset_length file
      refine .inl ⟨_, listingBody_search_end notEof searching.foundit empty, .inr (.inr ⟨rfl, printed⟩), ?_⟩
      simp only [listingMeasure, searching.foundit, notEof, Bool.false_eq_true, if_false, if_true]
      omega
  case pos =>
    have notEof : state.eof = false := by
      cases eof : state.eof with
      | false => rfl
      | true => have := searching.eof eof; omega
    obtain ⟨line, last, nonempty, advanced, bounded⟩ := fgetsChars_at_record searching.pos inFile
    by_cases matched : (records file)[count].take 5 = cadr
    case pos =>
      refine .inl ⟨_, listingBody_search_found notEof searching.foundit line nonempty
        ((valString_eq_iff five noNul _).mpr matched), .inr (.inl ⟨count, 0, ?_⟩), ?_⟩
      · exact ⟨findIdx?_of_searching searching inFile matched, by decide, by omega,
          seek_offset_nine_back searching, (fun never => nomatch never), rfl, searching.lineCount,
          by simp [searching.printed]⟩
      · simp only [listingMeasure, searching.foundit, notEof, Bool.false_eq_true, if_false, if_true]
        omega
    case neg =>
      refine .inl ⟨_, listingBody_search_skip notEof searching.foundit line nonempty
        (mt (valString_eq_iff five noNul _).mp matched), .inl ⟨count + 1, ?_⟩, ?_⟩
      · refine ⟨inFile, advanced, last, nextSlot_val searching.op,
          fun slot => ?_, fun index before inFile' => ?_, searching.foundit, searching.lineCount,
          searching.printed⟩
        · rw [searching.pos]
          exact ring_update searching.ring searching.op slot
        · rcases Nat.lt_succ_iff_lt_or_eq.mp before with earlier | rfl
          · exact searching.unmatched index earlier inFile'
          · exact matched
      · have longer := List.length_pos.mpr nonempty
        simp only [listingMeasure, searching.foundit, notEof, Bool.false_eq_true, if_false]
        split <;> omega

theorem printing_pass (five : cadr.length = colLen) (noNul : '\x00' ∉ cadr) {first count : Nat}
    (printing : Printing file cadr first count state) :
    (∃ next, listingBody file cadr state = .next next ∧ ListingInvariant file cadr next ∧
        listingMeasure file next < listingMeasure file state) ∨
      ∃ final, listingBody file cadr state = .stop final ∧ WindowPrinted file cadr final := by
  cases notEof : state.eof
  case true =>
    exact .inr ⟨state, listingBody_eof notEof, windowPrinted_of_full printing (printing.eof notEof)⟩
  case false =>
    by_cases inFile : first - 9 + count < (records file).length
    case neg =>
      have atEnd : first - 9 + count = (records file).length := by have := printing.le; omega
      have empty : (fgetsChars 255 (file.drop state.pos)).1 = [] := by
        rw [printing.pos, atEnd]
        exact fgetsChars_recordOffset_length file
      have printed := windowPrinted_of_full printing atEnd
      refine .inl ⟨_, listingBody_print_end notEof printing.foundit empty, .inr (.inr ⟨rfl, printed⟩), ?_⟩
      simp [listingMeasure, printing.foundit, notEof]
    case pos =>
      obtain ⟨line, last, nonempty, advanced, bounded⟩ := fgetsChars_at_record printing.pos inFile
      have appended := printed_succ printing inFile
      rw [listingBody_print notEof printing.foundit line nonempty, printedLine_eq five noNul,
        printing.lineCount]
      split_ifs with full
      case pos =>
        refine .inr ⟨_, rfl, ?_⟩
        rw [WindowPrinted, ← appended, take_listingWindow_of_full printing.found (.inr full)]
      case neg =>
        refine .inl ⟨_, rfl, .inr (.inl ⟨first, count + 1, printing.found, by omega, by omega,
          advanced, last, printing.foundit, rfl, appended.symm⟩), ?_⟩
        have longer := List.length_pos.mpr nonempty
        simp only [listingMeasure, printing.foundit, notEof, Bool.false_eq_true, if_false, if_true]
        split <;> omega

theorem loop_listingBody (five : cadr.length = colLen) (noNul : '\x00' ∉ cadr) {fuel : Nat}
    (enough : 2 * file.length + 3 < fuel) :
    (loop (listingBody file cadr) fuel listingStart).map ListingState.printed =
      some ((listingWindow file cadr).map (Prod.map id shownText)) := by
  have pass : ∀ state, ListingInvariant file cadr state →
      (∃ next, listingBody file cadr state = .next next ∧ ListingInvariant file cadr next ∧
          listingMeasure file next < listingMeasure file state) ∨
        ∃ final, listingBody file cadr state = .stop final ∧ WindowPrinted file cadr final := by
    rintro state (⟨count, searching⟩ | ⟨first, count, printing⟩ | ⟨atEof, printed⟩)
    · exact searching_pass five noNul searching
    · exact printing_pass five noNul printing
    · exact .inr ⟨state, listingBody_eof atEof, printed⟩
  obtain ⟨final, ends, printed⟩ := loop_of_variant _ _ _ pass fuel listingStart
    (.inl ⟨0, searching_start file cadr⟩) (by simp [listingMeasure, listingStart]; omega)
  rw [ends]
  exact congrArg some printed

end Passes

theorem showSourceCode_printed {files : List Char → Option (List Char)} {filename file : List Char}
    (opened : files (filename ++ ".lst".toList) = some file) {address : Nat}
    (small : address < 0o100000) {fuel : Nat} (enough : 2 * file.length + 3 < fuel) :
    (showSourceCode files fuel filename address).printed =
      some ((listingWindow file (formatOctal 5 address)).map (Prod.map id shownText)) := by
  have five : (formatOctal 5 address).length = colLen :=
    @formatOctal_length address 4 (by simpa using small)
  have noNul : '\x00' ∉ formatOctal 5 address := fun nul =>
    absurd (isBaseDigit_of_mem_formatOctal 5 address _ nul) (by decide)
  simp only [showSourceCode, opened]
  exact loop_listingBody five noNul enough

/-- A listing of fourteen one-word records, the one for address 0o14 thirteenth among them. -/
def countingListing : List Char :=
  "00000\n00001\n00002\n00003\n00004\n00005\n00006\n00007\n00010\n00011\n00012\n00013\n00014\n00015\n".toList

theorem showSourceCode_printed_sample :
    (fun _ => some countingListing : List Char → Option (List Char)) ("p".toList ++ ".lst".toList) =
        some countingListing ∧ 0o14 < 0o100000 ∧ 2 * countingListing.length + 3 < 200 ∧
      (showSourceCode (fun _ => some countingListing) 200 "p".toList 0o14).printed =
        some ((listingWindow countingListing (formatOctal 5 0o14)).map (Prod.map id shownText)) :=
  ⟨rfl, by decide, by decide,
    @showSourceCode_printed (fun _ => some countingListing) "p".toList countingListing rfl 0o14 (by decide) 200
      (by decide)⟩

example :
    (showSourceCode (fun _ => some countingListing) 200 "p".toList 0o14).printed.map (List.map Prod.fst) =
      some [' ', ' ', ' ', ' ', ' ', ' ', ' ', ' ', ' ', '>', ' '] := by
  have cadr : formatOctal 5 0o14 = ['0', '0', '0', '1', '4'] := by
    simp [formatOctal, octalDigits, digitChar]
  simp only [showSourceCode, cadr]
  rfl

theorem showSourceCode_nul_cuts_record :
    (showSourceCode (fun _ => some ['0', '0', '0', '0', '0', '\x00', '\n']) 8 [] 0).printed =
        some [('>', ['0', '0', '0', '0', '0'])] ∧
      (listingWindow ['0', '0', '0', '0', '0', '\x00', '\n'] (formatOctal 5 0)).map
          (Prod.map id (List.take 79)) = [('>', ['0', '0', '0', '0', '0', '\x00', '\n'])] := by
  have zero : formatOctal 5 0 = ['0', '0', '0', '0', '0'] := by
    simp [formatOctal, octalDigits, digitChar]
  simp only [showSourceCode, zero]
  decide

end AgcBlock1
