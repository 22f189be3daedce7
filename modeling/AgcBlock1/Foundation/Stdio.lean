import AgcBlock1.Foundation.CLibrary

/-! The two stream reads of the front panel, over the unread rest of a file: `fscanf` with
the format `"%o %o"`, as the C standard and glibc define its directives, and `fgets`. -/

namespace AgcBlock1

/-! ## `scanf`'s `%o` -/

/-- How one `%o` directive ends. -/
inductive Conversion where
  /-- The input ended before the directive read anything but white space. -/
  | inputFailure
  /-- No octal digit where one was due; what is left unread. -/
  | matchingFailure (rest : List Char)
  | converted (value : BitVec 32) (rest : List Char)
  deriving DecidableEq, Repr

/-- One `%o` directive: skip white space, then read an optional sign and the longest run of
octal digits. Without digits the directive fails to match, and a sign it read stays read. -/
def scanOctal (input : List Char) : Conversion :=
  match input.dropWhile isSpace with
  | [] => .inputFailure
  | c :: more =>
      let (negative, unsigned) := takeSign (c :: more)
      match unsigned.takeWhile (isBaseDigit 8) with
      | [] => .matchingFailure unsigned
      | digits => .converted (unsignedConversion negative (digitsValue 8 digits))
          (unsigned.dropWhile (isBaseDigit 8))

/-- The value C's `EOF` macro has in glibc. -/
def EOF : Int := -1

/-- One call `fscanf(fp, "%o %o", &addr, &data)`: what it returns, the two variables after
it, and the unread rest of the file. -/
structure PairScan where
  count : Int
  addr : BitVec 32
  data : BitVec 32
  rest : List Char
  deriving DecidableEq, Repr

/-- The format is `%o`, a white-space directive, and `%o`. A call returns `EOF` when the
input fails before the first conversion, and otherwise the number of conversions stored; a
variable whose conversion did not happen keeps its value. -/
def fscanfOctalPair (input : List Char) (addr data : BitVec 32) : PairScan :=
  match scanOctal input with
  | .inputFailure => ⟨EOF, addr, data, []⟩
  | .matchingFailure rest => ⟨0, addr, data, rest⟩
  | .converted first rest =>
      match scanOctal (rest.dropWhile isSpace) with
      | .inputFailure => ⟨1, first, data, []⟩
      | .matchingFailure rest => ⟨1, first, data, rest⟩
      | .converted second rest => ⟨2, first, second, rest⟩

section

variable {blank digits rest : List Char}

private theorem dropWhile_of_takeWhile_eq_nil {p : Char → Bool} {text : List Char}
    (none : text.takeWhile p = []) : text.dropWhile p = text := by
  cases text with
  | nil => rfl
  | cons c more =>
      by_cases holds : p c
      · simp [List.takeWhile_cons, holds] at none
      · simp [List.dropWhile_cons, holds]

theorem dropWhile_isSpace_blank_append (spaces : ∀ c ∈ blank, isSpace c)
    (octal : ∀ c ∈ digits, isBaseDigit 8 c) (nonempty : digits ≠ []) :
    (blank ++ (digits ++ rest)).dropWhile isSpace = digits ++ rest := by
  obtain ⟨first, more, rfl⟩ := List.exists_cons_of_ne_nil nonempty
  rw [List.dropWhile_append_of_pos spaces, List.cons_append, List.dropWhile_cons_of_neg]
  simp [not_isSpace_of_isBaseDigit (octal first (List.mem_cons_self _ _))]

theorem scanOctal_numeral (spaces : ∀ c ∈ blank, isSpace c)
    (octal : ∀ c ∈ digits, isBaseDigit 8 c) (nonempty : digits ≠ [])
    (ends : rest.takeWhile (isBaseDigit 8) = []) :
    scanOctal (blank ++ (digits ++ rest)) =
      .converted (unsignedConversion false (digitsValue 8 digits)) rest := by
  obtain ⟨first, more, rfl⟩ := List.exists_cons_of_ne_nil nonempty
  have unsigned := takeSign_of_isBaseDigit (octal first (List.mem_cons_self _ _)) (more ++ rest)
  have taken : (first :: (more ++ rest)).takeWhile (isBaseDigit 8) = first :: more := by
    rw [← List.cons_append, List.takeWhile_append_of_pos octal, ends, List.append_nil]
  have dropped : (first :: (more ++ rest)).dropWhile (isBaseDigit 8) = rest := by
    rw [← List.cons_append, List.dropWhile_append_of_pos octal,
      dropWhile_of_takeWhile_eq_nil ends]
  rw [scanOctal, dropWhile_isSpace_blank_append spaces octal nonempty]
  simp only [List.cons_append, unsigned, taken, dropped]

theorem scanOctal_blank (spaces : ∀ c ∈ blank, isSpace c) :
    scanOctal blank = .inputFailure := by
  simp [scanOctal, List.dropWhile_eq_nil_iff.mpr spaces]

theorem scanOctal_unmatched {input : List Char} {c : Char} {more : List Char}
    (first : input.dropWhile isSpace = c :: more) (notDigit : isBaseDigit 8 c = false)
    (notSign : c ≠ '-' ∧ c ≠ '+') :
    scanOctal input = .matchingFailure (c :: more) := by
  have unsigned : takeSign (c :: more) = (false, c :: more) := by
    unfold takeSign
    split
    · exact absurd (List.cons.inj ‹_›).1 notSign.1
    · exact absurd (List.cons.inj ‹_›).1 notSign.2
    · rfl
  simp [scanOctal, first, unsigned, List.takeWhile_cons, notDigit]

end

/-! ## `fgets` -/

/-- What `fgets` reads into a buffer with `room + 1` characters: up to `room` characters,
ending after the first newline; and whether it ran into the end of the file, which sets the
stream's end-of-file indicator. -/
def fgetsChars : (room : Nat) → List Char → List Char × Bool
  | 0, _ => ([], false)
  | _ + 1, [] => ([], true)
  | room + 1, c :: rest =>
      if c = '\n' then ([c], false)
      else ((c :: (fgetsChars room rest).1), (fgetsChars room rest).2)

theorem fgetsChars_begins_text :
    ∀ (room : Nat) (text : List Char), (fgetsChars room text).1 <+: text
  | 0, _ => List.nil_prefix
  | _ + 1, [] => List.nil_prefix
  | room + 1, c :: rest => by
      by_cases newline : c = '\n'
      · simp [fgetsChars, newline]
      · simpa [fgetsChars, newline] using fgetsChars_begins_text room rest

theorem fgetsChars_length_le :
    ∀ (room : Nat) (text : List Char), (fgetsChars room text).1.length ≤ room
  | 0, _ => le_refl 0
  | _ + 1, [] => Nat.zero_le _
  | room + 1, c :: rest => by
      by_cases newline : c = '\n'
      · simp [fgetsChars, newline]
      · simpa [fgetsChars, newline] using fgetsChars_length_le room rest

theorem fgetsChars_atEnd :
    ∀ {room : Nat} {text : List Char}, (fgetsChars room text).2 = true →
      (fgetsChars room text).1 = text
  | 0, _, atEnd => by simp [fgetsChars] at atEnd
  | _ + 1, [], _ => rfl
  | room + 1, c :: rest, atEnd => by
      by_cases newline : c = '\n'
      · simp [fgetsChars, newline] at atEnd
      · simp only [fgetsChars, newline, if_false] at atEnd ⊢
        rw [fgetsChars_atEnd atEnd]

theorem fgetsChars_eq_nil_iff {room : Nat} (positive : 0 < room) (text : List Char) :
    (fgetsChars room text).1 = [] ↔ text = [] := by
  obtain ⟨room, rfl⟩ := Nat.exists_eq_add_of_lt positive
  cases text with
  | nil => simp [fgetsChars]
  | cons c rest => by_cases newline : c = '\n' <;> simp [fgetsChars, newline]

end AgcBlock1
