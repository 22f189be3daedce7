import Mathlib.Tactic.IntervalCases

/-! The parts of the C library that the simulator's front panel relies on: the C-locale
character classes, the subject sequence that `strtol` and `scanf`'s integer conversions
share, and `printf`'s `%o` conversion. Values follow glibc on an LP64 host, where `long`
has 64 bits and `int` and `unsigned` have 32. -/

namespace AgcBlock1

/-! ## Character classes -/

/-- `isspace` in the C locale. -/
def isSpace (c : Char) : Bool :=
  c == ' ' || c == '\t' || c == '\n' || c == '\x0B' || c == '\x0C' || c == '\r'

/-- `isprint` in the C locale: the characters from space to tilde. -/
def isPrint (c : Char) : Bool :=
  0x20 ≤ c.toNat && c.toNat ≤ 0x7E

/-- A digit of `base`, for the bases up to ten that the front panel reads. -/
def isBaseDigit (base : Nat) (c : Char) : Bool :=
  '0'.toNat ≤ c.toNat && c.toNat < '0'.toNat + base

def digitValue (c : Char) : Nat :=
  c.toNat - '0'.toNat

def digitChar (digit : Nat) : Char :=
  Char.ofNat ('0'.toNat + digit)

theorem digitChar_toNat {digit : Nat} (small : digit < 10) :
    (digitChar digit).toNat = '0'.toNat + digit := by
  interval_cases digit <;> rfl

theorem isBaseDigit_digitChar {base digit : Nat} (small : digit < base)
    (decimal : base ≤ 10) : isBaseDigit base (digitChar digit) := by
  simp [isBaseDigit, digitChar_toNat (show digit < 10 by omega), small]

@[simp] theorem digitValue_digitChar {digit : Nat} (small : digit < 10) :
    digitValue (digitChar digit) = digit := by
  simp [digitValue, digitChar_toNat small]

theorem toNat_le_of_isSpace {c : Char} (space : isSpace c) : c.toNat ≤ ' '.toNat := by
  simp only [isSpace, Bool.or_eq_true, beq_iff_eq] at space
  rcases space with (((((equal | equal) | equal) | equal) | equal) | equal) <;>
    subst equal <;> decide

theorem not_isSpace_of_isBaseDigit {base : Nat} {c : Char}
    (digit : isBaseDigit base c) : isSpace c = false := by
  refine Bool.eq_false_iff.mpr fun space => ?_
  have low := toNat_le_of_isSpace space
  simp only [isBaseDigit, Bool.and_eq_true, decide_eq_true_eq] at digit
  have : ' '.toNat < '0'.toNat := by decide
  omega

/-! ## Digit strings -/

/-- The value of a digit string read most significant digit first, as the conversion
functions accumulate it. -/
def digitsValue (base : Nat) (digits : List Char) : Nat :=
  digits.foldl (fun value c => base * value + digitValue c) 0

theorem digitsValue_append_singleton (base : Nat) (digits : List Char) (c : Char) :
    digitsValue base (digits ++ [c]) = base * digitsValue base digits + digitValue c := by
  simp [digitsValue, List.foldl_append]

theorem digitsValue_zeros_append (base count : Nat) (digits : List Char) :
    digitsValue base (List.replicate count '0' ++ digits) = digitsValue base digits := by
  have zeros : ∀ count, (List.replicate count '0').foldl
      (fun value c => base * value + digitValue c) 0 = 0 := by
    intro count
    induction count with
    | zero => rfl
    | succ count induction =>
        rw [List.replicate_succ', List.foldl_append, induction]
        rfl
  simp only [digitsValue, List.foldl_append, zeros]

/-! ## Integer conversions -/

/-- An optional sign: whether it was a minus, and the text after it. -/
def takeSign : List Char → Bool × List Char
  | '-' :: rest => (true, rest)
  | '+' :: rest => (false, rest)
  | input => (false, input)

theorem takeSign_of_isBaseDigit {base : Nat} {c : Char} (digit : isBaseDigit base c)
    (rest : List Char) : takeSign (c :: rest) = (false, c :: rest) := by
  simp only [isBaseDigit, Bool.and_eq_true, decide_eq_true_eq] at digit
  unfold takeSign
  split
  · rename_i equal
    cases (List.cons.inj equal).1
    exact absurd digit.1 (by decide)
  · rename_i equal
    cases (List.cons.inj equal).1
    exact absurd digit.1 (by decide)
  · rfl

/-- `strtol(input, 0, base)`: white space, an optional sign and the longest run of digits,
negated after a minus sign and clamped to the range of `long` as glibc does on overflow;
`0` when there are no digits. -/
def strtol (input : List Char) (base : Nat) : Int :=
  let (negative, unsigned) := takeSign (input.dropWhile isSpace)
  let magnitude : Int := digitsValue base (unsigned.takeWhile (isBaseDigit base))
  max (-2 ^ 63) (min (2 ^ 63 - 1) (if negative then -magnitude else magnitude))

/-- glibc's `atoi`, which is `(int) strtol(input, NULL, 10)`; the cast keeps the low 32 bits. -/
def atoi (input : List Char) : Int :=
  (BitVec.ofInt 32 (strtol input 10)).toInt

/-- The `unsigned` that `scanf`'s `%o` stores. glibc converts the digits with `strtoul` into
an `unsigned long`, negated after a minus sign and saturating at `ULONG_MAX`, and the store
keeps its low 32 bits. -/
def unsignedConversion (negative : Bool) (magnitude : Nat) : BitVec 32 :=
  let wide : BitVec 64 :=
    if magnitude < 2 ^ 64 then
      if negative then -BitVec.ofNat 64 magnitude else BitVec.ofNat 64 magnitude
    else BitVec.allOnes 64
  wide.setWidth 32

@[simp] theorem unsignedConversion_toNat (word : BitVec 32) :
    unsignedConversion false word.toNat = word := by
  have small := word.isLt
  apply BitVec.eq_of_toNat_eq
  simp only [unsignedConversion, if_pos (show word.toNat < 2 ^ 64 by omega), Bool.false_eq_true,
    if_false, BitVec.toNat_setWidth, BitVec.toNat_ofNat]
  omega

/-! ## `printf`'s `%o` -/

/-- The digits `%o` writes for `value`, most significant first; zero is written `0`. -/
def octalDigits (value : Nat) : List Char :=
  if value < 8 then [digitChar value]
  else octalDigits (value / 8) ++ [digitChar (value % 8)]
termination_by value
decreasing_by omega

/-- `%0<width>o`: the octal digits, padded on the left with zeros to `width` characters. -/
def formatOctal (width value : Nat) : List Char :=
  List.replicate (width - (octalDigits value).length) '0' ++ octalDigits value

theorem octalDigits_ne_nil (value : Nat) : octalDigits value ≠ [] := by
  rw [octalDigits]
  split <;> simp

theorem isBaseDigit_of_mem_octalDigits (value : Nat) :
    ∀ c ∈ octalDigits value, isBaseDigit 8 c := by
  induction value using octalDigits.induct with
  | case1 value small =>
      rw [octalDigits, if_pos small]
      simpa using isBaseDigit_digitChar small (by omega)
  | case2 value large induction =>
      rw [octalDigits, if_neg large]
      simpa [or_imp, forall_and] using
        ⟨induction, isBaseDigit_digitChar (Nat.mod_lt value (by omega)) (by omega)⟩

@[simp] theorem digitsValue_octalDigits (value : Nat) :
    digitsValue 8 (octalDigits value) = value := by
  induction value using octalDigits.induct with
  | case1 value small =>
      rw [octalDigits, if_pos small]
      simp [digitsValue, digitValue_digitChar (show value < 10 by omega)]
  | case2 value large induction =>
      rw [octalDigits, if_neg large, digitsValue_append_singleton, induction,
        digitValue_digitChar (show value % 8 < 10 by omega)]
      omega

theorem isBaseDigit_of_mem_formatOctal (width value : Nat) :
    ∀ c ∈ formatOctal width value, isBaseDigit 8 c := by
  intro c member
  rcases List.mem_append.mp member with padding | digit
  · rw [List.eq_of_mem_replicate padding]
    rfl
  · exact isBaseDigit_of_mem_octalDigits value c digit

theorem octalDigits_length_le {value digits : Nat} (small : value < 8 ^ (digits + 1)) :
    (octalDigits value).length ≤ digits + 1 := by
  induction value using octalDigits.induct generalizing digits with
  | case1 value below => simp [octalDigits, below]
  | case2 value large induction =>
      cases digits with
      | zero => simp at small; omega
      | succ digits =>
          rw [Nat.pow_succ, Nat.mul_comm] at small
          have shorter := induction (Nat.div_lt_of_lt_mul small)
          rw [octalDigits, if_neg large, List.length_append, List.length_singleton]
          omega

theorem formatOctal_length {value digits : Nat} (small : value < 8 ^ (digits + 1)) :
    (formatOctal (digits + 1) value).length = digits + 1 := by
  have fits := octalDigits_length_le small
  simp only [formatOctal, List.length_append, List.length_replicate]
  omega

theorem formatOctal_ne_nil (width value : Nat) : formatOctal width value ≠ [] := by
  simp [formatOctal, octalDigits_ne_nil]

@[simp] theorem digitsValue_formatOctal (width value : Nat) :
    digitsValue 8 (formatOctal width value) = value := by
  rw [formatOctal, digitsValue_zeros_append, digitsValue_octalDigits]

end AgcBlock1
