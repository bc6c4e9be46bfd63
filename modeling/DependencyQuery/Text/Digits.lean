import DependencyQuery.Text.Blank

/-!
# Decimal digits

A decimal digit is a character of general category `Nd`.  These come in blocks of ten consecutive
characters, from a zero to a nine, so a list of the zeros holds them all: `decimalZeros`.

* `isDecimalDigit` — membership in one of the blocks;
* `digitValue` — the digit's value, its distance from the zero of its block;
* `decimalValue` — a run of digits read in base ten, digits of different scripts mixed freely;
* `integer?` — a written integer: a sign or none, then digits, with single underscores allowed
  between them and blanks around the whole.

The digits of a number are read back as that number: `decimalValue_toDigits`.
-/

namespace DependencyQuery.Text

/-- The zero of every block of decimal digits. -/
def decimalZeros : List Nat := [
    0x30, 0x660, 0x6F0, 0x7C0, 0x966, 0x9E6, 0xA66, 0xAE6, 0xB66, 0xBE6, 0xC66, 0xCE6, 0xD66,
    0xDE6, 0xE50, 0xED0, 0xF20, 0x1040, 0x1090, 0x17E0, 0x1810, 0x1946, 0x19D0, 0x1A80, 0x1A90,
    0x1B50, 0x1BB0, 0x1C40, 0x1C50, 0xA620, 0xA8D0, 0xA900, 0xA9D0, 0xA9F0, 0xAA50, 0xABF0,
    0xFF10, 0x104A0, 0x10D30, 0x11066, 0x110F0, 0x11136, 0x111D0, 0x112F0, 0x11450, 0x114D0,
    0x11650, 0x116C0, 0x11730, 0x118E0, 0x11950, 0x11C50, 0x11D50, 0x11DA0, 0x16A60, 0x16AC0,
    0x16B50, 0x1D7CE, 0x1D7D8, 0x1D7E2, 0x1D7EC, 0x1D7F6, 0x1E140, 0x1E2F0, 0x1E950, 0x1FBF0]

/-- The block of ten that `c` lies in, named by its zero. -/
def digitBlock? (c : Char) : Option Nat :=
  decimalZeros.find? fun first => first ≤ c.toNat && c.toNat < first + 10

/-- Whether `c` is a decimal digit of some script. -/
def isDecimalDigit (c : Char) : Bool := (digitBlock? c).isSome

/-- The value of a decimal digit; a character that is none counts as zero. -/
def digitValue (c : Char) : Nat :=
  match digitBlock? c with
  | some first => c.toNat - first
  | none => 0

/-- A run of digits read in base ten. -/
def decimalValue (digits : List Char) : Nat :=
  digits.foldl (fun total c => 10 * total + digitValue c) 0

/-! ### Reading digits back -/

/-- The usual digits belong to the block that begins at zero. -/
theorem digitBlock?_of_isDigit {c : Char} (h : c.isDigit = true) : digitBlock? c = some 0x30 := by
  rw [Char.isDigit_iff_toNat] at h
  have : 0x30 ≤ c.toNat ∧ c.toNat < 0x30 + 10 := ⟨h.1, Nat.lt_succ_of_le h.2⟩
  rw [digitBlock?, decimalZeros, List.find?_cons_of_pos]
  simpa using this

/-- The usual digits are decimal digits. -/
theorem isDecimalDigit_of_isDigit {c : Char} (h : c.isDigit = true) : isDecimalDigit c = true := by
  rw [isDecimalDigit, digitBlock?_of_isDigit h, Option.isSome_some]

/-- What a number is written with are decimal digits. -/
theorem isDecimalDigit_of_mem_toDigits {n : Nat} {c : Char} (h : c ∈ Nat.toDigits 10 n) :
    isDecimalDigit c = true :=
  isDecimalDigit_of_isDigit (Nat.isDigit_of_mem_toDigits (by decide) (by decide) h)

/-- The digits that a number is written in are worth that number. -/
theorem decimalValue_toDigits (n : Nat) : decimalValue (Nat.toDigits 10 n) = n := by
  -- both readings go through the digits with the same step
  have hfold : ∀ (digits : List Char) (total : Nat), (∀ c ∈ digits, c.isDigit = true) →
      digits.foldl (fun total c => 10 * total + digitValue c) total =
        Nat.ofDigitChars 10 digits total := by
    intro digits
    induction digits with
    | nil => simp
    | cons c digits ih =>
      intro total h
      rw [List.forall_mem_cons] at h
      have hvalue : digitValue c = c.toNat - '0'.toNat := by
        rw [digitValue, digitBlock?_of_isDigit h.1]
        rfl
      rw [List.foldl_cons, Nat.ofDigitChars_cons, hvalue]
      exact ih _ h.2
  calc decimalValue (Nat.toDigits 10 n)
      = Nat.ofDigitChars 10 (Nat.toDigits 10 n) 0 :=
        hfold _ 0 fun c hc => Nat.isDigit_of_mem_toDigits (by decide) (by decide) hc
    _ = n := Nat.ofDigitChars_ten_toDigits

/-! ### Integers -/

/-- The digits of a run in which single underscores may stand between digits. -/
def ungroupedDigits? : List Char → Option (List Char)
  | [] => none
  | [c] => if isDecimalDigit c then some [c] else none
  | c :: '_' :: rest =>
    if isDecimalDigit c then (ungroupedDigits? rest).map (c :: ·) else none
  | c :: rest => if isDecimalDigit c then (ungroupedDigits? rest).map (c :: ·) else none

/-- The integer that the characters write, if they write one. -/
def integer? (s : List Char) : Option Int :=
  match trim s with
  | '-' :: digits => (ungroupedDigits? digits).map fun ds => -(decimalValue ds : Int)
  | '+' :: digits => (ungroupedDigits? digits).map fun ds => (decimalValue ds : Int)
  | digits => (ungroupedDigits? digits).map fun ds => (decimalValue ds : Int)

end DependencyQuery.Text
