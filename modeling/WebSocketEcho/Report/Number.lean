import WebSocketEcho.Report.Cause

/-!
# Numbers in a report

JSON numbers byte by byte.  A number without fraction and exponent is an integer as long as it fits
64 bits, and all others are floating-point numbers: digits beyond 64 bits are counted and then
ignored, and the power of ten is applied in floating point.  `-0` counts as a floating-point number
too.
-/

namespace WebSocketEcho.Report

inductive Number where
  | unsigned (n : Nat)
  | negative (n : Int)
  | float (bits : UInt64)
deriving DecidableEq, Repr

namespace Number

/-- The largest unsigned number. -/
def maxUnsigned : Nat := 0xFFFFFFFFFFFFFFFF

/-- The largest exponent that is read. -/
def maxExponent : Nat := 0x7FFFFFFF

/-- Where a number stands between two bytes. -/
inductive Phase where
  | minus
  | zero
  | integer (significand : Nat)
  /-- In digits that no longer fit; they raise the exponent. -/
  | long (significand exponent : Nat)
  | point (significand : Nat) (exponent : Int)
  | fraction (significand : Nat) (exponent : Int)
  /-- In digits of a fraction that no longer fit. -/
  | longFraction (significand : Nat) (exponent : Int)
  /-- After the letter of the exponent. -/
  | exponentStart (significand : Nat) (exponent : Int)
  /-- After the sign of the exponent. -/
  | exponentSign (significand : Nat) (exponent : Int) (down : Bool)
  | exponent (significand : Nat) (exponent : Int) (down : Bool) (stated : Nat)
  /-- In an exponent so large that the number is zero. -/
  | vanished
deriving DecidableEq, Repr

structure Partial where
  isNegative : Bool
  phase : Phase
deriving DecidableEq, Repr

/-! ## Values -/

/-- The power of ten that is used for an exponent up to 308. -/
def powerOfTen (e : Nat) : Float := Float.ofScientific 1 false e

/-- Divides by a power of ten, 308 places at a time. -/
def divide (f : Float) (e : Nat) : Float :=
  if e ≤ 308 then f / powerOfTen e
  else if f == 0 then f
  else divide (f / powerOfTen 308) (e - 308)
termination_by e
decreasing_by omega

/-- A significand with a power of ten as a floating-point number, unless it is out of range. -/
def toFloat? (significand : Nat) (exponent : Int) : Option Float :=
  let f := (UInt64.ofNat significand).toFloat
  match exponent with
  | .negSucc e => some (divide f (e + 1))
  | .ofNat e =>
    if e ≤ 308 then
      let f := f * powerOfTen e
      if f.isInf then none else some f
    else if f == 0 then some f
    else none

/-- Keeps an exponent within 32 bits. -/
def clampExponent (e : Int) : Int :=
  if e < -0x80000000 then -0x80000000 else if 0x7FFFFFFF < e then 0x7FFFFFFF else e

/-- A floating-point number with its sign. -/
def ofFloat (isNegative : Bool) (f : Float) : Number :=
  .float (if isNegative then -f else f).toBits

/-- The value of a significand with a power of ten. -/
def ofParts (isNegative : Bool) (significand : Nat) (exponent : Int) : Except Cause Number :=
  match toFloat? significand exponent with
  | some f => .ok (ofFloat isNegative f)
  | none => .error .numberOutOfRange

/-- The value of a number without fraction and exponent. -/
def ofInteger (isNegative : Bool) (n : Nat) : Number :=
  if !isNegative then .unsigned n
  else if 0 < n ∧ n ≤ 0x8000000000000000 then .negative (-(n : Int))
  else ofFloat true (UInt64.ofNat n).toFloat

/-- The value of a number that ends here. -/
def Partial.value (p : Partial) : Except Cause Number :=
  match p.phase with
  | .minus => .error .invalidNumber
  | .zero => .ok (ofInteger p.isNegative 0)
  | .integer m => .ok (ofInteger p.isNegative m)
  | .long m e => ofParts p.isNegative m e
  | .point _ _ | .exponentStart _ _ | .exponentSign _ _ _ => .error .invalidNumber
  | .fraction m e | .longFraction m e => ofParts p.isNegative m e
  | .exponent m e down stated =>
    ofParts p.isNegative m (clampExponent (if down then e - stated else e + stated))
  | .vanished => .ok (ofFloat p.isNegative 0)

/-- The value of a number at the end of the text. -/
def Partial.atEnd (p : Partial) : Except Cause Number :=
  match p.phase with
  | .minus | .point _ _ | .exponentStart _ _ | .exponentSign _ _ _ => .error .endInValue
  | _ => p.value

/-! ## One byte -/

def digit? (b : UInt8) : Option Nat := if Ascii.isDigit b then some (b.toNat - 0x30) else none

def isExponentMark (b : UInt8) : Bool := b == 0x65 || b == 0x45

/-- One more digit after a significand, or nothing if it no longer fits. -/
def push? (significand d : Nat) : Option Nat :=
  if 10 * significand + d ≤ maxUnsigned then some (10 * significand + d) else none

/-- The start of a number. -/
def begin? (b : UInt8) : Option Partial :=
  if b = 0x2D then some ⟨true, .minus⟩
  else if b = 0x30 then some ⟨false, .zero⟩
  else (digit? b).map fun d => ⟨false, .integer d⟩

/-- The phase after a digit. -/
def Phase.digit (d : Nat) : Phase → Except Cause Phase
  | .minus => .ok (if d = 0 then .zero else .integer d)
  | .zero => .error .invalidNumber
  | .integer m =>
    match push? m d with
    | some m => .ok (.integer m)
    | none => .ok (.long m 1)
  | .long m e => .ok (.long m (e + 1))
  | .point m e | .fraction m e =>
    match push? m d with
    | some m => .ok (.fraction m (e - 1))
    | none => .ok (.longFraction m e)
  | .longFraction m e => .ok (.longFraction m e)
  | .exponentStart m e => .ok (.exponent m e false d)
  | .exponentSign m e down => .ok (.exponent m e down d)
  | .exponent m e down stated =>
    if 10 * stated + d ≤ maxExponent then .ok (.exponent m e down (10 * stated + d))
    else if m ≠ 0 ∧ !down then .error .numberOutOfRange
    else .ok .vanished
  | .vanished => .ok .vanished

/-- The phase after a byte that is no digit, if the byte belongs to the number. -/
def Phase.mark? (b : UInt8) : Phase → Option Phase
  | .zero =>
    if b = 0x2E then some (.point 0 0)
    else if isExponentMark b then some (.exponentStart 0 0) else none
  | .integer m =>
    if b = 0x2E then some (.point m 0)
    else if isExponentMark b then some (.exponentStart m 0) else none
  | .long m e =>
    if b = 0x2E then some (.point m e)
    else if isExponentMark b then some (.exponentStart m e) else none
  | .fraction m e | .longFraction m e =>
    if isExponentMark b then some (.exponentStart m e) else none
  | .exponentStart m e =>
    if b = 0x2B then some (.exponentSign m e false)
    else if b = 0x2D then some (.exponentSign m e true) else none
  | .minus | .point _ _ | .exponentSign _ _ _ | .exponent _ _ _ _ | .vanished => none

/-- Whether a number may end in a phase. -/
def Phase.isWhole : Phase → Bool
  | .minus | .point _ _ | .exponentStart _ _ | .exponentSign _ _ _ => false
  | .zero | .integer _ | .long _ _ | .fraction _ _ | .longFraction _ _ | .exponent _ _ _ _
  | .vanished => true

/-- One byte of a number, or the byte after it. -/
def Partial.feed (p : Partial) (b : UInt8) : Feed Partial Number :=
  match digit? b with
  | some d =>
    match p.phase.digit d with
    | .ok phase => .more { p with phase }
    | .error cause => .fail cause .past
  | none =>
    match p.phase.mark? b with
    | some phase => .more { p with phase }
    | none =>
      if p.phase.isWhole then
        match p.value with
        | .ok n => .before n
        | .error cause => .fail cause .here
      else .fail .invalidNumber .past

end Number

end WebSocketEcho.Report
