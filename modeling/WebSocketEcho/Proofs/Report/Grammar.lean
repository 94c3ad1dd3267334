import WebSocketEcho.Report.Reader

/-!
# The language of reports

A grammar of JSON, and in it the texts that are reports (`IsReport`).  It is written as predicates
on byte strings that join their parts with `++`, so that it says nothing about how a text is read.

Values are defined together with the items of lists and the members of objects, by one predicate
(`Derives`) over the parts of speech: an induction over a value is then one induction.  Two kinds of
strings are told apart.  `IsQuoted` is the syntax alone; `Spells` also says what text a string
stands for, so a surrogate must be the first or the second of a pair.  The keys of a report are of
the second kind, all strings inside the values of unknown keys are of the first.
-/

namespace WebSocketEcho.Report.Grammar

open Skip (Bracket)

/-- Any number of spaces, tabs, line feeds and carriage returns. -/
def Blanks (text : Bytes) : Prop := ∀ b ∈ text, b = 0x20 ∨ b = 0x09 ∨ b = 0x0A ∨ b = 0x0D

/-! ## Numbers -/

def Digits (text : Bytes) : Prop := ∀ b ∈ text, Ascii.isDigit b = true

/-- `0`, or digits of which the first is not `0`. -/
inductive IsWhole : Bytes → Prop where
  | zero : IsWhole [0x30]
  | digits {d : UInt8} {ds : Bytes} (hd : Ascii.isDigit d = true) (hne : d ≠ 0x30)
      (hds : Digits ds) : IsWhole (d :: ds)

inductive IsFraction : Bytes → Prop where
  | none : IsFraction []
  | some {ds : Bytes} (hne : ds ≠ []) (hds : Digits ds) : IsFraction (0x2E :: ds)

inductive IsExponent : Bytes → Prop where
  | none : IsExponent []
  | some {mark : UInt8} {sign ds : Bytes} (hmark : mark = 0x65 ∨ mark = 0x45)
      (hsign : sign = [] ∨ sign = [0x2B] ∨ sign = [0x2D]) (hne : ds ≠ []) (hds : Digits ds) :
      IsExponent (mark :: (sign ++ ds))

/-- A number, of any length. -/
inductive IsNumber : Bytes → Prop where
  | intro {sign whole fraction exponent : Bytes} (hsign : sign = [] ∨ sign = [0x2D])
      (hw : IsWhole whole) (hf : IsFraction fraction) (he : IsExponent exponent) :
      IsNumber (sign ++ (whole ++ (fraction ++ exponent)))

/-- A count: no sign, no fraction, no exponent, and it fits 64 bits. -/
structure IsCount (text : Bytes) (n : UInt64) : Prop where
  whole : IsWhole text
  value : Decimal.ofDigits (text.map fun b => b.toNat - 0x30) = n.toNat

/-! ## Strings -/

/-- A character that may stand for itself in a string: no quote, no backslash, no control. -/
def IsPlain (b : UInt8) : Prop := b ≠ 0x22 ∧ b ≠ 0x5C ∧ 0x20 ≤ b

/-- The letters of one-letter escapes, each with the character that it stands for. -/
def escapes : List (UInt8 × UInt8) :=
  [(0x22, 0x22), (0x5C, 0x5C), (0x2F, 0x2F), (0x62, 0x08), (0x66, 0x0C), (0x6E, 0x0A),
    (0x72, 0x0D), (0x74, 0x09)]

/-- Four hexadecimal digits and their number. -/
structure IsCode (digits : Bytes) (n : Nat) : Prop where
  length : digits.length = 4
  value : Quoted.hexNumber? digits = some n

/-- What may stand behind a backslash. -/
inductive IsEscape : Bytes → Prop where
  | letter {b c : UInt8} (hb : (b, c) ∈ escapes) : IsEscape [b]
  | code {digits : Bytes} {n : Nat} (hn : IsCode digits n) : IsEscape (0x75 :: digits)

/-- What may stand between the quotes of a string. -/
inductive IsQuoted : Bytes → Prop where
  | nil : IsQuoted []
  | plain {b : UInt8} {rest : Bytes} (hb : IsPlain b) (h : IsQuoted rest) : IsQuoted (b :: rest)
  | escape {escape rest : Bytes} (he : IsEscape escape) (h : IsQuoted rest) :
      IsQuoted (0x5C :: (escape ++ rest))

/-- The first of a pair of surrogates. -/
def IsLeading (n : Nat) : Prop := 0xD800 ≤ n ∧ n ≤ 0xDBFF

/-- The second of a pair of surrogates. -/
def IsTrailing (n : Nat) : Prop := 0xDC00 ≤ n ∧ n ≤ 0xDFFF

/-- The UTF-8 of a character. -/
def utf8 (n : Nat) : Bytes := Utf8.encodeChar (Char.ofNat n)

/-- What may stand behind a backslash, with the text that it stands for. -/
inductive StandsFor : Bytes → Bytes → Prop where
  | letter {b c : UInt8} (hb : (b, c) ∈ escapes) : StandsFor [b] [c]
  | code {digits : Bytes} {n : Nat} (hn : IsCode digits n) (hleading : ¬ IsLeading n)
      (htrailing : ¬ IsTrailing n) : StandsFor (0x75 :: digits) (utf8 n)
  | pair {first second : Bytes} {m n : Nat} (hm : IsCode first m) (hleading : IsLeading m)
      (hn : IsCode second n) (htrailing : IsTrailing n) :
      StandsFor (0x75 :: (first ++ 0x5C :: 0x75 :: second))
        (utf8 (0x10000 + 0x400 * (m - 0xD800) + (n - 0xDC00)))

/-- What stands between the quotes of a string, with the text that it spells. -/
inductive Spells : Bytes → Bytes → Prop where
  | nil : Spells [] []
  | plain {b : UInt8} {rest text : Bytes} (hb : IsPlain b) (h : Spells rest text) :
      Spells (b :: rest) (b :: text)
  | escape {escape meant rest text : Bytes} (he : StandsFor escape meant) (h : Spells rest text) :
      Spells (0x5C :: (escape ++ rest)) (meant ++ text)

/-! ## Values -/

/-- A member of an object as it is laid out. -/
structure Layout where
  before : Bytes
  key : Bytes
  afterKey : Bytes
  beforeValue : Bytes
  value : Bytes
  after : Bytes
  before_blanks : Blanks before
  afterKey_blanks : Blanks afterKey
  beforeValue_blanks : Blanks beforeValue
  after_blanks : Blanks after

def Layout.bytes (l : Layout) : Bytes :=
  l.before ++ 0x22 :: (l.key ++ 0x22 ::
    (l.afterKey ++ 0x3A :: (l.beforeValue ++ (l.value ++ l.after))))

/-- The byte that opens a list or an object. -/
def opening : Bracket → UInt8
  | .list => 0x5B
  | .object => 0x7B

/-- The parts of speech. -/
inductive Phrase where
  | value
  /-- An item of a list, or a member of an object. -/
  | part (c : Bracket)
  /-- One or more of them, with commas between them. -/
  | parts (c : Bracket)

/-- The words of JSON. -/
def words : List Bytes := [Bytes.ofText "null", Bytes.ofText "true", Bytes.ofText "false"]

/-- The texts that are values, parts and parts with commas between them. -/
inductive Derives : Phrase → Bytes → Prop where
  | word {text : Bytes} (h : text ∈ words) : Derives .value text
  | number {text : Bytes} (h : IsNumber text) : Derives .value text
  | quoted {text : Bytes} (h : IsQuoted text) : Derives .value (0x22 :: (text ++ [0x22]))
  | empty (c : Bracket) {blanks : Bytes} (h : Blanks blanks) :
      Derives .value (opening c :: (blanks ++ [c.closing]))
  | full (c : Bracket) {text : Bytes} (h : Derives (.parts c) text) :
      Derives .value (opening c :: (text ++ [c.closing]))
  | item {before value after : Bytes} (hbefore : Blanks before) (h : Derives .value value)
      (hafter : Blanks after) : Derives (.part .list) (before ++ (value ++ after))
  | member (l : Layout) (hkey : IsQuoted l.key) (h : Derives .value l.value) :
      Derives (.part .object) l.bytes
  | last {c : Bracket} {text : Bytes} (h : Derives (.part c) text) : Derives (.parts c) text
  | more {c : Bracket} {text rest : Bytes} (h : Derives (.part c) text)
      (hrest : Derives (.parts c) rest) : Derives (.parts c) (text ++ 0x2C :: rest)

/-! ## Reports -/

/-- The members of an object, and what is written in it: the names that the keys spell, each with
the text of its value. -/
inductive Members : List (Bytes × Bytes) → Bytes → Prop where
  | last (l : Layout) {name : Bytes} (hkey : Spells l.key name) (hvalue : Derives .value l.value) :
      Members [(name, l.value)] l.bytes
  | more (l : Layout) {name rest : Bytes} {members : List (Bytes × Bytes)}
      (hkey : Spells l.key name) (hvalue : Derives .value l.value) (h : Members members rest) :
      Members ((name, l.value) :: members) (l.bytes ++ 0x2C :: rest)

/-- Exactly one member has this name, and its value is this count. -/
def Tells (members : List (Bytes × Bytes)) (name : Bytes) (n : UInt64) : Prop :=
  ∃ value, members.filter (fun member => member.1 = name) = [(name, value)] ∧ IsCount value n

/-- A report without the blanks around it: two counts in a list, the peak first, or an object that
tells both and may tell anything else. -/
inductive IsBody (r : Report) : Bytes → Prop where
  | list {a b c d max active : Bytes} (ha : Blanks a) (hb : Blanks b) (hc : Blanks c)
      (hd : Blanks d) (hmax : IsCount max r.max) (hactive : IsCount active r.active) :
      IsBody r (0x5B :: (a ++ (max ++ (b ++ 0x2C :: (c ++ (active ++ (d ++ [0x5D])))))))
  | object {members : List (Bytes × Bytes)} {text : Bytes} (h : Members members text)
      (hmax : Tells members (Bytes.ofText "max") r.max)
      (hactive : Tells members (Bytes.ofText "active") r.active) :
      IsBody r (0x7B :: (text ++ [0x7D]))

/-- The texts that are reports. -/
def IsReport (text : Bytes) (r : Report) : Prop :=
  ∃ before body after, Blanks before ∧ IsBody r body ∧ Blanks after ∧
    text = before ++ (body ++ after)

end WebSocketEcho.Report.Grammar
