import WebSocketEcho.Http.Target

/-!
# Request heads

Reads the head of a request from the front of a byte string: request line, header lines, blank
line.  Reading stops at the first byte that no continuation could repair, so a malformed head is
refused before it is complete.  `Head.read` then derives from the fields how long the body is and
whether the connection stays open.
-/

namespace WebSocketEcho.Http

/-- The result of reading from the front of a byte string. -/
inductive Reading (α : Type) where
  /-- What is there may be the beginning of something. -/
  | incomplete
  | fault (f : Fault)
  | done (value : α) (rest : Bytes)
deriving Repr

namespace Reading

/-- Goes on with what follows. -/
def andThen {α β : Type} (r : Reading α) (next : α → Bytes → Reading β) : Reading β :=
  match r with
  | .incomplete => .incomplete
  | .fault f => .fault f
  | .done value rest => next value rest

end Reading

namespace Head

/-! ## Characters -/

/-- What a method or a field name is made of. -/
def isTokenByte (b : UInt8) : Bool :=
  Ascii.isLetter b || Ascii.isDigit b || (Bytes.ofText "!#$%&'*+-.^_`|~").contains b

/-- What a target is made of: visible ASCII and everything beyond ASCII. -/
def isTargetByte (b : UInt8) : Bool := Ascii.isGraphic b || 0x80 ≤ b

/-- What a field value is made of: tabs, spaces, visible ASCII and everything beyond ASCII. -/
def isValueByte (b : UInt8) : Bool := b == 0x09 || (0x20 ≤ b && b != 0x7F)

/-! ## Pieces of a head -/

/-- Passes the end of a line, which may lack its carriage return. -/
def readLineEnd : Bytes → Reading Unit
  | [] => .incomplete
  | 0x0A :: rest => .done () rest
  | [0x0D] => .incomplete
  | 0x0D :: 0x0A :: rest => .done () rest
  | _ => .fault .header

/-- Passes the empty lines before a request. -/
def skipEmptyLines : Bytes → Reading Unit
  | [] => .incomplete
  | 0x0A :: rest => skipEmptyLines rest
  | [0x0D] => .incomplete
  | 0x0D :: 0x0A :: rest => skipEmptyLines rest
  | 0x0D :: _ => .fault .header
  | bytes => .done () bytes

/-- Reads a nonempty word of the given bytes up to the byte `stop`, which is passed. -/
def readWord (isPart : UInt8 → Bool) (stop : UInt8) (fault : Fault) (bytes : Bytes) :
    Reading Bytes :=
  let word := bytes.takeWhile isPart
  match bytes.drop word.length with
  | [] => .incomplete
  | b :: rest => if b = stop && !word.isEmpty then .done word rest else .fault fault

def readMethod : Bytes → Reading Bytes := readWord isTokenByte 0x20 .method

def readTarget (bytes : Bytes) : Reading Bytes :=
  (readWord isTargetByte 0x20 .target bytes).andThen fun target rest =>
    if Utf8.isValid target then .done target rest else .fault .target

/-- Reads the version.  Eight bytes decide; fewer must be the beginning of a version. -/
def readVersion (bytes : Bytes) : Reading Version :=
  match Bytes.split? 8 bytes with
  | some (word, rest) =>
    if word = Bytes.ofText "HTTP/1.1" then .done .http11 rest
    else if word = Bytes.ofText "HTTP/1.0" then .done .http10 rest
    else .fault .version
  | none => if bytes.isPrefixOf (Bytes.ofText "HTTP/1.") then .incomplete else .fault .version

def readHeader (bytes : Bytes) : Reading Header :=
  (readWord isTokenByte 0x3A .header bytes).andThen fun name rest =>
    let value := rest.takeWhile isValueByte
    (readLineEnd (rest.drop value.length)).andThen fun _ rest =>
      .done ⟨name, Ascii.trimBlanks value⟩ rest

/-- The most header lines of a head. -/
def maxHeaders : Nat := 100

/-- Reads header lines up to the blank line.  `room` is how many more are taken, `done` holds those
before, last first. -/
def readHeaders : Nat → List Header → Bytes → Reading (List Header)
  | _, done, 0x0A :: rest => .done done.reverse rest
  | _, _, [0x0D] => .incomplete
  | _, done, 0x0D :: 0x0A :: rest => .done done.reverse rest
  | room, done, bytes =>
    match readHeader bytes with
    | .incomplete => .incomplete
    | .fault f => .fault f
    | .done h rest =>
      match room with
      | 0 => .fault .tooLarge
      | room + 1 => readHeaders room (h :: done) rest

/-! ## The request line and the fields together -/

/-- A head whose target has not been judged. -/
structure Raw where
  method : Bytes
  target : Bytes
  version : Version
  headers : List Header
deriving DecidableEq, Repr

/-- Reads a head up to and with its blank line. -/
def readRaw (bytes : Bytes) : Reading Raw :=
  (skipEmptyLines bytes).andThen fun _ rest =>
  (readMethod rest).andThen fun method rest =>
  (readTarget rest).andThen fun target rest =>
  (readVersion rest).andThen fun version rest =>
  (readLineEnd rest).andThen fun _ rest =>
  (readHeaders maxHeaders [] rest).andThen fun headers rest =>
    .done { method, target, version, headers } rest

/-! ## What the fields say about body and connection -/

/-- How the body of a request ends. -/
inductive BodyLength where
  | sized (n : Nat)
  | chunked
deriving DecidableEq, Repr

/-- What the fields have said so far. -/
structure Framing where
  /-- Some field asks to close the connection after the answer. -/
  closes : Bool
  /-- Some field asks to keep the connection open. -/
  keeps : Bool
  /-- Whether there is a field for the length, even one that was not read. -/
  statesLength : Bool
  /-- The stated length, if one is stated. -/
  length : Option Nat
  /-- Whether the last transfer encoding, if there is one, is chunked. -/
  chunked : Option Bool
  /-- The client waits for leave before it sends the body. -/
  expectsContinue : Bool
deriving DecidableEq, Repr

def Framing.unstated : Framing := ⟨false, false, false, none, none, false⟩

/-- Whether the connection can be used again: a wish to close it wins over a wish to keep it, and a
body that is described in two ways leaves no sure end to go on from. -/
def Framing.keepAlive (version : Version) (f : Framing) : Bool :=
  !f.closes && (version.atLeast11 || f.keeps) && !(f.chunked.isSome && f.statesLength)

/-- The pieces of a plain value between commas, trimmed; of another value there are none. -/
def listed (value : Bytes) : List Bytes :=
  if isPlainValue value then (value.splitOnP (· == 0x2C)).map Ascii.trimBlanks else []

def lists (word : String) (value : Bytes) : Bool :=
  (listed value).any (Ascii.sameWord (Bytes.ofText word))

/-- Whether the last piece of a list value is `chunked`. -/
def endsChunked (value : Bytes) : Bool :=
  (listed value).getLast?.any (Ascii.sameWord (Bytes.ofText "chunked"))

/-- The longest body whose length can be stated, and the largest number that is understood. -/
def maxLength : Nat := 0xFFFFFFFFFFFFFFFD

/-- One field.  A length is not read once a transfer encoding has come. -/
def Framing.note (version : Version) (f : Framing) (h : Header) : Except Fault Framing :=
  if h.isNamed "transfer-encoding" then
    if version.atLeast11 then .ok { f with chunked := some (endsChunked h.value) }
    else .error .unexpectedTransferEncoding
  else if h.isNamed "content-length" then
    let f := { f with statesLength := true }
    if f.chunked.isSome then .ok f
    else
      match Decimal.ofBytes? h.value with
      | none => .error .contentLength
      | some n =>
        if 0xFFFFFFFFFFFFFFFF < n then .error .contentLength
        else if f.length.any (· != n) then .error .contentLength
        else if maxLength < n then .error .tooLarge
        else .ok { f with length := some n }
  else if h.isNamed "connection" then
    .ok { f with
      closes := f.closes || lists "close" h.value
      keeps := f.keeps || lists "keep-alive" h.value }
  else if h.isNamed "expect" then
    .ok { f with expectsContinue := Ascii.sameWord (Bytes.ofText "100-continue") h.value }
  else .ok f

/-- All fields in order. -/
def framing (version : Version) (headers : List Header) : Except Fault Framing := do
  let f ← headers.foldlM (Framing.note version) .unstated
  if f.chunked = some false then throw .transferEncoding
  return f

/-- Whether pieces of a head are kept as they were read: the target, unless it is one of the two
that are known by heart, and every value that is not empty.  Names are kept in lower case. -/
def Raw.retains (raw : Raw) : Bool :=
  (raw.target != Bytes.ofText "/" && raw.target != Bytes.ofText "*") ||
    raw.headers.any fun h => !h.value.isEmpty

/-- A request with what its fields say. -/
structure Parsed where
  request : Request
  keepAlive : Bool
  body : BodyLength
  /-- The body is not read before the request is answered. -/
  bodyWaits : Bool
  /-- Pieces of the head are looked at until the request is answered. -/
  retains : Bool
deriving DecidableEq, Repr

/-- Judges target and fields of a head. -/
def Raw.judge (raw : Raw) : Except Fault Parsed := do
  if Target.maxLength < raw.target.length then throw .targetTooLong
  if raw.headers.any fun h => 65536 ≤ h.name.length then throw .tooLarge
  match Target.read? raw.target with
  | none => throw .target
  | some target =>
    let f ← framing raw.version raw.headers
    let body := if f.chunked = some true then .chunked else .sized (f.length.getD 0)
    return {
      request := ⟨raw.method, target, raw.version, raw.headers⟩
      keepAlive := f.keepAlive raw.version
      body
      bodyWaits := f.expectsContinue && raw.version.atLeast11 && body ≠ .sized 0
      retains := raw.retains }

/-! ## Attempts on a buffer -/

/-- Whether one line end follows another, so that the bytes may hold a whole head. -/
def hasBlankLine : Bytes → Bool
  | 0x0A :: 0x0A :: _ => true
  | 0x0A :: 0x0D :: 0x0A :: _ => true
  | _ :: rest => hasBlankLine rest
  | [] => false

/-- The result of an attempt to read a head. -/
inductive Attempt where
  | incomplete
  /-- The head is faulty; `rest` is what stays in the buffer. -/
  | faulty (f : Fault) (rest : Bytes)
  | parsed (p : Parsed) (rest : Bytes)
deriving Repr

/-- Attempts to read a head.  `seen` is the length of the buffer at the last attempt on it, zero at
the first; a further attempt is only made when a blank line has come since. -/
def attempt (seen : Nat) (buffer : Bytes) : Attempt :=
  if buffer.isEmpty || (0 < seen && !hasBlankLine (buffer.drop (seen - 3))) then .incomplete
  else
    match readRaw buffer with
    | .incomplete => .incomplete
    | .fault f => .faulty f buffer
    | .done raw rest =>
      match raw.judge with
      | .error f => .faulty f rest
      | .ok p => .parsed p rest

/-! ## A head takes bytes -/

theorem length_lt_of_readWord {isPart : UInt8 → Bool} {stop : UInt8} {fault : Fault}
    {bytes word rest : Bytes} (h : readWord isPart stop fault bytes = .done word rest) :
    rest.length < bytes.length := by
  unfold readWord at h
  dsimp only at h
  split at h
  · simp at h
  · rename_i b tail hb
    split at h
    · simp only [Reading.done.injEq] at h
      have hl := congrArg List.length hb
      simp only [List.length_drop, List.length_cons] at hl
      rw [← h.2]
      omega
    · simp at h

theorem length_lt_of_readLineEnd {bytes rest : Bytes} {u : Unit}
    (h : readLineEnd bytes = .done u rest) : rest.length < bytes.length := by
  unfold readLineEnd at h
  split at h <;> simp at h
  all_goals subst h; simp only [List.length_cons]; omega

theorem length_le_of_skipEmptyLines {bytes rest : Bytes} {u : Unit}
    (h : skipEmptyLines bytes = .done u rest) : rest.length ≤ bytes.length := by
  fun_induction skipEmptyLines bytes with
  | case1 => simp at h
  | case2 tail ih =>
    have := ih h
    simp only [List.length_cons]
    omega
  | case3 => simp at h
  | case4 tail ih =>
    have := ih h
    simp only [List.length_cons]
    omega
  | case5 => simp at h
  | case6 =>
    simp at h
    simp [h]

theorem length_le_of_readVersion {bytes rest : Bytes} {v : Version}
    (h : readVersion bytes = .done v rest) : rest.length ≤ bytes.length := by
  unfold readVersion at h
  rw [Bytes.split?_eq] at h
  split at h
  · rename_i w r hw
    split at hw
    · simp only [Option.some.injEq, Prod.mk.injEq] at hw
      have hr : rest = r := by
        split at h
        · simp only [Reading.done.injEq] at h
          exact h.2.symm
        · split at h
          · simp only [Reading.done.injEq] at h
            exact h.2.symm
          · simp at h
      rw [hr, ← hw.2, List.length_drop]
      omega
    · simp at hw
  · split at h <;> simp at h

theorem Reading.andThen_done {α β : Type} {r : Reading α} {next : α → Bytes → Reading β}
    {value : β} {rest : Bytes} (h : r.andThen next = .done value rest) :
    ∃ a mid, r = .done a mid ∧ next a mid = .done value rest := by
  cases r with
  | incomplete => simp [Reading.andThen] at h
  | fault f => simp [Reading.andThen] at h
  | done a mid => exact ⟨a, mid, rfl, h⟩

theorem length_lt_of_readHeader {bytes rest : Bytes} {header : Header}
    (h : readHeader bytes = .done header rest) : rest.length < bytes.length := by
  obtain ⟨name, mid, hname, h⟩ := Reading.andThen_done h
  obtain ⟨_, mid', hline, h⟩ := Reading.andThen_done h
  simp only [Reading.done.injEq] at h
  have h1 := length_lt_of_readWord hname
  have h2 := length_lt_of_readLineEnd hline
  rw [List.length_drop] at h2
  rw [← h.2]
  omega

theorem length_le_of_readHeaders {room : Nat} {done headers : List Header} {bytes rest : Bytes}
    (h : readHeaders room done bytes = .done headers rest) : rest.length ≤ bytes.length := by
  fun_induction readHeaders room done bytes with
  | case1 =>
    simp at h
    simp only [h, List.length_cons]
    omega
  | case2 => simp at h
  | case3 =>
    simp at h
    simp only [h, List.length_cons]
    omega
  | case4 => simp at h
  | case5 => simp at h
  | case6 => simp at h
  | case7 done bytes _ _ _ header tail hheader room ih =>
    have h1 := ih h
    have h2 := length_lt_of_readHeader hheader
    omega

theorem length_lt_of_readRaw {bytes rest : Bytes} {raw : Raw}
    (h : readRaw bytes = .done raw rest) : rest.length < bytes.length := by
  obtain ⟨_, _, h1, h⟩ := Reading.andThen_done h
  obtain ⟨_, _, h2, h⟩ := Reading.andThen_done h
  obtain ⟨_, _, h3, h⟩ := Reading.andThen_done h
  obtain ⟨_, _, h4, h⟩ := Reading.andThen_done h
  obtain ⟨_, _, h5, h⟩ := Reading.andThen_done h
  obtain ⟨_, _, h6, h⟩ := Reading.andThen_done h
  obtain ⟨_, _, h3', h3⟩ := Reading.andThen_done h3
  have h1 := length_le_of_skipEmptyLines h1
  have h2 := length_lt_of_readWord h2
  have h3' := length_lt_of_readWord h3'
  have h4 := length_le_of_readVersion h4
  have h5 := length_lt_of_readLineEnd h5
  have h6 := length_le_of_readHeaders h6
  simp only [Reading.done.injEq] at h
  split at h3
  · simp only [Reading.done.injEq] at h3
    rw [← h.2]
    rw [← h3.2] at h4
    omega
  · simp at h3

/-- A head that was read has taken at least one byte. -/
theorem length_lt_of_attempt {seen : Nat} {buffer rest : Bytes} {p : Parsed}
    (h : attempt seen buffer = .parsed p rest) : rest.length < buffer.length := by
  unfold attempt at h
  split at h
  · simp at h
  · split at h
    · simp at h
    · simp at h
    · rename_i raw mid hraw
      split at h
      · simp at h
      · simp only [Attempt.parsed.injEq] at h
        rw [← h.2]
        exact length_lt_of_readRaw hraw

end Head

end WebSocketEcho.Http
