import WebSocketEcho.Http.Connection
import WebSocketEcho.Proofs.Frame.Decoding
import WebSocketEcho.Proofs.Http.HeadGrammar

/-!
# Responses as a client reads them

A reader of responses that knows nothing of how they are written: the status line, header lines up
to a blank line, and as many bytes of body as `content-length` says.  The header lines have the
grammar of those of a request, so `Head.readHeaders` reads them here too.

`readResponse_bytes` says that what the server writes is read back, whatever follows it, and
`readResponses_cons` that responses in a row are read one after the other.
-/

namespace WebSocketEcho

theorem Decimal.ofBytes?_bytes (n : Nat) : Decimal.ofBytes? (Decimal.bytes n) = some n := by
  have hdigit : ∀ k < 10, Ascii.isDigit (UInt8.ofNat (0x30 + k)) = true ∧
      (UInt8.ofNat (0x30 + k)).toNat - 0x30 = k := by decide
  have hall : (Decimal.bytes n).all Ascii.isDigit = true := by
    rw [Decimal.bytes, List.all_map, List.all_eq_true]
    exact fun d hd => (hdigit d (Decimal.lt_ten_of_mem_digits hd)).1
  have hne : (Decimal.bytes n).isEmpty = false := by
    rw [Decimal.bytes, List.isEmpty_map, Decimal.digits]
    split <;> simp
  have hvalues : ((Decimal.digits n).map fun d => UInt8.ofNat (0x30 + d)).map
      (fun b => b.toNat - 0x30) = Decimal.digits n := by
    rw [List.map_map]
    refine (List.map_congr_left fun d hd => ?_).trans (List.map_id _)
    exact (hdigit d (Decimal.lt_ten_of_mem_digits hd)).2
  rw [Decimal.ofBytes?, hall, hne, if_neg (by simp), Decimal.bytes, hvalues,
    Decimal.ofDigits_digits]

namespace Http

/-- What a client makes of a response. -/
structure Received where
  code : Nat
  reason : Bytes
  headers : List Header
  body : Bytes
deriving DecidableEq, Repr

/-! ## The reader -/

/-- Reads `HTTP/1.1`, the code and the reason. -/
def readStatusLine (bytes : Bytes) : Reading (Nat × Bytes) :=
  (Head.readWord Ascii.isGraphic 0x20 .version bytes).andThen fun version rest =>
    if version ≠ Bytes.ofText "HTTP/1.1" then .fault .version
    else
      (Head.readWord Ascii.isDigit 0x20 .header rest).andThen fun code rest =>
        let reason := rest.takeWhile Head.isValueByte
        (Head.readLineEnd (rest.drop reason.length)).andThen fun _ rest =>
          match Decimal.ofBytes? code with
          | some code => .done (code, reason) rest
          | none => .fault .header

/-- Reads the body that the fields announce. -/
def readBody (headers : List Header) (bytes : Bytes) : Reading Bytes :=
  match (firstValue? headers "content-length").bind Decimal.ofBytes? with
  | none => .fault .contentLength
  | some length =>
    match Bytes.split? length bytes with
    | some (body, rest) => .done body rest
    | none => .incomplete

def readResponse (bytes : Bytes) : Reading Received :=
  (readStatusLine bytes).andThen fun (code, reason) rest =>
  (Head.readHeaders Head.maxHeaders [] rest).andThen fun headers rest =>
  (readBody headers rest).andThen fun body rest =>
    .done ⟨code, reason, headers, body⟩ rest

/-- Reads responses up to the end of the input, if nothing else is there. -/
def readResponses (bytes : Bytes) : Option (List Received) :=
  if bytes.isEmpty then some []
  else
    match readResponse bytes with
    | .done r rest =>
      if rest.length < bytes.length then (readResponses rest).map (r :: ·) else none
    | .incomplete | .fault _ => none
termination_by bytes.length

/-! ## What is written is read back -/

theorem firstValue?_cons_of_isNamed {h : Header} {name : String} (hnamed : h.isNamed name = true)
    (rest : List Header) : firstValue? (h :: rest) name = some h.value := by
  rw [firstValue?, List.find?_cons, hnamed]
  rfl

theorem firstValue?_cons_of_not_isNamed {h : Header} {name : String}
    (hnamed : h.isNamed name = false) (rest : List Header) :
    firstValue? (h :: rest) name = firstValue? rest name := by
  rw [firstValue?, firstValue?, List.find?_cons, hnamed]

/-- A field that has no blanks around its value. -/
structure Header.IsPlain (h : Header) : Prop where
  name : Head.IsWord Head.isTokenByte h.name
  value : ∀ b ∈ h.value, Head.isValueByte b = true
  trimmed : Ascii.trimBlanks (0x20 :: h.value) = h.value

/-- A value without blanks needs no trimming. -/
theorem trimBlanks_of_solid {value : Bytes} (h : ∀ b ∈ value, Ascii.isGraphic b = true) :
    Ascii.trimBlanks (0x20 :: value) = value := by
  have hblank : ∀ b, Ascii.isGraphic b = true → (b == 0x20 || b == 0x09) = false := by
    intro b hb
    refine Bool.or_eq_false_iff.2 ⟨beq_eq_false_iff_ne.2 ?_, beq_eq_false_iff_ne.2 ?_⟩ <;>
      rintro rfl <;> exact absurd hb (by decide)
  have hkept : ∀ bytes : Bytes, (∀ b ∈ bytes, Ascii.isGraphic b = true) →
      bytes.dropWhile (fun b => b == 0x20 || b == 0x09) = bytes := by
    intro bytes hbytes
    cases bytes with
    | nil => rfl
    | cons b rest =>
      rw [List.dropWhile_cons_of_neg]
      rw [hblank b (hbytes b List.mem_cons_self)]
      exact Bool.false_ne_true
  rw [Ascii.trimBlanks, List.dropWhile_cons_of_pos (by rfl), hkept value h,
    hkept value.reverse fun b hb => h b (List.mem_reverse.1 hb), List.reverse_reverse]

/-- A field of plain words. -/
theorem Header.isPlain_of_solid {h : Header} (hname : Head.IsWord Head.isTokenByte h.name)
    (hvalue : ∀ b ∈ h.value, Ascii.isGraphic b = true) : h.IsPlain := by
  refine ⟨hname, fun b hb => ?_, trimBlanks_of_solid hvalue⟩
  have hgraphic := hvalue b hb
  simp only [Ascii.isGraphic, Bool.and_eq_true, decide_eq_true_eq,
    UInt8.le_iff_toNat_le] at hgraphic
  simp only [Head.isValueByte, Bool.or_eq_true, Bool.and_eq_true, decide_eq_true_eq, bne_iff_ne,
    UInt8.le_iff_toNat_le]
  refine Or.inr ⟨Nat.le_trans (by decide) hgraphic.1, ?_⟩
  rintro rfl
  exact absurd hgraphic.2 (by decide)

/-- The field that states a length. -/
theorem isPlain_lengthField (body : Bytes) : (lengthField body).IsPlain := by
  have hdigit : ∀ k < 10, Ascii.isGraphic (UInt8.ofNat (0x30 + k)) = true := by decide
  have hname : Head.IsWord Head.isTokenByte (Bytes.ofText "content-length") :=
    ⟨by decide, List.all_eq_true.1 (by decide)⟩
  refine Header.isPlain_of_solid hname fun b hb => ?_
  obtain ⟨d, hd, rfl⟩ := List.mem_map.1 hb
  exact hdigit d (Decimal.lt_ten_of_mem_digits hd)

theorem Header.IsPlain.isField {h : Header} (hplain : h.IsPlain) : Head.IsField h h.line := by
  have hline : h.line = h.name ++ 0x3A :: ((0x20 :: h.value) ++ lineEnd) := by
    have hcolon : Bytes.ofText ": " = [0x3A, 0x20] := by decide
    rw [Header.line, hcolon]
    simp
  rw [hline]
  refine .intro hplain.name ?_ hplain.trimmed .returnFeed
  exact List.forall_mem_cons.2 ⟨by decide, hplain.value⟩

theorem isFields_lines {headers : List Header} (h : ∀ field ∈ headers, field.IsPlain) :
    Head.IsFields headers (headers.flatMap Header.line ++ lineEnd) := by
  induction headers with
  | nil => exact .blank .returnFeed
  | cons field rest ih =>
    obtain ⟨hfield, hrest⟩ := List.forall_mem_cons.1 h
    rw [List.flatMap_cons, List.append_assoc]
    exact .field hfield.isField (ih hrest)

/-- What a client makes of this response. -/
def Response.received (r : Response) : Received :=
  ⟨r.status.code, Bytes.ofText r.status.reason, r.headers, r.body⟩

/-- The first line of a response. -/
theorem readStatusLine_append (status : Status) (rest : Bytes) :
    readStatusLine (Bytes.ofText "HTTP/1.1" ++ [0x20] ++ Decimal.bytes status.code ++ [0x20] ++
      Bytes.ofText status.reason ++ lineEnd ++ rest) =
      .done (status.code, Bytes.ofText status.reason) rest := by
  have hversion : Head.IsWord Ascii.isGraphic (Bytes.ofText "HTTP/1.1") :=
    ⟨by decide, List.all_eq_true.1 (by decide)⟩
  have hcode : Head.IsWord Ascii.isDigit (Decimal.bytes status.code) := by
    cases status <;> exact ⟨by decide +kernel, List.all_eq_true.1 (by decide +kernel)⟩
  have hreason : ∀ b ∈ Bytes.ofText status.reason, Head.isValueByte b = true := by
    cases status <;> exact List.all_eq_true.1 (by decide)
  have htext : Bytes.ofText "HTTP/1.1" ++ [0x20] ++ Decimal.bytes status.code ++ [0x20] ++
      Bytes.ofText status.reason ++ lineEnd ++ rest =
      (Bytes.ofText "HTTP/1.1" ++ [0x20]) ++ ((Decimal.bytes status.code ++ [0x20]) ++
        (Bytes.ofText status.reason ++ (lineEnd ++ rest))) := by
    simp only [List.append_assoc]
  have hending : Head.IsLineEnd lineEnd := .returnFeed
  have hline : (Bytes.ofText status.reason ++ (lineEnd ++ rest)).takeWhile Head.isValueByte =
      Bytes.ofText status.reason := by
    rw [List.takeWhile_append_of_pos hreason, hending.head_not_value,
      List.append_nil]
  rw [htext, readStatusLine,
    (Head.reads_readWord Ascii.isGraphic 0x20 .version (by decide)).andThen_append ⟨rfl, hversion⟩,
    if_neg (not_not.2 rfl),
    (Head.reads_readWord Ascii.isDigit 0x20 .header (by decide)).andThen_append ⟨rfl, hcode⟩]
  dsimp only
  rw [hline, List.drop_left, Head.reads_readLineEnd.andThen_append (a := ()) hending,
    Decimal.ofBytes?_bytes]

theorem readResponse_bytes {r : Response} (hversion : r.version = .http11)
    (hplain : ∀ h ∈ r.headers, h.IsPlain) (hroom : r.headers.length ≤ Head.maxHeaders)
    (hlength : firstValue? r.headers "content-length" = some (Decimal.bytes r.body.length))
    (rest : Bytes) : readResponse (r.bytes ++ rest) = .done r.received rest := by
  have hbytes : r.bytes ++ rest = Bytes.ofText "HTTP/1.1" ++ [0x20] ++
      Decimal.bytes r.status.code ++ [0x20] ++ Bytes.ofText r.status.reason ++ lineEnd ++
      ((r.headers.flatMap Header.line ++ lineEnd) ++ (r.body ++ rest)) := by
    rw [Response.bytes, Response.head, hversion]
    simp only [List.append_assoc]
    rfl
  rw [hbytes, readResponse, readStatusLine_append, Reading.andThen]
  dsimp only
  rw [(Head.reads_readHeaders Head.maxHeaders []).andThen_append
    ⟨r.headers, (List.nil_append _).symm, isFields_lines hplain, hroom⟩, readBody, hlength,
    Option.bind_some, Decimal.ofBytes?_bytes]
  dsimp only
  rw [Bytes.split?_length_append]
  rfl

theorem readResponses_nil : readResponses [] = some [] := by
  rw [readResponses]
  rfl

/-- The next response is the first that is read. -/
theorem readResponses_cons {bytes rest : Bytes} {r : Received}
    (h : readResponse (bytes ++ rest) = .done r rest) (hne : bytes ≠ []) :
    readResponses (bytes ++ rest) = (readResponses rest).map (r :: ·) := by
  have hpos := List.length_pos_iff.2 hne
  rw [readResponses, if_neg (by simp [hne]), h]
  dsimp only
  rw [if_pos (by rw [List.length_append]; omega)]

end Http

end WebSocketEcho
