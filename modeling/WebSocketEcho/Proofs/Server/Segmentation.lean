import WebSocketEcho.Proofs.Server.Accounts
import WebSocketEcho.Proofs.Server.OneSession

/-!
# The cuts of a stream do not matter

A client that sends the same bytes sees the same server, however the bytes are cut into pieces and
however the pieces are spread over steps: `segmentation_independent`.  The cut may be anywhere, in
a header, a key, a payload, a character or a message, and the bytes need not be well-formed.
-/

namespace WebSocketEcho.Server

/-- Everything that entries show, as one entry. -/
def Entry.joined (entries : List Entry) : Entry := ⟨entries.flatMap (·.effects), [], .zero⟩

theorem flatMap_output (entries : List Entry) (id : String) :
    entries.flatMap (·.output id) = (Entry.joined entries).output id := by
  induction entries with
  | nil => rfl
  | cons e rest ih =>
    rw [List.flatMap_cons, ih]
    simp only [Entry.output, Entry.joined, Bytes.join_eq_flatten, List.flatMap_cons,
      List.filterMap_append, List.flatten_append]

theorem flatMap_log (entries : List Entry) :
    entries.flatMap (·.log) = (Entry.joined entries).log := by
  induction entries with
  | nil => rfl
  | cons e rest ih =>
    rw [List.flatMap_cons, ih]
    simp only [Entry.log, Entry.joined, List.flatMap_cons, List.filterMap_append]

theorem mem_closed_iff {e : Entry} {id : String} : id ∈ e.closed ↔ .closed id ∈ e.effects := by
  rw [Entry.closed, List.mem_mergeSort, List.mem_filterMap]
  constructor
  · rintro ⟨effect, hmem, heq⟩
    cases effect with
    | closed other =>
      cases heq
      exact hmem
    | wrote | logged | passed => cases heq
  · exact fun h => ⟨.closed id, h, rfl⟩

theorem exists_mem_closed_iff {entries : List Entry} {id : String} :
    (∃ e ∈ entries, id ∈ e.closed) ↔ .closed id ∈ entries.flatMap (·.effects) := by
  rw [List.mem_flatMap]
  constructor
  · rintro ⟨e, he, hid⟩
    exact ⟨e, he, mem_closed_iff.1 hid⟩
  · rintro ⟨e, he, hid⟩
    exact ⟨e, he, mem_closed_iff.2 hid⟩

/-- The steps of a client that connects, sends bytes in pieces, and perhaps closes its side. -/
def Cuts (id : String) (peer : SocketAddress) (bytes : Bytes) (finished : Bool)
    (steps : List (List Action)) : Prop :=
  ∃ pieces : List Bytes, pieces.flatten = bytes ∧
    steps.flatten =
      .connect id peer :: (pieces.map (.send id) ++ if finished then [.finish id] else [])

theorem Cuts.delivers {id : String} {peer : SocketAddress} {bytes : Bytes} {finished : Bool}
    {steps : List (List Action)} (h : Cuts id peer bytes finished steps) :
    Delivers id peer .absent steps.flatten (.sent bytes finished) := by
  obtain ⟨pieces, rfl, hsteps⟩ := h
  rw [hsteps]
  exact .connect (delivers_pieces [] pieces finished)

/-- Two runs show a client the same: what is written to it, the log, the counters at the end, and
whether the server has closed its connection. -/
structure Agree (id : String) (a b : Server × List Entry) : Prop where
  output : a.2.flatMap (·.output id) = b.2.flatMap (·.output id)
  log : a.2.flatMap (·.log) = b.2.flatMap (·.log)
  counters : a.1.counters = b.1.counters
  closed : (∃ e ∈ a.2, id ∈ e.closed) ↔ ∃ e ∈ b.2, id ∈ e.closed

/-- Two ways to cut the same bytes show the client the same, after any run of other clients. -/
theorem segmentation_independent (earlier : List (List Action)) {id : String}
    (hid : (after earlier).find? id = none) {peer : SocketAddress} {bytes : Bytes}
    {finished : Bool} {a b : List (List Action)} (ha : Cuts id peer bytes finished a)
    (hb : Cuts id peer bytes finished b) :
    Agree id ((after earlier).steps a) ((after earlier).steps b) := by
  obtain ⟨hkept, hready⟩ := kept_after earlier
  obtain ⟨heffects, hcounters⟩ := shown_steps hkept.mode hid hready ha.delivers
  obtain ⟨heffects', hcounters'⟩ := shown_steps hkept.mode hid hready hb.delivers
  have hjoined : Entry.joined ((after earlier).steps a).2 =
      Entry.joined ((after earlier).steps b).2 := by
    rw [Entry.joined, Entry.joined, heffects, heffects']
  constructor
  · rw [flatMap_output, flatMap_output, hjoined]
  · rw [flatMap_log, flatMap_log, hjoined]
  · rw [hcounters, hcounters']
  · rw [exists_mem_closed_iff, exists_mem_closed_iff, heffects, heffects']

def loopback : SocketAddress := ⟨.v4 ⟨127, 0, 0, 1⟩, 40001⟩

/-- A ping that is cut in its header and in its key, and the same ping in one piece. -/
theorem pingInPieces_agree :
    Cuts "a" loopback [0x89, 0x81, 1, 2, 3, 4, 0x60] true
        [[.connect "a" loopback, .send "a" [0x89]], [.send "a" [0x81, 1], .send "a" []],
          [.send "a" [2, 3, 4, 0x60]], [.finish "a"]] ∧
      Cuts "a" loopback [0x89, 0x81, 1, 2, 3, 4, 0x60] true
        [[.connect "a" loopback, .send "a" [0x89, 0x81, 1, 2, 3, 4, 0x60], .finish "a"]] ∧
      Agree "a"
        ((after []).steps
          [[.connect "a" loopback, .send "a" [0x89]], [.send "a" [0x81, 1], .send "a" []],
            [.send "a" [2, 3, 4, 0x60]], [.finish "a"]])
        ((after []).steps
          [[.connect "a" loopback, .send "a" [0x89, 0x81, 1, 2, 3, 4, 0x60], .finish "a"]]) := by
  have ha : Cuts "a" loopback [0x89, 0x81, 1, 2, 3, 4, 0x60] true
      [[.connect "a" loopback, .send "a" [0x89]], [.send "a" [0x81, 1], .send "a" []],
        [.send "a" [2, 3, 4, 0x60]], [.finish "a"]] :=
    ⟨[[0x89], [0x81, 1], [], [2, 3, 4, 0x60]], rfl, rfl⟩
  have hb : Cuts "a" loopback [0x89, 0x81, 1, 2, 3, 4, 0x60] true
      [[.connect "a" loopback, .send "a" [0x89, 0x81, 1, 2, 3, 4, 0x60], .finish "a"]] :=
    ⟨[[0x89, 0x81, 1, 2, 3, 4, 0x60]], rfl, rfl⟩
  exact ⟨ha, hb, segmentation_independent [] rfl ha hb⟩

end WebSocketEcho.Server
