import WebSocketEcho.Proofs.Server.Passages
import WebSocketEcho.Proofs.Server.Queue

/-!
# What a server of echo sessions keeps

`Kept s past` is the invariant of a server of echo sessions whose history of passages is `past`.
It says of every connection where its session stands and which passages it has made, and that a
connection on which something is to be done has a task in the queue.  So when the queue is empty
every session waits for its client or has ended (`Kept.settled`).

The invariant is kept by one task (`Kept.run`) and so by the queue (`Kept.settle`).  With it goes
`Abides`, what is never taken back: a session that was cancelled before it began stays uncounted.
-/

namespace WebSocketEcho

namespace Client

/-- The passages that the session on a connection has made are those of its stage. -/
def Accounted (c : Client) (ps : List Passage) : Prop :=
  match c.stage with
  | .starting _ => ps = []
  | .echoing _ => ps = [.entered c.id]
  | .ended => ps = [.entered c.id, .left c.id] ∨ ps = [] ∧ c.cancelled = true
  | .arriving | .requesting _ | .abandoned => False

/-- Nothing more comes on the connection: the session was cancelled, or the client has closed its
side or is gone. -/
def IsOver (c : Client) : Prop := c.cancelled = true ∨ c.wire.state ≠ .present

/-- The session on a connection is to begin or to end. -/
def IsDue (c : Client) : Prop :=
  match c.stage with
  | .starting _ => True
  | .echoing _ => c.IsOver
  | .arriving | .requesting _ | .abandoned | .ended => False

theorem Accounted.isSession {c : Client} {ps : List Passage} (h : c.Accounted ps) :
    c.IsSession := by
  unfold Accounted at h
  unfold IsSession
  cases hstage : c.stage <;> simp_all

end Client

namespace Server

theorem Turn.accounted {c c' : Client} {old ps : List Passage} (h : Turn c c' ps)
    (ha : c.Accounted old) : c'.Accounted (old ++ ps) := by
  unfold Client.Accounted at ha
  cases h with
  | idle h =>
    rw [List.append_nil, Client.Accounted, h]
    rw [h] at ha
    exact ha
  | dropped h hc =>
    rw [h] at ha
    subst ha
    exact Or.inr ⟨rfl, hc⟩
  | entered h =>
    rw [h] at ha
    subst ha
    rfl
  | visited h =>
    rw [h] at ha
    subst ha
    exact Or.inl rfl
  | stayed h =>
    rw [h] at ha
    subst ha
    rfl
  | left h =>
    rw [h] at ha
    subst ha
    exact Or.inl rfl

/-- After its turn a connection waits for its client. -/
theorem Turn.not_isDue {c c' : Client} {ps : List Passage} (h : Turn c c' ps) : ¬ c'.IsDue := by
  cases h with
  | idle h => simp [Client.IsDue, h]
  | entered _ hc hp hw => simp [Client.IsDue, Client.IsOver, hc, hw, hp]
  | stayed _ hc hp hw => simp [Client.IsDue, Client.IsOver, hc, hw, hp]
  | dropped | visited | left => exact id

/-- A session that was cancelled before it began is never counted. -/
theorem Turn.eq_nil_of_cancelled {c c' : Client} {ps : List Passage} (h : Turn c c' ps)
    (hc : c.cancelled = true) (ha : c.Accounted []) : ps = [] := by
  unfold Client.Accounted at ha
  cases h with
  | idle | dropped | stayed => rfl
  | entered _ hc' | visited _ hc' =>
    rw [hc] at hc'
    cases hc'
  | left h =>
    rw [h] at ha
    cases ha

/-- The ids of the connections on which a session runs. -/
def echoing (s : Server) : List String := (s.clients.filter Client.isEchoing).map (·.id)

/-- The invariant of a server of echo sessions with its history of passages. -/
structure Kept (s : Server) (past : List Passage) : Prop where
  mode : s.mode = .sessions
  nodup : s.ids.Nodup
  tasks : ∀ t ∈ s.ready, ∃ id, t = .advance id
  counters : s.counters = past.foldl Passage.count .zero
  orderly : Orderly past
  perm : (openSessions past).Perm s.echoing
  accounted : ∀ id c, s.find? id = some c → c.Accounted (passagesOf id past)
  unknown : ∀ id, s.find? id = none → passagesOf id past = []
  due : ∀ id c, s.find? id = some c → c.IsDue → .advance id ∈ s.ready

theorem kept_empty : Kept (empty .sessions) [] where
  mode := rfl
  nodup := List.nodup_nil
  tasks := fun t h => by cases h
  counters := rfl
  orderly := orderly_nil
  perm := List.Perm.refl _
  accounted := fun id c h => by cases h
  unknown := fun id _ => rfl
  due := fun id c h => by cases h

/-- What is decided about a connection stays decided: it stays known, a cancelled session stays
cancelled, a client that has gone stays away, and a session that was cancelled before it began is
never counted. -/
structure Abides (s : Server) (past : List Passage) (s' : Server) (past' : List Passage) :
    Prop where
  known : ∀ id c, s.find? id = some c → ∃ c', s'.find? id = some c' ∧
    (c.cancelled = true → c'.cancelled = true) ∧
    (c.wire.state ≠ .present → c'.wire.state ≠ .present)
  uncounted : ∀ id c, s.find? id = some c → c.cancelled = true → passagesOf id past = [] →
    passagesOf id past' = []

variable {s s₁ s₂ : Server} {past past₁ past₂ : List Passage}

theorem Abides.refl (s : Server) (past : List Passage) : s.Abides past s past where
  known := fun _ c hc => ⟨c, hc, fun h => h, fun h => h⟩
  uncounted := fun _ _ _ _ h => h

theorem Abides.trans (h₁ : s.Abides past s₁ past₁) (h₂ : s₁.Abides past₁ s₂ past₂) :
    s.Abides past s₂ past₂ := by
  constructor
  · intro id c hc
    obtain ⟨c₁, hc₁, hcancelled₁, hgone₁⟩ := h₁.known id c hc
    obtain ⟨c₂, hc₂, hcancelled₂, hgone₂⟩ := h₂.known id c₁ hc₁
    exact ⟨c₂, hc₂, fun h => hcancelled₂ (hcancelled₁ h), fun h => hgone₂ (hgone₁ h)⟩
  · intro id c hc hcancelled hnil
    obtain ⟨c₁, hc₁, hcancelled₁, _⟩ := h₁.known id c hc
    exact h₂.uncounted id c₁ hc₁ (hcancelled₁ hcancelled) (h₁.uncounted id c hc hcancelled hnil)

/-- When the queue is empty, every session waits for a client that is there, or has ended. -/
theorem Kept.settled (h : Kept s past) (hready : s.ready = []) {id : String} {c : Client}
    (hc : s.find? id = some c) :
    c.stage = .ended ∨ (∃ session, c.stage = .echoing session) ∧ ¬ c.IsOver := by
  have hdue : ¬ c.IsDue := fun hd => by
    have := h.due id c hc hd
    rw [hready] at this
    cases this
  have hacc := h.accounted id c hc
  unfold Client.Accounted at hacc
  unfold Client.IsDue at hdue
  cases hstage : c.stage with
  | ended => exact Or.inl rfl
  | echoing session =>
    rw [hstage] at hdue
    exact Or.inr ⟨⟨session, rfl⟩, hdue⟩
  | starting leftover =>
    rw [hstage] at hdue
    exact absurd trivial hdue
  | arriving | requesting | abandoned =>
    rw [hstage] at hacc
    exact hacc.elim

/-- The invariant after a change of one connection.  All that is asked is about this connection, the
tasks and the passages that were made; the others stay what they were. -/
theorem Kept.of_change (h : Kept s past) {id : String} {c' : Client} {ps : List Passage}
    (hfind : ∀ other, s₁.find? other = if other = id then some c' else s.find? other)
    (hps : ∀ p ∈ ps, p.id = id) (hmode : s₁.mode = s.mode) (hnodup : s₁.ids.Nodup)
    (hwoken : ∀ t ∈ s₁.ready, t = .advance id ∨ t ∈ s.ready)
    (hready : ∀ t ∈ s.ready, t ≠ .advance id → t ∈ s₁.ready)
    (hcounters : s₁.counters = ps.foldl Passage.count s.counters) (horderly : Orderly (past ++ ps))
    (hperm : (openSessions (past ++ ps)).Perm s₁.echoing)
    (hacc : c'.Accounted (passagesOf id past ++ ps))
    (hdue : c'.IsDue → .advance id ∈ s₁.ready) : Kept s₁ (past ++ ps) := by
  constructor
  · rw [hmode]
    exact h.mode
  · exact hnodup
  · intro t ht
    rcases hwoken t ht with rfl | ht
    · exact ⟨id, rfl⟩
    · exact h.tasks t ht
  · rw [hcounters, h.counters, List.foldl_append]
  · exact horderly
  · exact hperm
  · intro other d hd
    rw [hfind] at hd
    rw [passagesOf_append]
    by_cases hother : other = id
    · rw [if_pos hother] at hd
      cases hd
      rw [hother, passagesOf_eq_self hps]
      exact hacc
    · rw [if_neg hother] at hd
      rw [passagesOf_eq_nil hps hother, List.append_nil]
      exact h.accounted other d hd
  · intro other hd
    rw [hfind] at hd
    by_cases hother : other = id
    · rw [if_pos hother] at hd
      cases hd
    · rw [if_neg hother] at hd
      rw [passagesOf_append, passagesOf_eq_nil hps hother, List.append_nil]
      exact h.unknown other hd
  · intro other d hd hdue'
    rw [hfind] at hd
    by_cases hother : other = id
    · rw [if_pos hother] at hd
      cases hd
      rw [hother]
      exact hdue hdue'
    · rw [if_neg hother] at hd
      refine hready _ (h.due other d hd hdue') fun heq => ?_
      cases heq
      exact hother rfl

/-- The connections on which a session runs, with one of them set apart. -/
theorem echoing_perm {l₁ l₂ : List Client} {c : Client} (h : s.clients = l₁ ++ c :: l₂) :
    s.echoing.Perm
      (if c.isEchoing then
        c.id :: ((l₁ ++ l₂).filter Client.isEchoing).map (·.id)
      else ((l₁ ++ l₂).filter Client.isEchoing).map (·.id)) := by
  rw [echoing, h, List.filter_append, List.filter_append, List.map_append]
  cases hc : c.isEchoing with
  | true =>
    rw [List.filter_cons_of_pos hc, List.map_cons, List.map_append, if_pos rfl]
    exact List.perm_middle
  | false =>
    rw [List.filter_cons_of_neg (by simp [hc]), List.map_append, if_neg Bool.false_ne_true]

/-! ## Tasks -/

/-- A turn keeps the invariant, and takes the connection's task away. -/
theorem Kept.turn (h : Kept s past) {id : String} {c c' : Client} {f : Client → Client}
    {ps : List Passage} (hc : s.find? id = some c) (hf : ∀ d, (f d).id = d.id) (hfc : f c = c')
    (hturn : Turn c c' ps) {rest : List Task} (hready : s.ready = .advance id :: rest) :
    Kept { s.update id f with counters := ps.foldl Passage.count s.counters, ready := rest }
      (past ++ ps) := by
  have hid : c.id = id := id_of_find? hc
  obtain ⟨l₁, l₂, hl, hupdate⟩ := exists_update_eq h.nodup hc
  have hnodup : (s.update id f).ids.Nodup := by
    rw [ids_update fun d hd => (hf d).trans hd]
    exact h.nodup
  have hfind : ∀ other, (s.update id f).find? other =
      if other = id then some c' else s.find? other := by
    rw [← hfc]
    exact find?_update_of_find? hf hc
  refine h.of_change hfind (fun p hp => (hturn.id_of_mem p hp).trans hid) rfl hnodup ?_ ?_ rfl ?_ ?_
    (hturn.accounted (h.accounted id c hc)) (fun hdue => absurd hdue hturn.not_isDue)
  · intro t ht
    rw [hready]
    exact Or.inr (List.mem_cons_of_mem _ ht)
  · intro t ht hne
    rw [hready] at ht
    exact (List.mem_cons.1 ht).resolve_left hne
  · refine hturn.orderly h.orderly fun hecho => h.perm.mem_iff.2 ?_
    exact List.mem_map.2 ⟨c, List.mem_filter.2 ⟨mem_of_find? hc, hecho⟩, rfl⟩
  · rw [openSessions_append]
    have hbefore := h.perm.trans (echoing_perm hl)
    refine (hturn.perm_occupy hbefore).trans (List.Perm.symm (echoing_perm ?_))
    exact (hupdate f).trans (by rw [hfc])

/-- A task for a connection that is not there takes itself away and nothing else. -/
theorem Kept.skip (h : Kept s past) {id : String} (hid : s.find? id = none) {rest : List Task}
    (hready : s.ready = .advance id :: rest) : Kept { s with ready := rest } past where
  mode := h.mode
  nodup := h.nodup
  tasks := fun t ht => h.tasks t (by rw [hready]; exact List.mem_cons_of_mem _ ht)
  counters := h.counters
  orderly := h.orderly
  perm := h.perm
  accounted := h.accounted
  unknown := h.unknown
  due := by
    intro other c hc hdue
    have hmem := h.due other c hc hdue
    rw [hready] at hmem
    rcases List.mem_cons.1 hmem with heq | hmem
    · cases heq
      exact absurd (hid.symm.trans hc) (by simp)
    · exact hmem

/-- A turn leaves what is decided, on its own connection and on every other one. -/
theorem Kept.abides_of_turn (h : Kept s past) {id : String} {c c' : Client}
    (hc : s.find? id = some c) {ps : List Passage} (hturn : Turn c c' ps)
    (hfind : ∀ other, s₁.find? other = if other = id then some c' else s.find? other) :
    s.Abides past s₁ (past ++ ps) := by
  have hid : c.id = id := id_of_find? hc
  have hps : ∀ p ∈ ps, p.id = id := fun p hp => (hturn.id_of_mem p hp).trans hid
  constructor
  · intro other d hd
    rw [hfind]
    by_cases hother : other = id
    · subst hother
      rw [hc] at hd
      cases hd
      rw [if_pos rfl]
      refine ⟨c', rfl, ?_, ?_⟩
      · rw [hturn.cancelled_eq]
        exact fun h => h
      · rw [hturn.state_eq]
        exact fun h => h
    · rw [if_neg hother]
      exact ⟨d, hd, fun h => h, fun h => h⟩
  · intro other d hd hcancelled hnil
    rw [passagesOf_append, hnil, List.nil_append]
    by_cases hother : other = id
    · subst hother
      rw [hc] at hd
      cases hd
      have hacc := h.accounted other c hc
      rw [hnil] at hacc
      rw [hturn.eq_nil_of_cancelled hcancelled hacc]
      rfl
    · exact passagesOf_eq_nil hps hother

/-- A task keeps the invariant, leaves what is decided, and wakes nobody. -/
theorem Kept.run (h : Kept s past) {t : Task} {rest : List Task} (hready : s.ready = t :: rest) :
    Kept (run { s with ready := rest } t).1
        (past ++ passages (run { s with ready := rest } t).2) ∧
      s.Abides past (run { s with ready := rest } t).1
        (past ++ passages (run { s with ready := rest } t).2) ∧
      (run { s with ready := rest } t).1.ready = rest := by
  obtain ⟨id, rfl⟩ := h.tasks t (by rw [hready]; exact List.mem_cons_self)
  rw [Server.run]
  cases hc : s.find? id with
  | none =>
    have hrun : ({ s with ready := rest } : Server).advance id = ({ s with ready := rest }, []) := by
      rw [advance, show ({ s with ready := rest } : Server).find? id = none from hc]
    rw [hrun, passages_nil, List.append_nil]
    exact ⟨h.skip hc hready, ⟨fun _ c hc => ⟨c, hc, fun h => h, fun h => h⟩,
      fun _ _ _ _ h => h⟩, rfl⟩
  | some c =>
    have hid : c.id = id := id_of_find? hc
    obtain ⟨f, hf, hrun, hturn⟩ :=
      takesTurn_advance (s := { s with ready := rest }) hc (h.accounted id c hc).isSession
    rw [hid] at hrun
    rw [hrun]
    refine ⟨h.turn hc hf rfl hturn hready, h.abides_of_turn hc hturn ?_, rfl⟩
    exact find?_update_of_find? hf hc

/-- The queue keeps the invariant and leaves what is decided, until nothing is in it. -/
theorem Kept.runReady (h : Kept s past) (n : Nat) (hn : s.ready.length ≤ n) :
    Kept (runReady n s []).1 (past ++ passages (runReady n s []).2) ∧
      s.Abides past (runReady n s []).1 (past ++ passages (runReady n s []).2) ∧
      (runReady n s []).1.ready = [] := by
  induction n generalizing s past with
  | zero =>
    have hready : s.ready = [] := List.length_eq_zero_iff.1 (Nat.le_zero.1 hn)
    rw [runReady_nil 0 hready, passages_nil, List.append_nil]
    exact ⟨h, .refl s past, hready⟩
  | succ n ih =>
    cases hready : s.ready with
    | nil =>
      rw [runReady_nil _ hready, passages_nil, List.append_nil]
      exact ⟨h, .refl s past, hready⟩
    | cons t rest =>
      obtain ⟨hkept, habides, hrest⟩ := h.run hready
      rw [hready, List.length_cons] at hn
      obtain ⟨hkept', habides', hnil⟩ := ih hkept (by rw [hrest]; omega)
      rw [runReady_cons n hready, passages_append, ← List.append_assoc]
      exact ⟨hkept', habides.trans habides', hnil⟩

/-- The server settles within the invariant and leaves what is decided, and nothing is left to be
done. -/
theorem Kept.settle (h : Kept s past) :
    Kept s.settle.1 (past ++ passages s.settle.2) ∧
      s.Abides past s.settle.1 (past ++ passages s.settle.2) ∧ s.settle.1.ready = [] :=
  h.runReady s.work s.length_ready_le_work

end Server

end WebSocketEcho
