import WebSocketEcho.Proofs.Server.Keeping

/-!
# What clients do to the invariant

A client's action opens a connection or changes one that is there (`Deed`), and both keep the
invariant of `Kept` (`Kept.acted`).  With the queue this gives what a step keeps (`Kept.step`).

An action that ends a session leaves its mark on the connection even when it cannot be done, because
then the client had gone before (`Kept.isOver_acted`).
-/

namespace WebSocketEcho

/-- The connection on which an action ends the session. -/
def Action.ends? : Action → Option String
  | .finish id | .vanish id | .reset id | .abort id => some id
  | .connect .. | .send .. | .failAccept => none

namespace Client

/-- What an action of a client may change on its connection. -/
structure Acted (c c' : Client) : Prop where
  id : c'.id = c.id
  stage : c'.stage = c.stage
  cancelled : c.cancelled = true → c'.cancelled = true
  gone : c.wire.state ≠ .present → c'.wire.state ≠ .present

theorem Acted.accounted {c c' : Client} {ps : List Passage} (h : c.Acted c')
    (ha : c.Accounted ps) : c'.Accounted ps := by
  unfold Accounted at ha ⊢
  rw [h.stage, h.id]
  cases hstage : c.stage with
  | ended =>
    rw [hstage] at ha
    rcases ha with ha | ⟨ha, hc⟩
    · exact Or.inl ha
    · exact Or.inr ⟨ha, h.cancelled hc⟩
  | starting | echoing | arriving | requesting | abandoned =>
    rw [hstage] at ha
    exact ha

theorem Acted.isEchoing_eq {c c' : Client} (h : c.Acted c') : c'.isEchoing = c.isEchoing := by
  rw [isEchoing, isEchoing, h.stage]

end Client

namespace Server

variable {s s₁ : Server} {past : List Passage}

/-- What a client does to its connection keeps the invariant: it wakes the session when it is due. -/
theorem Kept.touch (h : Kept s past) {id : String} {c c' : Client} (hc : s.find? id = some c)
    (ha : c.Acted c') : Kept (s.touch c') past := by
  have hid : c.id = id := id_of_find? hc
  have hid' : c'.id = id := ha.id.trans hid
  obtain ⟨l₁, l₂, hl, hupdate⟩ := exists_update_eq h.nodup hc
  have hclients : (s.touch c').clients = l₁ ++ c' :: l₂ := by
    rw [clients_touch, hid']
    exact hupdate _
  have hnodup : (s.touch c').ids.Nodup := by
    rw [ids_touch]
    exact h.nodup
  have hfind : ∀ other,
      (s.touch c').find? other = if other = id then some c' else s.find? other := by
    intro other
    rw [find?_touch, hid']
    by_cases hother : other = id
    · rw [hother, hc, if_pos rfl]
      simp
    · rw [if_neg hother]
      simp [hother]
  rw [← List.append_nil past]
  refine h.of_change hfind (by simp) (mode_touch s c') hnodup ?_ ?_ (counters_touch s c') ?_ ?_ ?_ ?_
  · intro t ht
    rw [← hid']
    exact mem_ready_touch ht
  · exact fun t ht _ => mem_ready_touch_of_mem ht
  · rw [List.append_nil]
    exact h.orderly
  · rw [List.append_nil]
    refine h.perm.trans ((echoing_perm hl).trans (List.Perm.symm ?_))
    rw [← ha.isEchoing_eq, ← ha.id]
    exact echoing_perm hclients
  · rw [List.append_nil]
    exact ha.accounted (h.accounted id c hc)
  · intro hdue
    have hlive : c'.stage ≠ .arriving ∧ c'.stage ≠ .ended := by
      constructor <;>
      · intro hstage
        simp [Client.IsDue, hstage] at hdue
    rw [touch_of_live hlive.1 hlive.2, hid']
    exact mem_ready_wake_iff.2 (Or.inl rfl)

/-- A new connection keeps the invariant: its session is to begin and its task is woken. -/
theorem Kept.connect (h : Kept s past) {id : String} (hid : s.find? id = none)
    (peer : SocketAddress) : Kept (s.connect id peer) past := by
  have heq := connect_of_sessions h.mode id peer
  have hnodup : (s.connect id peer).ids.Nodup := by
    rw [heq, ids_wake]
    show ((s.clients ++ [Client.fresh id peer]).map (·.id)).Nodup
    rw [List.map_append]
    refine List.nodup_append.2 ⟨h.nodup, List.nodup_singleton _, fun a ha b hb hab => ?_⟩
    rw [hab, List.mem_singleton.1 hb] at ha
    exact find?_eq_none_iff.1 hid ha
  have hechoing : (s.connect id peer).echoing = s.echoing := by
    rw [echoing, heq, clients_wake]
    show ((s.clients ++ [Client.fresh id peer]).filter _).map _ = _
    rw [List.filter_append]
    simp [Client.fresh, Client.isEchoing, echoing]
  rw [← List.append_nil past]
  refine h.of_change (find?_connect h.mode hid peer) (by simp) ?_ hnodup ?_ ?_ ?_ ?_ ?_ ?_ ?_
  · rw [heq, mode_wake]
  · intro t ht
    rw [heq, mem_ready_wake_iff] at ht
    exact ht
  · intro t ht _
    rw [heq]
    exact mem_ready_wake_iff.2 (Or.inr ht)
  · rw [heq, counters_wake]
    rfl
  · rw [List.append_nil]
    exact h.orderly
  · rw [List.append_nil, hechoing]
    exact h.perm
  · rw [h.unknown id hid]
    rfl
  · intro _
    rw [heq]
    exact mem_ready_wake_iff.2 (Or.inl rfl)

/-- What an action that can be done does to a server of echo sessions: it opens a connection, or
changes one that the client may still act on. -/
inductive Deed (s : Server) : Action → Server → Prop where
  | opened {id : String} {peer : SocketAddress} (hid : s.find? id = none) :
      Deed s (.connect id peer) (s.connect id peer)
  | touched {a : Action} {id : String} {c c' : Client} (hc : s.find? id = some c)
      (ha : c.Acted c') (hends : ∀ other, a.ends? = some other → other = id ∧ c'.IsOver) :
      Deed s a (s.touch c')

theorem find?_of_live? {id : String} {c : Client} (h : s.live? id = some c) :
    s.find? id = some c := (Option.filter_eq_some_iff.1 h).1

theorem onLive_eq_ok {id : String} {f : Client → Client} (h : s.onLive id f = .ok s₁) :
    ∃ c, s.find? id = some c ∧ s₁ = s.touch (f c) := by
  rw [onLive] at h
  cases hlive : s.live? id with
  | none =>
    rw [hlive] at h
    cases h
  | some c =>
    rw [hlive] at h
    cases h
    exact ⟨c, find?_of_live? hlive, rfl⟩

theorem deed_of_act (hmode : s.mode = .sessions) {a : Action} (h : s.act a = .ok s₁) :
    s.Deed a s₁ := by
  cases a with
  | connect id peer =>
    rw [act] at h
    cases hid : s.find? id with
    | some c =>
      rw [hid] at h
      cases h
    | none =>
      rw [hid] at h
      cases h
      exact .opened hid
  | send id bytes =>
    obtain ⟨c, hc, rfl⟩ := onLive_eq_ok h
    refine .touched hc ⟨rfl, rfl, fun h => h, fun h => h⟩ fun other h => ?_
    cases h
  | finish id | vanish id | reset id =>
    obtain ⟨c, hc, rfl⟩ := onLive_eq_ok h
    refine .touched hc ⟨rfl, rfl, fun h => h, fun _ h => by cases h⟩ fun other h => ?_
    cases h
    exact ⟨rfl, Or.inr fun h => by cases h⟩
  | abort id =>
    rw [act, hmode] at h
    obtain ⟨c, hc, rfl⟩ := onLive_eq_ok h
    refine .touched hc ⟨rfl, rfl, fun _ => rfl, fun h => h⟩ fun other h => ?_
    cases h
    exact ⟨rfl, Or.inl rfl⟩
  | failAccept =>
    rw [act, hmode] at h
    cases h

/-- An action keeps the invariant and leaves what is decided. -/
theorem Kept.acted (h : Kept s past) (a : Action) :
    Kept (s.acted a) past ∧ s.Abides past (s.acted a) past := by
  cases hact : s.act a with
  | error p =>
    rw [acted_of_error hact]
    exact ⟨h, .refl s past⟩
  | ok s' =>
    rw [acted_of_ok hact]
    cases deed_of_act h.mode hact with
    | opened hid =>
      rename_i id peer
      refine ⟨h.connect hid peer, ⟨fun other c hc => ⟨c, ?_, fun h => h, fun h => h⟩,
        fun _ _ _ _ h => h⟩⟩
      rw [find?_connect h.mode hid, if_neg, hc]
      rintro rfl
      exact absurd (hid.symm.trans hc) (by simp)
    | touched hc ha hends =>
      rename_i id c c'
      refine ⟨h.touch hc ha, ⟨fun other d hd => ?_, fun _ _ _ _ h => h⟩⟩
      rw [find?_touch, hd, ha.id, id_of_find? hc]
      by_cases hother : other = id
      · rw [hother, hc] at hd
        cases hd
        exact ⟨c', by simp [hother], ha.cancelled, ha.gone⟩
      · exact ⟨d, by simp [hother], fun h => h, fun h => h⟩

/-- After an action that ends a session, nothing more comes on its connection: if the action cannot
be done, the client has gone before. -/
theorem Kept.isOver_acted (h : Kept s past) {a : Action} {id : String} (ha : a.ends? = some id)
    (hid : s.find? id ≠ none) : ∃ c, (s.acted a).find? id = some c ∧ c.IsOver := by
  obtain ⟨d, hd⟩ := Option.ne_none_iff_exists'.1 hid
  cases hact : s.act a with
  | ok s' =>
    rw [acted_of_ok hact]
    cases deed_of_act h.mode hact with
    | opened => cases ha
    | touched hc hacted hends =>
      rename_i id' c c'
      obtain ⟨rfl, hover⟩ := hends id ha
      refine ⟨c', ?_, hover⟩
      rw [find?_touch, hc, hacted.id, id_of_find? hc]
      simp
  | error p =>
    rw [acted_of_error hact]
    refine ⟨d, hd, Or.inr fun hpresent => ?_⟩
    have hlive : s.live? id = some d := by
      rw [live?, hd]
      simp [hpresent]
    cases a with
    | finish i | vanish i | reset i | abort i =>
      cases ha
      simp [act, h.mode, onLive, hlive] at hact
    | connect | send | failAccept => cases ha

/-- An abort that can be done cancels the session. -/
theorem Kept.cancelled_acted (h : Kept s past) {id : String} (hlive : (s.live? id).isSome) :
    ∃ c, (s.acted (.abort id)).find? id = some c ∧ c.cancelled = true := by
  obtain ⟨c, hc⟩ := Option.isSome_iff_exists.1 hlive
  have hact : s.act (.abort id) = .ok (s.touch { c with cancelled := true }) := by
    rw [act, h.mode, onLive, hc]
  rw [acted_of_ok hact, find?_touch, find?_of_live? hc]
  refine ⟨{ c with cancelled := true }, ?_, rfl⟩
  simp [id_of_find? (find?_of_live? hc)]

/-- Any number of actions keeps the invariant and leaves what is decided. -/
theorem Kept.foldl_acted (h : Kept s past) (actions : List Action) :
    Kept (actions.foldl Server.acted s) past ∧
      s.Abides past (actions.foldl Server.acted s) past := by
  induction actions generalizing s with
  | nil => exact ⟨h, .refl s past⟩
  | cons a rest ih =>
    obtain ⟨hkept, habides⟩ := h.acted a
    obtain ⟨hkept', habides'⟩ := ih hkept
    exact ⟨hkept', habides.trans habides'⟩

/-- A step keeps the invariant and leaves what is decided, and nothing is left to be done. -/
theorem Kept.step (h : Kept s past) (actions : List Action) :
    Kept (s.step actions).1 (past ++ passages (s.step actions).2.effects) ∧
      s.Abides past (s.step actions).1 (past ++ passages (s.step actions).2.effects) ∧
        (s.step actions).1.ready = [] := by
  obtain ⟨hkept, habides⟩ := h.foldl_acted actions
  obtain ⟨hkept', habides', hready⟩ := hkept.settle
  rw [step_fst, effects_step]
  exact ⟨hkept', habides.trans habides', hready⟩

end Server

end WebSocketEcho
