import WebSocketEcho.Proofs.Server.Accounts
import WebSocketEcho.Proofs.Server.OneSession
import WebSocketEcho.Proofs.Server.Segmentation
import WebSocketEcho.Proofs.Server.Stints

/-!
# Sessions do not see each other

What a server of echo sessions shows on one connection depends on what is done on that connection
and on nothing else, apart from the number of open sessions that two lines of the log tell:
`sessions_isolated`.  The others may come and go, send anything and fail in any way, in steps of
their own or in the same ones.

Two servers are `Alike` for a connection when it stands the same on both and its task is woken on
both or on none.  Actions and tasks of others leave a server alike to itself, those of the
connection keep two servers alike, and so a run is alike to the run of the connection alone
(`views_eq_alone`).
-/

namespace WebSocketEcho

/-- The connection that an action is on. -/
def Action.target? : Action → Option String
  | .connect id _ | .send id _ | .finish id | .vanish id | .reset id | .abort id => some id
  | .failAccept => none

/-- An event without the number of open sessions. -/
def Log.Event.uncounted : Log.Event → Log.Event
  | .sessionOpened peer _ => .sessionOpened peer 0
  | .sessionClosed peer _ => .sessionClosed peer 0
  | e => e

/-- An effect without the number of open sessions. -/
def Effect.uncounted : Effect → Effect
  | .logged e => .logged e.uncounted
  | e => e

namespace Server

/-! ## What is seen of a connection -/

/-- What a step shows on one connection. -/
structure View where
  output : Bytes
  closed : Bool
  /-- The lines of its own session, without the numbers of open sessions. -/
  log : List Log.Event
deriving DecidableEq, Repr

/-- A step that shows nothing. -/
def View.empty : View := ⟨[], false, []⟩

def view (s : Server) (id : String) (actions : List Action) : View where
  output := (s.step actions).2.output id
  closed := (s.step actions).2.closed.contains id
  log := (logged (share id (s.stepStints actions))).map Log.Event.uncounted

/-- The actions on one connection. -/
def onlyOn (id : String) (actions : List Action) : List Action :=
  actions.filter (·.target? == some id)

theorem onlyOn_cons_self {id : String} {a : Action} (ha : a.target? = some id)
    (rest : List Action) : onlyOn id (a :: rest) = a :: onlyOn id rest := by
  simp [onlyOn, ha]

theorem onlyOn_cons_of_ne {id : String} {a : Action} (ha : a.target? ≠ some id)
    (rest : List Action) : onlyOn id (a :: rest) = onlyOn id rest := by
  simp [onlyOn, ha]

/-- What is left of steps when the actions on other connections are left out, and the steps that
hold no others. -/
def projection (id : String) (steps : List (List Action)) : List (List Action) :=
  (steps.map (onlyOn id)).filter (!·.isEmpty)

/-- What a run shows on a connection in each step that acts on it. -/
def views (s : Server) (id : String) : List (List Action) → List View
  | [] => []
  | actions :: rest =>
    if (onlyOn id actions).isEmpty then (s.step actions).1.views id rest
    else s.view id actions :: (s.step actions).1.views id rest

/-- What effects show on one connection. -/
def viewOf (id : String) (effects : List Effect) : View :=
  ⟨bytesOn id effects, effects.contains (.closed id), (logged effects).map Log.Event.uncounted⟩

theorem view_eq (s : Server) (id : String) (actions : List Action) :
    s.view id actions = viewOf id (share id (s.stepStints actions)) := by
  have hshare : ∀ {β : Type} (f : Effect → Option β),
      (∀ e, (f e).isSome → e.owner? = some id) →
      (s.step actions).2.effects.filterMap f =
        (share id (s.stepStints actions)).filterMap f := by
    intro β f hf
    rw [← flatMap_stepStints]
    exact filterMap_share hf _ _
  rw [view, viewOf]
  congr 1
  · rw [Entry.output_eq, bytesOn, bytesOn, hshare]
    intro e he
    cases e with
    | wrote other bytes =>
      by_cases hother : other = id
      · rw [Effect.owner?, hother]
      · simp [hother] at he
    | closed | logged | passed => cases he
  · have hmem := hshare (fun e => if e = .closed id then some () else none) fun e he => by
      by_cases hclosed : e = .closed id
      · rw [hclosed, Effect.owner?]
      · simp [hclosed] at he
    have hiff : ∀ l : List Effect,
        l.filterMap (fun e => if e = .closed id then some () else none) ≠ [] ↔ .closed id ∈ l := by
      intro l
      simp
    rw [Bool.eq_iff_iff, List.contains_iff_mem, List.contains_iff_mem, mem_closed_iff, ← hiff,
      ← hiff, hmem]

/-- The numbers of open sessions are not seen. -/
theorem viewOf_uncounted (id : String) (effects : List Effect) :
    viewOf id (effects.map Effect.uncounted) = viewOf id effects := by
  have huncounted : ∀ e : Log.Event, e.uncounted.uncounted = e.uncounted := by
    intro e
    cases e <;> rfl
  rw [viewOf, viewOf]
  congr 1
  · rw [bytesOn, bytesOn, List.filterMap_map]
    congr 2
    funext e
    cases e <;> rfl
  · rw [Bool.eq_iff_iff, List.contains_iff_mem, List.contains_iff_mem, List.mem_map]
    constructor
    · rintro ⟨e, he, heq⟩
      cases e with
      | closed other =>
        cases heq
        exact he
      | wrote | logged | passed => cases heq
    · exact fun h => ⟨_, h, rfl⟩
  · rw [logged, logged, List.filterMap_map, List.map_filterMap, List.map_filterMap]
    congr 1
    funext e
    cases e with
    | logged e => exact congrArg some (huncounted e)
    | wrote | closed | passed => rfl

/-! ## Alike -/

/-- A connection stands the same on two servers, and its task is woken on both or on none. -/
structure Alike (id : String) (s s' : Server) : Prop where
  client : s.find? id = s'.find? id
  woken : .advance id ∈ s.ready ↔ .advance id ∈ s'.ready

section Alike

variable {id : String} {s s' s'' : Server} {past past' : List Passage}

theorem Alike.refl (id : String) (s : Server) : Alike id s s := ⟨rfl, Iff.rfl⟩

theorem Alike.symm (h : Alike id s s') : Alike id s' s := ⟨h.client.symm, h.woken.symm⟩

theorem Alike.trans (h : Alike id s s') (h' : Alike id s' s'') : Alike id s s'' :=
  ⟨h.client.trans h'.client, h.woken.trans h'.woken⟩

/-! ### Actions -/

theorem mem_ready_touch_iff {c : Client} {t : Task} : t ∈ (s.touch c).ready ↔
    t ∈ s.ready ∨ t = .advance c.id ∧ c.stage ≠ .arriving ∧ c.stage ≠ .ended := by
  by_cases hlive : c.stage ≠ .arriving ∧ c.stage ≠ .ended
  · rw [touch_of_live hlive.1 hlive.2, mem_ready_wake_iff]
    simp only [hlive, ne_eq, not_false_eq_true, and_true]
    exact or_comm
  · have htouch : (s.touch c).ready = s.ready := by
      rw [touch]
      split
      · rfl
      · rfl
      · rename_i harriving hended
        exact absurd ⟨harriving, hended⟩ hlive
    rw [htouch]
    simp only [hlive, and_false, or_false]

theorem nodup_ready_wake (h : s.ready.Nodup) (t : Task) : (s.wake t).ready.Nodup := by
  rw [wake]
  split
  · exact h
  · rename_i hnot
    have ht : t ∉ s.ready := by simpa using hnot
    refine List.nodup_append.2 ⟨h, List.nodup_singleton t, fun a ha b hb hab => ht ?_⟩
    rw [← List.mem_singleton.1 hb, ← hab]
    exact ha

theorem nodup_ready_touch (h : s.ready.Nodup) (c : Client) : (s.touch c).ready.Nodup := by
  rw [touch]
  split
  · exact h
  · exact h
  · exact nodup_ready_wake (s := s.update c.id fun _ => c) h _

/-- What a client does to a connection that is there. -/
def changed (a : Action) (c : Client) : Client :=
  match a with
  | .connect _ _ | .failAccept => c
  | .send _ bytes => { c with wire := c.wire.send bytes }
  | .finish _ => { c with wire := { c.wire with state := .finished } }
  | .vanish _ => { c with wire := { c.wire with state := .vanished } }
  | .reset _ => { c with wire := { c.wire with state := .reset } }
  | .abort _ => { c with cancelled := true }

theorem id_changed (a : Action) (c : Client) : (changed a c).id = c.id := by
  cases a <;> rfl

/-- The server after an action on a connection.  Nothing is done if the client may not act on it. -/
def touchLive (s : Server) (id : String) (a : Action) : Server :=
  match s.live? id with
  | none => s
  | some c => s.touch (changed a c)

/-- The server after opening a connection.  Nothing is done if the id was used before. -/
def enrol (s : Server) (id : String) (peer : SocketAddress) : Server :=
  if (s.find? id).isSome then s else s.connect id peer

/-- An action opens its connection or changes it, and what it does depends on nothing else. -/
theorem acted_eq (hmode : s.mode = .sessions) (a : Action) :
    s.acted a =
      match a with
      | .failAccept => s
      | .connect id peer => s.enrol id peer
      | .send id _ | .finish id | .vanish id | .reset id | .abort id => s.touchLive id a := by
  have honLive : ∀ id, s.act a = s.onLive id (changed a) → s.acted a = s.touchLive id a := by
    intro id hact
    rw [acted, hact, onLive, touchLive]
    cases s.live? id <;> rfl
  cases a with
  | failAccept => rw [acted, act, hmode]
  | connect id peer =>
    rw [acted, act]
    dsimp only [enrol]
    cases s.find? id <;> rfl
  | send id | finish id | vanish id | reset id => exact honLive id rfl
  | abort id =>
    refine honLive id ?_
    rw [act, hmode]
    cases s.live? id <;> rfl

theorem mode_acted (hmode : s.mode = .sessions) (a : Action) : (s.acted a).mode = .sessions := by
  rw [acted_eq hmode]
  cases a with
  | failAccept => exact hmode
  | connect id peer =>
    dsimp only [enrol]
    split
    · exact hmode
    · rw [connect_of_sessions hmode, mode_wake]
      exact hmode
  | send id | finish id | vanish id | reset id | abort id =>
    dsimp only [touchLive]
    cases s.live? id with
    | none => exact hmode
    | some c => exact (mode_touch s _).trans hmode

theorem nodup_ready_acted (hmode : s.mode = .sessions) (h : s.ready.Nodup) (a : Action) :
    (s.acted a).ready.Nodup := by
  rw [acted_eq hmode]
  cases a with
  | failAccept => exact h
  | connect id peer =>
    dsimp only [enrol]
    split
    · exact h
    · rw [connect_of_sessions hmode]
      exact nodup_ready_wake (s := { s with clients := s.clients ++ [.fresh id peer] }) h _
  | send id | finish id | vanish id | reset id | abort id =>
    dsimp only [touchLive]
    cases s.live? id with
    | none => exact h
    | some c => exact nodup_ready_touch h _

/-- An action on another connection is not noticed. -/
theorem alike_acted_of_ne (hmode : s.mode = .sessions) {a : Action} (ha : a.target? ≠ some id) :
    Alike id (s.acted a) s := by
  have htouch : ∀ other, other ≠ id → Alike id (s.touchLive other a) s := by
    intro other hother
    rw [touchLive]
    cases hlive : s.live? other with
    | none => exact .refl id s
    | some c =>
      have hcid : (changed a c).id = other :=
        (id_changed a c).trans (id_of_find? (find?_of_live? hlive))
      constructor
      · rw [find?_touch, hcid]
        simp [hother.symm]
      · rw [mem_ready_touch_iff, hcid]
        simp [hother.symm]
  rw [acted_eq hmode]
  cases a with
  | failAccept => exact .refl id s
  | connect other peer =>
    have hother : id ≠ other := fun h => ha (congrArg some h.symm)
    dsimp only [enrol]
    split
    · exact .refl id s
    · rename_i hnone
      constructor
      · rw [find?_connect hmode (by simpa using hnone), if_neg hother]
      · rw [connect_of_sessions hmode, mem_ready_wake_iff]
        simp [hother]
  | send other | finish other | vanish other | reset other | abort other =>
    exact htouch other fun h => ha (congrArg some h)

/-- An action on the connection does the same on both servers. -/
theorem Alike.acted (hmode : s.mode = .sessions) (hmode' : s'.mode = .sessions)
    (h : Alike id s s') {a : Action} (ha : a.target? = some id) :
    Alike id (s.acted a) (s'.acted a) := by
  have hlive : s.live? id = s'.live? id := by rw [live?, live?, h.client]
  have htouch : Alike id (s.touchLive id a) (s'.touchLive id a) := by
    rw [touchLive, touchLive, ← hlive]
    cases s.live? id with
    | none => exact h
    | some c =>
      constructor
      · rw [find?_touch, find?_touch, h.client]
      · rw [mem_ready_touch_iff, mem_ready_touch_iff, h.woken]
  rw [acted_eq hmode, acted_eq hmode']
  cases a with
  | failAccept => cases ha
  | connect other peer =>
    cases ha
    dsimp only [enrol]
    rw [← h.client]
    split
    · exact h
    · rename_i hnone
      have hid : s.find? id = none := by simpa using hnone
      have hid' : s'.find? id = none := h.client ▸ hid
      constructor
      · rw [find?_connect hmode hid, find?_connect hmode' hid', if_pos rfl, if_pos rfl]
      · rw [connect_of_sessions hmode, connect_of_sessions hmode', mem_ready_wake_iff,
          mem_ready_wake_iff]
        simp
  | send other | finish other | vanish other | reset other | abort other =>
    cases ha
    exact htouch

/-- The actions of others can be left out. -/
theorem Alike.foldl_acted (hmode : s.mode = .sessions) (hmode' : s'.mode = .sessions)
    (h : Alike id s s') (actions : List Action) :
    Alike id (actions.foldl Server.acted s) ((onlyOn id actions).foldl Server.acted s') := by
  induction actions generalizing s s' with
  | nil => exact h
  | cons a rest ih =>
    by_cases ha : a.target? = some id
    · rw [onlyOn_cons_self ha]
      exact ih (mode_acted hmode a) (mode_acted hmode' a) (h.acted hmode hmode' ha)
    · rw [onlyOn_cons_of_ne ha]
      exact ih (mode_acted hmode a) hmode' ((alike_acted_of_ne hmode ha).trans h)

theorem nodup_ready_foldl_acted (hmode : s.mode = .sessions) (h : s.ready.Nodup)
    (actions : List Action) : (actions.foldl Server.acted s).ready.Nodup := by
  induction actions generalizing s with
  | nil => exact h
  | cons a rest ih => exact ih (mode_acted hmode a) (nodup_ready_acted hmode h a)

/-! ### Tasks -/

/-- A turn of the connection does the same on both servers, and shows the same. -/
theorem advance_congr {c : Client} (hc : s.find? id = some c) (hc' : s'.find? id = some c)
    (hsession : c.IsSession) :
    (s.advance id).1.find? id = (s'.advance id).1.find? id ∧
      (s.advance id).2.map Effect.uncounted = (s'.advance id).2.map Effect.uncounted := by
  obtain rfl : c.id = id := id_of_find? hc
  have htold : ∀ (c₁ c₂ : Counters) (r : List Reaction × Progress),
      (told c₁ c.id c.peer r).map Effect.uncounted =
        (told c₂ c.id c.peer r).map Effect.uncounted := by
    intro c₁ c₂ r
    rw [told, told, List.map_append, List.map_append]
    cases r.2 <;> rfl
  have hended : ∀ x : Server, x.find? c.id = some c →
      (x.update c.id fun d => { d with stage := .ended }).find? c.id =
        some { c with stage := .ended } :=
    fun x hx => find?_update_self (f := fun d => { d with stage := .ended }) (fun d hd => hd) hx
  rw [advance, advance, hc, hc']
  dsimp only
  cases hcancelled : c.cancelled with
  | true =>
    rw [if_pos rfl, if_pos rfl, cancel, cancel]
    cases hstage : c.stage with
    | ended => exact ⟨hc.trans hc'.symm, rfl⟩
    | echoing session => exact ⟨(hended s hc).trans (hended s' hc').symm, rfl⟩
    | starting leftover => exact ⟨(hended s hc).trans (hended s' hc').symm, rfl⟩
    | arriving | requesting | abandoned => simp [Client.IsSession, hstage] at hsession
  | false =>
    rw [if_neg Bool.false_ne_true, if_neg Bool.false_ne_true]
    cases hstage : c.stage with
    | ended => exact ⟨hc.trans hc'.symm, rfl⟩
    | echoing session =>
      obtain ⟨hfind, _, _, heffects⟩ := runSession_spec hc session
      obtain ⟨hfind', _, _, heffects'⟩ := runSession_spec hc' session
      dsimp only
      rw [hfind, hfind', heffects, heffects']
      exact ⟨rfl, htold _ _ _⟩
    | starting leftover =>
      obtain ⟨hfind, _, _, heffects⟩ :=
        runSession_spec (s := { s with counters := s.counters.enter }) hc (.begin leftover)
      obtain ⟨hfind', _, _, heffects'⟩ :=
        runSession_spec (s := { s' with counters := s'.counters.enter }) hc' (.begin leftover)
      dsimp only [startSession]
      rw [hfind, hfind', heffects, heffects', List.map_cons, List.map_cons, List.map_cons,
        List.map_cons, htold _ s'.counters.enter]
      exact ⟨rfl, rfl⟩
    | arriving | requesting | abandoned => simp [Client.IsSession, hstage] at hsession

/-- A turn of another connection is not noticed. -/
theorem find?_advance_of_ne (h : Kept s past) {other : String} (hother : other ≠ id)
    (rest : List Task) :
    (({ s with ready := rest } : Server).advance other).1.find? id = s.find? id := by
  cases hc : s.find? other with
  | none => rw [advance, show ({ s with ready := rest } : Server).find? other = none from hc]; rfl
  | some c =>
    obtain ⟨f, hf, hresult, _⟩ :=
      takesTurn_advance (s := { s with ready := rest }) hc (h.accounted other c hc).isSession
    rw [hresult]
    refine find?_update_of_ne (f := f) (s := s) (fun d hd => (hf d).trans hd) ?_
    rw [id_of_find? hc]
    exact hother.symm

/-- When the server runs, a connection has its turn if its task is woken, and nothing else happens
to it. -/
theorem Kept.turn_runReady (h : Kept s past) (hnodup : s.ready.Nodup) (id : String) (n : Nat)
    (hn : s.ready.length ≤ n) :
    (.advance id ∉ s.ready ∧ (Server.runReady n s []).1.find? id = s.find? id ∧
        share id (stints n s) = []) ∨
      .advance id ∈ s.ready ∧ ∃ s₁ : Server, s₁.find? id = s.find? id ∧
        (Server.runReady n s []).1.find? id = (s₁.advance id).1.find? id ∧
        share id (stints n s) = (s₁.advance id).2 := by
  induction n generalizing s past with
  | zero =>
    have hready : s.ready = [] := List.length_eq_zero_iff.1 (Nat.le_zero.1 hn)
    refine Or.inl ⟨by simp [hready], ?_, rfl⟩
    rw [runReady_nil 0 hready]
  | succ n ih =>
    cases hready : s.ready with
    | nil =>
      refine Or.inl ⟨by simp, ?_, ?_⟩
      · rw [runReady_nil _ hready]
      · rw [stints_of_nil _ hready]
        rfl
    | cons t rest =>
      obtain ⟨other, rfl⟩ := h.tasks t (by rw [hready]; exact List.mem_cons_self)
      obtain ⟨hkept, _, hrest⟩ := h.run hready
      rw [hready, List.nodup_cons] at hnodup
      rw [hready, List.length_cons] at hn
      have hrec := ih hkept (by rw [hrest]; exact hnodup.2) (by rw [hrest]; omega)
      rw [hrest] at hrec
      rw [runReady_cons n hready, stints_cons n hready]
      by_cases hother : other = id
      · rw [hother] at hnodup hrec ⊢
        -- The task of the connection is in the queue only once.
        obtain ⟨_, hfind, hshare⟩ := hrec.resolve_right fun hmem => hnodup.1 hmem.1
        refine Or.inr ⟨List.mem_cons_self, { s with ready := rest }, rfl, hfind, ?_⟩
        rw [share_cons_self, hshare, List.append_nil]
        rfl
      · have hne : Task.advance other ≠ .advance id := fun heq => hother (Task.advance.inj heq)
        rw [share_cons_of_ne hne]
        have hsame := find?_advance_of_ne h hother rest
        rcases hrec with ⟨hnot, hfind, hshare⟩ | ⟨hmem, s₁, hfind₁, hfind, hshare⟩
        · refine Or.inl ⟨?_, hfind.trans hsame, hshare⟩
          rintro (_ | ⟨_, hmem⟩)
          · exact hother rfl
          · exact hnot hmem
        · exact Or.inr ⟨List.mem_cons_of_mem _ hmem, s₁, hfind₁.trans hsame, hfind, hshare⟩

/-- Two servers that are alike stay so when they run, and show the same of the connection. -/
theorem Alike.settle (hk : Kept s past) (hk' : Kept s' past') (hnodup : s.ready.Nodup)
    (hnodup' : s'.ready.Nodup) (h : Alike id s s') :
    Alike id s.settle.1 s'.settle.1 ∧
      (share id (stints s.work s)).map Effect.uncounted =
        (share id (stints s'.work s')).map Effect.uncounted := by
  have hready : (.advance id ∈ s.settle.1.ready ↔ .advance id ∈ s'.settle.1.ready) := by
    rw [hk.settle.2.2, hk'.settle.2.2]
  have hrun := hk.turn_runReady hnodup id s.work s.length_ready_le_work
  have hrun' := hk'.turn_runReady hnodup' id s'.work s'.length_ready_le_work
  rw [Server.settle, Server.settle] at *
  rcases hrun with ⟨hnot, hfind, hshare⟩ | ⟨hmem, s₁, hfind₁, hfind, hshare⟩
  · obtain ⟨_, hfind', hshare'⟩ := hrun'.resolve_right fun hmem => hnot (h.woken.2 hmem.1)
    exact ⟨⟨hfind.trans (h.client.trans hfind'.symm), hready⟩, by rw [hshare, hshare']⟩
  · obtain ⟨_, s₁', hfind₁', hfind', hshare'⟩ :=
      hrun'.resolve_left fun hnot => hnot.1 (h.woken.1 hmem)
    rw [hshare, hshare']
    cases hc : s.find? id with
    | none =>
      have hnone : ∀ x : Server, x.find? id = none → x.advance id = (x, []) := by
        intro x hx
        rw [advance, hx]
      have h₁ := hfind₁.trans hc
      have h₁' := hfind₁'.trans (h.client.symm.trans hc)
      rw [hnone s₁ h₁] at hfind ⊢
      rw [hnone s₁' h₁'] at hfind' ⊢
      exact ⟨⟨hfind.trans (h₁.trans (h₁'.symm.trans hfind'.symm)), hready⟩, rfl⟩
    | some c =>
      obtain ⟨hsame, heffects⟩ := advance_congr (hfind₁.trans hc)
        (hfind₁'.trans (h.client.symm.trans hc)) (hk.accounted id c hc).isSession
      exact ⟨⟨hfind.trans (hsame.trans hfind'.symm), hready⟩, heffects⟩

/-! ### Runs -/

/-- A step does to the connection what its own actions alone do, and shows the same. -/
theorem Alike.step (hk : Kept s past) (hk' : Kept s' past') (hready : s.ready = [])
    (hready' : s'.ready = []) (h : Alike id s s') (actions : List Action) :
    Alike id (s.step actions).1 (s'.step (onlyOn id actions)).1 ∧
      s.view id actions = s'.view id (onlyOn id actions) := by
  have hnodup := nodup_ready_foldl_acted hk.mode (by rw [hready]; exact List.nodup_nil) actions
  have hnodup' := nodup_ready_foldl_acted hk'.mode (by rw [hready']; exact List.nodup_nil)
    (onlyOn id actions)
  obtain ⟨halike, hshare⟩ := (h.foldl_acted hk.mode hk'.mode actions).settle
    (hk.foldl_acted actions).1 (hk'.foldl_acted (onlyOn id actions)).1 hnodup hnodup'
  rw [step_fst, step_fst, view_eq, view_eq, ← viewOf_uncounted,
    ← viewOf_uncounted id (share id (s'.stepStints _)), stepStints, stepStints, hshare]
  exact ⟨halike, rfl⟩

/-- A step without an action on the connection leaves it as it is and shows nothing on it. -/
theorem view_of_others (hk : Kept s past) (hready : s.ready = []) {actions : List Action}
    (h : onlyOn id actions = []) :
    Alike id (s.step actions).1 s ∧ s.view id actions = .empty := by
  obtain ⟨halike, hview⟩ := (Alike.refl id s).step hk hk hready hready actions
  have hstep : s.step [] = (s, ⟨[], [], s.counters⟩) := by
    rw [Server.step, perform, List.foldl_nil]
    dsimp only
    rw [settle_of_nil hready]
  have hempty : s.view id [] = .empty := by
    rw [view_eq, stepStints, List.foldl_nil, stints_of_nil _ hready]
    rfl
  rw [h, hstep] at halike
  rw [h, hempty] at hview
  exact ⟨halike, hview⟩

theorem onlyOn_onlyOn (id : String) (actions : List Action) :
    onlyOn id (onlyOn id actions) = onlyOn id actions := by
  rw [onlyOn, onlyOn, List.filter_filter]
  simp

/-- A run shows a connection what the run of it alone shows. -/
theorem views_eq_alone (hk : Kept s past) (hk' : Kept s' past') (hready : s.ready = [])
    (hready' : s'.ready = []) (h : Alike id s s') (steps : List (List Action)) :
    s.views id steps = s'.views id (projection id steps) := by
  induction steps generalizing s s' past past' with
  | nil => rfl
  | cons actions rest ih =>
    obtain ⟨hkept, _, hnil⟩ := hk.step actions
    rw [views]
    by_cases hothers : onlyOn id actions = []
    · have hprojection : projection id (actions :: rest) = projection id rest := by
        simp [projection, hothers]
      have hempty : (onlyOn id actions).isEmpty = true := by rw [hothers]; rfl
      rw [hempty, if_pos rfl, hprojection]
      exact ih hkept hk' hnil hready' ((view_of_others hk hready hothers).1.trans h)
    · have hprojection :
          projection id (actions :: rest) = onlyOn id actions :: projection id rest := by
        simp [projection, hothers]
      obtain ⟨halike, hview⟩ := h.step hk hk' hready hready' actions
      obtain ⟨hkept', _, hnil'⟩ := hk'.step (onlyOn id actions)
      have hsome : (onlyOn id actions).isEmpty = false := by simpa using hothers
      rw [hprojection, views, onlyOn_onlyOn, hsome, if_neg Bool.false_ne_true,
        if_neg Bool.false_ne_true, hview, ih hkept hkept' hnil hnil' halike]

end Alike

/-- Two runs that do the same on a connection show the same on it, in each step that acts on it: what
is written, whether it is closed, and what its session logs.  The other steps show nothing on it. -/
theorem sessions_isolated {id : String} {a b : List (List Action)}
    (h : projection id a = projection id b) :
    (empty .sessions).views id a = (empty .sessions).views id b ∧
      ∀ earlier actions, onlyOn id actions = [] → (after earlier).view id actions = .empty := by
  have halone := views_eq_alone kept_empty kept_empty rfl rfl (.refl id (empty .sessions))
  constructor
  · rw [halone a, halone b, h]
  · intro earlier actions hothers
    obtain ⟨hkept, hready⟩ := kept_after earlier
    exact (view_of_others hkept hready hothers).2

/-- A client that pings and closes its side, -/
def pinging : List (List Action) :=
  [[.connect "a" loopback], [.send "a" [0x89, 0x81, 1, 2, 3, 4, 0x60]], [.finish "a"]]

/-- and the same client among others that break the rules, vanish and are cancelled in its steps. -/
def pingingAmongOthers : List (List Action) :=
  [[.connect "b" loopback, .send "b" [0xC1, 0x80, 0, 0, 0, 0]],
    [.connect "c" loopback, .connect "a" loopback, .send "c" [0x81]],
    [.send "c" [0x02], .send "a" [0x89, 0x81, 1, 2, 3, 4, 0x60], .vanish "c"],
    [.connect "d" loopback, .abort "d"], [.reset "b", .finish "a", .connect "e" loopback]]

theorem pingingAmongOthers_isolated :
    projection "a" pingingAmongOthers = projection "a" pinging ∧
      (empty .sessions).views "a" pingingAmongOthers =
        [⟨[], false, [.sessionOpened loopback 0]⟩, ⟨[0x8A, 1, 0x61], false, []⟩,
          ⟨[], true, [.sessionEnded loopback (.failed (.protocol .unfinished)),
            .sessionClosed loopback 0]⟩] := by
  have hprojection : projection "a" pingingAmongOthers = projection "a" pinging := rfl
  refine ⟨hprojection, (sessions_isolated hprojection).1.trans ?_⟩
  decide +kernel

end Server

end WebSocketEcho
