import FirewallLLM.SharedSlot

/-! # Ingress tunnels

Agents connect to the gateway by websockets.  `handle_ingress_socket` registers the sender of
its own channel under the id of the agent, serves the socket until something breaks the loop,
and then unregisters the agent, by its id.  Both registering and unregistering take two locks,
one after the other.

The connections are numbered in the order in which they authenticate, and a sender is the
number of its connection.  The loops interleave at every await; an event for which a connection
is not ready changes nothing.  Clock readings come with the events.

The registry refines `SharedSlot`, with agent ids as keys (`view_step`).

`reconnect_kept`: the connection that registered last is never undone by an older one when
every connection registers after the older ones of its agent have finished their cleanup, and
only then can nothing that the loops do undo it. -/

namespace FirewallLLM.Ingress

/-! ### The registry -/

/-- Where `handle_ingress_socket` is: before `register_tunnel`, between its two locks, in the
loop, after the loop, between the two locks of `unregister_agent`, and at the end. -/
inductive Phase where
  | authenticated | tunnelInserted | running | broken | agentRemoved | finished
deriving DecidableEq, Repr

/-- A connection: its agent, its channel (the ids of the queued requests), the requests that
wait for a reply, and the clones of its sender that forwards hold. -/
structure Conn where
  agentId : String
  phase : Phase
  queue : List ℕ
  pending : List ℕ
  senders : ℕ
deriving DecidableEq, Repr

/-- `AgentConn`. -/
structure AgentConn where
  agentId : String
  connectedAt : ℤ
  lastSeen : ℤ
deriving DecidableEq, Repr

/-- The two maps of the registry and the connections.  `latest` is bookkeeping that no step
reads: the connection of an agent that inserted its tunnel last. -/
structure State where
  tunnels : String → Option ℕ
  agents : String → Option AgentConn
  conns : List Conn
  latest : String → Option ℕ

def init : State := ⟨fun _ => none, fun _ => none, [], fun _ => none⟩

/-- `TUNNEL_QUEUE_DEPTH`. -/
def tunnelQueueDepth : ℕ := 16

/-- `HEARTBEAT_TIMEOUT_SECS`. -/
def heartbeatTimeoutSecs : ℤ := 90

/-- `is_stale`. -/
def isStale (s : State) (agentId : String) (now maxAgeSecs : ℤ) : Bool :=
  match s.agents agentId with
  | some conn => decide (now - conn.lastSeen > maxAgeSecs)
  | none => true

/-- `touch_agent`. -/
def touchAgent (s : State) (agentId : String) (now : ℤ) : State :=
  match s.agents agentId with
  | some conn =>
      { s with agents := Function.update s.agents agentId (some { conn with lastSeen := now }) }
  | none => s

def State.setConn (s : State) (c : ℕ) (k : Conn) : State := { s with conns := s.conns.set c k }

/-- `forward` up to the point where the request is in the channel. -/
def forward (s : State) (agentId : String) (id : ℕ) : Except String State :=
  match s.tunnels agentId with
  | none => .error s!"no tunnel for agent {agentId}"
  | some c => match s.conns[c]? with
      | none => .error "agent disconnected"
      | some k =>
          if k.phase = .finished then .error "agent disconnected"
          else if k.queue.length ≥ tunnelQueueDepth then .error "agent overloaded"
          else .ok (s.setConn c { k with queue := k.queue ++ [id], senders := k.senders + 1 })

/-! ### Steps -/

/-- A step of a connection, or of a forward. -/
inductive Event where
  | connect (agentId : String)
  | insertTunnel (c : ℕ)
  | insertAgent (c : ℕ) (now : ℤ)
  | tick (c : ℕ) (now : ℤ) (sent : Bool)
  | text (c : ℕ) (id : ℕ)
  | ping (c : ℕ)
  | pong (c : ℕ) (now : ℤ)
  | close (c : ℕ)
  | recv (c : ℕ) (sent : Bool)
  | recvClosed (c : ℕ)
  | removeAgent (c : ℕ)
  | removeTunnel (c : ℕ)
  | forward (agentId : String) (id : ℕ)
  | forwardEnd (c : ℕ)

/-- One step of a connection that is in its loop. -/
def loopStep (s : State) (c : ℕ) (k : Conn) : Event → State
  -- a ping that cannot be sent and a stale agent break the loop
  | .tick _ now sent =>
      if !sent || isStale s k.agentId now heartbeatTimeoutSecs then
        s.setConn c { k with phase := .broken }
      else s
  | .text _ id => s.setConn c { k with pending := k.pending.erase id }
  | .pong _ now => touchAgent s k.agentId now
  | .close _ => s.setConn c { k with phase := .broken }
  | .recv _ sent => match k.queue with
      | [] => s
      | id :: queue => s.setConn c { k with
          queue, pending := k.pending ++ [id], phase := if sent then k.phase else .broken }
  -- the channel is closed when it is empty and no sender is left
  | .recvClosed _ =>
      if k.queue = [] ∧ k.senders = 0 ∧ s.tunnels k.agentId ≠ some c then
        s.setConn c { k with phase := .broken }
      else s
  | _ => s

/-- One step of a connection. -/
def connStep (s : State) (c : ℕ) (k : Conn) (e : Event) : State :=
  match k.phase, e with
  | .authenticated, .insertTunnel _ => { s.setConn c { k with phase := .tunnelInserted } with
      tunnels := Function.update s.tunnels k.agentId (some c)
      latest := Function.update s.latest k.agentId (some c) }
  | .tunnelInserted, .insertAgent _ now => { s.setConn c { k with phase := .running } with
      agents := Function.update s.agents k.agentId (some ⟨k.agentId, now, now⟩) }
  | .running, e => loopStep s c k e
  | .broken, .removeAgent _ => { s.setConn c { k with phase := .agentRemoved } with
      agents := Function.update s.agents k.agentId none }
  | .agentRemoved, .removeTunnel _ => { s.setConn c { k with phase := .finished } with
      tunnels := Function.update s.tunnels k.agentId none }
  | _, _ => s

/-- The connection that an event is a step of. -/
def Event.conn? : Event → Option ℕ
  | connect _ | forward _ _ | forwardEnd _ => none
  | insertTunnel c | insertAgent c _ | tick c _ _ | text c _ | ping c | pong c _ | close c
  | recv c _ | recvClosed c | removeAgent c | removeTunnel c => some c

/-- One step. -/
def step (s : State) : Event → State
  | .connect agentId => { s with conns := s.conns ++ [⟨agentId, .authenticated, [], [], 0⟩] }
  | .forward agentId id => match forward s agentId id with
      | .ok s' => s'
      | .error _ => s
  | .forwardEnd c => match s.conns[c]? with
      | some k => s.setConn c { k with senders := k.senders - 1 }
      | none => s
  | e => match e.conn? with
      | some c => match s.conns[c]? with
          | some k => connStep s c k e
          | none => s
      | none => s

/-! ### What should hold -/

/-- The connection of an agent that registered last can be reached while its loop runs. -/
def Reached (s : State) : Prop :=
  ∀ c k, s.conns[c]? = some k → s.latest k.agentId = some c → k.phase = .running →
    s.tunnels k.agentId = some c ∧ (s.agents k.agentId).isSome

/-- A connection inserts its tunnel only when every other connection of its agent has finished
or has not inserted its own. -/
def Orderly (s : State) (e : Event) : Prop :=
  ∀ c k, e = .insertTunnel c → s.conns[c]? = some k → k.phase = .authenticated →
    ∀ k' ∈ s.conns, k'.agentId = k.agentId → k'.phase = .authenticated ∨ k'.phase = .finished

/-! ### Refinement -/

open SharedSlot (Action act)

/-- The phase of a holder. -/
def Phase.toHolder : Phase → SharedSlot.Phase
  | authenticated => .waiting
  | tunnelInserted => .entering
  | running => .active
  | broken => .leaving
  | agentRemoved => .clearing
  | finished => .gone

/-- The registry as a table of shared slots. -/
def view (s : State) : SharedSlot.State String where
  holders := s.conns.map (fun k => (k.agentId, k.phase.toHolder))
  slot := s.tunnels
  record := fun agentId => (s.agents agentId).isSome
  latest := s.latest

theorem view_holders (s : State) (c : ℕ) :
    (view s).holders[c]? = (s.conns[c]?).map (fun k => (k.agentId, k.phase.toHolder)) :=
  List.getElem?_map

theorem view_setConn {s : State} {c : ℕ} {k : Conn} (hk : s.conns[c]? = some k) {k' : Conn}
    (hagent : k'.agentId = k.agentId) :
    view (s.setConn c k') = (view s).move c k'.phase.toHolder := by
  have hholders : (view (s.setConn c k')).holders =
      ((view s).move c k'.phase.toHolder).holders := by
    apply List.ext_getElem?
    intro i
    rw [SharedSlot.move_holders, view_holders, view_holders, State.setConn, List.getElem?_set]
    split_ifs with hi hlt
    · rw [← hi, hk]
      simp only [Option.map_some, hagent]
    · rw [List.getElem?_eq_none (by omega)] at hk
      cases hk
    · rfl
  exact SharedSlot.State.ext hholders rfl rfl rfl

theorem view_setConn_self {s : State} {c : ℕ} {k : Conn} (hk : s.conns[c]? = some k) {k' : Conn}
    (hagent : k'.agentId = k.agentId) (hphase : k'.phase = k.phase) :
    view (s.setConn c k') = view s := by
  rw [view_setConn hk hagent, hphase]
  exact SharedSlot.move_self (k := k.agentId) (by rw [view_holders, hk]; rfl)

theorem isSome_update (agents : String → Option AgentConn) (agentId : String)
    (conn : Option AgentConn) :
    (fun a => (Function.update agents agentId conn a).isSome) =
      Function.update (fun a => (agents a).isSome) agentId conn.isSome := by
  funext a
  by_cases ha : a = agentId
  · rw [ha, Function.update_self, Function.update_self]
  · rw [Function.update_of_ne ha, Function.update_of_ne ha]

theorem view_touchAgent (s : State) (agentId : String) (now : ℤ) :
    view (touchAgent s agentId now) = view s := by
  unfold touchAgent
  cases hagent : s.agents agentId with
  | none => rfl
  | some conn =>
      refine SharedSlot.State.ext rfl rfl ?_ rfl
      refine (isSome_update ..).trans (Function.update_eq_self_iff.mpr ?_)
      rw [hagent]
      rfl

theorem view_forward {s s' : State} {agentId : String} {id : ℕ}
    (h : forward s agentId id = .ok s') : view s' = view s := by
  unfold forward at h
  split at h
  · cases h
  · split at h
    · cases h
    · next k hk =>
        split_ifs at h
        obtain rfl := Except.ok.inj h
        exact view_setConn_self hk rfl rfl

/-- In its loop a connection leaves the registry alone, or it leaves the loop. -/
theorem view_loopStep {s : State} {c : ℕ} {k : Conn} (hk : s.conns[c]? = some k)
    (hphase : k.phase = .running) (e : Event) :
    view (loopStep s c k e) = view s ∨ view (loopStep s c k e) = act (view s) (.leave c) := by
  have hleave : ∀ k' : Conn, k'.agentId = k.agentId → k'.phase = .broken →
      view (s.setConn c k') = act (view s) (.leave c) := by
    intro k' hagent hbroken
    rw [view_setConn hk hagent, hbroken]
    simp only [act, view_holders, hk, Option.map_some, hphase]
    rfl
  unfold loopStep
  split
  · split_ifs
    · exact Or.inr (hleave _ rfl rfl)
    · exact Or.inl rfl
  · exact Or.inl (view_setConn_self hk rfl rfl)
  · exact Or.inl (view_touchAgent ..)
  · exact Or.inr (hleave _ rfl rfl)
  · next sent =>
      split
      · exact Or.inl rfl
      · cases sent with
        | true => exact Or.inl (view_setConn_self hk rfl rfl)
        | false => exact Or.inr (hleave _ rfl rfl)
  · split_ifs
    · exact Or.inr (hleave _ rfl rfl)
    · exact Or.inl rfl
  · exact Or.inl rfl

/-- Every step of a connection that changes the registry is an action of its holder. -/
theorem view_connStep {s : State} {c : ℕ} {k : Conn} (hk : s.conns[c]? = some k) :
    view (connStep s c k (.insertTunnel c)) = act (view s) (.enter c) ∧
      (∀ now, view (connStep s c k (.insertAgent c now)) = act (view s) (.announce c)) ∧
      view (connStep s c k (.close c)) = act (view s) (.leave c) ∧
      view (connStep s c k (.removeAgent c)) = act (view s) (.retract c) ∧
      view (connStep s c k (.removeTunnel c)) = act (view s) (.clear c) := by
  have hset : ∀ k' : Conn, k'.agentId = k.agentId →
      (view (s.setConn c k')).holders = ((view s).move c k'.phase.toHolder).holders :=
    fun k' hagent => congrArg SharedSlot.State.holders (view_setConn hk hagent)
  have hlook : (view s).holders[c]? = some (k.agentId, k.phase.toHolder) := by
    rw [view_holders, hk]
    rfl
  simp only [act, hlook, connStep]
  refine ⟨?_, fun now => ?_, ?_, ?_, ?_⟩
  · cases k.phase <;> first | rfl | exact SharedSlot.State.ext (hset _ rfl) rfl rfl rfl
  · cases k.phase <;>
      first | rfl | exact SharedSlot.State.ext (hset _ rfl) rfl (isSome_update ..) rfl
  · cases k.phase <;> first | rfl | exact SharedSlot.State.ext (hset _ rfl) rfl rfl rfl
  · cases k.phase <;>
      first | rfl | exact SharedSlot.State.ext (hset _ rfl) rfl (isSome_update ..) rfl
  · cases k.phase <;> first | rfl | exact SharedSlot.State.ext (hset _ rfl) rfl rfl rfl

theorem act_of_none {s : State} {c : ℕ} (hk : s.conns[c]? = none) {a : Action String}
    (ha : a = .enter c ∨ a = .announce c ∨ a = .leave c ∨ a = .retract c ∨ a = .clear c) :
    act (view s) a = view s := by
  have hlook : (view s).holders[c]? = none := by rw [view_holders, hk]; rfl
  rcases ha with rfl | rfl | rfl | rfl | rfl <;> simp only [act, hlook]

/-- A step that goes on by one phase is an action, whatever the state. -/
theorem view_step_of {s : State} {c : ℕ} {e : Event} {a : Action String}
    (hstep : ∀ t : State, step t e = match t.conns[c]? with
      | some k => connStep t c k e
      | none => t)
    (ha : a = .enter c ∨ a = .announce c ∨ a = .leave c ∨ a = .retract c ∨ a = .clear c)
    (hconn : ∀ k, s.conns[c]? = some k → view (connStep s c k e) = act (view s) a) :
    view (step s e) = act (view s) a := by
  rw [hstep]
  cases hk : s.conns[c]? with
  | none => exact (act_of_none hk ha).symm
  | some k => exact hconn k hk

theorem view_connStep_other {s : State} {c : ℕ} {k : Conn} (hk : s.conns[c]? = some k) {e : Event}
    (h1 : ∀ c, e ≠ .insertTunnel c) (h2 : ∀ c now, e ≠ .insertAgent c now)
    (h3 : ∀ c, e ≠ .removeAgent c) (h4 : ∀ c, e ≠ .removeTunnel c) :
    view (connStep s c k e) = view s ∨ view (connStep s c k e) = act (view s) (.leave c) := by
  unfold connStep
  split
  · exact absurd rfl (h1 _)
  · exact absurd rfl (h2 _ _)
  · next hphase => exact view_loopStep hk hphase _
  · exact absurd rfl (h3 _)
  · exact absurd rfl (h4 _)
  · exact Or.inl rfl

/-- **Every step of the registry is an action of the shared slots**, and only inserting a tunnel
is entering one. -/
theorem view_step (s : State) (e : Event) :
    ∃ a, view (step s e) = act (view s) a ∧ ∀ c, a = .enter c → e = .insertTunnel c := by
  have hother : ∀ c, (∀ t : State, step t e = match t.conns[c]? with
        | some k => connStep t c k e
        | none => t) →
      (∀ c, e ≠ .insertTunnel c) → (∀ c now, e ≠ .insertAgent c now) →
      (∀ c, e ≠ .removeAgent c) → (∀ c, e ≠ .removeTunnel c) →
      ∃ a, view (step s e) = act (view s) a ∧ ∀ c, a = .enter c → e = .insertTunnel c := by
    intro c hstep h1 h2 h3 h4
    rw [hstep]
    cases hk : s.conns[c]? with
    | none => exact ⟨.idle, rfl, fun _ h => by cases h⟩
    | some k =>
        rcases view_connStep_other hk h1 h2 h3 h4 with h | h
        · exact ⟨.idle, h, fun _ h => by cases h⟩
        · exact ⟨.leave c, h, fun _ h => by cases h⟩
  cases e with
  | connect agentId =>
      refine ⟨.join agentId, SharedSlot.State.ext ?_ rfl rfl rfl, fun _ h => by cases h⟩
      simp [view, step, act, Phase.toHolder]
  | insertTunnel c =>
      refine ⟨.enter c, view_step_of (fun _ => rfl) (by simp) (fun k hk => (view_connStep hk).1), ?_⟩
      intro c' h
      obtain rfl := Action.enter.inj h
      rfl
  | insertAgent c now =>
      exact ⟨.announce c, view_step_of (fun _ => rfl) (by simp)
        (fun k hk => (view_connStep hk).2.1 now), fun _ h => by cases h⟩
  | removeAgent c =>
      exact ⟨.retract c, view_step_of (fun _ => rfl) (by simp)
        (fun k hk => (view_connStep hk).2.2.2.1), fun _ h => by cases h⟩
  | removeTunnel c =>
      exact ⟨.clear c, view_step_of (fun _ => rfl) (by simp)
        (fun k hk => (view_connStep hk).2.2.2.2), fun _ h => by cases h⟩
  | tick c now sent => exact hother c (fun _ => rfl) (by simp) (by simp) (by simp) (by simp)
  | text c id => exact hother c (fun _ => rfl) (by simp) (by simp) (by simp) (by simp)
  | ping c => exact hother c (fun _ => rfl) (by simp) (by simp) (by simp) (by simp)
  | pong c now => exact hother c (fun _ => rfl) (by simp) (by simp) (by simp) (by simp)
  | close c => exact hother c (fun _ => rfl) (by simp) (by simp) (by simp) (by simp)
  | recv c sent => exact hother c (fun _ => rfl) (by simp) (by simp) (by simp) (by simp)
  | recvClosed c => exact hother c (fun _ => rfl) (by simp) (by simp) (by simp) (by simp)
  | forward agentId id =>
      refine ⟨.idle, ?_, fun _ h => by cases h⟩
      simp only [step, act]
      cases hf : forward s agentId id with
      | error msg => rfl
      | ok s' => exact view_forward hf
  | forwardEnd c =>
      refine ⟨.idle, ?_, fun _ h => by cases h⟩
      simp only [step, act]
      cases hk : s.conns[c]? with
      | none => rfl
      | some k => exact view_setConn_self hk rfl rfl

theorem exists_step_of_inside {a : Action String} (ha : SharedSlot.Inside a) :
    ∃ e : Event, (∀ c, e ≠ .insertTunnel c) ∧ ∀ s, view (step s e) = act (view s) a := by
  cases a with
  | idle => cases ha
  | join k => cases ha
  | enter c => cases ha
  | announce c =>
      exact ⟨.insertAgent c 0, by simp, fun s => view_step_of (fun _ => rfl) (by simp)
        (fun k hk => (view_connStep hk).2.1 0)⟩
  | leave c =>
      exact ⟨.close c, by simp, fun s => view_step_of (fun _ => rfl) (by simp)
        (fun k hk => (view_connStep hk).2.2.1)⟩
  | retract c =>
      exact ⟨.removeAgent c, by simp, fun s => view_step_of (fun _ => rfl) (by simp)
        (fun k hk => (view_connStep hk).2.2.2.1)⟩
  | clear c =>
      exact ⟨.removeTunnel c, by simp, fun s => view_step_of (fun _ => rfl) (by simp)
        (fun k hk => (view_connStep hk).2.2.2.2)⟩

/-! ### Runs -/

open Runs (Along final)

theorem toHolder_inj {p q : Phase} : p.toHolder = q.toHolder ↔ p = q := by
  cases p <;> cases q <;> decide

theorem held_view (s : State) : SharedSlot.Held (view s) ↔ Reached s := by
  constructor
  · intro h c k hk hlatest hphase
    exact h k.agentId c hlatest (by rw [view_holders, hk, Option.map_some, hphase]; rfl)
  · intro h agentId c hlatest hholder
    rw [view_holders] at hholder
    obtain ⟨k, hk, heq⟩ := Option.map_eq_some_iff.mp hholder
    obtain ⟨rfl, hphase⟩ := Prod.mk.inj heq
    exact h c k hk hlatest (toHolder_inj.mp (hphase : k.phase.toHolder = Phase.running.toHolder))

theorem orderly_view (s : State) (c : ℕ) :
    SharedSlot.Orderly (view s) (.enter c) ↔ Orderly s (.insertTunnel c) := by
  constructor
  · intro h c' k he hk hphase k' hk' hagent
    obtain rfl := Event.insertTunnel.inj he
    obtain ⟨i, hi, rfl⟩ := List.mem_iff_getElem.mp hk'
    have hp := h c k.agentId rfl (by rw [view_holders, hk, Option.map_some, hphase]; rfl) i
      s.conns[i].phase.toHolder (by rw [view_holders, List.getElem?_eq_getElem hi, ← hagent]; rfl)
    exact hp.imp (fun h => toHolder_inj.mp (h : _ = Phase.authenticated.toHolder))
      (fun h => toHolder_inj.mp (h : _ = Phase.finished.toHolder))
  · intro h c' agentId he hholder i p hi
    obtain rfl := Action.enter.inj he
    rw [view_holders] at hholder hi
    obtain ⟨k, hk, heq⟩ := Option.map_eq_some_iff.mp hholder
    obtain ⟨rfl, hphase⟩ := Prod.mk.inj heq
    obtain ⟨k', hk', heq'⟩ := Option.map_eq_some_iff.mp hi
    obtain ⟨hagent, rfl⟩ := Prod.mk.inj heq'
    have hp := h c k rfl hk
      (toHolder_inj.mp (hphase : k.phase.toHolder = Phase.authenticated.toHolder)) k'
      (List.mem_of_getElem? hk') hagent
    exact hp.imp (fun h => by rw [h]; rfl) (fun h => by rw [h]; rfl)

theorem view_init : view init = SharedSlot.init := rfl

/-- Orderly runs keep the invariant of the shared slots, and with it what should hold. -/
theorem along_of_orderly {s : State} (hs : SharedSlot.Inv (view s)) {es : List Event}
    (h : Along step Orderly s es) : Along step (fun s e => Reached (step s e)) s es := by
  refine Along.of_invariant (I := fun s => SharedSlot.Inv (view s)) ?_ hs h
  intro s e hs he
  obtain ⟨a, hview, henter⟩ := view_step s e
  have ha : SharedSlot.Orderly (view s) a := by
    intro c agentId hac
    subst hac
    obtain rfl := henter c rfl
    exact (orderly_view s c).mpr he c agentId rfl
  have hinv : SharedSlot.Inv (view (step s e)) := by
    rw [hview]
    exact SharedSlot.inv_act hs ha
  exact ⟨(held_view _).mp (SharedSlot.held_of_inv hinv), hinv⟩

/-- The connections that are there can do what their holders can. -/
theorem exists_run_of_inside {s : State} {as : List (Action String)}
    (has : ∀ a ∈ as, SharedSlot.Inside a) :
    ∃ es : List Event, (∀ e ∈ es, ∀ c, e ≠ .insertTunnel c) ∧
      view (final step s es) = final act (view s) as := by
  induction as generalizing s with
  | nil => exact ⟨[], by simp, rfl⟩
  | cons a as ih =>
      obtain ⟨e, he, hstep⟩ := exists_step_of_inside (has a List.mem_cons_self)
      obtain ⟨es, hes, hrun⟩ := ih (s := step s e) (fun b hb => has b (List.mem_cons_of_mem _ hb))
      refine ⟨e :: es, ?_, ?_⟩
      · intro e' he'
        rcases List.mem_cons.mp he' with heq | he'
        · rw [heq]
          exact he
        · exact hes e' he'
      · rw [Runs.final_cons, Runs.final_cons, hrun, hstep]

/-- Where a connection inserts its tunnel while another of its agent is still there, the
connections can undo it, with no further registration. -/
theorem exists_undone {s : State} {e : Event} (h : ¬ Orderly s e) :
    ∃ es : List Event, (∀ e ∈ es, ∀ c, e ≠ .insertTunnel c) ∧
      ¬ Reached (final step (step s e) es) := by
  have hinsert : ∃ c, e = .insertTunnel c := by
    by_contra hno
    exact h (fun c _ he => absurd ⟨c, he⟩ hno)
  obtain ⟨c, rfl⟩ := hinsert
  obtain ⟨as, has, hheld⟩ := SharedSlot.exists_eviction (mt (orderly_view s c).mp h)
  obtain ⟨es, hes, hrun⟩ := exists_run_of_inside (s := step s (.insertTunnel c)) has
  have hview : view (step s (.insertTunnel c)) = act (view s) (.enter c) :=
    view_step_of (fun _ => rfl) (by simp) (fun k hk => (view_connStep hk).1)
  refine ⟨es, hes, fun hreached => hheld ?_⟩
  rw [← hview, ← hrun]
  exact (held_view _).mpr hreached

/-! ### Being reached -/

theorem forward_reaches {s : State} (hs : Reached s) {c : ℕ} {k : Conn}
    (hk : s.conns[c]? = some k) (hlatest : s.latest k.agentId = some c)
    (hphase : k.phase = .running) (id : ℕ) :
    forward s k.agentId id =
      if k.queue.length ≥ tunnelQueueDepth then .error "agent overloaded"
      else .ok (s.setConn c { k with queue := k.queue ++ [id], senders := k.senders + 1 }) := by
  obtain ⟨htunnel, -⟩ := hs c k hk hlatest hphase
  unfold forward
  rw [htunnel]
  dsimp only
  rw [hk]
  dsimp only
  rw [if_neg (by rw [hphase]; decide)]

theorem recvClosed_reached {s : State} (hs : Reached s) {c : ℕ} {k : Conn}
    (hk : s.conns[c]? = some k) (hlatest : s.latest k.agentId = some c)
    (hphase : k.phase = .running) : step s (.recvClosed c) = s := by
  obtain ⟨htunnel, -⟩ := hs c k hk hlatest hphase
  simp only [step, Event.conn?, hk, connStep, hphase, loopStep, htunnel, ne_eq, not_true_eq_false,
    and_false, if_false]

/-- **A reconnect is not undone** in a run in which every connection inserts its tunnel after
the older ones of its agent have finished.  These runs are exactly those in which, at every
point, nothing that the connections do from there without a further registration undoes the
one that registered last.  Where that is so a forward gets into its channel, unless that is full,
and the connection does not find its channel closed. -/
theorem reconnect_kept (es : List Event) :
    (Along step Orderly init es → Along step (fun s e => Reached (step s e)) init es) ∧
      (Along step Orderly init es ↔
        ∀ pre, pre <+: es → ∀ es' : List Event, (∀ e ∈ es', ∀ c, e ≠ .insertTunnel c) →
          Along step (fun s e => Reached (step s e)) init (pre ++ es')) ∧
      ∀ s, Reached s → ∀ c k, s.conns[c]? = some k → s.latest k.agentId = some c →
        k.phase = .running → (∀ id, forward s k.agentId id =
          if k.queue.length ≥ tunnelQueueDepth then .error "agent overloaded"
          else .ok (s.setConn c { k with queue := k.queue ++ [id], senders := k.senders + 1 })) ∧
          step s (.recvClosed c) = s := by
  have hkept : ∀ es, Along step Orderly init es →
      Along step (fun s e => Reached (step s e)) init es :=
    fun es h => along_of_orderly (by rw [view_init]; exact SharedSlot.inv_init) h
  refine ⟨hkept es, ⟨?_, ?_⟩, fun s hs c k hk hlatest hphase =>
    ⟨forward_reaches hs hk hlatest hphase, recvClosed_reached hs hk hlatest hphase⟩⟩
  · rintro h pre ⟨post, rfl⟩ es' hes'
    have hpre := ((Runs.along_append ..).mp h).1
    have hrest : ∀ s, Along step Orderly s es' := by
      intro s
      induction es' generalizing s with
      | nil => trivial
      | cons e es' ih =>
          exact ⟨fun c _ he => absurd he (hes' e List.mem_cons_self c),
            ih (fun e' he' => hes' e' (List.mem_cons_of_mem _ he')) _⟩
    exact hkept _ ((Runs.along_append ..).mpr ⟨hpre, hrest _⟩)
  · intro h
    by_contra hno
    obtain ⟨pre, e, post, rfl, hdis⟩ := Runs.exists_of_not_along hno
    obtain ⟨es', hes', hundone⟩ := exists_undone hdis
    -- the last state of the run is the one that is not reached
    have hrun := h (pre ++ [e]) ⟨post, by simp⟩ es' hes'
    rw [List.append_assoc] at hrun
    have htail := ((Runs.along_append ..).mp hrun).2
    have hlast : ∀ (es : List Event) (s : State), Reached s →
        Along step (fun s e => Reached (step s e)) s es → Reached (final step s es) := by
      intro es
      induction es with
      | nil => exact fun s hs _ => hs
      | cons e es ih => exact fun s _ h => ih _ h.1 h.2
    exact hundone (hlast es' _ htail.1 htail.2)

/-- The old connection finds its channel closed and unregisters the new one. -/
theorem reconnect_undone :
    ¬ ∀ es : List Event, Along step (fun s e => Reached (step s e)) init es := by
  intro h
  have hrun := h [.connect "a1", .insertTunnel 0, .insertAgent 0 0, .connect "a1", .insertTunnel 1,
    .insertAgent 1 5, .recvClosed 0, .removeAgent 0, .removeTunnel 0]
  have hlast := hrun.2.2.2.2.2.2.2.2.1
  have := (hlast 1 ⟨"a1", .running, [], [], 0⟩ rfl rfl rfl).1
  exact absurd this (by decide)

end FirewallLLM.Ingress
