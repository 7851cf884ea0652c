import FirewallLLM.Json
import FirewallLLM.Runs
import Mathlib.Data.List.AList

/-! # The loop of a tunnel

One run of `handle_ingress_socket` and the calls of `forward` that use its channel.  A call puts
its request into the channel; the loop sends the request to the agent and keeps the responder in
`pending`; a text frame with the id of a pending request fills the responder, and the call
returns what it finds there.  The loop breaks when the socket does, unregisters the agent, and
drops the channel and `pending` when it returns.

The calls are numbered in the order in which their requests got into the channel, and a
responder is the number of its call.  The traffic on the socket is kept in the order in which
the loop sends and reads; the parser of `serde_json` is a parameter. -/

namespace FirewallLLM.Tunnel

open Dlp (Text)
open Runs (final)

/-! ### Requests and responses -/

/-- `ProxyRequest`, without its responder. -/
structure ProxyRequest where
  id : Text
  method : Text
  url : Text
  headers : List (String × Text)
  body : Option Text

/-- `ProxyResponse`. -/
structure ProxyResponse where
  status : UInt16
  headers : List (String × Text)
  body : Text
deriving DecidableEq

/-- The headers that `mask_for_tunnel` removes. -/
def toRemove : List String :=
  ["via", "x-forwarded-for", "x-forwarded-proto", "x-forwarded-host", "x-real-ip",
    "x-forwarded-port", "cf-connecting-ip", "cf-ray", "server", "x-powered-by"]

/-- `to_ascii_lowercase`. -/
def asciiLower (s : String) : String := String.ofList (s.toList.map Char.toLower)

/-- `to_uppercase` of one of the names in `toRemove`. -/
def asciiUpper (s : String) : String := String.ofList (s.toList.map Char.toUpper)

/-- One of the headers that `mask_for_tunnel` keeps when it removes `key`. -/
def keeps (key : String) (h : String × Text) : Bool :=
  h.1 ≠ key && h.1 ≠ asciiUpper key && asciiLower h.1 ≠ key

/-- `mask_for_tunnel`. -/
def maskForTunnel (headers : List (String × Text)) : List (String × Text) :=
  let kept := toRemove.foldl (fun hs key => hs.filter (keeps key)) headers
  if kept.any (fun h => asciiLower h.1 = "user-agent") then kept
  else kept ++ [("User-Agent", "Firewall-LLM-Agent/0.1".toList)]

/-- The request that `forward` makes; `draw` is its random number. -/
def newRequest (draw : UInt64) (method url : Text) (headers : List (String × Text))
    (body : Option Text) : ProxyRequest where
  id := (toString draw.toNat).toList
  method
  url
  headers := maskForTunnel headers
  body

/-- The frame that goes to the agent. -/
def requestFrame (r : ProxyRequest) : Json :=
  .obj [("id", .str r.id), ("method", .str r.method), ("url", .str r.url),
    ("headers", .obj (r.headers.map (fun h => (h.1, .str h.2)))),
    ("body", (r.body.map Json.str).getD .null)]

/-- `val.get("id").and_then(as_str)`. -/
def frameId? (frame : Json) : Option Text := (frame.get? "id").bind Json.asStr?

/-- The response in a reply. -/
def readResponse (frame : Json) : ProxyResponse where
  -- `as u16` cuts the number off
  status := (((frame.get? "status").bind Json.asU64?).getD 200).toUInt16
  headers := (((frame.get? "headers").bind Json.asObj?).map
    (List.map (fun e => (e.1, e.2.asStr?.getD [])))).getD []
  body := ((frame.get? "body").bind Json.asStr?).getD []

theorem mem_foldl_filter {α β : Type} (p : α → β → Bool) (keys : List α) (l : List β) (b : β) :
    b ∈ keys.foldl (fun l key => l.filter (p key)) l ↔ b ∈ l ∧ ∀ key ∈ keys, p key b = true := by
  induction keys generalizing l with
  | nil => simp
  | cons key keys ih =>
      rw [List.foldl_cons, ih, List.mem_filter, List.forall_mem_cons, and_assoc]

/-- No header that is to be removed gets through, in whatever case it is written. -/
theorem maskForTunnel_removed (headers : List (String × Text)) :
    ∀ h ∈ maskForTunnel headers, asciiLower h.1 ∉ toRemove := by
  intro h hh hmem
  have hkept : h ∈ toRemove.foldl (fun hs key => hs.filter (keeps key)) headers := by
    unfold maskForTunnel at hh
    dsimp only at hh
    split_ifs at hh
    · exact hh
    · rcases List.mem_append.mp hh with hh | hh
      · exact hh
      · obtain rfl := List.mem_singleton.mp hh
        exact absurd hmem (by decide)
  have hkeeps := ((mem_foldl_filter keeps toRemove headers h).mp hkept).2 _ hmem
  simp [keeps] at hkeeps

@[simp] theorem frameId?_requestFrame (r : ProxyRequest) :
    frameId? (requestFrame r) = some r.id := rfl

/-! ### Calls -/

/-- A `oneshot` channel, as its receiver finds it; a response comes with the position of its
frame in the traffic, which no step reads. -/
inductive Slot where
  | empty
  | sent (frame : ℕ) (resp : ProxyResponse)
  | dropped

/-- A call of `forward` whose request got into the channel. -/
structure Call where
  request : ProxyRequest
  slot : Slot
  result : Option (Except String ProxyResponse)

namespace Call

/-- The sender of the slot is dropped. -/
def dropSender (c : Call) : Call :=
  match c.slot with
  | .empty => { c with slot := .dropped }
  | _ => c

/-- `tx.send`, which fails when the call has returned. -/
def send (frame : ℕ) (resp : ProxyResponse) (c : Call) : Call :=
  match c.result with
  | none => { c with slot := .sent frame resp }
  | some _ => c

/-- The runtime polls the call; `expired` when its 30 seconds are over. -/
def poll (expired : Bool) (c : Call) : Call :=
  match c.result, c.slot with
  | none, .sent _ resp => { c with result := some (.ok resp) }
  | none, .dropped => { c with result := some (.error "agent dropped") }
  | none, .empty => if expired then { c with result := some (.error "tunnel timeout") } else c
  | some _, _ => c

/-- What the slot has been filled with. -/
def answer? (c : Call) : Option (ℕ × ProxyResponse) :=
  match c.slot with
  | .sent frame resp => some (frame, resp)
  | _ => none

end Call

/-! ### The loop -/

/-- In the loop, after it, and at the end. -/
inductive Phase where
  | running | broken | finished
deriving DecidableEq

/-- What goes over the socket: the request of a call to the agent, and a text from it. -/
inductive Traffic where
  | request (n : ℕ) (frame : Json)
  | text (t : Text)

/-- The loop, its channel and its pending responders; the calls; and the traffic so far. -/
structure State where
  phase : Phase
  queue : List ℕ
  pending : AList (fun _ : Text => ℕ)
  calls : List Call
  traffic : List Traffic

def init : State := ⟨.running, [], ∅, [], []⟩

/-- `TUNNEL_QUEUE_DEPTH`. -/
def tunnelQueueDepth : ℕ := 16

/-- The calls whose responder the loop holds. -/
def State.held (s : State) : List ℕ := s.queue ++ s.pending.entries.map Sigma.snd

/-- `forward` up to the point where its request is in the channel; `found` when the registry has
the sender of this channel. -/
def forward (agentId : String) (s : State) (found : Bool) (request : ProxyRequest) :
    Except String State :=
  if !found then .error s!"no tunnel for agent {agentId}"
  else if s.phase = .finished then .error "agent disconnected"
  else if s.queue.length ≥ tunnelQueueDepth then .error "agent overloaded"
  else .ok { s with
    queue := s.queue ++ [s.calls.length]
    calls := s.calls ++ [⟨request, .empty, none⟩] }

/-- A call starts; the runtime polls a call; and what happens in `select!`: a heartbeat, a text,
any other frame that does not end the loop, the end of the socket, a request, and the end of the
channel.  `finish` is the end of the function. -/
inductive Event where
  | forward (found : Bool) (draw : UInt64) (method url : Text) (headers : List (String × Text))
      (body : Option Text)
  | poll (n : ℕ) (expired : Bool)
  | tick (sent stale : Bool)
  | text (t : Text)
  | other
  | close
  | recv (sent : Bool)
  | recvClosed
  | finish

section Steps

variable (parse : Text → Option Json)

/-- A text that is a reply: its id and the whole frame. -/
def reply? (t : Text) : Option (Text × Json) :=
  (parse t).bind (fun frame => (frameId? frame).map (fun id => (id, frame)))

/-- A text frame. -/
def State.receive (s : State) (t : Text) : State :=
  match reply? parse t with
  | none => { s with traffic := s.traffic ++ [.text t] }
  | some (id, frame) => match s.pending.lookup id with
      | none => { s with traffic := s.traffic ++ [.text t] }
      | some n =>
          { s with
            pending := s.pending.erase id
            calls := s.calls.modify n (Call.send s.traffic.length (readResponse frame))
            traffic := s.traffic ++ [.text t] }

/-- A request; where `pending` has its id, the responder that is there is dropped. -/
def State.recv (s : State) (sent : Bool) : State :=
  match s.queue with
  | [] => s
  | n :: queue => match s.calls[n]? with
      | none => s
      | some c =>
          { phase := if sent then s.phase else .broken
            queue
            pending := s.pending.insert c.request.id n
            calls := match s.pending.lookup c.request.id with
              | some m => s.calls.modify m Call.dropSender
              | none => s.calls
            traffic := if sent then s.traffic ++ [.request n (requestFrame c.request)]
              else s.traffic }

/-- The end of the function: the channel and `pending` are dropped. -/
def State.finish (s : State) : State where
  phase := .finished
  queue := []
  pending := ∅
  calls := s.calls.mapIdx (fun n c => if n ∈ s.held then c.dropSender else c)
  traffic := s.traffic

/-- What the loop does. -/
def loopStep (s : State) : Event → State
  | .tick sent stale => if !sent || stale then { s with phase := .broken } else s
  | .text t => s.receive parse t
  | .close => { s with phase := .broken }
  | .recv sent => s.recv sent
  | .recvClosed => if s.queue = [] then { s with phase := .broken } else s
  | _ => s

variable (agentId : String)

/-- One step. -/
def step (s : State) (e : Event) : State :=
  match e, s.phase with
  | .forward found draw method url headers body, _ =>
      match forward agentId s found (newRequest draw method url headers body) with
      | .ok s' => s'
      | .error _ => s
  | .poll n expired, _ => { s with calls := s.calls.modify n (Call.poll expired) }
  | .finish, .broken => s.finish
  | e, .running => loopStep parse s e
  | _, _ => s

end Steps

/-! ### What the steps do to a call -/

namespace Call

@[simp] theorem request_dropSender (c : Call) : c.dropSender.request = c.request := by
  unfold dropSender
  split <;> rfl

@[simp] theorem request_send (frame : ℕ) (resp : ProxyResponse) (c : Call) :
    (c.send frame resp).request = c.request := by
  unfold send
  split <;> rfl

@[simp] theorem request_poll (expired : Bool) (c : Call) :
    (c.poll expired).request = c.request := by
  unfold poll
  split
  · rfl
  · rfl
  · split_ifs <;> rfl
  · rfl

@[simp] theorem answer?_dropSender (c : Call) : c.dropSender.answer? = c.answer? := by
  unfold dropSender
  split
  · next h => simp only [answer?, h]
  · rfl

@[simp] theorem slot_poll (expired : Bool) (c : Call) : (c.poll expired).slot = c.slot := by
  unfold poll
  split
  · rfl
  · rfl
  · split_ifs <;> rfl
  · rfl

@[simp] theorem answer?_poll (expired : Bool) (c : Call) :
    (c.poll expired).answer? = c.answer? := by
  unfold answer?
  rw [slot_poll]

theorem answer?_send (frame : ℕ) (resp : ProxyResponse) (c : Call) :
    (c.send frame resp).answer? =
      if c.result.isNone then some (frame, resp) else c.answer? := by
  unfold send
  split
  · next h => simp only [h, Option.isNone_none, if_true]; rfl
  · next h => simp only [h, Option.isNone_some, Bool.false_eq_true, if_false]

/-- A call that has returned a response has found it in its slot. -/
def Sound (c : Call) : Prop :=
  ∀ resp, c.result = some (.ok resp) → ∃ frame, c.answer? = some (frame, resp)

theorem sound_dropSender {c : Call} (hc : c.Sound) : c.dropSender.Sound := by
  intro resp h
  have hresult : c.dropSender.result = c.result := by
    unfold dropSender
    split <;> rfl
  rw [answer?_dropSender]
  exact hc resp (hresult.symm.trans h)

theorem sound_send {c : Call} (hc : c.Sound) (frame : ℕ) (resp : ProxyResponse) :
    (c.send frame resp).Sound := by
  unfold send
  split
  · next hnone =>
      intro resp' h
      rw [hnone] at h
      cases h
  · exact hc

theorem sound_poll {c : Call} (hc : c.Sound) (expired : Bool) : (c.poll expired).Sound := by
  intro resp h
  rw [answer?_poll]
  unfold poll at h
  split at h
  · next frame resp' hnone hslot =>
      obtain rfl : resp' = resp := by simpa using h
      exact ⟨frame, by simp only [answer?, hslot]⟩
  · cases h
  · next hnone hslot =>
      split_ifs at h
      · cases h
      · rw [hnone] at h
        cases h
  · exact hc resp h

end Call

end FirewallLLM.Tunnel
