import FirewallLLM.TunnelAgent
import FirewallLLM.TunnelOrder

/-! # A tunnel from end to end

The loop of the gateway, the agent at the other end of the socket, and the texts on their way in
each direction, which keep their order.  The agent takes one text after the other; it may fail
between the call of the upstream and its reply.

`tunnel_transparent`: the `i`-th text that the agent takes is the request of the `i`-th call, a
call returns what the agent made of its own request, and while both ends live no call is left
without an answer. -/

namespace FirewallLLM.Tunnel.Transport

open Dlp (Text)
open Runs (final)
open Agent (HttpResponse ForwardResp Outcome Alike Sendable Serves Returns)

/-! ### Both ends -/

/-- A text that the agent has taken, what the upstream says if it is asked, and what becomes of
the text. -/
structure Turn where
  text : Text
  answer : Except Text HttpResponse
  outcome : Outcome

/-- The gateway, the texts on their way to the agent, the agent with the texts that it has taken
and the reply that it is about to send, and the texts on their way back. -/
structure World where
  gateway : State
  down : List Text
  alive : Bool
  log : List Turn
  held : Option Text
  up : List Text

def init : World := ⟨Tunnel.init, [], true, [], none, []⟩

/-- An event of the gateway other than a text; the agent takes a text, sends its reply, or stops;
a text arrives at the gateway. -/
inductive Move where
  | gateway (e : Event)
  | take (answer : Except Text HttpResponse)
  | reply
  | deliver
  | die

section Steps

variable {Name Value Map : Type} (http : HttpCrate Name Value Map) (isMethod : Text → Bool)
  (toStr : Json → Text) (fromStr : Text → Option Json) (agentId : String)

/-- The agent takes the next text, unless it has a reply to send. -/
def World.take (w : World) (answer : Except Text HttpResponse) : World :=
  match w.alive, w.held, w.down with
  | true, none, text :: down =>
      let outcome := Agent.serve http isMethod fromStr text answer
      { w with
        down
        alive := !outcome matches .panicked
        log := w.log ++ [⟨text, answer, outcome⟩]
        held := outcome.reply?.map toStr }
  | _, _, _ => w

/-- One step. -/
def step (w : World) : Move → World
  | .gateway e =>
      if e matches .text _ then w
      else { w with
        gateway := Tunnel.step fromStr agentId w.gateway e
        down := w.down ++ (requests (news w.gateway e)).map (fun r => toStr r.2) }
  | .take answer => w.take http isMethod toStr fromStr answer
  | .reply => { w with held := none, up := w.up ++ w.held.toList }
  | .deliver => match w.up with
      | t :: up => { w with up, gateway := Tunnel.step fromStr agentId w.gateway (.text t) }
      | [] => w
  | .die => { w with alive := false, held := none }

/-! ### What is assumed of the socket -/

/-- The text of a frame is read as a frame with the same fields. -/
def Readable (frame : Json) : Prop :=
  ∃ read, fromStr (toStr frame) = some read ∧ Alike frame read

/-- The random ids differ, the agent can send the headers on, and the frames are read as they
were written. -/
structure Ok (w : World) : Prop where
  distinct : Distinct w.gateway
  sendable : ∀ r ∈ w.gateway.calls.map Call.request, Sendable http r
  sent : ∀ r ∈ requests w.gateway.traffic, Readable toStr fromStr r.2
  replied : ∀ turn ∈ w.log, ∀ frame ∈ turn.outcome.reply?, Readable toStr fromStr frame

/-- The texts that were sent are those that the agent has taken and those on their way; what the
agent sends is the reply to a text that it has taken. -/
structure Linked (w : World) : Prop where
  taken : (requests w.gateway.traffic).map (fun r => toStr r.2) =
    w.log.map Turn.text ++ w.down
  served : ∀ turn ∈ w.log, turn.outcome = Agent.serve http isMethod fromStr turn.text turn.answer
  replied : ∀ t ∈ texts w.gateway.traffic ++ w.up ++ w.held.toList,
    ∃ turn ∈ w.log, ∃ frame ∈ turn.outcome.reply?, t = toStr frame

/-- For every responder in `pending` there is a text on the way, with its id. -/
def Due (w : World) : Prop :=
  ∀ id n, w.gateway.pending.lookup id = some n →
    ∃ t ∈ w.down ++ w.held.toList ++ w.up, (fromStr t).bind frameId? = some id

/-- The invariant of a run. -/
structure Good (w : World) : Prop where
  reached : ∃ es, w.gateway = final (Tunnel.step fromStr agentId) Tunnel.init es
  ordered : Ordered w.gateway
  masked : Masked w.gateway
  linked : Linked http isMethod toStr fromStr w
  held : w.gateway.phase = .running → Held w.gateway
  due : w.gateway.phase = .running → w.alive = true → Due fromStr w

end Steps

section Proofs

variable {Name Value Map : Type} {http : HttpCrate Name Value Map} {isMethod : Text → Bool}
  {toStr : Json → Text} {fromStr : Text → Option Json} {agentId : String} {w : World}

/-! ### One step -/

/-- What a step does. -/
inductive Went (http : HttpCrate Name Value Map) (isMethod : Text → Bool) (toStr : Json → Text)
    (fromStr : Text → Option Json) (agentId : String) (w : World) : World → Prop
  | stay : Went http isMethod toStr fromStr agentId w w
  | gateway {e : Event} {s : State} (hstep : s = Tunnel.step fromStr agentId w.gateway e)
      (h : Stepped fromStr agentId w.gateway e s) (htext : ∀ t, e ≠ .text t) :
      Went http isMethod toStr fromStr agentId w
        { w with
          gateway := s
          down := w.down ++ (requests (news w.gateway e)).map (fun r => toStr r.2) }
  | take {text : Text} {down : List Text} (answer : Except Text HttpResponse)
      (halive : w.alive = true) (hheld : w.held = none) (hdown : w.down = text :: down)
      (alive : Bool) :
      Went http isMethod toStr fromStr agentId w
        { w with
          down
          alive
          log := w.log ++ [⟨text, answer, Agent.serve http isMethod fromStr text answer⟩]
          held := (Agent.serve http isMethod fromStr text answer).reply?.map toStr }
  | reply : Went http isMethod toStr fromStr agentId w
      { w with held := none, up := w.up ++ w.held.toList }
  | deliver {t : Text} {up : List Text} {s : State} (hup : w.up = t :: up)
      (hstep : s = Tunnel.step fromStr agentId w.gateway (.text t))
      (h : Stepped fromStr agentId w.gateway (.text t) s) :
      Went http isMethod toStr fromStr agentId w { w with up, gateway := s }
  | die : Went http isMethod toStr fromStr agentId w { w with alive := false, held := none }

theorem went (http : HttpCrate Name Value Map) (isMethod : Text → Bool) (toStr : Json → Text)
    (fromStr : Text → Option Json) (agentId : String) (w : World) (m : Move) :
    Went http isMethod toStr fromStr agentId w (step http isMethod toStr fromStr agentId w m) := by
  cases m with
  | gateway e =>
      cases e with
      | text t => exact .stay
      | forward | poll | tick | other | close | recv | recvClosed | finish =>
          exact .gateway rfl (stepped fromStr agentId w.gateway _) fun t => Event.noConfusion
  | take answer =>
      obtain ⟨gateway, down, alive, log, held, up⟩ := w
      cases alive with
      | false => exact .stay
      | true =>
          cases held with
          | some t => exact .stay
          | none =>
              cases down with
              | nil => exact .stay
              | cons text down => exact .take answer rfl rfl rfl _
  | reply => exact .reply
  | deliver =>
      simp only [step]
      split
      · next t up hup => exact .deliver hup rfl (stepped fromStr agentId w.gateway _)
      · exact .stay
  | die => exact .die

/-- Nothing that goes over the socket becomes readable later. -/
theorem Went.ok {w' : World} (hw : Went http isMethod toStr fromStr agentId w w')
    (h : Ok http toStr fromStr w') : Ok http toStr fromStr w := by
  have hgateway : ∀ {e : Event} {s : State}, Stepped fromStr agentId w.gateway e s →
      w'.gateway = s → w'.log = w.log → Ok http toStr fromStr w := by
    rintro e s hs rfl hlog
    refine ⟨h.distinct.of_step hs, fun r hr => h.sendable r ?_, fun r hr => h.sent r ?_,
      fun turn hturn => h.replied turn (hlog ▸ hturn)⟩
    · rcases hs.requests with heq | ⟨draw, method, url, headers, body, heq⟩
      · rwa [heq]
      · rw [heq]
        exact List.mem_append_left _ hr
    · rw [hs.traffic, requests, List.filterMap_append]
      exact List.mem_append_left _ hr
  cases hw with
  | stay => exact h
  | gateway hstep hs htext => exact hgateway hs rfl rfl
  | take answer hlive hheld hdown alive =>
      exact ⟨h.distinct, h.sendable, h.sent,
        fun turn hturn => h.replied turn (List.mem_append_left _ hturn)⟩
  | reply => exact ⟨h.distinct, h.sendable, h.sent, h.replied⟩
  | deliver hup hstep hs => exact hgateway hs rfl rfl
  | die => exact ⟨h.distinct, h.sendable, h.sent, h.replied⟩

/-! ### What is on the way -/

theorem Good.inv (hs : Good http isMethod toStr fromStr agentId w) : Inv fromStr w.gateway := by
  obtain ⟨es, hes⟩ := hs.reached
  rw [hes]
  exact inv_final fromStr agentId es

theorem taken_of_log {i : ℕ} {turn : Turn} (h : w.log[i]? = some turn) :
    (w.log.map Turn.text ++ w.down)[i]? = some turn.text := by
  have hlt : i < (w.log.map Turn.text).length := by
    rw [List.length_map]
    exact (List.getElem?_eq_some_iff.mp h).1
  rw [List.getElem?_append_left hlt, List.getElem?_map, h, Option.map_some]

/-- The agent takes the requests in the order of the calls. -/
theorem call_of_taken (hs : Good http isMethod toStr fromStr agentId w) {k : ℕ} {t : Text}
    (h : (w.log.map Turn.text ++ w.down)[k]? = some t) :
    ∃ c, w.gateway.calls[k]? = some c ∧
      (k, requestFrame c.request) ∈ requests w.gateway.traffic ∧
      t = toStr (requestFrame c.request) := by
  rw [← hs.linked.taken, List.getElem?_map] at h
  obtain ⟨⟨n, frame⟩, hget, rfl⟩ := Option.map_eq_some_iff.mp h
  have hn : (sentCalls w.gateway)[k]? = some n := by
    rw [sentCalls, List.getElem?_map, hget, Option.map_some]
  obtain ⟨rest, hrest⟩ := hs.ordered.sent
  have hrange : (List.range w.gateway.calls.length)[k]? = some n := by
    rw [← hrest, List.getElem?_append_left (List.getElem?_eq_some_iff.mp hn).1, hn]
  obtain ⟨hlt, hkn⟩ := List.getElem?_eq_some_iff.mp hrange
  rw [List.getElem_range] at hkn
  subst hkn
  have hmem : (k, frame) ∈ requests w.gateway.traffic := List.mem_of_getElem? hget
  obtain ⟨x, hx, hreq⟩ := List.mem_filterMap.mp hmem
  cases x with
  | text t => cases hreq
  | request n' frame' =>
      obtain ⟨rfl, rfl⟩ := Prod.mk.inj (Option.some.inj hreq)
      obtain ⟨o, ho⟩ := List.mem_iff_getElem?.mp hx
      obtain ⟨c, hc, rfl⟩ := hs.inv.1.frames o n' frame' ho
      exact ⟨c, hc, hmem, rfl⟩

theorem Readable.frameId? {frame : Json} (h : Readable toStr fromStr frame) :
    (fromStr (toStr frame)).bind frameId? = Tunnel.frameId? frame := by
  obtain ⟨read, hread, halike⟩ := h
  rw [hread, Option.bind_some, Tunnel.frameId?, halike.field "id" (by decide)]
  rfl

/-- What the agent makes of the text at the position `k`. -/
theorem serves_of_taken (hhttp : http.Lawful) (hok : Ok http toStr fromStr w)
    (hs : Good http isMethod toStr fromStr agentId w) {k : ℕ} {t : Text}
    (h : (w.log.map Turn.text ++ w.down)[k]? = some t) (answer : Except Text HttpResponse) :
    ∃ c, w.gateway.calls[k]? = some c ∧ (fromStr t).bind frameId? = some c.request.id ∧
      Serves isMethod c.request answer (Agent.serve http isMethod fromStr t answer) := by
  obtain ⟨c, hc, hsent, rfl⟩ := call_of_taken hs h
  have hmem : c.request ∈ w.gateway.calls.map Call.request :=
    List.mem_map_of_mem (List.mem_of_getElem? hc)
  have hreadable : Readable toStr fromStr (requestFrame c.request) := hok.sent _ hsent
  have hid := hreadable.frameId?
  obtain ⟨read, hread, halike⟩ := hreadable
  exact ⟨c, hc, hid, Agent.serve_requestFrame hhttp (hok.sendable _ hmem)
    (hs.masked _ hmem) hread halike answer⟩

theorem reply?_of_serves {r : ProxyRequest} {answer : Except Text HttpResponse}
    {outcome : Outcome} (h : Serves isMethod r answer outcome) :
    ∃ resp, outcome.reply? = some (Agent.replyFrame (.str r.id) resp) := by
  cases outcome with
  | skipped | panicked => exact h.elim
  | refused id resp => exact ⟨resp, by rw [h.1]; rfl⟩
  | called id request answer' => exact ⟨Agent.respond answer', by rw [h.1]; rfl⟩

/-! ### Texts and responders -/

theorem texts_news {s : State} {e : Event} (h : ∀ t, e ≠ .text t) : texts (news s e) = [] := by
  cases e with
  | text t => exact absurd rfl (h t)
  | recv sent =>
      cases sent with
      | false => rfl
      | true =>
          unfold news
          split_ifs
          · cases (s.queue.head?.bind fun n => (s.calls[n]?).map fun c => (n, c)) <;> rfl
          · rfl
  | forward | poll | tick | other | close | recvClosed | finish => rfl

theorem requests_news_text (s : State) (t : Text) : requests (news s (.text t)) = [] := by
  unfold news
  split_ifs <;> rfl

theorem texts_news_text (s : State) (t : Text) : texts (news s (.text t)) ⊆ [t] := by
  unfold news
  split_ifs
  · exact List.Subset.refl _
  · exact List.nil_subset _

/-- A responder that is in `pending` was there, or its request has just been sent. -/
theorem pending_step {s s' : State} {e : Event} (h : Stepped fromStr agentId s e s')
    (htext : ∀ t, e ≠ .text t) (hrunning : s'.phase = .running) :
    s.phase = .running ∧ ∀ id n, s'.pending.lookup id = some n →
      s.pending.lookup id = some n ∨
        ∃ c : Call, (n, requestFrame c.request) ∈ requests (news s e) ∧ c.request.id = id := by
  cases h with
  | stay h => exact ⟨hrunning, fun id n hlook => .inl hlook⟩
  | forward h =>
      rw [forward_eq h] at hrunning ⊢
      exact ⟨hrunning, fun id n hlook => .inl hlook⟩
  | poll n expired => exact ⟨hrunning, fun id n hlook => .inl hlook⟩
  | finish h => cases hrunning
  | broke h hnews => cases hrunning
  | text h t => exact absurd rfl (htext t)
  | recv h sent =>
      refine ⟨h, fun id n hlook => ?_⟩
      rcases recv_cases s sent with ⟨hsame, -⟩ | ⟨m, queue, c, hqueue, hc⟩
      · rw [hsame] at hlook
        exact .inl hlook
      · rw [recv_cons hqueue hc] at hlook hrunning
        cases sent with
        | false => cases hrunning
        | true =>
            by_cases hid : id = c.request.id
            · subst hid
              rw [AList.lookup_insert] at hlook
              obtain rfl := Option.some.inj hlook
              refine .inr ⟨c, ?_, rfl⟩
              rw [news_recv h hqueue hc]
              exact List.mem_singleton_self _
            · rw [AList.lookup_insert_ne hid] at hlook
              exact .inl hlook

theorem pending_receive {s : State} {t id : Text} {n : ℕ}
    (h : (s.receive fromStr t).pending.lookup id = some n) :
    s.pending.lookup id = some n ∧ (fromStr t).bind frameId? ≠ some id := by
  have hreply : ∀ id', (fromStr t).bind frameId? = some id' →
      ∃ frame, reply? fromStr t = some (id', frame) := by
    intro id' hid
    obtain ⟨frame, hframe, hid⟩ := Option.bind_eq_some_iff.mp hid
    exact ⟨frame, by rw [reply?, hframe, Option.bind_some, hid, Option.map_some]⟩
  unfold State.receive at h
  split at h
  · next hnone =>
      refine ⟨h, fun hid => ?_⟩
      obtain ⟨frame, hframe⟩ := hreply id hid
      rw [hnone] at hframe
      cases hframe
  · next id' frame hsome =>
      have hne : id ≠ id' → (fromStr t).bind frameId? ≠ some id := by
        intro hne hid
        obtain ⟨frame', hframe⟩ := hreply id hid
        rw [hsome] at hframe
        exact hne (Prod.mk.inj (Option.some.inj hframe)).1.symm
      split at h
      · next hnone =>
          refine ⟨h, hne fun heq => ?_⟩
          rw [heq, hnone] at h
          cases h
      · by_cases hid : id = id'
        · rw [hid, AList.lookup_erase] at h
          cases h
        · rw [AList.lookup_erase_ne hid] at h
          exact ⟨h, hne hid⟩

/-! ### The invariant -/

theorem Linked.step {w' : World} (hs : Linked http isMethod toStr fromStr w)
    (hw : Went http isMethod toStr fromStr agentId w w') :
    Linked http isMethod toStr fromStr w' := by
  cases hw with
  | stay => exact hs
  | @gateway e s hstep h htext =>
      refine ⟨?_, hs.served, ?_⟩
      · rw [h.traffic, requests, List.filterMap_append, List.map_append, ← List.append_assoc,
          ← hs.taken]
        rfl
      · have htexts : texts s.traffic = texts w.gateway.traffic := by
          rw [h.traffic, texts, List.filterMap_append]
          exact (congrArg _ (texts_news htext)).trans (List.append_nil _)
        rw [htexts]
        exact hs.replied
  | @take text down answer hlive hheld hdown alive =>
      refine ⟨?_, ?_, ?_⟩
      · rw [hs.taken, hdown, List.map_append, List.append_assoc]
        rfl
      · intro turn hturn
        rcases List.mem_append.mp hturn with hturn | hturn
        · exact hs.served turn hturn
        · obtain rfl := List.mem_singleton.mp hturn
          rfl
      · intro t ht
        rcases List.mem_append.mp ht with ht | ht
        · obtain ⟨turn, hturn, hframe⟩ := hs.replied t (List.mem_append_left _ ht)
          exact ⟨turn, List.mem_append_left _ hturn, hframe⟩
        · obtain ⟨frame, hframe, rfl⟩ := Option.map_eq_some_iff.mp (Option.mem_toList.mp ht)
          exact ⟨_, List.mem_append_right _ List.mem_cons_self, frame, hframe, rfl⟩
  | reply =>
      refine ⟨hs.taken, hs.served, ?_⟩
      rw [Option.toList_none, List.append_nil, ← List.append_assoc]
      exact hs.replied
  | @deliver t up s hup hstep h =>
      refine ⟨?_, hs.served, fun t' ht' => hs.replied t' ?_⟩
      · rw [h.traffic, requests, List.filterMap_append]
        change (requests _ ++ requests (news w.gateway (.text t))).map _ = _
        rw [requests_news_text, List.append_nil]
        exact hs.taken
      · rw [h.traffic, texts, List.filterMap_append] at ht'
        rw [hup]
        have hsub := texts_news_text w.gateway t
        simp only [List.mem_append, List.mem_cons] at ht' ⊢
        rcases ht' with ((ht' | ht') | ht') | ht'
        · exact .inl (.inl ht')
        · exact .inl (.inr (.inl (List.mem_singleton.mp (hsub ht'))))
        · exact .inl (.inr (.inr ht'))
        · exact .inr ht'
  | die =>
      refine ⟨hs.taken, hs.served, fun t ht => hs.replied t ?_⟩
      rw [Option.toList_none, List.append_nil] at ht
      exact List.mem_append_left _ ht

theorem due_step {w' : World} (hhttp : http.Lawful) (hok : Ok http toStr fromStr w')
    (hs : Good http isMethod toStr fromStr agentId w)
    (hw : Went http isMethod toStr fromStr agentId w w') (hrunning : w'.gateway.phase = .running)
    (halive : w'.alive = true) : Due fromStr w' := by
  have hold := hw.ok hok
  cases hw with
  | stay => exact hs.due hrunning halive
  | @gateway e s hstep h htext =>
      obtain ⟨hphase, hpending⟩ := pending_step h htext hrunning
      intro id n hlook
      rcases hpending id n hlook with hlook | ⟨c, hc, rfl⟩
      · obtain ⟨t, ht, hid⟩ := hs.due hphase halive id n hlook
        refine ⟨t, ?_, hid⟩
        simp only [List.mem_append] at ht ⊢
        tauto
      · refine ⟨toStr (requestFrame c.request), ?_, ?_⟩
        · refine List.mem_append_left _ (List.mem_append_left _ (List.mem_append_right _ ?_))
          exact List.mem_map_of_mem (f := fun r : ℕ × Json => toStr r.2) hc
        · refine (hok.sent (n, requestFrame c.request) ?_).frameId?
          rw [h.traffic, requests, List.filterMap_append]
          exact List.mem_append_right _ hc
  | @take text down answer hlive hheld hdown alive =>
      have hat : (w.log.map Turn.text ++ w.down)[w.log.length]? = some text := by
        rw [List.getElem?_append_right (List.length_map ..).le, List.length_map, Nat.sub_self,
          hdown]
        rfl
      obtain ⟨c, -, hid, hserves⟩ := serves_of_taken hhttp hold hs hat answer
      obtain ⟨resp, hreply⟩ := reply?_of_serves hserves
      have hreadable := hok.replied _ (List.mem_append_right _ List.mem_cons_self) _ hreply
      intro id n hlook
      obtain ⟨t, ht, htid⟩ := hs.due hrunning hlive id n hlook
      rw [hdown, hheld] at ht
      rcases List.mem_append.mp ht with ht | ht
      · rw [Option.toList_none, List.append_nil] at ht
        rcases List.mem_cons.mp ht with rfl | ht
        · -- the reply takes the place of the request
          rw [hid] at htid
          obtain rfl := Option.some.inj htid
          refine ⟨toStr (Agent.replyFrame (.str c.request.id) resp), ?_, hreadable.frameId?⟩
          rw [hreply]
          exact List.mem_append_left _ (List.mem_append_right _ List.mem_cons_self)
        · exact ⟨t, List.mem_append_left _ (List.mem_append_left _ ht), htid⟩
      · exact ⟨t, List.mem_append_right _ ht, htid⟩
  | reply =>
      intro id n hlook
      obtain ⟨t, ht, hid⟩ := hs.due hrunning halive id n hlook
      refine ⟨t, ?_, hid⟩
      simp only [List.mem_append, Option.toList_none, List.not_mem_nil] at ht ⊢
      tauto
  | @deliver t up s hup hstep h =>
      intro id n hlook
      cases h with
      | stay h =>
          rw [news, if_pos hrunning] at h
          cases h
      | broke h hnews => cases hrunning
      | text h t =>
          obtain ⟨hlook, hne⟩ := pending_receive hlook
          obtain ⟨t', ht', hid⟩ := hs.due h halive id n hlook
          refine ⟨t', ?_, hid⟩
          rw [hup] at ht'
          rcases List.mem_append.mp ht' with ht' | ht'
          · exact List.mem_append_left _ ht'
          · rcases List.mem_cons.mp ht' with rfl | ht'
            · exact absurd hid hne
            · exact List.mem_append_right _ ht'
  | die => cases halive

theorem good_init : Good http isMethod toStr fromStr agentId init where
  reached := ⟨[], rfl⟩
  ordered := ordered_init
  masked r hr := by cases hr
  linked := ⟨rfl, fun _ hturn => (List.not_mem_nil hturn).elim,
    fun _ ht => (List.not_mem_nil ht).elim⟩
  held _ := ⟨fun _ _ hc => (by cases hc), fun _ _ hc => (by cases hc)⟩
  due _ _ id n hlook := by cases hlook

theorem Went.gateway_cases {w' : World} (hw : Went http isMethod toStr fromStr agentId w w') :
    w'.gateway = w.gateway ∨ ∃ e, w'.gateway = Tunnel.step fromStr agentId w.gateway e := by
  cases hw with
  | @gateway e s hstep h htext => exact .inr ⟨e, hstep⟩
  | @deliver t up s hup hstep h => exact .inr ⟨.text t, hstep⟩
  | stay | take | reply | die => exact .inl rfl

theorem good_step (hhttp : http.Lawful) (hs : Good http isMethod toStr fromStr agentId w)
    (m : Move) (hok : Ok http toStr fromStr (step http isMethod toStr fromStr agentId w m)) :
    Good http isMethod toStr fromStr agentId (step http isMethod toStr fromStr agentId w m) := by
  have hw := went http isMethod toStr fromStr agentId w m
  have hold := hw.ok hok
  have hlinked := hs.linked.step hw
  have hdue := due_step hhttp hok hs hw
  rcases hw.gateway_cases with hsame | ⟨e, he⟩
  · exact ⟨hsame ▸ hs.reached, hsame ▸ hs.ordered, hsame ▸ hs.masked, hlinked, hsame ▸ hs.held,
      hdue⟩
  · have h := stepped fromStr agentId w.gateway e
    rw [← he] at h
    obtain ⟨es, hes⟩ := hs.reached
    refine ⟨⟨es ++ [e], ?_⟩, hs.ordered.step h, hs.masked.step h, hlinked,
      Held.step hs.inv hold.distinct hs.held h, hdue⟩
    rw [he, hes, Runs.final_append]
    rfl

theorem good_final (hhttp : http.Lawful) {ms : List Move}
    (hok : Ok http toStr fromStr (final (step http isMethod toStr fromStr agentId) init ms)) :
    Good http isMethod toStr fromStr agentId
      (final (step http isMethod toStr fromStr agentId) init ms) :=
  Runs.final_invariant_of_final
    (fun w m => (went http isMethod toStr fromStr agentId w m).ok)
    (fun _ m hs hok => good_step hhttp hs m hok) good_init hok

/-! ### The result -/

/-- A call that has returned a response has it from the agent's reply to its own request. -/
theorem returns_of_result (hhttp : http.Lawful) (hok : Ok http toStr fromStr w)
    (hs : Good http isMethod toStr fromStr agentId w) {n : ℕ} {response : ProxyResponse}
    (h : w.gateway.result n = some (.ok response)) :
    ∃ turn c resp, w.log[n]? = some turn ∧ w.gateway.calls[n]? = some c ∧
      turn.outcome.reply? = some (Agent.replyFrame (.str c.request.id) resp) ∧
      Returns resp response := by
  obtain ⟨c, hc, hresult⟩ := Option.bind_eq_some_iff.mp h
  obtain ⟨k, hanswer⟩ := hs.inv.1.sound n c hc response hresult
  obtain ⟨frame, ⟨c', o, t, hc', -, -, ht, hreply, -⟩, rfl⟩ :=
    firstReply_of_answer hs.inv (n := n) (k := k) (by rw [hc, Option.bind_some, hanswer])
  obtain rfl := Option.some.inj (hc.symm.trans hc')
  have htexts : t ∈ texts w.gateway.traffic :=
    List.mem_filterMap.mpr ⟨.text t, List.mem_of_getElem? ht, rfl⟩
  obtain ⟨turn, hturn, frame', hframe', rfl⟩ :=
    hs.linked.replied t (List.mem_append_left _ (List.mem_append_left _ htexts))
  obtain ⟨m, hm⟩ := List.mem_iff_getElem?.mp hturn
  obtain ⟨d, hd, -, hserves⟩ := serves_of_taken hhttp hok hs (taken_of_log hm) turn.answer
  rw [← hs.linked.served turn hturn] at hserves
  obtain ⟨resp, hresp⟩ := reply?_of_serves hserves
  obtain rfl := Option.some.inj (hframe'.symm.trans hresp)
  obtain ⟨read, hread, halike⟩ := hok.replied turn hturn _ hframe'
  obtain ⟨hid, hreturns⟩ := Agent.returns_readResponse halike
  rw [reply?, hread, Option.bind_some, hid, Option.map_some] at hreply
  obtain ⟨hids, rfl⟩ := Prod.mk.inj (Option.some.inj hreply)
  obtain rfl := hok.distinct.eq hd hc hids
  exact ⟨turn, c, resp, hm, hc, hids ▸ hframe', hreturns⟩

/-- Where nothing is on the way, no call waits. -/
theorem answered_of_quiet (hs : Good http isMethod toStr fromStr agentId w)
    (hrunning : w.gateway.phase = .running) (halive : w.alive = true)
    (hqueue : w.gateway.queue = []) (hquiet : w.down ++ w.held.toList ++ w.up = []) {n : ℕ}
    {c : Call} (hc : w.gateway.calls[n]? = some c) :
    c.answer?.isSome ∨ c.result = some (.error "tunnel timeout") := by
  have hheld := hs.held hrunning
  cases hslot : c.slot with
  | sent frame resp => exact .inl (by rw [Call.answer?, hslot]; rfl)
  | dropped => exact absurd hslot (hheld.calls n c hc).slot
  | empty =>
      right
      cases hresult : c.result with
      | none =>
          have hmem := hheld.held n c hc hslot hresult
          rw [State.held, hqueue, List.nil_append] at hmem
          obtain ⟨⟨id, m⟩, hentry, rfl⟩ := List.mem_map.mp hmem
          obtain ⟨t, ht, -⟩ := hs.due hrunning halive id m (AList.mem_lookup_iff.mpr hentry)
          rw [hquiet] at ht
          exact (List.not_mem_nil ht).elim
      | some r =>
          cases r with
          | error msg => rw [(hheld.calls n c hc).error msg hresult]
          | ok resp =>
              obtain ⟨frame, hanswer⟩ := hs.inv.1.sound n c hc resp hresult
              rw [Call.answer?, hslot] at hanswer
              cases hanswer

/-- **A tunnel is transparent.**  The agent makes the requests of the calls, in their order and
each of them once at most; a call that has returned a response has it from the reply to its own
request; and while the loop runs and the agent lives, a call is left without an answer only when
its time is over. -/
theorem tunnel_transparent (hhttp : http.Lawful) (ms : List Move)
    (hok : Ok http toStr fromStr (final (step http isMethod toStr fromStr agentId) init ms)) :
    let w := final (step http isMethod toStr fromStr agentId) init ms
    (∀ (i : ℕ) turn, w.log[i]? = some turn → ∃ c, w.gateway.calls[i]? = some c ∧
      Serves isMethod c.request turn.answer turn.outcome) ∧
    (∀ n response, w.gateway.result n = some (.ok response) →
      ∃ turn c resp, w.log[n]? = some turn ∧ w.gateway.calls[n]? = some c ∧
        turn.outcome.reply? = some (Agent.replyFrame (.str c.request.id) resp) ∧
        Returns resp response) ∧
    (w.gateway.phase = .running → w.alive = true → w.gateway.queue = [] →
      w.down ++ w.held.toList ++ w.up = [] → ∀ (n : ℕ) c, w.gateway.calls[n]? = some c →
        c.answer?.isSome ∨ c.result = some (.error "tunnel timeout")) := by
  intro w
  have hs : Good http isMethod toStr fromStr agentId w := good_final hhttp hok
  refine ⟨fun i turn hi => ?_, fun n response => returns_of_result hhttp hok hs,
    fun hrunning halive hqueue hquiet n c => answered_of_quiet hs hrunning halive hqueue hquiet⟩
  obtain ⟨c, hc, -, hserves⟩ := serves_of_taken hhttp hok hs (taken_of_log hi) turn.answer
  rw [← hs.linked.served turn (List.mem_of_getElem? hi)] at hserves
  exact ⟨c, hc, hserves⟩

end Proofs

/-- A chat with an empty payload, and the reply to it. -/
def sentRequest (draw : UInt64) : ProxyRequest :=
  newRequest draw "POST".toList "http://up/chat/completions".toList
    [("content-type", "application/json".toList)] (some "\x7b\x7d".toList)

def sentReply (id : Text) : Json :=
  Agent.replyFrame (.str id) ⟨200, [("x-up", id)], "\x7b\x7d".toList⟩

/-- Two calls.  The second one is on its way before the first one is taken, and is the first to
see its answer. -/
def twoCalls : List Move :=
  let forward (draw : UInt64) := Move.gateway (.forward true draw "POST".toList
    "http://up/chat/completions".toList [("content-type", "application/json".toList)]
    (some "\x7b\x7d".toList))
  let answer (up : Char) : Except Text HttpResponse :=
    .ok ⟨200, [("x-up", some [up])], some "\x7b\x7d".toList⟩
  [forward 7, .gateway (.recv true), forward 8, .take (answer '7'), .gateway (.recv true), .reply,
    .take (answer '8'), .deliver, .reply, .deliver, .gateway (.poll 1 false),
    .gateway (.poll 0 false)]

def requestText (id : Text) : Text :=
  "\x7b\"body\":\"\x7b\x7d\",\"headers\":\x7b\"User-Agent\":".toList ++
    "\"Firewall-LLM-Agent/0.1\",\"content-type\":\"application/json\"\x7d,".toList ++
    "\"id\":\"".toList ++ id ++
    "\",\"method\":\"POST\",\"url\":\"http://up/chat/completions\"\x7d".toList

def replyText (id : Text) : Text :=
  "\x7b\"body\":\"\x7b\x7d\",\"headers\":\x7b\"x-up\":\"".toList ++ id ++
    "\"\x7d,\"id\":\"".toList ++ id ++ "\",\"status\":200\x7d".toList

/-- How the frames of these calls, and an empty object, are written and read. -/
def writeFrame (frame : Json) : Text :=
  match frame.get? "id" with
  | some (.str id) => if (frame.get? "status").isSome then replyText id else requestText id
  | _ => "\x7b\x7d".toList

def readFrame (t : Text) : Option Json :=
  if t = requestText ['7'] then some (requestFrame (sentRequest 7))
  else if t = requestText ['8'] then some (requestFrame (sentRequest 8))
  else if t = replyText ['7'] then some (sentReply ['7'])
  else if t = replyText ['8'] then some (sentReply ['8'])
  else if t = "\x7b\x7d".toList then some (.obj [])
  else none

theorem alike_self {frame : Json} (h : frame.asObj?.isSome) : Alike frame frame :=
  ⟨h, fun _ _ => rfl, fun fields hfields => ⟨fields, hfields, List.Perm.refl _⟩⟩

/-- The world at the end of the calls. -/
def twoCallsEnd : World :=
  final (step HttpCrate.Lawful.listHttp (fun _ => true) writeFrame readFrame "a1") init twoCalls

theorem sendable_sentRequest (draw : UInt64) :
    Sendable HttpCrate.Lawful.listHttp (sentRequest draw) := by
  have hsame : ∀ draw : UInt64, (sentRequest draw).headers = (sentRequest 7).headers := fun _ => rfl
  have hall : (sentRequest 7).headers.all
      (fun h => h.2.all (fun c => 32 ≤ c.toNat && c.toNat < 127)) = true := by decide
  constructor
  · rw [hsame]
    decide
  · rw [hsame]
    intro h hh c hc
    simpa using List.all_eq_true.mp (List.all_eq_true.mp hall h hh) c hc
  · rw [hsame]
    decide

set_option maxRecDepth 8000 in
theorem ok_twoCalls : Ok HttpCrate.Lawful.listHttp writeFrame readFrame twoCallsEnd where
  distinct := by
    have hids : twoCallsEnd.gateway.calls.map (fun c => c.request.id) = [['7'], ['8']] := rfl
    rw [Distinct, hids]
    decide
  sendable r hr := by
    have hcalls : twoCallsEnd.gateway.calls.map Call.request = [sentRequest 7, sentRequest 8] := rfl
    rw [hcalls] at hr
    rcases List.mem_pair.mp hr with rfl | rfl
    · exact sendable_sentRequest 7
    · exact sendable_sentRequest 8
  sent r hr := by
    have hrequests : requests twoCallsEnd.gateway.traffic =
        [(0, requestFrame (sentRequest 7)), (1, requestFrame (sentRequest 8))] := rfl
    rw [hrequests] at hr
    rcases List.mem_pair.mp hr with rfl | rfl
    · exact ⟨requestFrame (sentRequest 7), rfl, alike_self rfl⟩
    · exact ⟨requestFrame (sentRequest 8), rfl, alike_self rfl⟩
  replied turn hturn frame hframe := by
    have hreplies : twoCallsEnd.log.map (fun turn => turn.outcome.reply?) =
        [some (sentReply ['7']), some (sentReply ['8'])] := rfl
    have hmem := List.mem_map_of_mem (f := fun turn : Turn => turn.outcome.reply?) hturn
    rw [hreplies] at hmem
    rcases List.mem_pair.mp hmem with hreply | hreply
    · obtain rfl := Option.some.inj (hreply.symm.trans hframe)
      exact ⟨sentReply ['7'], rfl, alike_self rfl⟩
    · obtain rfl := Option.some.inj (hreply.symm.trans hframe)
      exact ⟨sentReply ['8'], rfl, alike_self rfl⟩

set_option maxRecDepth 8000 in
theorem result_first : twoCallsEnd.gateway.result 0 =
    some (.ok ⟨200, [("x-up", ['7'])], "\x7b\x7d".toList⟩) := rfl

set_option maxRecDepth 8000 in
theorem result_second : twoCallsEnd.gateway.result 1 =
    some (.ok ⟨200, [("x-up", ['8'])], "\x7b\x7d".toList⟩) := rfl

/-- The call with this number has returned the response that was sent as the reply to it. -/
def Replied (n : ℕ) (response : ProxyResponse) : Prop :=
  twoCallsEnd.gateway.result n = some (.ok response) ∧
    ∃ turn c resp, twoCallsEnd.log[n]? = some turn ∧ twoCallsEnd.gateway.calls[n]? = some c ∧
      turn.outcome.reply? = some (Agent.replyFrame (.str c.request.id) resp) ∧
      Returns resp response

/-- Each of the two calls gets the reply to its own request. -/
theorem tunnel_transparent_twoCalls :
    Replied 0 ⟨200, [("x-up", ['7'])], "\x7b\x7d".toList⟩ ∧
      Replied 1 ⟨200, [("x-up", ['8'])], "\x7b\x7d".toList⟩ := by
  have hreturns := (@tunnel_transparent _ _ _ HttpCrate.Lawful.listHttp (fun _ => true) writeFrame
    readFrame "a1" HttpCrate.Lawful.lawful_listHttp twoCalls ok_twoCalls).2.1
  exact ⟨⟨result_first, hreturns 0 _ result_first⟩, ⟨result_second, hreturns 1 _ result_second⟩⟩

end FirewallLLM.Tunnel.Transport
