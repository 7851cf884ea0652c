import FirewallLLM.TunnelReplies

/-! # The order of a tunnel

What the loop of the gateway adds to the traffic with each event, and what its steps keep: the
requests go out in the order of the calls (`Ordered`), their headers are masked, and where the
ids differ every call that still waits is one that the loop holds (`Held`). -/

namespace FirewallLLM.Tunnel.Transport

open Dlp (Text)

/-! ### What is new -/

/-- What an event of the gateway adds to its traffic. -/
def news (s : State) : Event → List Traffic
  | .text t => if s.phase = .running then [.text t] else []
  | .recv true =>
      if s.phase = .running then
        ((s.queue.head?.bind (fun n => (s.calls[n]?).map (fun c => (n, c)))).map
          (fun x => Traffic.request x.1 (requestFrame x.2.request))).toList
      else []
  | _ => []

def Traffic.request? : Traffic → Option (ℕ × Json)
  | .request n frame => some (n, frame)
  | .text _ => none

def Traffic.text? : Traffic → Option Text
  | .request _ _ => none
  | .text t => some t

/-- The requests in a part of the traffic, and the texts. -/
def requests (traffic : List Traffic) : List (ℕ × Json) := traffic.filterMap Traffic.request?
def texts (traffic : List Traffic) : List Text := traffic.filterMap Traffic.text?

/-! ### The traffic -/

section Traffic

variable {parse : Text → Option Json} {agentId : String} {s : State} {e : Event}

theorem traffic_receive (parse : Text → Option Json) (s : State) (t : Text) :
    (s.receive parse t).traffic = s.traffic ++ [.text t] := by
  unfold State.receive
  split
  · rfl
  · split <;> rfl

theorem recv_cons {n : ℕ} {queue : List ℕ} {c : Call} (hqueue : s.queue = n :: queue)
    (hc : s.calls[n]? = some c) (sent : Bool) :
    s.recv sent =
      { phase := if sent then s.phase else .broken
        queue
        pending := s.pending.insert c.request.id n
        calls := displaced s c.request.id
        traffic := if sent then s.traffic ++ [.request n (requestFrame c.request)]
          else s.traffic } := by
  unfold State.recv
  rw [hqueue]
  dsimp only
  rw [hc]
  rfl

theorem recv_cases (s : State) (sent : Bool) :
    (s.recv sent = s ∧ news s (.recv sent) = []) ∨
      ∃ n queue c, s.queue = n :: queue ∧ s.calls[n]? = some c := by
  cases hqueue : s.queue with
  | nil =>
      refine .inl ⟨?_, ?_⟩
      · unfold State.recv
        rw [hqueue]
      · cases sent <;> simp [news, hqueue]
  | cons n queue =>
      cases hc : s.calls[n]? with
      | none =>
          refine .inl ⟨?_, ?_⟩
          · unfold State.recv
            rw [hqueue]
            dsimp only
            rw [hc]
          · cases sent <;> simp [news, hqueue, hc]
      | some c => exact .inr ⟨n, queue, c, rfl, hc⟩

theorem news_recv (hrunning : s.phase = .running) {n : ℕ} {queue : List ℕ} {c : Call}
    (hqueue : s.queue = n :: queue) (hc : s.calls[n]? = some c) :
    news s (.recv true) = [.request n (requestFrame c.request)] := by
  simp [news, hrunning, hqueue, hc]

theorem traffic_recv (hrunning : s.phase = .running) (sent : Bool) :
    (s.recv sent).traffic = s.traffic ++ news s (.recv sent) := by
  rcases recv_cases s sent with ⟨hsame, hnone⟩ | ⟨n, queue, c, hqueue, hc⟩
  · rw [hsame, hnone]
    exact (List.append_nil _).symm
  · rw [recv_cons hqueue hc]
    cases sent with
    | true => rw [news_recv hrunning hqueue hc]; rfl
    | false => exact (List.append_nil _).symm

/-- What an event does to the gateway. -/
inductive Stepped (parse : Text → Option Json) (agentId : String) (s : State) :
    Event → State → Prop
  | stay {e : Event} (h : news s e = []) : Stepped parse agentId s e s
  | forward {found : Bool} {draw : UInt64} {method url : Text} {headers : List (String × Text)}
      {body : Option Text} {s' : State}
      (h : Tunnel.forward agentId s found (newRequest draw method url headers body) = .ok s') :
      Stepped parse agentId s (.forward found draw method url headers body) s'
  | poll (n : ℕ) (expired : Bool) :
      Stepped parse agentId s (.poll n expired)
        { s with calls := s.calls.modify n (Call.poll expired) }
  | finish (h : s.phase = .broken) : Stepped parse agentId s .finish s.finish
  | broke {e : Event} (h : s.phase = .running) (hnews : news s e = []) :
      Stepped parse agentId s e { s with phase := .broken }
  | text (h : s.phase = .running) (t : Text) :
      Stepped parse agentId s (.text t) (s.receive parse t)
  | recv (h : s.phase = .running) (sent : Bool) : Stepped parse agentId s (.recv sent) (s.recv sent)

theorem stepped (parse : Text → Option Json) (agentId : String) (s : State) (e : Event) :
    Stepped parse agentId s e (Tunnel.step parse agentId s e) := by
  cases e with
  | forward found draw method url headers body =>
      simp only [Tunnel.step]
      cases hf : Tunnel.forward agentId s found (newRequest draw method url headers body) with
      | error e => exact .stay rfl
      | ok s' => exact .forward hf
  | poll n expired => exact .poll n expired
  | finish =>
      cases hphase : s.phase with
      | broken =>
          simp only [Tunnel.step, hphase]
          exact .finish hphase
      | running | finished =>
          simp only [Tunnel.step, hphase, loopStep]
          exact .stay rfl
  | text t =>
      cases hphase : s.phase with
      | running =>
          simp only [Tunnel.step, hphase, loopStep]
          exact .text hphase t
      | broken | finished =>
          simp only [Tunnel.step, hphase]
          exact .stay (by simp [news, hphase])
  | recv sent =>
      cases hphase : s.phase with
      | running =>
          simp only [Tunnel.step, hphase, loopStep]
          exact .recv hphase sent
      | broken | finished =>
          simp only [Tunnel.step, hphase]
          exact .stay (by cases sent <;> simp [news, hphase])
  | tick sent stale =>
      cases hphase : s.phase with
      | running =>
          simp only [Tunnel.step, hphase, loopStep]
          split_ifs
          · exact .broke hphase rfl
          · exact .stay rfl
      | broken | finished =>
          simp only [Tunnel.step, hphase]
          exact .stay rfl
  | recvClosed =>
      cases hphase : s.phase with
      | running =>
          simp only [Tunnel.step, hphase, loopStep]
          split_ifs
          · exact .broke hphase rfl
          · exact .stay rfl
      | broken | finished =>
          simp only [Tunnel.step, hphase]
          exact .stay rfl
  | close =>
      cases hphase : s.phase with
      | running =>
          simp only [Tunnel.step, hphase, loopStep]
          exact .broke hphase rfl
      | broken | finished =>
          simp only [Tunnel.step, hphase]
          exact .stay rfl
  | other =>
      cases hphase : s.phase <;> simp only [Tunnel.step, hphase, loopStep] <;> exact .stay rfl

theorem forward_eq {s' : State} {found : Bool} {request : ProxyRequest}
    (h : Tunnel.forward agentId s found request = .ok s') :
    s' = { s with
      queue := s.queue ++ [s.calls.length], calls := s.calls ++ [⟨request, .empty, none⟩] } := by
  unfold Tunnel.forward at h
  split_ifs at h
  exact (Except.ok.inj h).symm

theorem Stepped.traffic {s' : State} (h : Stepped parse agentId s e s') :
    s'.traffic = s.traffic ++ news s e := by
  have hnil : s.traffic = s.traffic ++ [] := (List.append_nil _).symm
  cases h with
  | stay h => rw [h]; exact hnil
  | forward h => rw [forward_eq h]; exact hnil
  | poll n expired => exact hnil
  | finish h => exact hnil
  | broke h hnews => rw [hnews]; exact hnil
  | text h t =>
      rw [traffic_receive, news, if_pos h]
  | recv h sent => exact traffic_recv h sent

/-- The calls whose requests were sent. -/
def sentCalls (s : State) : List ℕ := (requests s.traffic).map Prod.fst

/-- The requests are sent in the order of the calls, and none is left out. -/
structure Ordered (s : State) : Prop where
  sent : sentCalls s <+: List.range s.calls.length
  queued : s.phase = .running → sentCalls s ++ s.queue = List.range s.calls.length

theorem ordered_init : Ordered Tunnel.init := ⟨List.prefix_rfl, fun _ => rfl⟩

theorem Ordered.of_eq {s' : State} (hs : Ordered s) (hsent : sentCalls s' = sentCalls s)
    (hcalls : s'.calls.length = s.calls.length)
    (hqueue : s'.phase = .running → s.phase = .running ∧ s'.queue = s.queue) : Ordered s' := by
  refine ⟨?_, fun h => ?_⟩
  · rw [hsent, hcalls]
    exact hs.sent
  · obtain ⟨hrunning, hq⟩ := hqueue h
    rw [hsent, hcalls, hq]
    exact hs.queued hrunning

theorem Ordered.forward {s' : State} (hs : Ordered s) {found : Bool} {request : ProxyRequest}
    (h : Tunnel.forward agentId s found request = .ok s') : Ordered s' := by
  rw [forward_eq h]
  have hlen : (s.calls ++ [(⟨request, .empty, none⟩ : Call)]).length = s.calls.length + 1 :=
    List.length_append
  refine ⟨?_, fun hrunning => ?_⟩
  · rw [hlen, List.range_succ]
    exact hs.sent.trans (List.prefix_append _ _)
  · rw [hlen, List.range_succ, ← hs.queued hrunning, List.append_assoc]
    rfl

theorem receive_spec (parse : Text → Option Json) (s : State) (t : Text) :
    (s.receive parse t).phase = s.phase ∧ (s.receive parse t).queue = s.queue ∧
      (s.receive parse t).calls.length = s.calls.length := by
  unfold State.receive
  split
  · exact ⟨rfl, rfl, rfl⟩
  · split
    · exact ⟨rfl, rfl, rfl⟩
    · exact ⟨rfl, rfl, List.length_modify ..⟩

theorem length_displaced (s : State) (id : Text) : (displaced s id).length = s.calls.length := by
  unfold displaced
  split
  · exact List.length_modify ..
  · rfl

theorem Ordered.recv (hs : Ordered s) (hrunning : s.phase = .running) (sent : Bool) :
    Ordered (s.recv sent) := by
  rcases recv_cases s sent with ⟨hsame, -⟩ | ⟨n, queue, c, hqueue, hc⟩
  · rwa [hsame]
  · have hcalls : (s.recv sent).calls.length = s.calls.length := by
      rw [recv_cons hqueue hc]
      exact length_displaced s c.request.id
    cases sent with
    | false =>
        refine ⟨?_, fun h => ?_⟩
        · rw [hcalls, recv_cons hqueue hc]
          exact hs.sent
        · rw [recv_cons hqueue hc] at h
          cases h
    | true =>
        have hall : sentCalls (s.recv true) ++ queue = List.range s.calls.length := by
          rw [sentCalls, traffic_recv hrunning, news_recv hrunning hqueue hc, requests,
            List.filterMap_append, List.map_append, List.append_assoc, ← hs.queued hrunning, hqueue]
          rfl
        refine ⟨?_, fun _ => ?_⟩
        · rw [hcalls, ← hall]
          exact List.prefix_append _ _
        · rw [hcalls, ← hall, recv_cons hqueue hc]

theorem Ordered.step {s' : State} (hs : Ordered s) (h : Stepped parse agentId s e s') :
    Ordered s' := by
  cases h with
  | stay h => exact hs
  | forward h => exact hs.forward h
  | poll n expired => exact hs.of_eq rfl (List.length_modify ..) fun h => ⟨h, rfl⟩
  | finish h => exact hs.of_eq rfl List.length_mapIdx fun h => by cases h
  | broke h hnews => exact hs.of_eq rfl rfl fun h => by cases h
  | text h t =>
      obtain ⟨hphase, hqueue, hcalls⟩ := receive_spec parse s t
      refine hs.of_eq ?_ hcalls fun _ => ⟨h, hqueue⟩
      rw [sentCalls, traffic_receive, requests, List.filterMap_append, List.map_append]
      exact List.append_nil _
  | recv h sent => exact hs.recv h sent

/-! ### The calls -/

theorem map_request_modify (calls : List Call) (n : ℕ) {f : Call → Call}
    (hf : ∀ c, (f c).request = c.request) :
    (calls.modify n f).map Call.request = calls.map Call.request := by
  refine List.ext_getElem? fun i => ?_
  rw [List.getElem?_map, List.getElem?_map, calls_modify, Option.map_map]
  congr 1
  funext c
  simp only [Function.comp_apply]
  split_ifs
  · exact hf c
  · rfl

theorem request_displaced (s : State) (id : Text) :
    (displaced s id).map Call.request = s.calls.map Call.request := by
  unfold displaced
  split
  · exact map_request_modify _ _ Call.request_dropSender
  · rfl

theorem Stepped.requests {s' : State} (h : Stepped parse agentId s e s') :
    s'.calls.map Call.request = s.calls.map Call.request ∨
      ∃ draw method url headers body, s'.calls.map Call.request =
        s.calls.map Call.request ++ [newRequest draw method url headers body] := by
  cases h with
  | stay h => exact .inl rfl
  | forward h =>
      rw [forward_eq h]
      exact .inr ⟨_, _, _, _, _, List.map_append⟩
  | poll n expired => exact .inl (map_request_modify _ n (Call.request_poll expired))
  | finish h =>
      left
      refine List.ext_getElem? fun i => ?_
      rw [List.getElem?_map, List.getElem?_map, finish_calls, Option.map_map]
      congr 1
      funext c
      simp only [Function.comp_apply]
      split_ifs
      · exact Call.request_dropSender c
      · rfl
  | broke h hnews => exact .inl rfl
  | text h t =>
      left
      unfold State.receive
      split
      · rfl
      · split
        · rfl
        · exact map_request_modify _ _ (Call.request_send _ _)
  | recv h sent =>
      left
      rcases recv_cases s sent with ⟨hsame, -⟩ | ⟨n, queue, c, hqueue, hc⟩
      · rw [hsame]
      · rw [recv_cons hqueue hc]
        exact request_displaced s c.request.id

/-- The headers of every request are masked. -/
def Masked (s : State) : Prop :=
  ∀ r ∈ s.calls.map Call.request, ∃ headers, r.headers = maskForTunnel headers

theorem Masked.step {s' : State} (hs : Masked s) (h : Stepped parse agentId s e s') :
    Masked s' := by
  unfold Masked at hs ⊢
  rcases h.requests with heq | ⟨draw, method, url, headers, body, heq⟩
  · rwa [heq]
  · rw [heq]
    intro r hr
    rcases List.mem_append.mp hr with hr | hr
    · exact hs r hr
    · obtain rfl := List.mem_singleton.mp hr
      exact ⟨headers, rfl⟩

/-- The ids of the calls differ. -/
def Distinct (s : State) : Prop := (s.calls.map (fun c => c.request.id)).Nodup

theorem Distinct.of_step {s' : State} (hs : Distinct s') (h : Stepped parse agentId s e s') :
    Distinct s := by
  have hids : ∀ s : State, s.calls.map (fun c => c.request.id) =
      (s.calls.map Call.request).map ProxyRequest.id := fun s => by
    rw [List.map_map]
    rfl
  unfold Distinct at hs ⊢
  rw [hids] at hs ⊢
  rcases h.requests with heq | ⟨draw, method, url, headers, body, heq⟩
  · rwa [heq] at hs
  · rw [heq, List.map_append] at hs
    exact (List.nodup_append.mp hs).1

theorem Distinct.eq (hs : Distinct s) {m n : ℕ} {c d : Call} (hm : s.calls[m]? = some c)
    (hn : s.calls[n]? = some d) (hid : c.request.id = d.request.id) : m = n := by
  have hm' : (s.calls.map (fun c => c.request.id))[m]? = some c.request.id := by
    rw [List.getElem?_map, hm, Option.map_some]
  have hn' : (s.calls.map (fun c => c.request.id))[n]? = some c.request.id := by
    rw [List.getElem?_map, hn, Option.map_some, hid]
  obtain ⟨hlt, hget⟩ := List.getElem?_eq_some_iff.mp hm'
  obtain ⟨hlt', hget'⟩ := List.getElem?_eq_some_iff.mp hn'
  exact (List.Nodup.getElem_inj_iff hs).mp (hget.trans hget'.symm)

/-- The responder of a call was not dropped, and the only error that it returned is the end of
its time. -/
structure Undropped (c : Call) : Prop where
  slot : c.slot ≠ .dropped
  error : ∀ msg, c.result = some (.error msg) → msg = "tunnel timeout"

/-- A call that still waits for its slot is one that the loop holds. -/
structure Held (s : State) : Prop where
  calls : ∀ (n : ℕ) c, s.calls[n]? = some c → Undropped c
  held : ∀ (n : ℕ) c, s.calls[n]? = some c → c.slot = .empty → c.result = none → n ∈ s.held

theorem undropped_poll {c : Call} (hc : Undropped c) (expired : Bool) :
    Undropped (c.poll expired) := by
  refine ⟨by rw [Call.slot_poll]; exact hc.slot, fun msg h => ?_⟩
  unfold Call.poll at h
  split at h
  · cases h
  · next hslot => exact absurd hslot hc.slot
  · next hnone _ =>
      split_ifs at h
      · simpa using h.symm
      · rw [hnone] at h
        cases h
  · exact hc.error msg h

theorem undropped_send {c : Call} (hc : Undropped c) (frame : ℕ) (resp : ProxyResponse) :
    Undropped (c.send frame resp) := by
  unfold Call.send
  split
  · next hnone =>
      refine ⟨Slot.noConfusion, fun msg h => ?_⟩
      rw [hnone] at h
      cases h
  · exact hc

theorem result_of_poll {c : Call} {expired : Bool} (h : (c.poll expired).result = none) :
    c.result = none := by
  cases hr : c.result with
  | none => rfl
  | some r =>
      unfold Call.poll at h
      rw [hr] at h
      dsimp only at h
      rw [hr] at h
      cases h

/-- A responder is in `pending` under the id of its call. -/
theorem id_of_pending (hinv : Inv parse s) (hrunning : s.phase = .running) {id : Text} {m : ℕ}
    (h : s.pending.lookup id = some m) : ∃ c, s.calls[m]? = some c ∧ c.request.id = id := by
  have hwait : (view parse s).waiting id = some m := by simp only [view, hrunning, if_true, h]
  obtain ⟨o, hopened, -⟩ := hinv.2.waiting id m hwait
  obtain ⟨x, hx, hentry⟩ := Option.map_eq_some_iff.mp (List.getElem?_map.symm.trans hopened)
  cases x with
  | text t =>
      unfold toEntry at hentry
      cases hr : reply? parse t <;> simp [hr] at hentry
  | request i frame =>
      obtain ⟨c, hc, rfl⟩ := hinv.1.frames o i frame hx
      simp only [toEntry, frameId?_requestFrame, Correlation.Entry.opened.injEq] at hentry
      obtain ⟨rfl, rfl⟩ := hentry
      exact ⟨c, hc, rfl⟩

/-- No responder is displaced by one with the same id. -/
theorem displaced_eq (hinv : Inv parse s) (hd : Distinct s) (hrunning : s.phase = .running)
    {n : ℕ} {queue : List ℕ} {c : Call} (hqueue : s.queue = n :: queue)
    (hc : s.calls[n]? = some c) :
    s.pending.lookup c.request.id = none ∧ displaced s c.request.id = s.calls := by
  have hnone : s.pending.lookup c.request.id = none := by
    by_contra hsome
    obtain ⟨m, hm⟩ := Option.ne_none_iff_exists'.mp hsome
    obtain ⟨d, hdm, hid⟩ := id_of_pending hinv hrunning hm
    obtain rfl := hd.eq hdm hc hid
    have hnodup := hinv.1.nodup
    rw [State.held, hqueue] at hnodup
    refine (List.nodup_cons.mp hnodup).1 (List.mem_append_right _ ?_)
    exact (entries_perm hm).mem_iff.mpr List.mem_cons_self
  refine ⟨hnone, ?_⟩
  unfold displaced
  rw [hnone]

theorem Held.receive (hs : Held s) (t : Text) : Held (s.receive parse t) := by
  unfold State.receive
  split
  · exact ⟨hs.calls, hs.held⟩
  · next id frame hreply =>
      split
      · exact ⟨hs.calls, hs.held⟩
      · next n hlook =>
          refine ⟨fun m c hc => ?_, fun m c hc hslot hresult => ?_⟩
          · rw [calls_modify] at hc
            obtain ⟨c₀, hc₀, rfl⟩ := Option.map_eq_some_iff.mp hc
            split_ifs
            · exact undropped_send (hs.calls m c₀ hc₀) _ _
            · exact hs.calls m c₀ hc₀
          · rw [calls_modify] at hc
            obtain ⟨c₀, hc₀, rfl⟩ := Option.map_eq_some_iff.mp hc
            by_cases hnm : n = m
            · rw [if_pos hnm] at hslot hresult
              unfold Call.send at hslot hresult
              split at hslot
              · cases hslot
              · next r hr =>
                  rw [hr] at hresult
                  dsimp only at hresult
                  rw [hr] at hresult
                  cases hresult
            · rw [if_neg hnm] at hslot hresult
              rcases List.mem_append.mp (hs.held m c₀ hc₀ hslot hresult) with hq | hp
              · exact List.mem_append_left _ hq
              · refine List.mem_append_right _ ?_
                rcases List.mem_cons.mp ((entries_perm hlook).mem_iff.mp hp) with heq | hp
                · exact absurd heq.symm hnm
                · exact hp

theorem Held.step {s' : State} (hinv : Inv parse s) (hd : Distinct s)
    (hs : s.phase = .running → Held s) (h : Stepped parse agentId s e s')
    (hrunning : s'.phase = .running) : Held s' := by
  cases h with
  | stay h => exact hs hrunning
  | forward h =>
      rw [forward_eq h] at hrunning ⊢
      have hs := hs hrunning
      have hheld : ∀ n, n ∈ s.held ∨ n = s.calls.length →
          n ∈ s.queue ++ [s.calls.length] ++ s.pending.entries.map Sigma.snd := by
        intro n hn
        simp only [State.held, List.mem_append, List.mem_singleton] at hn ⊢
        tauto
      refine ⟨fun n c hc => ?_, fun n c hc hslot hresult => ?_⟩
      · rcases getElem?_snoc hc with hc | ⟨-, rfl⟩
        · exact hs.calls n c hc
        · exact ⟨Slot.noConfusion, fun _ h => by cases h⟩
      · rcases getElem?_snoc hc with hc | ⟨hn, -⟩
        · exact hheld n (.inl (hs.held n c hc hslot hresult))
        · exact hheld n (.inr hn)
  | poll n expired =>
      have hs := hs hrunning
      refine ⟨fun m c hc => ?_, fun m c hc hslot hresult => ?_⟩
      · rw [calls_modify] at hc
        obtain ⟨c₀, hc₀, rfl⟩ := Option.map_eq_some_iff.mp hc
        split_ifs
        · exact undropped_poll (hs.calls m c₀ hc₀) expired
        · exact hs.calls m c₀ hc₀
      · rw [calls_modify] at hc
        obtain ⟨c₀, hc₀, rfl⟩ := Option.map_eq_some_iff.mp hc
        split_ifs at hslot hresult
        · rw [Call.slot_poll] at hslot
          exact hs.held m c₀ hc₀ hslot (result_of_poll hresult)
        · exact hs.held m c₀ hc₀ hslot hresult
  | finish h => cases hrunning
  | broke h hnews => cases hrunning
  | text h t => exact (hs h).receive t
  | recv h sent =>
      rcases recv_cases s sent with ⟨hsame, -⟩ | ⟨n, queue, c, hqueue, hc⟩
      · rw [hsame]
        exact hs h
      · rw [recv_cons hqueue hc] at hrunning ⊢
        obtain ⟨hnone, hsame⟩ := displaced_eq hinv hd h hqueue hc
        have hs := hs h
        refine ⟨fun m c' hc' => hs.calls m c' (hsame ▸ hc'), fun m c' hc' hslot hresult => ?_⟩
        have hmem := hs.held m c' (hsame ▸ hc') hslot hresult
        rw [State.held, hqueue] at hmem
        have hentries := AList.entries_insert_of_notMem (b := n) (AList.lookup_eq_none.mp hnone)
        simp only [State.held, hentries, List.map_cons]
        exact List.perm_middle.mem_iff.mpr hmem

end Traffic

end FirewallLLM.Tunnel.Transport
