import FirewallLLM.Correlation
import FirewallLLM.TunnelLoop

/-! # Replies through a tunnel

The loop refines `Correlation` (`view_step`), where requests wait under their ids.

`replies_delivered`: what a call returns is read from the first reply to it, no reply is
delivered to two calls, and a call whose request the loop drops returns an error. -/

namespace FirewallLLM.Tunnel

open Dlp (Text)
open Runs (final)

/-! ### What should hold -/

/-- What a call has returned. -/
def State.result (s : State) (n : ℕ) : Option (Except String ProxyResponse) :=
  (s.calls[n]?).bind Call.result

/-- The position of the frame that filled the slot of a call. -/
def State.delivered (s : State) (n : ℕ) : Option ℕ :=
  ((s.calls[n]?).bind Call.answer?).map Prod.fst

/-- The text at the position `k` is the first reply with the id of call `n` that came after the
frame of its request was sent. -/
def FirstReply (parse : Text → Option Json) (s : State) (n k : ℕ) (frame : Json) : Prop :=
  ∃ c o t, s.calls[n]? = some c ∧ s.traffic[o]? = some (.request n (requestFrame c.request)) ∧
    o < k ∧ s.traffic[k]? = some (.text t) ∧ reply? parse t = some (c.request.id, frame) ∧
    ∀ m t', o < m → m < k → s.traffic[m]? = some (.text t') →
      ∀ frame', reply? parse t' ≠ some (c.request.id, frame')

/-- How a reply is read: a field that is missing or of another type counts as status 200, as no
headers, as the empty text.  Nothing is said about a status that has no 16 bits. -/
structure Reads (frame : Json) (resp : ProxyResponse) : Prop where
  status : ∀ n, (frame.get? "status").bind Json.asU64? = some n → n.toNat < 65536 →
    resp.status.toNat = n.toNat
  noStatus : (frame.get? "status").bind Json.asU64? = none → resp.status = 200
  headers : ∀ fields, (frame.get? "headers").bind Json.asObj? = some fields →
    resp.headers = fields.map (fun e => (e.1, e.2.asStr?.getD []))
  noHeaders : (frame.get? "headers").bind Json.asObj? = none → resp.headers = []
  body : ∀ text, (frame.get? "body").bind Json.asStr? = some text → resp.body = text
  noBody : (frame.get? "body").bind Json.asStr? = none → resp.body = []

theorem reads_readResponse (frame : Json) : Reads frame (readResponse frame) where
  status n h hn := by
    simp only [readResponse, h, Option.getD_some, UInt64.toNat_toUInt16]
    exact Nat.mod_eq_of_lt hn
  noStatus h := by
    simp only [readResponse, h, Option.getD_none]
    rfl
  headers fields h := by simp only [readResponse, h, Option.map_some, Option.getD_some]
  noHeaders h := by simp only [readResponse, h, Option.map_none, Option.getD_none]
  body text h := by simp only [readResponse, h, Option.getD_some]
  noBody h := by simp only [readResponse, h, Option.getD_none]

/-! ### Refinement -/

section Refinement

variable (parse : Text → Option Json) (agentId : String)

open Correlation (Entry Move act)

/-- The traffic as a trace: requests that begin to wait, and replies. -/
def toEntry : Traffic → Entry Text ProxyResponse
  | .request n frame => match frameId? frame with
      | some id => .opened n id
      | none => .noise
  | .text t => match reply? parse t with
      | some (id, frame) => .reply id (readResponse frame)
      | none => .noise

/-- The loop as a table of requests that wait. -/
def view (s : State) : Correlation.State Text ProxyResponse where
  waiting id := if s.phase = .running then s.pending.lookup id else none
  answer n := (s.calls[n]?).bind Call.answer?
  seen := s.traffic.map (toEntry parse)

theorem calls_modify (calls : List Call) (f : Call → Call) (n i : ℕ) :
    (calls.modify n f)[i]? = (calls[i]?).map (fun c => if n = i then f c else c) :=
  List.getElem?_modify f n calls i

theorem answer_modify {calls : List Call} {f : Call → Call}
    (hf : ∀ c : Call, (f c).answer? = c.answer?) (n i : ℕ) :
    ((calls.modify n f)[i]?).bind Call.answer? = (calls[i]?).bind Call.answer? := by
  rw [calls_modify, Option.bind_map]
  congr 1
  funext c
  simp only [Function.comp_apply]
  split_ifs
  · exact hf c
  · rfl

/-- A loop that breaks lets nobody wait any more. -/
theorem view_broken (s : State) :
    view parse { s with phase := .broken } = act (view parse s) .clear := by
  refine Correlation.State.ext ?_ rfl rfl
  funext id
  simp only [view, act, reduceCtorEq, if_false]

theorem view_receive {s : State} (hs : s.phase = .running) (t : Text) :
    ∃ m, view parse (s.receive parse t) = act (view parse s) m := by
  unfold State.receive
  cases hreply : reply? parse t with
  | none =>
      refine ⟨.see .noise true, Correlation.State.ext rfl rfl ?_⟩
      simp only [view, act, List.map_append, List.map_cons, List.map_nil, toEntry, hreply]
  | some reply =>
      obtain ⟨id, frame⟩ := reply
      have hseen : (s.traffic ++ [Traffic.text t]).map (toEntry parse) =
          s.traffic.map (toEntry parse) ++ [.reply id (readResponse frame)] := by
        simp only [List.map_append, List.map_cons, List.map_nil, toEntry, hreply]
      dsimp only
      cases hlook : s.pending.lookup id with
      | none =>
          have hwait : (view parse s).waiting id = none := by simp only [view, hlook, ite_self]
          refine ⟨.see (.reply id (readResponse frame)) true, ?_⟩
          simp only [act, hwait]
          exact Correlation.State.ext rfl rfl hseen
      | some n =>
          have hwait : (view parse s).waiting id = some n := by
            simp only [view, hs, if_true, hlook]
          refine ⟨.see (.reply id (readResponse frame))
            ((s.calls[n]?).any (fun c => c.result.isNone)), ?_⟩
          simp only [act, hwait]
          refine Correlation.State.ext ?_ ?_ hseen
          · funext id'
            by_cases hid : id' = id
            · subst hid
              simp only [view, AList.lookup_erase, ite_self, Function.update_self]
            · simp only [view, AList.lookup_erase_ne hid, Function.update_of_ne hid]
          · funext i
            simp only [view, calls_modify, Option.bind_map, List.length_map]
            by_cases hi : i = n
            · subst hi
              cases hc : s.calls[i]? with
              | none =>
                  simp only [Option.bind_none, Option.any_none, Bool.false_eq_true, if_false, hc]
              | some c =>
                  simp only [Option.bind_some, Function.comp_apply, if_true, Call.answer?_send,
                    Option.any_some]
                  split_ifs
                  · rw [Function.update_self]
                  · simp only [hc, Option.bind_some]
            · have hrest : ∀ c : Call, (if n = i then
                  c.send s.traffic.length (readResponse frame) else c) = c :=
                fun c => if_neg (Ne.symm hi)
              simp only [Function.comp_def, hrest]
              split_ifs
              · rw [Function.update_of_ne hi]
              · rfl

/-- The calls once the sender that was registered for `id` is gone. -/
def displaced (s : State) (id : Text) : List Call :=
  match s.pending.lookup id with
  | some m => s.calls.modify m Call.dropSender
  | none => s.calls

theorem answer_displaced (s : State) (id : Text) (i : ℕ) :
    ((displaced s id)[i]?).bind Call.answer? = (s.calls[i]?).bind Call.answer? := by
  unfold displaced
  split
  · exact answer_modify Call.answer?_dropSender _ i
  · rfl

theorem view_recv {s : State} (hs : s.phase = .running) (sent : Bool) :
    view parse (s.recv sent) = view parse s ∨
      ∃ m, view parse (s.recv sent) = act (view parse s) m := by
  unfold State.recv
  split
  · exact Or.inl rfl
  · next n queue hqueue =>
      split
      · exact Or.inl rfl
      · next c hc =>
          have hanswer := answer_displaced s c.request.id
          right
          cases sent with
          | true =>
              refine ⟨.see (.opened n c.request.id) true, Correlation.State.ext ?_ ?_ ?_⟩
              · funext id
                simp only [view, act, hs, if_true]
                by_cases hid : id = c.request.id
                · rw [hid, AList.lookup_insert, Function.update_self]
                · rw [AList.lookup_insert_ne hid, Function.update_of_ne hid]
              · funext i
                exact hanswer i
              · simp only [view, act, if_true, List.map_append, List.map_cons, List.map_nil,
                  toEntry, frameId?_requestFrame]
          | false =>
              refine ⟨.clear, Correlation.State.ext ?_ ?_ rfl⟩
              · funext id
                simp only [view, act, Bool.false_eq_true, reduceCtorEq, if_false]
              · funext i
                exact hanswer i

theorem view_finish {s : State} (hs : s.phase = .broken) :
    view parse s.finish = view parse s := by
  refine Correlation.State.ext ?_ ?_ rfl
  · funext id
    simp only [view, State.finish, hs, reduceCtorEq, if_false]
  · funext i
    simp only [view, State.finish, List.getElem?_mapIdx, Option.bind_map]
    congr 1
    funext c
    simp only [Function.comp_apply]
    split_ifs
    · exact Call.answer?_dropSender c
    · rfl

theorem view_forward {s s' : State} {found : Bool} {request : ProxyRequest}
    (h : forward agentId s found request = .ok s') : view parse s' = view parse s := by
  unfold forward at h
  split_ifs at h
  obtain rfl := Except.ok.inj h
  refine Correlation.State.ext rfl ?_ rfl
  funext i
  simp only [view]
  rw [List.getElem?_append]
  split_ifs with hi
  · rfl
  · rw [List.getElem?_eq_none (Nat.le_of_not_lt hi)]
    cases i - s.calls.length <;> rfl

/-- **Every step of the loop and of its calls is one of the table, or changes nothing there.** -/
theorem view_step (s : State) (e : Event) :
    view parse (step parse agentId s e) = view parse s ∨
      ∃ m, view parse (step parse agentId s e) = act (view parse s) m := by
  unfold step
  split
  · split
    · next s' hf => exact Or.inl (view_forward parse agentId hf)
    · exact Or.inl rfl
  · left
    refine Correlation.State.ext rfl ?_ rfl
    funext i
    exact answer_modify (Call.answer?_poll _) _ i
  · next hphase => exact Or.inl (view_finish parse hphase)
  · next hphase =>
      unfold loopStep
      split
      · split_ifs
        · exact Or.inr ⟨.clear, view_broken parse s⟩
        · exact Or.inl rfl
      · exact Or.inr (view_receive parse hphase _)
      · exact Or.inr ⟨.clear, view_broken parse s⟩
      · exact view_recv parse hphase _
      · split_ifs
        · exact Or.inr ⟨.clear, view_broken parse s⟩
        · exact Or.inl rfl
      · exact Or.inl rfl
  · exact Or.inl rfl

end Refinement

/-! ### The calls and the responders that the loop holds -/

/-- The calls that are there stay, with their requests, and stay sound. -/
structure Evolves (calls calls' : List Call) : Prop where
  request : ∀ (n : ℕ) c, calls[n]? = some c →
    ∃ c', calls'[n]? = some c' ∧ c'.request = c.request
  sound : (∀ (n : ℕ) c, calls[n]? = some c → c.Sound) →
    ∀ (n : ℕ) c, calls'[n]? = some c → c.Sound

theorem Evolves.refl (calls : List Call) : Evolves calls calls :=
  ⟨fun _ c h => ⟨c, h, rfl⟩, id⟩

theorem evolves_of_map {calls calls' : List Call} {g : ℕ → Call → Call}
    (hcalls : ∀ n : ℕ, calls'[n]? = (calls[n]?).map (g n))
    (hrequest : ∀ n c, (g n c).request = c.request) (hsound : ∀ n c, c.Sound → (g n c).Sound) :
    Evolves calls calls' where
  request n c h := ⟨g n c, by rw [hcalls, h, Option.map_some], hrequest n c⟩
  sound hall n c h := by
    rw [hcalls] at h
    obtain ⟨c₀, hc₀, rfl⟩ := Option.map_eq_some_iff.mp h
    exact hsound n c₀ (hall n c₀ hc₀)

theorem evolves_modify (calls : List Call) (n : ℕ) {f : Call → Call}
    (hrequest : ∀ c, (f c).request = c.request) (hsound : ∀ c, c.Sound → (f c).Sound) :
    Evolves calls (calls.modify n f) := by
  refine evolves_of_map (calls_modify calls f n) (fun i c => ?_) (fun i c hc => ?_)
  · split_ifs
    · exact hrequest c
    · rfl
  · split_ifs
    · exact hsound c hc
    · exact hc

theorem evolves_append (calls : List Call) {c : Call} (hc : c.Sound) :
    Evolves calls (calls ++ [c]) where
  request n c' h := by
    refine ⟨c', ?_, rfl⟩
    rw [List.getElem?_append_left (List.getElem?_eq_some_iff.mp h).1]
    exact h
  sound hall n c' h := by
    rw [List.getElem?_append] at h
    split_ifs at h
    · exact hall n c' h
    · rw [List.getElem?_singleton] at h
      split_ifs at h
      obtain rfl := Option.some.inj h
      exact hc

theorem entries_perm {pending : AList (fun _ : Text => ℕ)} {id : Text} {n : ℕ}
    (h : pending.lookup id = some n) :
    (pending.entries.map Sigma.snd).Perm (n :: (pending.erase id).entries.map Sigma.snd) := by
  have hmem : ⟨id, n⟩ ∈ pending.entries := AList.mem_lookup_iff.mp h
  obtain ⟨m, l₁, l₂, hnot, heq, herase⟩ :=
    List.exists_of_kerase (List.mem_keys_of_mem hmem)
  have hm : m = n := by
    have hlook : pending.lookup id = some m :=
      AList.mem_lookup_iff.mpr (by rw [heq]; exact List.mem_append_right _ List.mem_cons_self)
    exact Option.some.inj (hlook.symm.trans h)
  have hentries : (pending.erase id).entries = l₁ ++ l₂ := herase
  rw [hentries, heq, hm, List.map_append, List.map_cons, List.map_append]
  exact List.perm_middle

/-- What the loop keeps in order: calls that have returned a response found it, the responders
that it holds are all different and unused, and the traffic has the request of each call at most
once, and not before the call leaves the channel. -/
structure Wf (s : State) : Prop where
  sound : ∀ (n : ℕ) c, s.calls[n]? = some c → c.Sound
  held : ∀ n ∈ s.held, ∃ c, s.calls[n]? = some c ∧ c.slot = .empty
  nodup : s.held.Nodup
  frames : ∀ (o : ℕ) n frame, s.traffic[o]? = some (.request n frame) →
    ∃ c, s.calls[n]? = some c ∧ frame = requestFrame c.request
  sentOnce : ∀ (o o' : ℕ) n frame frame', s.traffic[o]? = some (.request n frame) →
    s.traffic[o']? = some (.request n frame') → o = o'
  queued : ∀ n ∈ s.queue, ∀ (o : ℕ) frame, s.traffic[o]? ≠ some (.request n frame)

theorem wf_init : Wf init where
  sound _ _ h := by cases h
  held _ h := by cases h
  nodup := List.nodup_nil
  frames _ _ _ h := by cases h
  sentOnce _ _ _ _ _ h := by cases h
  queued _ h := by cases h

theorem getElem?_snoc {α : Type} {l : List α} {a b : α} {o : ℕ}
    (h : (l ++ [a])[o]? = some b) : l[o]? = some b ∨ (o = l.length ∧ b = a) := by
  rw [List.getElem?_append] at h
  split_ifs at h with hlt
  · exact Or.inl h
  · rw [List.getElem?_singleton] at h
    split_ifs at h
    exact Or.inr ⟨by omega, (Option.some.inj h).symm⟩

theorem request_of_text {traffic : List Traffic} {t : Text} {o n : ℕ} {frame : Json}
    (h : (traffic ++ [.text t])[o]? = some (.request n frame)) :
    traffic[o]? = some (.request n frame) := by
  rcases getElem?_snoc h with h | ⟨-, h⟩
  · exact h
  · cases h

theorem Wf.frames_evolves {s : State} (hs : Wf s) {calls : List Call}
    (h : Evolves s.calls calls) (o n : ℕ) (frame : Json)
    (ho : s.traffic[o]? = some (.request n frame)) :
    ∃ c, calls[n]? = some c ∧ frame = requestFrame c.request := by
  obtain ⟨c, hc, hframe⟩ := hs.frames o n frame ho
  obtain ⟨c', hc', hrequest⟩ := h.request n c hc
  refine ⟨c', hc', ?_⟩
  rw [hframe]
  simp only [requestFrame, hrequest]

theorem wf_forward {s s' : State} (hs : Wf s) {agentId : String} {found : Bool}
    {request : ProxyRequest} (h : forward agentId s found request = .ok s') : Wf s' := by
  unfold forward at h
  split_ifs at h
  obtain rfl := Except.ok.inj h
  have hevolves := evolves_append s.calls (c := ⟨request, .empty, none⟩) (fun _ h => nomatch h)
  have hlt : ∀ n ∈ s.held, n < s.calls.length := by
    intro n hn
    obtain ⟨c, hc, -⟩ := hs.held n hn
    exact (List.getElem?_eq_some_iff.mp hc).1
  have hperm : State.held { s with
      queue := s.queue ++ [s.calls.length]
      calls := s.calls ++ [⟨request, .empty, none⟩] } =
      s.queue ++ s.calls.length :: s.pending.entries.map Sigma.snd := by
    simp only [State.held, List.append_assoc, List.singleton_append]
  refine ⟨hevolves.sound hs.sound, ?_, ?_, hs.frames_evolves hevolves, hs.sentOnce, ?_⟩
  · intro n hn
    rw [hperm] at hn
    rcases List.mem_cons.mp (List.perm_middle.mem_iff.mp hn) with rfl | hn
    · exact ⟨_, List.getElem?_concat_length, rfl⟩
    · obtain ⟨c, hc, hslot⟩ := hs.held n hn
      exact ⟨c, by rw [List.getElem?_append_left (hlt n hn)]; exact hc, hslot⟩
  · rw [hperm]
    refine List.perm_middle.nodup_iff.mpr (List.nodup_cons.mpr ⟨fun hn => ?_, hs.nodup⟩)
    exact Nat.lt_irrefl _ (hlt _ hn)
  · intro n hn o frame ho
    rcases List.mem_append.mp hn with hn | hn
    · exact hs.queued n hn o frame ho
    · obtain rfl := List.mem_singleton.mp hn
      obtain ⟨c, hc, -⟩ := hs.frames o _ frame ho
      exact Nat.lt_irrefl _ (List.getElem?_eq_some_iff.mp hc).1

theorem wf_poll {s : State} (hs : Wf s) (n : ℕ) (expired : Bool) :
    Wf { s with calls := s.calls.modify n (Call.poll expired) } := by
  have hevolves := evolves_modify s.calls n (Call.request_poll expired)
    (fun c hc => Call.sound_poll hc expired)
  refine ⟨hevolves.sound hs.sound, ?_, hs.nodup, hs.frames_evolves hevolves, hs.sentOnce,
    hs.queued⟩
  intro i hi
  obtain ⟨c, hc, hslot⟩ := hs.held i hi
  refine ⟨if n = i then c.poll expired else c, ?_, ?_⟩
  · rw [calls_modify, hc, Option.map_some]
  · split_ifs
    · rw [Call.slot_poll, hslot]
    · exact hslot

theorem wf_broken {s : State} (hs : Wf s) : Wf { s with phase := .broken } :=
  ⟨hs.sound, hs.held, hs.nodup, hs.frames, hs.sentOnce, hs.queued⟩

theorem wf_text {s : State} (hs : Wf s) (t : Text) :
    Wf { s with traffic := s.traffic ++ [.text t] } where
  sound := hs.sound
  held := hs.held
  nodup := hs.nodup
  frames o n frame h := hs.frames o n frame (request_of_text h)
  sentOnce o o' n frame frame' h h' :=
    hs.sentOnce o o' n frame frame' (request_of_text h) (request_of_text h')
  queued n hn o frame h := hs.queued n hn o frame (request_of_text h)

/-- A responder that leaves `pending` is not one of those that the loop holds on to, and what
becomes of its call does not touch these. -/
theorem Wf.held_modify {s : State} (hs : Wf s) {m : ℕ} {held' : List ℕ}
    (hperm : s.held.Perm (m :: held')) (f : Call → Call) :
    held'.Nodup ∧ ∀ n ∈ held', ∃ c, (s.calls.modify m f)[n]? = some c ∧ c.slot = .empty := by
  have hnodup := List.nodup_cons.mp (hperm.nodup_iff.mp hs.nodup)
  refine ⟨hnodup.2, fun n hn => ?_⟩
  obtain ⟨c, hc, hslot⟩ := hs.held n (hperm.mem_iff.mpr (List.mem_cons_of_mem _ hn))
  have hne : m ≠ n := by
    rintro rfl
    exact hnodup.1 hn
  exact ⟨c, by rw [calls_modify, hc, Option.map_some, if_neg hne], hslot⟩

theorem wf_receive {s : State} (hs : Wf s) (parse : Text → Option Json) (t : Text) :
    Wf (s.receive parse t) := by
  unfold State.receive
  split
  · exact wf_text hs t
  · next id frame hreply =>
      split
      · exact wf_text hs t
      · next n hlook =>
          have htext := wf_text hs t
          have hevolves := evolves_modify s.calls n
            (Call.request_send s.traffic.length (readResponse frame))
            (fun c hc => Call.sound_send hc _ _)
          have hperm : s.held.Perm (n :: (s.queue ++
              (s.pending.erase id).entries.map Sigma.snd)) :=
            ((entries_perm hlook).append_left s.queue).trans List.perm_middle
          obtain ⟨hnodup, hheld⟩ := hs.held_modify hperm
            (Call.send s.traffic.length (readResponse frame))
          exact ⟨hevolves.sound hs.sound, hheld, hnodup, htext.frames_evolves hevolves,
            htext.sentOnce, htext.queued⟩

theorem wf_recv {s : State} (hs : Wf s) (sent : Bool) : Wf (s.recv sent) := by
  unfold State.recv
  split
  · exact hs
  · next n queue hqueue =>
      split
      · exact hs
      · next c hc =>
          have hmem : n ∈ s.queue := by rw [hqueue]; exact List.mem_cons_self
          have hheld : s.held = n :: (queue ++ s.pending.entries.map Sigma.snd) := by
            rw [State.held, hqueue, List.cons_append]
          have hnew : (queue ++ (s.pending.insert c.request.id n).entries.map Sigma.snd).Perm
              (n :: (queue ++ (s.pending.erase c.request.id).entries.map Sigma.snd)) :=
            List.perm_middle
          have hcalls : Evolves s.calls (displaced s c.request.id) ∧
              (queue ++ (s.pending.insert c.request.id n).entries.map Sigma.snd).Nodup ∧
              ∀ i ∈ queue ++ (s.pending.insert c.request.id n).entries.map Sigma.snd,
                ∃ c', (displaced s c.request.id)[i]? = some c' ∧ c'.slot = .empty := by
            unfold displaced
            split
            · next m hlook =>
                have hperm : s.held.Perm (m :: (queue ++
                    (s.pending.insert c.request.id n).entries.map Sigma.snd)) := by
                  rw [hheld]
                  refine ((((entries_perm hlook).append_left queue).trans
                    List.perm_middle).cons n).trans ?_
                  exact (List.Perm.swap m n _).trans (hnew.symm.cons m)
                exact ⟨evolves_modify s.calls m Call.request_dropSender
                  (fun c hc => Call.sound_dropSender hc), hs.held_modify hperm Call.dropSender⟩
            · next hlook =>
                have hperm : s.held.Perm
                    (queue ++ (s.pending.insert c.request.id n).entries.map Sigma.snd) := by
                  rw [hheld, AList.entries_insert_of_notMem (AList.lookup_eq_none.mp hlook)]
                  exact List.perm_middle.symm
                exact ⟨Evolves.refl _, hperm.nodup_iff.mp hs.nodup,
                  fun i hi => hs.held i (hperm.mem_iff.mpr hi)⟩
          obtain ⟨hevolves, hnodup, hslots⟩ := hcalls
          have hqueued : ∀ i ∈ queue, ∀ (o : ℕ) frame,
              s.traffic[o]? ≠ some (.request i frame) :=
            fun i hi => hs.queued i (by rw [hqueue]; exact List.mem_cons_of_mem _ hi)
          cases sent with
          | false =>
              exact ⟨hevolves.sound hs.sound, hslots, hnodup, hs.frames_evolves hevolves,
                hs.sentOnce, hqueued⟩
          | true =>
              refine ⟨hevolves.sound hs.sound, hslots, hnodup, ?_, ?_, ?_⟩
              · intro o i frame ho
                rcases getElem?_snoc ho with ho | ⟨-, ho⟩
                · exact hs.frames_evolves hevolves o i frame ho
                · obtain ⟨rfl, rfl⟩ := Traffic.request.inj ho
                  obtain ⟨c', hc', hrequest⟩ := hevolves.request i c hc
                  exact ⟨c', hc', by simp only [requestFrame, hrequest]⟩
              · -- the request of `n` has not been sent before
                intro o o' i frame frame' ho ho'
                rcases getElem?_snoc ho with hold | ⟨hlen, hnew⟩
                · rcases getElem?_snoc ho' with hold' | ⟨-, hnew'⟩
                  · exact hs.sentOnce o o' i frame frame' hold hold'
                  · obtain ⟨rfl, -⟩ := Traffic.request.inj hnew'
                    exact absurd hold (hs.queued i hmem o frame)
                · rcases getElem?_snoc ho' with hold' | ⟨hlen', -⟩
                  · obtain ⟨rfl, -⟩ := Traffic.request.inj hnew
                    exact absurd hold' (hs.queued i hmem o' frame')
                  · exact hlen.trans hlen'.symm
              · intro i hi o frame ho
                rcases getElem?_snoc ho with ho | ⟨-, ho⟩
                · exact hqueued i hi o frame ho
                · obtain ⟨rfl, -⟩ := Traffic.request.inj ho
                  have hcons := List.nodup_cons.mp (hheld.subst hs.nodup)
                  exact hcons.1 (List.mem_append_left _ hi)

theorem finish_calls (s : State) (n : ℕ) :
    s.finish.calls[n]? =
      (s.calls[n]?).map (fun c => if n ∈ s.held then c.dropSender else c) :=
  List.getElem?_mapIdx

theorem wf_finish {s : State} (hs : Wf s) : Wf s.finish := by
  have hevolves : Evolves s.calls s.finish.calls := by
    refine evolves_of_map (finish_calls s) (fun n c => ?_) (fun n c hc => ?_)
    · split_ifs
      · exact Call.request_dropSender c
      · rfl
    · split_ifs
      · exact Call.sound_dropSender hc
      · exact hc
  exact ⟨hevolves.sound hs.sound, fun n h => absurd h List.not_mem_nil, List.nodup_nil,
    hs.frames_evolves hevolves, hs.sentOnce, fun n h => absurd h List.not_mem_nil⟩

/-! ### Runs -/

section Runs

variable (parse : Text → Option Json) (agentId : String)

theorem wf_step {s : State} (hs : Wf s) (e : Event) : Wf (step parse agentId s e) := by
  unfold step
  split
  · split
    · next s' hf => exact wf_forward hs hf
    · exact hs
  · exact wf_poll hs _ _
  · exact wf_finish hs
  · unfold loopStep
    split
    · split_ifs
      · exact wf_broken hs
      · exact hs
    · exact wf_receive hs parse _
    · exact wf_broken hs
    · exact wf_recv hs _
    · split_ifs
      · exact wf_broken hs
      · exact hs
    · exact hs
  · exact hs

/-- The invariant of a run: the loop is in order, and so is the table that it refines. -/
def Inv (s : State) : Prop := Wf s ∧ Correlation.Inv (view parse s)

theorem inv_final (es : List Event) : Inv parse (final (step parse agentId) init es) := by
  refine Runs.final_invariant (Q := fun _ _ => True) ?_ ?_ (Runs.along_of_forall init
    (R := fun _ => True) (fun _ _ => trivial))
  · rintro s e ⟨hwf, htable⟩ -
    refine ⟨wf_step parse agentId hwf e, ?_⟩
    rcases view_step parse agentId s e with hview | ⟨m, hview⟩
    · rw [hview]
      exact htable
    · rw [hview]
      exact Correlation.inv_act htable m
  · refine ⟨wf_init, ?_⟩
    have hview : view parse init = Correlation.init :=
      Correlation.State.ext (funext fun _ => rfl) (funext fun _ => rfl) rfl
    rw [hview]
    exact Correlation.inv_init

variable {parse} {agentId}

/-- A slot is filled by the first reply to its call. -/
theorem firstReply_of_answer {s : State} (hs : Inv parse s) {n k : ℕ} {resp : ProxyResponse}
    (h : (s.calls[n]?).bind Call.answer? = some (k, resp)) :
    ∃ frame, FirstReply parse s n k frame ∧ resp = readResponse frame := by
  obtain ⟨o, id, hopened, hlt, hreply, hfirst⟩ := hs.2.answered n k resp h
  have hentry : ∀ (m : ℕ) e, (view parse s).seen[m]? = some e →
      ∃ x, s.traffic[m]? = some x ∧ toEntry parse x = e :=
    fun m e he => Option.map_eq_some_iff.mp (List.getElem?_map.symm.trans he)
  obtain ⟨x, hx, hxe⟩ := hentry o _ hopened
  obtain ⟨y, hy, hye⟩ := hentry k _ hreply
  cases x with
  | text t =>
      unfold toEntry at hxe
      cases hr : reply? parse t <;> simp [hr] at hxe
  | request i frame =>
      cases y with
      | request i' frame' =>
          unfold toEntry at hye
          cases hf : frameId? frame' <;> simp [hf] at hye
      | text t =>
          cases hf : frameId? frame with
          | none => simp [toEntry, hf] at hxe
          | some id' =>
              obtain ⟨rfl, rfl⟩ : i = n ∧ id' = id := by simpa [toEntry, hf] using hxe
              obtain ⟨c, hc, rfl⟩ := hs.1.frames o i frame hx
              obtain rfl : c.request.id = id' := Option.some.inj hf
              cases hr : reply? parse t with
              | none => simp [toEntry, hr] at hye
              | some reply =>
                  obtain ⟨rid, answer⟩ := reply
                  obtain ⟨rfl, rfl⟩ : rid = c.request.id ∧ readResponse answer = resp := by
                    simpa [toEntry, hr] using hye
                  refine ⟨answer, ⟨c, o, t, hc, hx, hlt, hy, hr, ?_⟩, rfl⟩
                  intro m t' hom hmk hm frame' hr'
                  refine hfirst m hom hmk (readResponse frame') ?_
                  rw [view, List.getElem?_map, hm]
                  simp only [Option.map_some, toEntry, hr']

/-- A call whose responder has been dropped stays so, and returns an error. -/
def Dropped (s : State) (n : ℕ) : Prop :=
  s.phase = .finished ∧ ∃ c, s.calls[n]? = some c ∧ c.slot = .dropped ∧ c.Sound

theorem dropped_finish {s : State} (hs : Wf s) {n : ℕ} (hn : n ∈ s.held) :
    Dropped s.finish n := by
  obtain ⟨c, hc, hslot⟩ := hs.held n hn
  refine ⟨rfl, c.dropSender, ?_, ?_, Call.sound_dropSender (hs.sound n c hc)⟩
  · rw [finish_calls, hc, Option.map_some, if_pos hn]
  · simp only [Call.dropSender, hslot]

theorem dropped_step {s : State} {n : ℕ} (h : Dropped s n) (e : Event) :
    Dropped (step parse agentId s e) n := by
  obtain ⟨hphase, c, hc, hslot, hsound⟩ := h
  have hkeep : Dropped s n := ⟨hphase, c, hc, hslot, hsound⟩
  unfold step
  split
  · split
    · next s' hf =>
        unfold forward at hf
        split_ifs at hf
    · exact hkeep
  · next i expired =>
      refine ⟨hphase, if i = n then c.poll expired else c, ?_, ?_, ?_⟩
      · rw [calls_modify, hc, Option.map_some]
      · split_ifs
        · rw [Call.slot_poll, hslot]
        · exact hslot
      · split_ifs
        · exact Call.sound_poll hsound expired
        · exact hsound
  · next hbroken => exact absurd (hphase.symm.trans hbroken) (by decide)
  · next hrunning => exact absurd (hphase.symm.trans hrunning) (by decide)
  · exact hkeep

theorem dropped_final {s : State} {n : ℕ} (h : Dropped s n) (es : List Event) :
    Dropped (final (step parse agentId) s es) n := by
  induction es generalizing s with
  | nil => exact h
  | cons e es ih => exact ih (dropped_step h e)

/-- The next poll of a dropped call finds an error, or the call has returned one. -/
theorem poll_of_dropped {s : State} {n : ℕ} (h : Dropped s n) (expired : Bool) :
    ∃ msg, (step parse agentId s (.poll n expired)).result n = some (.error msg) := by
  obtain ⟨-, c, hc, hslot, hsound⟩ := h
  have hresult : (step parse agentId s (.poll n expired)).result n = (c.poll expired).result := by
    simp only [State.result, step, calls_modify, hc, Option.map_some, if_true, Option.bind_some]
  rw [hresult]
  cases hr : c.result with
  | none =>
      refine ⟨"agent dropped", ?_⟩
      simp only [Call.poll, hr, hslot]
  | some result =>
      have hpoll : (c.poll expired).result = some result := by simp only [Call.poll, hr]
      rw [hpoll]
      cases result with
      | error msg => exact ⟨msg, rfl⟩
      | ok resp =>
          obtain ⟨frame, hanswer⟩ := hsound resp hr
          simp only [Call.answer?, hslot] at hanswer
          cases hanswer

/-- **Replies reach the call that they answer.**  A response that a call has returned is read
from the first reply with its id after its request was sent; requests are sent once; no reply is
delivered to two calls; a call whose responder goes down with the loop returns an error whenever
it is polled after that; and no later call gets into the channel. -/
theorem replies_delivered (parse : Text → Option Json) (agentId : String) (es : List Event) :
    let s := final (step parse agentId) init es
    (∀ n resp, s.result n = some (.ok resp) →
      ∃ k frame, s.delivered n = some k ∧ FirstReply parse s n k frame ∧ Reads frame resp) ∧
    (∀ (o o' : ℕ) n frame frame', s.traffic[o]? = some (.request n frame) →
      s.traffic[o']? = some (.request n frame') → o = o') ∧
    (∀ i j k, s.delivered i = some k → s.delivered j = some k → i = j) ∧
    (s.phase = .broken → ∀ n ∈ s.held, ∀ es' expired, ∃ msg,
      (step parse agentId (final (step parse agentId) s (.finish :: es'))
        (.poll n expired)).result n = some (.error msg)) ∧
    (s.phase = .finished → ∀ found request, ∃ msg,
      forward agentId s found request = .error msg) := by
  intro s
  have hs : Inv parse s := inv_final parse agentId es
  refine ⟨?_, hs.1.sentOnce, ?_, ?_, ?_⟩
  · intro n resp h
    obtain ⟨c, hc, hresult⟩ := Option.bind_eq_some_iff.mp h
    obtain ⟨k, hanswer⟩ := hs.1.sound n c hc resp hresult
    have hslot : (s.calls[n]?).bind Call.answer? = some (k, resp) := by
      rw [hc, Option.bind_some, hanswer]
    obtain ⟨frame, hfirst, rfl⟩ := firstReply_of_answer hs hslot
    exact ⟨k, frame, by rw [State.delivered, hslot, Option.map_some], hfirst,
      reads_readResponse frame⟩
  · intro i j k hi hj
    obtain ⟨⟨k₁, r₁⟩, hri, rfl⟩ := Option.map_eq_some_iff.mp hi
    obtain ⟨⟨k₂, r₂⟩, hrj, hk⟩ := Option.map_eq_some_iff.mp hj
    obtain rfl : k₂ = k₁ := hk
    exact hs.2.once i j k₂ r₁ r₂ hri hrj
  · intro hbroken n hn es' expired
    have hfinish : step parse agentId s .finish = s.finish := by simp only [step, hbroken]
    rw [Runs.final_cons, hfinish]
    exact poll_of_dropped (dropped_final (dropped_finish hs.1 hn) es') expired
  · intro hfinished found request
    unfold forward
    split_ifs
    · exact ⟨_, rfl⟩
    · exact ⟨_, rfl⟩

/-- The status, the headers and the body of a reply are those of the response. -/
def Carries (frame : Json) (resp : ProxyResponse) : Prop :=
  (frame.get? "status").bind Json.asU64? = some resp.status.toUInt64 ∧
    frame.get? "headers" = some (.obj (resp.headers.map (fun h => (h.1, .str h.2)))) ∧
    frame.get? "body" = some (.str resp.body)

/-- A reply with its status as a string is returned with status 200. -/
theorem status_in_quotes :
    ¬ ∀ (parse : Text → Option Json) (agentId : String) (es : List Event) n resp,
      (final (step parse agentId) init es).result n = some (.ok resp) →
      ∃ k frame, FirstReply parse (final (step parse agentId) init es) n k frame ∧
        Carries frame resp := by
  intro h
  let frame : Json := .obj [("id", .str ['7']), ("status", .str "503".toList),
    ("headers", .obj []), ("body", .str "down".toList)]
  let parse : Text → Option Json := fun t => if t = ['r'] then some frame else none
  obtain ⟨k, frame', ⟨c, o, t, -, -, -, -, hreply, -⟩, hstatus, -⟩ := h parse "a1"
    [.forward true 7 "POST".toList "/chat/completions".toList [] none, .recv true, .text ['r'],
      .poll 0 false] 0 ⟨200, [], "down".toList⟩ rfl
  have hframe : parse t = some frame' := by
    obtain ⟨f, hf, hid⟩ := Option.bind_eq_some_iff.mp hreply
    obtain ⟨id, -, heq⟩ := Option.map_eq_some_iff.mp hid
    obtain ⟨-, rfl⟩ := Prod.mk.inj heq
    exact hf
  simp only [parse] at hframe
  split_ifs at hframe
  obtain rfl := Option.some.inj hframe
  cases hstatus

end Runs

end FirewallLLM.Tunnel
