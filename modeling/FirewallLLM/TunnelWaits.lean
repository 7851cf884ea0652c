import FirewallLLM.TunnelReplies

/-! # Requests that nobody waits for

`handle_ingress_socket` puts the responder of every request that it takes out of its channel
into `pending`, and takes it out of there only when the agent replies.  A forward that times out
tells nobody.

`in_step_iff`: the entries of `pending` stay within the forwards that still wait, and none of
them belongs to a forward that has returned, exactly in the runs in which no forward times out
while its responder is in `pending`, and no request is taken out of the channel after its forward
has timed out. -/

namespace FirewallLLM.Tunnel

open Dlp (Text)
open Runs (final Along)

/-! ### What should hold -/

/-- The call has not returned. -/
def Call.waiting (c : Call) : Bool := c.result.isNone

/-- The number of forwards that still wait. -/
def State.waiters (s : State) : ℕ := s.calls.countP Call.waiting

/-- The calls whose responders are in `pending`. -/
def State.registered (s : State) : List ℕ := s.pending.entries.map Sigma.snd

/-- The call is there and has not returned. -/
def State.waits (s : State) (n : ℕ) : Bool := (s.calls[n]?).any Call.waiting

/-- `pending` has at most one entry for each forward that waits, and none for another one. -/
structure InStep (s : State) : Prop where
  bounded : s.pending.entries.length ≤ s.waiters
  awaited : ∀ n ∈ s.registered, s.waits n = true

/-- The event leaves an entry that nobody waits for: a call times out while its responder is in
`pending`, or its request is taken out of the channel after it has returned. -/
def strands (s : State) : Event → Bool
  | .poll n expired => expired && decide (n ∈ s.registered) && s.waits n
  | .recv _ => s.phase = .running && (s.queue.head?.bind (s.calls[·]?)).any (fun c => !c.waiting)
  | _ => false

/-! ### Counting -/

theorem length_le_waiters {s : State} {l : List ℕ} (hnodup : l.Nodup)
    (h : ∀ n ∈ l, s.waits n = true) : l.length ≤ s.waiters := by
  unfold State.waiters
  rw [← List.length_findIdxs]
  refine (hnodup.subperm fun n hn => ?_).length_le
  obtain ⟨c, hc, hw⟩ := (Option.any_eq_true ..).mp (h n hn)
  obtain ⟨hlt, rfl⟩ := List.getElem?_eq_some_iff.mp hc
  exact List.mem_findIdxs_iff_exists_getElem_pos.mpr ⟨hlt, hw⟩

theorem inStep_iff {s : State} (hs : Wf s) :
    InStep s ↔ ∀ n ∈ s.registered, s.waits n = true := by
  refine ⟨InStep.awaited, fun h => ⟨?_, h⟩⟩
  have hle := length_le_waiters (List.nodup_append.mp hs.nodup).2.1 h
  rwa [List.length_map] at hle

/-! ### Calls that go on waiting -/

theorem waiting_dropSender (c : Call) : c.dropSender.waiting = c.waiting := by
  unfold Call.dropSender
  split <;> rfl

theorem waiting_send (frame : ℕ) (resp : ProxyResponse) (c : Call) :
    (c.send frame resp).waiting = c.waiting := by
  unfold Call.send
  split <;> rfl

/-- A call whose slot is empty returns only when its time is over. -/
theorem waiting_poll {c : Call} (h : c.slot = .empty) (expired : Bool) :
    (c.poll expired).waiting = (c.waiting && !expired) := by
  unfold Call.poll
  cases hresult : c.result with
  | some result => simp [Call.waiting, hresult]
  | none =>
      rw [h]
      cases expired with
      | true => simp [Call.waiting]
      | false => simp [Call.waiting, hresult]

theorem waits_modify {calls : List Call} {f : Call → Call}
    (hf : ∀ c : Call, (f c).waiting = c.waiting) (m n : ℕ) :
    ((calls.modify m f)[n]?).any Call.waiting = (calls[n]?).any Call.waiting := by
  rw [calls_modify]
  cases calls[n]? with
  | none => rfl
  | some c =>
      simp only [Option.map_some, Option.any_some]
      split_ifs
      · exact hf c
      · rfl

theorem waits_displaced (s : State) (id : Text) (n : ℕ) :
    ((displaced s id)[n]?).any Call.waiting = s.waits n := by
  unfold displaced
  split
  · exact waits_modify waiting_dropSender _ n
  · rfl

/-! ### One event -/

section Step

theorem strands_eq_false {s : State} {e : Event} (hpoll : ∀ n expired, e ≠ .poll n expired)
    (hrecv : ∀ sent, e = .recv sent → s.phase ≠ .running) : strands s e = false := by
  cases e with
  | poll n expired => exact absurd rfl (hpoll n expired)
  | recv sent => simp [strands, hrecv sent rfl]
  | _ => rfl

variable {s : State} (hs : Wf s) (hawaited : ∀ n ∈ s.registered, s.waits n = true)

theorem registered_erase {pending : AList (fun _ : Text => ℕ)} {id : Text} {n : ℕ}
    (h : n ∈ (pending.erase id).entries.map Sigma.snd) : n ∈ pending.entries.map Sigma.snd :=
  ((List.kerase_sublist id pending.entries).map Sigma.snd).subset h

include hawaited

theorem awaited_forward {s' : State} {agentId : String} {found : Bool} {request : ProxyRequest}
    (h : forward agentId s found request = .ok s') :
    ∀ n ∈ s'.registered, s'.waits n = true := by
  unfold forward at h
  split_ifs at h
  obtain rfl := Except.ok.inj h
  intro n hn
  have hw := hawaited n hn
  unfold State.waits at hw ⊢
  obtain ⟨c, hc, hcw⟩ := (Option.any_eq_true ..).mp hw
  have hlt := (List.getElem?_eq_some_iff.mp hc).1
  rw [List.getElem?_append_left hlt]
  exact hw

theorem awaited_receive (parse : Text → Option Json) (t : Text) :
    ∀ n ∈ (s.receive parse t).registered, (s.receive parse t).waits n = true := by
  unfold State.receive
  split
  · exact hawaited
  · split
    · exact hawaited
    · intro n hn
      refine (waits_modify (waiting_send _ _) _ n).trans ?_
      exact hawaited n (registered_erase hn)

theorem awaited_recv (hphase : s.phase = .running) (sent : Bool) :
    (∀ n ∈ (s.recv sent).registered, (s.recv sent).waits n = true) ↔
      strands s (.recv sent) = false := by
  unfold State.recv strands
  rw [hphase]
  cases hqueue : s.queue with
  | nil => simpa using hawaited
  | cons n queue =>
      simp only [List.head?_cons, Option.bind_some, decide_true, Bool.true_and]
      cases hc : s.calls[n]? with
      | none => simpa using hawaited
      | some c =>
          have hwaits : s.waits n = c.waiting := by
            unfold State.waits
            rw [hc, Option.any_some]
          have hmem : ∀ m, m ∈ (s.pending.insert c.request.id n).entries.map Sigma.snd ↔
              m = n ∨ m ∈ (s.pending.erase c.request.id).entries.map Sigma.snd :=
            fun m => List.mem_cons
          simp only [Option.any_some, Bool.not_eq_false']
          rw [← hwaits]
          constructor
          · intro h
            rw [← waits_displaced s c.request.id n]
            exact h n ((hmem n).mpr (.inl rfl))
          · intro h m hm
            refine (waits_displaced s c.request.id m).trans ?_
            rcases (hmem m).mp hm with rfl | hm
            · exact h
            · exact hawaited m (registered_erase hm)

include hs

/-- A call is polled: its responder must not be in `pending` any more when its time is over. -/
theorem awaited_poll (n : ℕ) (expired : Bool) :
    (∀ i ∈ s.registered, ((s.calls.modify n (Call.poll expired))[i]?).any Call.waiting = true) ↔
      strands s (.poll n expired) = false := by
  have hone : ∀ i ∈ s.registered,
      ((s.calls.modify n (Call.poll expired))[i]?).any Call.waiting = !(expired && n = i) := by
    intro i hi
    obtain ⟨c, hc, hslot⟩ := hs.held i (List.mem_append_right _ hi)
    have hw := hawaited i hi
    unfold State.waits at hw
    rw [calls_modify, hc] at *
    simp only [Option.map_some, Option.any_some] at hw ⊢
    by_cases hni : n = i
    · rw [if_pos hni, waiting_poll hslot, hw]
      simp [hni]
    · rw [if_neg hni, hw]
      simp [hni]
  unfold strands
  constructor
  · intro h
    cases expired with
    | false => rfl
    | true =>
        by_cases hn : n ∈ s.registered
        · have hfalse := (hone n hn).symm.trans (h n hn)
          simp at hfalse
        · simp [hn]
  · intro h i hi
    rw [hone i hi]
    cases expired with
    | false => rfl
    | true =>
        by_cases hni : n = i
        · subst hni
          simp [hi, hawaited n hi] at h
        · simp [hni]

/-- **One event keeps `pending` in step exactly if it strands no entry.** -/
theorem inStep_step (parse : Text → Option Json) (agentId : String) (e : Event) :
    InStep (step parse agentId s e) ↔ strands s e = false := by
  rw [inStep_iff (wf_step parse agentId hs e)]
  unfold step
  split
  · refine iff_of_true ?_ rfl
    split
    · next s' hf => exact awaited_forward hawaited hf
    · exact hawaited
  · exact awaited_poll hs hawaited _ _
  · exact iff_of_true (fun n hn => absurd hn List.not_mem_nil) rfl
  · next hphase =>
      unfold loopStep
      split
      · refine iff_of_true ?_ rfl
        split_ifs <;> exact hawaited
      · exact iff_of_true (awaited_receive hawaited parse _) rfl
      · exact iff_of_true hawaited rfl
      · exact awaited_recv hawaited hphase _
      · refine iff_of_true ?_ rfl
        split_ifs <;> exact hawaited
      · next hpoll _ _ _ _ hrecv _ =>
          exact iff_of_true hawaited
            (strands_eq_false hpoll fun sent he => absurd he (hrecv sent))
  · next hpoll hrunning _ =>
      exact iff_of_true hawaited (strands_eq_false hpoll fun _ _ => hrunning)

end Step

/-! ### Runs -/

/-- **`pending` stays in step with the forwards that wait exactly in the runs in which no forward
times out while its responder is in `pending`, and no request is taken out of the channel after
its forward has timed out.** -/
theorem in_step_iff (parse : Text → Option Json) (agentId : String) (es : List Event) :
    Along (step parse agentId) (fun s e => InStep (step parse agentId s e)) init es ↔
      Along (step parse agentId) (fun s e => strands s e = false) init es := by
  refine @Along.iff_of_invariant _ _ _ _ _ (fun _ _ => True)
    (fun s => Wf s ∧ ∀ n ∈ s.registered, s.waits n = true) ?_ ?_ es init
    ⟨wf_init, fun n hn => absurd hn List.not_mem_nil⟩ ?_
  · rintro s e ⟨hs, hawaited⟩ -
    exact inStep_step hs hawaited parse agentId e
  · rintro s e ⟨hs, hawaited⟩ - he
    exact ⟨wf_step parse agentId hs e,
      ((inStep_step hs hawaited parse agentId e).mpr he).awaited⟩
  · exact Runs.along_of_forall init fun _ _ => trivial

/-- Two forwards time out after their requests were sent, and the agent never answers. -/
def silentAgent : List Event :=
  [.forward true 1 [] [] [] none, .forward true 2 [] [] [] none, .recv true, .recv true,
    .poll 0 true, .poll 1 true]

/-- Nobody waits any more, the loop runs, and both entries are still there. -/
theorem entries_stranded :
    (final (step (fun _ => none) "a1") init silentAgent).phase = .running ∧
      (final (step (fun _ => none) "a1") init silentAgent).pending.entries.length = 2 ∧
      (final (step (fun _ => none) "a1") init silentAgent).waiters = 0 := by
  decide

end FirewallLLM.Tunnel
