import FirewallLLM.ChatRuntime
import FirewallLLM.Router

/-! # Detections that are published to the router

The callback that `AppState::build` sets hands a detection to a task of its own, which waits for
the router like every handler does.  So the runtime may run it at any time after the handler has
been spawned it: before or after the client gets its answer, and before or after the router gets
the next request of the client.

`late_block`: a client that has received the 403 of an attack that blocks it is refused from then
on until the block expires, in every run in which the task of such an attack has run before the
router gets the next request of the client. -/

namespace FirewallLLM.Failover

open Chat (Prog Reply Op Res Oracle Gateway ChatCompletionRequest chatCompletions RoutingError)
open Inspectors (processRequestWithClient)
open Routing (Builtins Ordered PolicyEngine severityRank)
open Routing.Builtins (lt le add round)
open Runs (Along final)

/-- A request, with the requests whose 403 its client had received when it was sent. -/
structure Request where
  prog : Prog Reply
  heard : List ℕ

/-- A task that has been spawned for a detection. -/
structure Detection where
  request : ℕ
  severity : String
  clientId : String

/-- An attack whose task has blocked its client. -/
structure Block (F : Type) where
  request : ℕ
  clientId : String
  untilTs : F

/-- The router, the tasks that wait to run, the requests by their number, and what has happened:
the 403s that have been received and the blocks that have been set. -/
structure State (F : Type) where
  router : PolicyEngine F
  tasks : List Detection
  requests : ℕ → Option Request
  received : List ℕ
  blocks : List (Block F)

/-- The inspectors, and how the gateway answers. -/
structure Site where
  gateway : Gateway
  inspectors : Inspectors.Config
  engine : Inspectors.Engine
  order : Dlp.VaultOrder

/-- A client sends a request; a handler goes on by one operation, which the oracle answers where
neither the router nor the inspectors do; a client receives an answer; the runtime runs a task;
and a stream reports its usage. -/
inductive Event (F : Type) where
  | arrive (id : ℕ) (clientId : String) (body : ChatCompletionRequest)
  | go (id : ℕ) (now : F) (draws : List (UInt64 × UInt64)) (o : Oracle)
  | receive (id : ℕ)
  | runTask (i : ℕ) (now : F)
  | usage (now : F) (provider : String) (tokens : Int64)

/-! ### Steps -/

section Steps

variable {F : Type} [Builtins F]

/-- `on_attack_detected` blocks the client. -/
def blocksClient (e : PolicyEngine F) (now : F) (severity client : String) : Bool :=
  e.routing.attackFailover.enabled &&
    !(severityRank severity < severityRank e.routing.attackFailover.minSeverity) &&
    !((e.recentAttacks now client).length < e.routing.attackFailover.count) &&
    (e.routing.attackFailover.blockSource && client ≠ "")

/-- The end of a block. -/
def blockEnd (e : PolicyEngine F) (now : F) : F :=
  add now (round e.routing.attackFailover.blockTtlSeconds)

variable (site : Site)

def State.setRequest (s : State F) (id : ℕ) (r : Request) (prog : Prog Reply) : State F :=
  { s with requests := Function.update s.requests id (some { r with prog := prog }) }

/-- The next operation of a handler. -/
def State.go (s : State F) (id : ℕ) (now : F) (draws : List (UInt64 × UInt64)) (o : Oracle)
    (r : Request) : State F :=
  match r.prog with
  | .ret _ => s
  | .op (.resolve model clientId) k =>
      { s.setRequest id r (k (s.router.resolve now model clientId).1) with
        router := (s.router.resolve now model clientId).2 }
  | .op (.inspect payload clientId) k =>
      match processRequestWithClient site.inspectors site.engine site.order payload
          (some clientId) draws with
      | some out =>
          { s.setRequest id r (k out) with
            -- the callback of `set_publish` spawns a task
            tasks := s.tasks ++ out.published.map (fun d => ⟨id, d.1, d.2.2⟩) }
      | none => s
  | .op (.recordTokensToday provider tokens) k =>
      { s.setRequest id r (k ()) with
        router := s.router.recordTokensToday now provider tokens }
  | .op e k => match o e with
      | some a => s.setRequest id r (k a)
      | none => s

/-- One event; one that is not possible changes nothing. -/
def step (s : State F) : Event F → State F
  | .arrive id clientId body => match s.requests id with
      | some _ => s
      | none =>
          { s with
            requests := Function.update s.requests id
              (some ⟨chatCompletions site.gateway (toString id) clientId body, s.received⟩) }
  | .go id now draws o => match s.requests id with
      | some r => s.go site id now draws o r
      | none => s
  | .receive id => match s.requests id with
      | some ⟨.ret (.json status _), _⟩ =>
          if status = 403 then { s with received := id :: s.received } else s
      | _ => s
  | .runTask i now => match s.tasks[i]? with
      | some d =>
          { s with
            router := s.router.onAttackDetected now d.severity d.clientId
            tasks := s.tasks.eraseIdx i
            blocks := if blocksClient s.router now d.severity d.clientId then
              ⟨d.request, d.clientId, blockEnd s.router now⟩ :: s.blocks
            else s.blocks }
      | none => s
  | .usage now provider tokens =>
      { s with router := s.router.recordTokensToday now provider tokens }

/-- A gateway at its start. -/
def State.start (router : PolicyEngine F) : State F where
  router
  tasks := []
  requests := fun _ => none
  received := []
  blocks := []

/-- The answer of the router to a request. -/
def refusal : Except RoutingError (String × String) :=
  .error (.blocked "request source is temporarily blocked")

/-- Once a client has received the 403 of an attack that blocks it, now or later, each of its
requests that it sends from then on is refused until the block expires. -/
def Law (s : State F) (events : List (Event F)) : Prop :=
  ∀ pre id now draws o post, events = pre ++ .go id now draws o :: post →
    ∀ r model clientId k, (final (step site) s pre).requests id = some r →
      r.prog = .op (.resolve model clientId) k →
      ∀ b ∈ (final (step site) s events).blocks, b.clientId = clientId → b.request ∈ r.heard →
        lt now b.untilTs = true →
        ((final (step site) s pre).router.resolve now model clientId).1 = refusal

/-- When the router gets a request, no task of an attack is left whose 403 the client had
received; and no block ends before an earlier one of the client. -/
def Prompt (s : State F) : Event F → Prop
  | .go id _ _ _ => ∀ r model clientId k, s.requests id = some r →
      r.prog = .op (.resolve model clientId) k →
      ∀ d ∈ s.tasks, d.clientId = clientId → d.request ∉ r.heard
  | .runTask i now => ∀ d, s.tasks[i]? = some d →
      blocksClient s.router now d.severity d.clientId = true →
      ∀ b ∈ s.blocks, b.clientId = d.clientId → le b.untilTs (blockEnd s.router now) = true
  | _ => True

/-! ### What a step does to the blocks -/

theorem blockedSources_resolve (e : PolicyEngine F) (now : F) (model client : String) :
    (e.resolve now model client).2.blockedSources = e.blockedSources := by
  have hexpire : (e.expireOverride now).blockedSources = e.blockedSources := by
    rw [PolicyEngine.expireOverride]
    split <;> rfl
  rw [PolicyEngine.resolve]
  split
  · rfl
  · split <;> exact hexpire

theorem blockedSources_onAttackDetected (e : PolicyEngine F) (now : F)
    (severity client : String) :
    (e.onAttackDetected now severity client).blockedSources =
      if blocksClient e now severity client then
        Function.update e.blockedSources client (some (blockEnd e now))
      else e.blockedSources := by
  have hswitch : ∀ e : PolicyEngine F,
      (e.switchProvider now).blockedSources = e.blockedSources := by
    intro e
    rw [PolicyEngine.switchProvider]
    split <;> rfl
  simp only [PolicyEngine.onAttackDetected, blocksClient]
  by_cases hon : e.routing.attackFailover.enabled = true
  · by_cases hsev : severityRank severity < severityRank e.routing.attackFailover.minSeverity
    · simp [hsev]
    · by_cases hcount : (e.recentAttacks now client).length < e.routing.attackFailover.count
      · simp [hon, hsev, hcount]
      · simp only [hon, hsev, hcount, Bool.not_true, decide_false, Bool.or_false, if_false,
          Bool.not_false, Bool.true_and, Bool.false_eq_true, hswitch]
        rw [PolicyEngine.blockSource]
        split <;> rfl
  · simp [hon]

/-- What the next operation of a handler leaves of the state: it may spawn tasks of its own
request, and it does not touch the blocks. -/
theorem go_cases (s : State F) (id : ℕ) (now : F) (draws : List (UInt64 × UInt64)) (o : Oracle)
    (r : Request) : s.go site id now draws o r = s ∨
      (∀ reply, r.prog ≠ .ret reply) ∧ ∃ prog router tasks,
        s.go site id now draws o r =
          { s.setRequest id r prog with router := router, tasks := s.tasks ++ tasks } ∧
        router.blockedSources = s.router.blockedSources ∧ ∀ d ∈ tasks, d.request = id := by
  obtain ⟨prog, heard⟩ := r
  cases prog with
  | ret reply => exact .inl rfl
  | op e k =>
      have hop : ∀ reply, Program.op e k ≠ .ret reply := fun _ h => nomatch h
      have hframe : ∀ prog, s.setRequest id ⟨.op e k, heard⟩ prog =
          { s.setRequest id ⟨.op e k, heard⟩ prog with
            router := s.router, tasks := s.tasks ++ [] } := by
        intro prog
        rw [List.append_nil]
        rfl
      cases e with
      | resolve model clientId =>
          refine .inr ⟨hop, k (s.router.resolve now model clientId).1,
            (s.router.resolve now model clientId).2, [], ?_, blockedSources_resolve _ _ _ _,
            List.forall_mem_nil _⟩
          rw [List.append_nil]
          rfl
      | inspect payload clientId =>
          simp only [State.go]
          split
          · rename_i out hout
            refine .inr ⟨hop, k out, s.router, _, rfl, rfl, ?_⟩
            intro d hd
            obtain ⟨x, -, rfl⟩ := List.mem_map.mp hd
            rfl
          · exact .inl rfl
      | recordTokensToday provider tokens =>
          refine .inr ⟨hop, k (), s.router.recordTokensToday now provider tokens, [], ?_, rfl,
            List.forall_mem_nil _⟩
          rw [List.append_nil]
          rfl
      | _ =>
          simp only [State.go]
          split
          · exact .inr ⟨hop, _, s.router, [], hframe _, rfl, List.forall_mem_nil _⟩
          · exact .inl rfl

/-! ### A request that has been dealt with -/

variable {site}

/-- A request has been answered, and no task of it is left for a client. -/
def Quiet (s : State F) (a : ℕ) (client : String) : Prop :=
  (∃ r reply, s.requests a = some r ∧ r.prog = .ret reply) ∧
    ∀ d ∈ s.tasks, d.clientId = client → d.request ≠ a

/-- It stays so, and no block is set for it. -/
theorem Quiet.step {s : State F} {a : ℕ} {client : String} (h : Quiet s a client) (e : Event F) :
    Quiet (step site s e) a client ∧
      ∀ b ∈ (Failover.step site s e).blocks, b.clientId = client → b.request = a →
        b ∈ s.blocks := by
  obtain ⟨⟨ra, reply, hra, hret⟩, htasks⟩ := h
  have hsame : Quiet s a client := ⟨⟨ra, reply, hra, hret⟩, htasks⟩
  cases e with
  | arrive id clientId body =>
      simp only [Failover.step]
      split
      · exact ⟨hsame, fun b hb _ _ => hb⟩
      · rename_i hnone
        have hne : a ≠ id := by
          rintro rfl
          rw [hnone] at hra
          nomatch hra
        exact ⟨⟨⟨ra, reply, (Function.update_of_ne hne _ _).trans hra, hret⟩, htasks⟩,
          fun b hb _ _ => hb⟩
  | go id now draws o =>
      simp only [Failover.step]
      split
      · rename_i r hr
        obtain h | ⟨hop, prog, router, tasks, h, -, hown⟩ := go_cases site s id now draws o r
        · rw [h]
          exact ⟨hsame, fun b hb _ _ => hb⟩
        · have hne : a ≠ id := by
            rintro rfl
            rw [hr] at hra
            exact hop reply (Option.some.inj hra ▸ hret)
          rw [h]
          refine ⟨⟨⟨ra, reply, (Function.update_of_ne hne _ _).trans hra, hret⟩, ?_⟩,
            fun b hb _ _ => hb⟩
          intro d hd hclient
          rcases List.mem_append.mp hd with hd | hd
          · exact htasks d hd hclient
          · rw [hown d hd]
            exact hne.symm
      · exact ⟨hsame, fun b hb _ _ => hb⟩
  | receive id =>
      simp only [Failover.step]
      split
      · split <;> exact ⟨hsame, fun b hb _ _ => hb⟩
      · exact ⟨hsame, fun b hb _ _ => hb⟩
  | runTask i now =>
      simp only [Failover.step]
      split
      · rename_i d hd
        refine ⟨⟨⟨ra, reply, hra, hret⟩, fun d' hd' =>
          htasks d' ((List.eraseIdx_sublist _ _).subset hd')⟩, ?_⟩
        intro b hb hclient hreq
        split at hb
        · rcases List.mem_cons.mp hb with rfl | hb
          · exact absurd hreq (htasks d (List.mem_of_getElem? hd) hclient)
          · exact hb
        · exact hb
      · exact ⟨hsame, fun b hb _ _ => hb⟩
  | usage now provider tokens => exact ⟨hsame, fun b hb _ _ => hb⟩

theorem Quiet.blocks_final {s : State F} {a : ℕ} {client : String} (h : Quiet s a client)
    (events : List (Event F)) : ∀ b ∈ (final (Failover.step site) s events).blocks,
      b.clientId = client → b.request = a → b ∈ s.blocks := by
  induction events generalizing s with
  | nil => exact fun b hb _ _ => hb
  | cons e events ih =>
      obtain ⟨(hquiet : Quiet (Failover.step site s e) a client), hblocks⟩ := h.step e
      intro b hb hclient hreq
      exact hblocks b (ih hquiet b hb hclient hreq) hclient hreq

/-! ### The invariant -/

/-- Every block that has been set lasts as long as its client is blocked; the requests whose
403 has been received have been answered; and a client has heard of received answers only. -/
structure Inv (s : State F) : Prop where
  blocked : ∀ b ∈ s.blocks, ∃ u, s.router.blockedSources b.clientId = some u ∧
    le b.untilTs u = true
  answered : ∀ id ∈ s.received, ∃ r reply, s.requests id = some r ∧ r.prog = .ret reply
  heard : ∀ id r, s.requests id = some r → ∀ a ∈ r.heard, a ∈ s.received

theorem inv_start (router : PolicyEngine F) : Inv (State.start router) where
  blocked _ hb := nomatch hb
  answered _ hid := nomatch hid
  heard _ _ h := nomatch h

theorem update_cases {f : ℕ → Option Request} {id id' : ℕ} {r r' : Request}
    (h : Function.update f id (some r) id' = some r') : r' = r ∨ f id' = some r' := by
  by_cases hid : id' = id
  · subst hid
    rw [Function.update_self] at h
    exact .inl (Option.some.inj h).symm
  · rw [Function.update_of_ne hid] at h
    exact .inr h

theorem Inv.go {s : State F} (hinv : Inv s) {id : ℕ} {now : F} {draws : List (UInt64 × UInt64)}
    {o : Oracle} {r : Request} (hr : s.requests id = some r) :
    Inv (s.go site id now draws o r) := by
  obtain h | ⟨hop, prog, router, tasks, h, hsources, -⟩ := go_cases site s id now draws o r
  · rw [h]
    exact hinv
  · rw [h]
    refine ⟨?_, ?_, ?_⟩
    · intro b hb
      obtain ⟨u, hu, hle⟩ := hinv.blocked b hb
      exact ⟨u, (congrFun hsources _).trans hu, hle⟩
    · intro a ha
      obtain ⟨ra, reply, hra, hret⟩ := hinv.answered a ha
      have hne : a ≠ id := by
        rintro rfl
        rw [hr] at hra
        exact hop reply (Option.some.inj hra ▸ hret)
      exact ⟨ra, reply, (Function.update_of_ne hne _ _).trans hra, hret⟩
    · intro id' r' hr' a ha
      obtain rfl | hr' := update_cases hr'
      · exact hinv.heard id r hr a ha
      · exact hinv.heard id' r' hr' a ha

variable [Ordered F]

theorem Inv.step {s : State F} (hinv : Inv s) {e : Event F} (hprompt : Prompt s e) :
    Inv (step site s e) := by
  cases e with
  | arrive id clientId body =>
      simp only [Failover.step]
      split
      · exact hinv
      · rename_i hnone
        refine ⟨hinv.blocked, ?_, ?_⟩
        · intro a ha
          obtain ⟨ra, reply, hra, hret⟩ := hinv.answered a ha
          have hne : a ≠ id := by
            rintro rfl
            rw [hnone] at hra
            nomatch hra
          exact ⟨ra, reply, (Function.update_of_ne hne _ _).trans hra, hret⟩
        · intro id' r' hr' a ha
          obtain rfl | hr' := update_cases hr'
          · exact ha
          · exact hinv.heard id' r' hr' a ha
  | go id now draws o =>
      simp only [Failover.step]
      split
      · rename_i r hr
        exact hinv.go hr
      · exact hinv
  | receive id =>
      simp only [Failover.step]
      split
      · rename_i status body heard hr
        split
        · refine ⟨hinv.blocked, ?_, fun id' r' hr' a ha =>
            List.mem_cons_of_mem _ (hinv.heard id' r' hr' a ha)⟩
          intro a ha
          rcases List.mem_cons.mp ha with rfl | ha
          · exact ⟨_, _, hr, rfl⟩
          · exact hinv.answered a ha
        · exact hinv
      · exact hinv
  | runTask i now =>
      simp only [Failover.step]
      split
      · rename_i d hd
        refine ⟨?_, hinv.answered, hinv.heard⟩
        intro b hb
        simp only [blockedSources_onAttackDetected]
        cases hblocks : blocksClient s.router now d.severity d.clientId with
        | false =>
            rw [hblocks] at hb
            exact hinv.blocked b hb
        | true =>
            rw [hblocks] at hb
            rw [if_pos rfl]
            by_cases hclient : b.clientId = d.clientId
            · rw [hclient, Function.update_self]
              refine ⟨_, rfl, ?_⟩
              rcases List.mem_cons.mp hb with rfl | hb
              · exact Ordered.le_refl _
              · exact hprompt d hd hblocks b hb hclient
            · rw [Function.update_of_ne hclient]
              rcases List.mem_cons.mp hb with rfl | hb
              · exact absurd rfl hclient
              · exact hinv.blocked b hb
      · exact hinv
  | usage now provider tokens => exact ⟨hinv.blocked, hinv.answered, hinv.heard⟩

/-! ### The law -/

theorem Inv.refuses {s : State F} (hinv : Inv s) {b : Block F} (hb : b ∈ s.blocks) {now : F}
    (hnow : lt now b.untilTs = true) (model : String) :
    (s.router.resolve now model b.clientId).1 = refusal := by
  obtain ⟨u, hu, hle⟩ := hinv.blocked b hb
  apply PolicyEngine.resolve_of_blocked
  rw [PolicyEngine.isBlocked, hu, Option.getD_some, Ordered.lt_eq, Bool.not_eq_true']
  rw [Ordered.lt_eq, Bool.not_eq_true'] at hnow
  rw [← Bool.not_eq_true]
  intro hexpired
  rw [Ordered.le_trans _ _ _ hle hexpired] at hnow
  nomatch hnow

/-- **In every run in which the tasks of the attacks whose 403 the client has received have run
before the router gets its next request, the client is refused until its block expires.** -/
theorem late_block (site : Site) (router : PolicyEngine F) (events : List (Event F))
    (hprompt : Along (step site) Prompt (State.start router) events) :
    Law site (State.start router) events := by
  rintro pre id now draws o post rfl r model clientId k hr hprog b hb hclient hheard hnow
  obtain ⟨hpre, hgo, -⟩ := (Runs.along_append _ _ _).mp hprompt
  have hinv : Inv (final (step site) (State.start router) pre) :=
    Runs.final_invariant (I := Inv) (fun s e hs he => hs.step he) (inv_start router) hpre
  obtain ⟨ra, reply, hra, hret⟩ := hinv.answered _ (hinv.heard id r hr _ hheard)
  have hquiet : Quiet (final (step site) (State.start router) pre) b.request clientId :=
    ⟨⟨ra, reply, hra, hret⟩, fun d hd hd' heq =>
      hgo r model clientId k hr hprog d hd hd' (heq ▸ hheard)⟩
  subst hclient
  rw [Runs.final_append] at hb
  exact hinv.refuses (hquiet.blocks_final _ b hb rfl rfl) hnow model

end Steps

/-! ### A task that runs late -/

section Example

open Chat (sampleGateway sampleRequest)

/-- Every signature matches, and attacks are refused. -/
def alarmed : Site where
  gateway := sampleGateway
  inspectors := ⟨"block", "high", "off"⟩
  engine := { Inspectors.sampleEngine with isMatch := fun _ _ => true }
  order := Dlp.insertionOrder

/-- The first attack blocks its client for ten minutes. -/
def strict : PolicyEngine ℤ :=
  PolicyEngine.new
    { Routing.twoBudgets with
      rules := []
      defaultChain := ["p"]
      attackFailover := ⟨true, 1, 300, "high", none, true, 600, 300⟩ }

/-- A handler goes on, by operations that always succeed. -/
def goAt (id : ℕ) (now : ℤ) : Event ℤ :=
  .go id now [] (fun
    | .observe _ => some ()
    | .audit _ => some ()
    | _ => none)

/-- An attack is refused, and the client asks again. -/
def attackThenAsk : List (Event ℤ) :=
  [.arrive 0 "c" (sampleRequest false), goAt 0 1, goAt 0 1, goAt 0 1, goAt 0 1, .receive 0,
    .arrive 1 "c" (sampleRequest false)]

/-- No task is waiting or the event is not about the router, and no client is blocked yet. -/
def quietAt (s : State ℤ) : Event ℤ → Bool
  | .go id _ _ _ => s.tasks.isEmpty || (s.requests id).all (fun r => match r.prog with
      | .op (.resolve _ _) _ => false
      | _ => true)
  | .runTask _ _ => s.blocks.isEmpty
  | _ => true

theorem prompt_of_quietAt {s : State ℤ} {e : Event ℤ} (h : quietAt s e = true) : Prompt s e := by
  cases e with
  | go id now draws o =>
      intro r model clientId k hr hprog d hd
      rw [quietAt, hr, Option.all_some, hprog, Bool.or_false, List.isEmpty_iff] at h
      rw [h] at hd
      nomatch hd
  | runTask i now =>
      intro d hd hblocks b hb
      rw [quietAt, List.isEmpty_iff] at h
      rw [h] at hb
      nomatch hb
  | _ => trivial

/-- When the task runs first, the client is refused. -/
theorem refused_after_task :
    ((final (step alarmed) (State.start strict)
      (attackThenAsk ++ [.runTask 0 1])).router.resolve 1 "m" "c").1 = refusal := by
  have hquiet : Along (step alarmed) (fun s e => quietAt s e = true) (State.start strict)
      ((attackThenAsk ++ [.runTask 0 1]) ++ [goAt 1 1]) :=
    ⟨rfl, rfl, rfl, rfl, rfl, rfl, rfl, rfl, rfl, trivial⟩
  have hreq : (final (step alarmed) (State.start strict)
      (attackThenAsk ++ [.runTask 0 1])).requests 1 =
        some ⟨chatCompletions sampleGateway (toString 1) "c" (sampleRequest false), [0]⟩ := rfl
  have hblocks : (final (step alarmed) (State.start strict)
      ((attackThenAsk ++ [.runTask 0 1]) ++ [goAt 1 1])).blocks = [⟨0, "c", 601⟩] := rfl
  have hmem : ⟨0, "c", 601⟩ ∈ (final (step alarmed) (State.start strict)
      ((attackThenAsk ++ [.runTask 0 1]) ++ [goAt 1 1])).blocks := by
    rw [hblocks]
    exact .head _
  have hlaw := late_block alarmed strict ((attackThenAsk ++ [.runTask 0 1]) ++ [goAt 1 1])
    (hquiet.mono fun s e => prompt_of_quietAt) (attackThenAsk ++ [.runTask 0 1]) 1 1 [] _ [] rfl
  exact hlaw _ "m" "c" _ hreq rfl _ hmem rfl (.head _) rfl

/-- When it runs last, the client is served although it has received the 403. -/
theorem served_before_task :
    ¬ ∀ (site : Site) (router : PolicyEngine ℤ) (events : List (Event ℤ)),
      Law site (State.start router) events := by
  intro h
  have hreq : (final (step alarmed) (State.start strict) attackThenAsk).requests 1 =
      some ⟨chatCompletions sampleGateway (toString 1) "c" (sampleRequest false), [0]⟩ := rfl
  have hblocks : (final (step alarmed) (State.start strict)
      (attackThenAsk ++ [goAt 1 1, .runTask 0 1])).blocks = [⟨0, "c", 601⟩] := rfl
  have hmem : ⟨0, "c", 601⟩ ∈ (final (step alarmed) (State.start strict)
      (attackThenAsk ++ [goAt 1 1, .runTask 0 1])).blocks := by
    rw [hblocks]
    exact .head _
  have hlaw := h alarmed strict (attackThenAsk ++ [goAt 1 1, .runTask 0 1])
    attackThenAsk 1 1 [] _ [.runTask 0 1] rfl
  have hrefused := hlaw _ "m" "c" _ hreq rfl _ hmem rfl (.head _) rfl
  have hserved : ((final (step alarmed) (State.start strict)
      attackThenAsk).router.resolve 1 "m" "c").1 = .ok ("p", "m") := rfl
  have hclash := hserved.symm.trans hrefused
  nomatch hclash

end Example

end FirewallLLM.Failover
