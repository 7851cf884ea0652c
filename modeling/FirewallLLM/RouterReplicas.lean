import FirewallLLM.PyRouterStore
import FirewallLLM.Runs

/-! # Replicas over one router store

Any number of gateways call a `RedisRouterStore` over one server.  A step of a run starts a call
or executes the next command of one, so that the commands of different calls come in any order.
`clear_override` is called where `_chain_candidates` calls it: behind a `get_override` whose
result has expired.

Besides the server and the calls, a state keeps what the run has been so far: which blocks have
been set, which overrides stand, who wrote the two keys of the override, and by which clocks
entries have been deleted.

`shared_store`: blocks last and overrides are read as they were set, in every run in which no
command comes between those of another call in a way that `Orderly` excludes. -/

namespace FirewallLLM.Py.Replicas

open Dlp (Text)
open RedisMap (Server)
open Routing (Builtins Ordered)
open Routing.Builtins (lt le)
open Runs (Along)

/-- A call of the store. -/
inductive Call (F : Type) where
  | blockSource (client : String) (untilTs : F)
  | isBlocked (client : String) (now : F)
  | setOverride (provider : String) (untilTs : F)
  /-- With the clock that the result is compared with. -/
  | getOverride (now : F)

/-- The next command of a call. -/
inductive Next (F : Type) where
  | block (client : String) (untilTs : F)
  | probe (client : String) (now : F)
  | forget (client : String) (now : F)
  | setProvider (provider : String) (untilTs : F)
  | setUntil (provider : String) (untilTs : F)
  | getProvider (now : F)
  | getUntil (now : F) (provider : Option Text)
  | clear (now : F)
  | done

/-- The first command of a call. -/
def Call.first {F : Type} : Call F → Next F
  | blockSource client untilTs => .block client untilTs
  | isBlocked client now => .probe client now
  | setOverride provider untilTs => .setProvider provider untilTs
  | getOverride now => .getProvider now

/-- A call that has been started, with the blocks and overrides that stood then, and who wrote
the provider that it has read. -/
structure Task (F : Type) where
  next : Next F
  blocks : List (String × F)
  standing : List (String × F)
  providerBy : Option ℕ

structure State (F : Type) where
  redis : Server
  tasks : ℕ → Option (Task F)
  /-- The `block_source` calls that have returned. -/
  blocks : List (String × F)
  /-- The `set_override` calls that have returned since one was started. -/
  standing : List (String × F)
  providerBy : Option ℕ
  untilBy : Option ℕ
  /-- The clocks of the calls that deleted the entry of a client since its last block. -/
  deletedAt : String → List F
  /-- The clocks of the calls that cleared the override since it was last set. -/
  clearedAt : List F

def State.init {F : Type} : State F where
  redis := fun _ => none
  tasks := fun _ => none
  blocks := []
  standing := []
  providerBy := none
  untilBy := none
  deletedAt := fun _ => []
  clearedAt := []

/-- A call is started under a number, or the next command of one is executed at a time of the
server. -/
inductive Event (F : Type) where
  | start (id : ℕ) (call : Call F)
  | exec (id : ℕ) (time : ℤ)

/-! ### Steps -/

section Steps

variable {F : Type} [Builtins F] (codec : FloatCodec F)

/-- The call goes on with a command. -/
def State.goOn (s : State F) (id : ℕ) (t : Task F) (next : Next F) : State F :=
  { s with tasks := Function.update s.tasks id (some { t with next := next }) }

/-- A number is used once. -/
def State.start (s : State F) (id : ℕ) (call : Call F) : State F :=
  match s.tasks id with
  | some _ => s
  | none =>
      { s with
        tasks := Function.update s.tasks id (some ⟨call.first, s.blocks, s.standing, none⟩)
        standing := match call with
          | .setOverride _ _ => []
          | _ => s.standing }

/-- The reply of `is_blocked`, or `none` where it goes on to delete the entry and returns
`False`. -/
def State.blockedReply (s : State F) (time : ℤ) (client : String) (now : F) : Option Bool :=
  RedisRouterStore.verdict codec (s.redis.get time (StoreKey.blocked client).text) now

/-- The reply of `get_override`. -/
def State.overrideReply (s : State F) (time : ℤ) (provider : Option Text) :
    Option (String × F) :=
  overrideOf codec provider (s.redis.get time StoreKey.overrideUntil.text)

/-- The next command of a call. -/
def State.exec (s : State F) (id : ℕ) (time : ℤ) (t : Task F) : State F :=
  match t.next with
  | .block client untilTs =>
      { s.goOn id t .done with
        redis := RedisRouterStore.blockSource codec s.redis client untilTs
        blocks := (client, untilTs) :: s.blocks
        deletedAt := Function.update s.deletedAt client [] }
  | .probe client now => match s.blockedReply codec time client now with
      | some _ => s.goOn id t .done
      | none => s.goOn id t (.forget client now)
  | .forget client now =>
      { s.goOn id t .done with
        redis := RedisRouterStore.forget s.redis client
        deletedAt := Function.update s.deletedAt client (now :: s.deletedAt client) }
  | .setProvider provider untilTs =>
      { s.goOn id t (.setUntil provider untilTs) with
        redis := RedisRouterStore.setProvider s.redis provider
        providerBy := some id
        clearedAt := [] }
  | .setUntil provider untilTs =>
      { s.goOn id t .done with
        redis := RedisRouterStore.setUntil codec s.redis untilTs
        untilBy := some id
        standing := (provider, untilTs) :: s.standing }
  | .getProvider now =>
      s.goOn id { t with providerBy := s.providerBy }
        (.getUntil now (s.redis.get time StoreKey.override.text))
  | .getUntil now provider => match s.overrideReply codec time provider with
      | some (_, untilTs) => s.goOn id t (if lt now untilTs then .done else .clear now)
      | none => s.goOn id t .done
  | .clear now =>
      { s.goOn id t .done with
        redis := RedisRouterStore.clearOverride s.redis
        clearedAt := now :: s.clearedAt }
  | .done => s

def step (s : State F) : Event F → State F
  | .start id call => s.start id call
  | .exec id time => match s.tasks id with
      | some t => s.exec codec id time t
      | none => s

/-- What a call may rely on when it gets its reply: a client whose block stood at the start and
has not ended is blocked; an override that stood at the start and has not ended is returned; and
the provider is that of the call whose expiry it comes with. -/
def Kept (s : State F) : Event F → Prop
  | .start _ _ => True
  | .exec id time => ∀ t, s.tasks id = some t → match t.next with
      | .probe client now => ∀ untilTs, (client, untilTs) ∈ t.blocks → lt now untilTs = true →
          s.blockedReply codec time client now = some true
      | .getUntil now provider =>
          (∀ pair ∈ t.standing, lt now pair.2 = true →
            s.overrideReply codec time provider = some pair) ∧
          ((s.overrideReply codec time provider).isSome → t.providerBy = s.untilBy)
      | _ => True

/-- The call is between its first write to the override and its last. -/
def Next.Writes : Next F → Prop
  | .setUntil _ _ => True
  | _ => False

/-- The call reads the override, and has not come to its end. -/
def Next.Reads : Next F → Prop
  | .getProvider _ | .getUntil _ _ | .clear _ => True
  | _ => False

/-- No command comes between those of another call so that it spoils it.  A block does not end
before one that stands; an entry is deleted only after every block of the client has ended by the
clock of the call that deletes it; and no clock is behind that of a call that has deleted what is
read.  An override is written, under a name, while no other call writes or reads it and none
stands that was set after the call has started; and it is not read between its two writes. -/
def Orderly (s : State F) : Event F → Prop
  | .start _ _ => True
  | .exec id _ => ∀ t, s.tasks id = some t → match t.next with
      | .block client untilTs => ∀ u, (client, u) ∈ s.blocks → le u untilTs = true
      | .probe client now => ∀ n ∈ s.deletedAt client, le n now = true
      | .forget client now => ∀ u, (client, u) ∈ s.blocks → le u now = true
      | .setProvider provider _ => provider ≠ "" ∧ s.standing = [] ∧
          ∀ id' t', s.tasks id' = some t' → ¬ t'.next.Writes ∧ ¬ t'.next.Reads
      | .getProvider _ => ∀ id' t', s.tasks id' = some t' → ¬ t'.next.Writes
      | .getUntil now _ => ∀ n ∈ s.clearedAt, le n now = true
      | _ => True

variable {codec} {s : State F} {id : ℕ} {time : ℤ} {t : Task F}

/-! ### Tasks -/

theorem exec_tasks (ht : s.tasks id = some t) : ∃ t', (s.exec codec id time t).tasks =
    Function.update s.tasks id (some t') ∧ t'.blocks = t.blocks ∧ t'.standing = t.standing := by
  unfold State.exec
  split
  · exact ⟨_, rfl, rfl, rfl⟩
  · split <;> exact ⟨_, rfl, rfl, rfl⟩
  · exact ⟨_, rfl, rfl, rfl⟩
  · exact ⟨_, rfl, rfl, rfl⟩
  · exact ⟨_, rfl, rfl, rfl⟩
  · exact ⟨_, rfl, rfl, rfl⟩
  · split <;> exact ⟨_, rfl, rfl, rfl⟩
  · exact ⟨_, rfl, rfl, rfl⟩
  · exact ⟨t, (by rw [← ht, Function.update_eq_self]), rfl, rfl⟩

omit [Builtins F] in
theorem update_eq_some {tasks : ℕ → Option (Task F)} {id id' : ℕ} {t t' : Task F}
    (h : Function.update tasks id (some t) id' = some t') :
    id' = id ∧ t' = t ∨ id' ≠ id ∧ tasks id' = some t' := by
  by_cases hid : id' = id
  · subst hid
    rw [Function.update_self] at h
    exact .inl ⟨rfl, (Option.some.inj h).symm⟩
  · rw [Function.update_of_ne hid] at h
    exact .inr ⟨hid, h⟩

/-! ### Blocks -/

/-- The entry of a client: its last block, or none where all have ended by the clock of a call
that deleted it. -/
def BlockEntry (codec : FloatCodec F) (s : State F) (client : String) : Prop :=
  (∃ u, s.redis (StoreKey.blocked client).text = some ⟨codec.repr u, none⟩ ∧
    ∀ u', (client, u') ∈ s.blocks → le u' u = true) ∨
  (s.redis (StoreKey.blocked client).text = none ∧
    ∀ u', (client, u') ∈ s.blocks → ∃ n ∈ s.deletedAt client, le u' n = true)

structure BlockInv (codec : FloatCodec F) (s : State F) : Prop where
  entry : ∀ client, BlockEntry codec s client
  due : ∀ id t, s.tasks id = some t → ∀ b ∈ t.blocks, b ∈ s.blocks

theorem BlockInv.init : BlockInv codec (.init : State F) :=
  ⟨fun _ => .inr ⟨rfl, fun _ h => absurd h List.not_mem_nil⟩, nofun⟩

theorem BlockEntry.congr {s' : State F} {client : String} (h : BlockEntry codec s client)
    (hredis : s'.redis (StoreKey.blocked client).text = s.redis (StoreKey.blocked client).text)
    (hblocks : ∀ u, (client, u) ∈ s'.blocks → (client, u) ∈ s.blocks)
    (hdeleted : s'.deletedAt client = s.deletedAt client) : BlockEntry codec s' client := by
  unfold BlockEntry
  rw [hredis, hdeleted]
  rcases h with ⟨u, hu, hle⟩ | ⟨hnone, hdel⟩
  · exact .inl ⟨u, hu, fun u' hu' => hle u' (hblocks u' hu')⟩
  · exact .inr ⟨hnone, fun u' hu' => hdel u' (hblocks u' hu')⟩

theorem BlockEntry.exec [Ordered F] (h : ∀ client, BlockEntry codec s client)
    (ht : s.tasks id = some t) (hord : Orderly s (.exec id time)) (client : String) :
    BlockEntry codec (s.exec codec id time t) client := by
  have hok := hord t ht
  unfold State.exec
  split
  · rename_i c u hnext
    rw [hnext] at hok
    by_cases hc : client = c
    · subst hc
      refine .inl ⟨u, RedisRouterStore.blockSource_self _, fun u' hu' => ?_⟩
      rcases List.mem_cons.mp hu' with heq | hold
      · rw [(Prod.mk.inj heq).2]
        exact Ordered.le_refl u
      · exact hok u' hold
    · refine (h client).congr
        (RedisRouterStore.blockSource_of_ne s.redis codec u (StoreKey.blocked_ne hc))
        (fun u' hu' => ?_) (Function.update_of_ne hc _ _)
      exact (List.mem_cons.mp hu').resolve_left fun heq => hc (Prod.mk.inj heq).1
  · split <;> exact h client
  · rename_i c now hnext
    rw [hnext] at hok
    by_cases hc : client = c
    · subst hc
      refine .inr ⟨RedisRouterStore.forget_self _, fun u' hu' => ⟨now, ?_, hok u' hu'⟩⟩
      show now ∈ Function.update s.deletedAt client _ client
      rw [Function.update_self]
      exact List.mem_cons_self
    · exact (h client).congr (RedisRouterStore.forget_of_ne s.redis (StoreKey.blocked_ne hc))
        (fun _ hu' => hu') (Function.update_of_ne hc _ _)
  · rename_i provider untilTs _
    exact (h client).congr (RedisRouterStore.setProvider_of_ne s.redis provider
      (StoreKey.blocked_ne_override client)) (fun _ hu' => hu') rfl
  · rename_i provider untilTs _
    exact (h client).congr (RedisRouterStore.setUntil_of_ne s.redis codec untilTs
      (StoreKey.blocked_ne_until client)) (fun _ hu' => hu') rfl
  · exact h client
  · split <;> exact h client
  · exact (h client).congr (RedisRouterStore.clearOverride_of_ne s.redis
      (StoreKey.blocked_ne_override client) (StoreKey.blocked_ne_until client))
      (fun _ hu' => hu') rfl
  · exact h client

/-- Blocks are only added. -/
theorem exec_blocks : ∀ b ∈ s.blocks, b ∈ (s.exec codec id time t).blocks := by
  intro b hb
  unfold State.exec
  split
  · exact List.mem_cons_of_mem _ hb
  · split <;> exact hb
  · exact hb
  · exact hb
  · exact hb
  · exact hb
  · split <;> exact hb
  · exact hb
  · exact hb

theorem BlockInv.step [Ordered F] (h : BlockInv codec s) {e : Event F} (hord : Orderly s e) :
    BlockInv codec (step codec s e) := by
  cases e with
  | start id call =>
      show BlockInv codec (s.start id call)
      unfold State.start
      split
      · exact h
      · refine ⟨fun client => (h.entry client).congr rfl (fun _ hu => hu) rfl, ?_⟩
        intro id' t' ht' b hb
        rcases update_eq_some ht' with ⟨-, rfl⟩ | ⟨-, hold⟩
        · exact hb
        · exact h.due id' t' hold b hb
  | exec id time =>
      rw [Replicas.step]
      cases ht : s.tasks id with
      | none => exact h
      | some t =>
          refine ⟨BlockEntry.exec h.entry ht hord, fun id' t' ht' b hb => exec_blocks b ?_⟩
          obtain ⟨t₁, htasks, hblocks, -⟩ := @exec_tasks _ _ codec _ _ time _ ht
          rw [htasks] at ht'
          rcases update_eq_some ht' with ⟨-, rfl⟩ | ⟨-, hold⟩
          · exact h.due id t ht b (hblocks ▸ hb)
          · exact h.due id' t' hold b hb

/-- A client whose block stands is blocked. -/
theorem BlockInv.reply [Ordered F] (h : BlockInv codec s) (ht : s.tasks id = some t)
    {client : String} {now untilTs : F} (hnext : t.next = .probe client now)
    (hord : Orderly s (.exec id time)) (hdue : (client, untilTs) ∈ t.blocks)
    (hlive : lt now untilTs = true) : s.blockedReply codec time client now = some true := by
  have hclock := hord t ht
  rw [hnext] at hclock
  have hmem := h.due id t ht _ hdue
  have hnot : le untilTs now = false := by
    rw [Ordered.lt_eq] at hlive
    simpa using hlive
  rcases h.entry client with ⟨u, hu, hle⟩ | ⟨-, hdel⟩
  · have hstill : ¬ le u now = true := fun hended =>
      absurd (Ordered.le_trans _ _ _ (hle untilTs hmem) hended) (by rw [hnot]; decide)
    rw [State.blockedReply, RedisMap.Server.get_of_lasting hu, RedisRouterStore.verdict,
      codec.read_repr, if_neg hstill]
  · obtain ⟨n, hn, hended⟩ := hdel untilTs hmem
    exact absurd (Ordered.le_trans _ _ _ hended (hclock n hn)) (by rw [hnot]; decide)

/-! ### The override -/

/-- What the two keys hold: an override of one call, or nothing. -/
def Holds (codec : FloatCodec F) (s : State F) : Option (String × F) → Prop
  | some (provider, untilTs) =>
      s.redis StoreKey.override.text = some ⟨provider.toList, none⟩ ∧
      s.redis StoreKey.overrideUntil.text = some ⟨codec.repr untilTs, none⟩ ∧
      provider ≠ "" ∧ s.providerBy = s.untilBy
  | none => s.redis StoreKey.override.text = none ∧ s.redis StoreKey.overrideUntil.text = none

/-- An override is the one that is held, or it has ended by the clock of a call that cleared it. -/
def Covered (s : State F) (held : Option (String × F)) (pair : String × F) : Prop :=
  match held with
  | some q => pair = q
  | none => ∃ n ∈ s.clearedAt, le pair.2 n = true

/-- What a call that reads has seen so far is what is held, unless that has been cleared. -/
def ReaderOk (s : State F) (held : Option (String × F)) (t : Task F) : Prop :=
  match t.next with
  | .getProvider _ => ∀ pair ∈ t.standing, Covered s held pair
  | .getUntil _ provider => (∀ pair ∈ t.standing, Covered s held pair) ∧
      t.providerBy = s.providerBy ∧
      (held = none ∨ provider = held.map (fun q => q.1.toList))
  | .clear now => ∀ q ∈ held, le q.2 now = true
  | _ => True

/-- Nobody writes the override. -/
structure Quiet (codec : FloatCodec F) (s : State F) (held : Option (String × F)) : Prop where
  idle : ∀ id t, s.tasks id = some t → ¬ t.next.Writes
  holds : Holds codec s held
  standing : ∀ pair ∈ s.standing, Covered s held pair
  readers : ∀ id t, s.tasks id = some t → ReaderOk s held t

/-- A call that waits while another one writes. -/
def Waits (t : Task F) : Prop :=
  match t.next with
  | .getProvider _ => t.standing = []
  | .getUntil _ _ | .clear _ => False
  | _ => True

/-- One call has written the provider and not yet its expiry. -/
structure Writing (s : State F) (id : ℕ) (provider : String) (untilTs : F) : Prop where
  task : ∃ t, s.tasks id = some t ∧ t.next = .setUntil provider untilTs
  named : provider ≠ ""
  written : s.redis StoreKey.override.text = some ⟨provider.toList, none⟩
  by_ : s.providerBy = some id
  standing : s.standing = []
  alone : ∀ id' t', s.tasks id' = some t' → t'.next.Writes → id' = id
  others : ∀ id' t', s.tasks id' = some t' → Waits t'

inductive OverrideInv (codec : FloatCodec F) (s : State F) : Prop
  | quiet (held : Option (String × F)) (h : Quiet codec s held)
  | writing (id : ℕ) (provider : String) (untilTs : F) (h : Writing s id provider untilTs)

theorem OverrideInv.init : OverrideInv codec (.init : State F) :=
  .quiet none ⟨nofun, ⟨rfl, rfl⟩, fun _ h => absurd h List.not_mem_nil, nofun⟩

theorem readerOk_of_not_reads {held : Option (String × F)} (h : ¬ t.next.Reads) :
    ReaderOk s held t := by
  unfold ReaderOk
  cases hnext : t.next with
  | getProvider now => exact absurd (by rw [hnext]; trivial) h
  | getUntil now provider => exact absurd (by rw [hnext]; trivial) h
  | clear now => exact absurd (by rw [hnext]; trivial) h
  | _ => trivial

theorem readerOk_of_waits {held : Option (String × F)} (h : Waits t) : ReaderOk s held t := by
  unfold Waits at h
  unfold ReaderOk
  cases hnext : t.next with
  | getProvider now =>
      rw [hnext] at h
      intro pair hpair
      rw [h] at hpair
      exact absurd hpair List.not_mem_nil
  | getUntil now provider =>
      rw [hnext] at h
      exact h.elim
  | clear now =>
      rw [hnext] at h
      exact h.elim
  | _ => trivial

omit [Builtins F] in
theorem waits_of_not_reads (h : ¬ t.next.Reads) : Waits t := by
  unfold Waits
  cases hnext : t.next with
  | getProvider now => exact absurd (by rw [hnext]; trivial) h
  | getUntil now provider => exact absurd (by rw [hnext]; trivial) h
  | clear now => exact absurd (by rw [hnext]; trivial) h
  | _ => trivial

theorem OverrideInv.frame {s' : State F} {t₁ : Task F} (h : OverrideInv codec s)
    (ht : s.tasks id = some t) (htasks : s'.tasks = Function.update s.tasks id (some t₁))
    (hbefore : ¬ t.next.Writes) (hafter : ¬ t₁.next.Writes ∧ ¬ t₁.next.Reads)
    (hoverride : s'.redis StoreKey.override.text = s.redis StoreKey.override.text)
    (huntil : s'.redis StoreKey.overrideUntil.text = s.redis StoreKey.overrideUntil.text)
    (hstanding : s'.standing = s.standing) (hby : s'.providerBy = s.providerBy)
    (hby' : s'.untilBy = s.untilBy) (hcleared : s'.clearedAt = s.clearedAt) :
    OverrideInv codec s' := by
  have hcovered : ∀ held pair, Covered s held pair → Covered s' held pair := by
    intro held pair hpair
    unfold Covered at *
    rw [hcleared]
    exact hpair
  rcases h with ⟨held, hq⟩ | ⟨wid, provider, untilTs, hw⟩
  · refine .quiet held ⟨?_, ?_, ?_, ?_⟩
    · intro id' t' ht'
      rw [htasks] at ht'
      rcases update_eq_some ht' with ⟨-, rfl⟩ | ⟨-, hold⟩
      · exact hafter.1
      · exact hq.idle id' t' hold
    · have hholds := hq.holds
      unfold Holds at *
      rw [hoverride, huntil, hby, hby']
      exact hholds
    · intro pair hpair
      rw [hstanding] at hpair
      exact hcovered held pair (hq.standing pair hpair)
    · intro id' t' ht'
      rw [htasks] at ht'
      rcases update_eq_some ht' with ⟨-, rfl⟩ | ⟨-, hold⟩
      · exact readerOk_of_not_reads hafter.2
      · have hreader := hq.readers id' t' hold
        unfold ReaderOk at *
        rw [hby]
        split at hreader
        · exact fun pair hpair => hcovered held pair (hreader pair hpair)
        · exact ⟨fun pair hpair => hcovered held pair (hreader.1 pair hpair), hreader.2⟩
        · exact hreader
        · trivial
  · have hne : wid ≠ id := by
      rintro rfl
      obtain ⟨tw, htw, hnext⟩ := hw.task
      rw [ht] at htw
      cases htw
      rw [hnext] at hbefore
      exact hbefore trivial
    refine .writing wid provider untilTs ⟨?_, hw.named, ?_, ?_, ?_, ?_, ?_⟩
    · rw [htasks, Function.update_of_ne hne]
      exact hw.task
    · rw [hoverride]
      exact hw.written
    · rw [hby]
      exact hw.by_
    · rw [hstanding]
      exact hw.standing
    · intro id' t' ht' hwrites
      rw [htasks] at ht'
      rcases update_eq_some ht' with ⟨-, rfl⟩ | ⟨-, hold⟩
      · exact absurd hwrites hafter.1
      · exact hw.alone id' t' hold hwrites
    · intro id' t' ht'
      rw [htasks] at ht'
      rcases update_eq_some ht' with ⟨-, rfl⟩ | ⟨-, hold⟩
      · exact waits_of_not_reads hafter.2
      · exact hw.others id' t' hold

/-- A call that writes is alone, and no call that reads has read anything. -/
theorem OverrideInv.writer (h : OverrideInv codec s) (ht : s.tasks id = some t)
    {provider : String} {untilTs : F} (hnext : t.next = .setUntil provider untilTs) :
    Writing s id provider untilTs := by
  have hwrites : t.next.Writes := by
    rw [hnext]
    trivial
  rcases h with ⟨held, hq⟩ | ⟨wid, p, u, hw⟩
  · exact absurd hwrites (hq.idle id t ht)
  · obtain rfl := hw.alone id t ht hwrites
    obtain ⟨t', ht', hnext'⟩ := hw.task
    rw [ht] at ht'
    cases ht'
    rw [hnext] at hnext'
    cases hnext'
    exact hw

/-- Nobody writes while a call is past its first read. -/
theorem OverrideInv.reader (h : OverrideInv codec s) (ht : s.tasks id = some t)
    (hreads : (∃ now provider, t.next = .getUntil now provider) ∨ ∃ now, t.next = .clear now) :
    ∃ held, Quiet codec s held := by
  rcases h with ⟨held, hq⟩ | ⟨wid, p, u, hw⟩
  · exact ⟨held, hq⟩
  · have hwaits := hw.others id t ht
    rcases hreads with ⟨now, provider, hnext⟩ | ⟨now, hnext⟩
    · simp only [Waits, hnext] at hwaits
    · simp only [Waits, hnext] at hwaits

theorem OverrideInv.idle (h : OverrideInv codec s)
    (hidle : ∀ id' t', s.tasks id' = some t' → ¬ t'.next.Writes) :
    ∃ held, Quiet codec s held := by
  rcases h with ⟨held, hq⟩ | ⟨wid, p, u, hw⟩
  · exact ⟨held, hq⟩
  · obtain ⟨t', ht', hnext⟩ := hw.task
    exact absurd (by rw [hnext]; trivial) (hidle wid t' ht')

theorem OverrideInv.start (h : OverrideInv codec s) (id : ℕ) (call : Call F) :
    OverrideInv codec (s.start id call) := by
  unfold State.start
  cases ht : s.tasks id with
  | some t => exact h
  | none =>
      rcases h with ⟨held, hq⟩ | ⟨wid, provider, untilTs, hw⟩
      · refine .quiet held ⟨?_, ?_, ?_, ?_⟩
        · intro id' t' ht'
          rcases update_eq_some ht' with ⟨-, rfl⟩ | ⟨-, hold⟩
          · cases call <;> exact not_false
          · exact hq.idle id' t' hold
        · have hholds := hq.holds
          cases held <;> exact hholds
        · intro pair hpair
          cases call with
          | setOverride provider untilTs => exact absurd hpair List.not_mem_nil
          | _ => exact hq.standing pair hpair
        · intro id' t' ht'
          rcases update_eq_some ht' with ⟨-, rfl⟩ | ⟨-, hold⟩
          · cases call with
            | getOverride now => exact hq.standing
            | _ => trivial
          · exact hq.readers id' t' hold
      · have hne : wid ≠ id := by
          rintro rfl
          obtain ⟨tw, htw, -⟩ := hw.task
          rw [ht] at htw
          cases htw
        refine .writing wid provider untilTs ⟨?_, hw.named, hw.written, hw.by_, ?_, ?_, ?_⟩
        · obtain ⟨tw, htw, hnext⟩ := hw.task
          exact ⟨tw, (Function.update_of_ne hne _ _).trans htw, hnext⟩
        · cases call with
          | setOverride provider untilTs => rfl
          | _ => exact hw.standing
        · intro id' t' ht' hwrites
          rcases update_eq_some ht' with ⟨-, rfl⟩ | ⟨-, hold⟩
          · cases call <;> exact hwrites.elim
          · exact hw.alone id' t' hold hwrites
        · intro id' t' ht'
          rcases update_eq_some ht' with ⟨-, rfl⟩ | ⟨-, hold⟩
          · cases call with
            | getOverride now => exact hw.standing
            | _ => trivial
          · exact hw.others id' t' hold

/-- What another call has seen stays as it was, where the two keys and the clocks do. -/
theorem ReaderOk.congr {s' : State F} {held : Option (String × F)} (h : ReaderOk s held t)
    (hby : s'.providerBy = s.providerBy) (hcleared : s'.clearedAt = s.clearedAt) :
    ReaderOk s' held t := by
  unfold ReaderOk Covered at *
  rw [hby, hcleared]
  exact h

theorem overrideInv_setProvider (ht : s.tasks id = some t)
    {provider : String} {untilTs : F} (hnext : t.next = .setProvider provider untilTs)
    (hord : Orderly s (.exec id time)) : OverrideInv codec (s.exec codec id time t) := by
  have hok := hord t ht
  rw [hnext] at hok
  obtain ⟨hnamed, hstanding, hothers⟩ := hok
  simp only [State.exec, hnext]
  refine .writing id provider untilTs ⟨⟨_, Function.update_self .., rfl⟩, hnamed,
    RedisRouterStore.setProvider_self s.redis, rfl, hstanding, ?_, ?_⟩
  · intro id' t' ht' hwrites
    rcases update_eq_some ht' with ⟨hid, -⟩ | ⟨-, hold⟩
    · exact hid
    · exact absurd hwrites (hothers id' t' hold).1
  · intro id' t' ht'
    rcases update_eq_some ht' with ⟨-, rfl⟩ | ⟨-, hold⟩
    · trivial
    · exact waits_of_not_reads (hothers id' t' hold).2

theorem OverrideInv.setUntil (h : OverrideInv codec s) (ht : s.tasks id = some t)
    {provider : String} {untilTs : F} (hnext : t.next = .setUntil provider untilTs) :
    OverrideInv codec (s.exec codec id time t) := by
  have hw := h.writer ht hnext
  simp only [State.exec, hnext]
  refine .quiet (some (provider, untilTs)) ⟨?_, ⟨?_, ?_, hw.named, hw.by_⟩, ?_, ?_⟩
  · intro id' t' ht' hwrites
    rcases update_eq_some ht' with ⟨-, rfl⟩ | ⟨hne, hold⟩
    · exact hwrites
    · exact hne (hw.alone id' t' hold hwrites)
  · exact (RedisRouterStore.setUntil_of_ne s.redis codec untilTs
      StoreKey.override_ne_until).trans hw.written
  · exact RedisRouterStore.setUntil_self s.redis
  · intro pair hpair
    have hpair' : pair ∈ (provider, untilTs) :: s.standing := hpair
    rw [hw.standing, List.mem_singleton] at hpair'
    exact hpair'
  · intro id' t' ht'
    rcases update_eq_some ht' with ⟨-, rfl⟩ | ⟨-, hold⟩
    · trivial
    · exact readerOk_of_waits (hw.others id' t' hold)

omit [Builtins F] in
theorem Holds.provider {held : Option (String × F)} (h : Holds codec s held) (time : ℤ) :
    s.redis.get time StoreKey.override.text = held.map (fun q => q.1.toList) := by
  cases held with
  | none => exact RedisMap.Server.get_of_none h.1 time
  | some q => exact RedisMap.Server.get_of_lasting h.1 time

omit [Builtins F] in
/-- The reply of `get_override` where its first `GET` has seen what is held. -/
theorem Holds.reply {held : Option (String × F)} (h : Holds codec s held) {provider : Option Text}
    (hprovider : held = none ∨ provider = held.map (fun q => q.1.toList)) (time : ℤ) :
    s.overrideReply codec time provider = held := by
  unfold State.overrideReply
  cases held with
  | none =>
      rw [RedisMap.Server.get_of_none h.2]
      cases provider <;> rfl
  | some q =>
      obtain ⟨name, untilTs⟩ := q
      obtain ⟨-, huntil, hnamed, -⟩ := h
      have hname : name.toList ≠ [] := fun hnil => hnamed (String.toList_eq_nil_iff.mp hnil)
      rw [hprovider.resolve_left (by simp), RedisMap.Server.get_of_lasting huntil, Option.map_some,
        overrideOf, if_pos ⟨hname, codec.repr_ne_nil untilTs⟩, codec.read_repr, String.ofList_toList]

theorem Quiet.goOn {held : Option (String × F)} (h : Quiet codec s held) {t₁ : Task F}
    {s' : State F} (htasks : s'.tasks = Function.update s.tasks id (some t₁))
    (hwrites : ¬ t₁.next.Writes) (hreader : ReaderOk s held t₁) (hredis : s'.redis = s.redis)
    (hstanding : s'.standing = s.standing) (hby : s'.providerBy = s.providerBy)
    (hby' : s'.untilBy = s.untilBy) (hcleared : s'.clearedAt = s.clearedAt) :
    Quiet codec s' held := by
  refine ⟨?_, ?_, ?_, ?_⟩
  · intro id' t' ht'
    rw [htasks] at ht'
    rcases update_eq_some ht' with ⟨-, rfl⟩ | ⟨-, hold⟩
    · exact hwrites
    · exact h.idle id' t' hold
  · have hholds := h.holds
    unfold Holds at *
    rw [hredis, hby, hby']
    exact hholds
  · intro pair hpair
    rw [hstanding] at hpair
    have hcovered := h.standing pair hpair
    unfold Covered at *
    rw [hcleared]
    exact hcovered
  · intro id' t' ht'
    rw [htasks] at ht'
    rcases update_eq_some ht' with ⟨-, rfl⟩ | ⟨-, hold⟩
    · exact hreader.congr hby hcleared
    · exact (h.readers id' t' hold).congr hby hcleared

theorem OverrideInv.getProvider (h : OverrideInv codec s) (ht : s.tasks id = some t) {now : F}
    (hnext : t.next = .getProvider now) (hord : Orderly s (.exec id time)) :
    OverrideInv codec (s.exec codec id time t) := by
  have hok := hord t ht
  rw [hnext] at hok
  obtain ⟨held, hq⟩ := h.idle hok
  have hreader := hq.readers id t ht
  rw [ReaderOk, hnext] at hreader
  simp only [State.exec, hnext]
  exact .quiet held (hq.goOn rfl (not_false)
    ⟨hreader, rfl, .inr (hq.holds.provider time)⟩ rfl rfl rfl rfl rfl)

/-- `get_override` reads the expiry and returns; an override that has ended is to be cleared. -/
theorem OverrideInv.getUntil [Ordered F] (h : OverrideInv codec s) (ht : s.tasks id = some t)
    {now : F} {provider : Option Text} (hnext : t.next = .getUntil now provider) :
    OverrideInv codec (s.exec codec id time t) := by
  obtain ⟨held, hq⟩ := h.reader ht (.inl ⟨now, provider, hnext⟩)
  have hreader := hq.readers id t ht
  rw [ReaderOk, hnext] at hreader
  have hreply := hq.holds.reply hreader.2.2 time
  simp only [State.exec, hnext, hreply]
  cases held with
  | none => exact .quiet none (hq.goOn rfl (not_false) trivial rfl rfl rfl rfl rfl)
  | some q =>
      refine .quiet (some q) (hq.goOn rfl ?_ ?_ rfl rfl rfl rfl rfl)
      · dsimp only
        split_ifs <;> exact not_false
      · by_cases hlive : lt now q.2 = true
        · simp only [ReaderOk, hlive, if_true]
        · have hended : le q.2 now = true := by
            rw [Ordered.lt_eq] at hlive
            simpa using hlive
          simp only [ReaderOk, hlive, Bool.false_eq_true, if_false, Option.mem_def]
          intro q' hq'
          cases hq'
          exact hended

theorem OverrideInv.clear (h : OverrideInv codec s) (ht : s.tasks id = some t) {now : F}
    (hnext : t.next = .clear now) : OverrideInv codec (s.exec codec id time t) := by
  obtain ⟨held, hq⟩ := h.reader ht (.inr ⟨now, hnext⟩)
  have hreader := hq.readers id t ht
  rw [ReaderOk, hnext] at hreader
  have hcovered : ∀ pair, Covered s held pair → ∃ n ∈ now :: s.clearedAt, le pair.2 n = true := by
    intro pair hpair
    cases held with
    | none =>
        obtain ⟨n, hn, hle⟩ := hpair
        exact ⟨n, List.mem_cons_of_mem _ hn, hle⟩
    | some q =>
        obtain rfl : pair = q := hpair
        exact ⟨now, List.mem_cons_self, hreader pair rfl⟩
  simp only [State.exec, hnext]
  refine .quiet none ⟨?_, ⟨RedisRouterStore.clearOverride_override s.redis,
    RedisRouterStore.clearOverride_until s.redis⟩,
    fun pair hpair => hcovered pair (hq.standing pair hpair),
    ?_⟩
  · intro id' t' ht'
    rcases update_eq_some ht' with ⟨-, rfl⟩ | ⟨-, hold⟩
    · exact not_false
    · exact hq.idle id' t' hold
  · intro id' t' ht'
    rcases update_eq_some ht' with ⟨-, rfl⟩ | ⟨-, hold⟩
    · trivial
    · have hother := hq.readers id' t' hold
      unfold ReaderOk at *
      split at hother
      · exact fun pair hpair => hcovered pair (hother pair hpair)
      · exact ⟨fun pair hpair => hcovered pair (hother.1 pair hpair), hother.2.1, .inl rfl⟩
      · exact nofun
      · trivial

theorem OverrideInv.exec [Ordered F] (h : OverrideInv codec s) (ht : s.tasks id = some t)
    (hord : Orderly s (.exec id time)) : OverrideInv codec (s.exec codec id time t) := by
  cases hnext : t.next with
  | block client untilTs =>
      simp only [State.exec, hnext]
      exact h.frame ht rfl (by rw [hnext]; exact not_false) ⟨not_false, not_false⟩
        (RedisRouterStore.blockSource_of_ne s.redis codec untilTs
          (StoreKey.blocked_ne_override client).symm)
        (RedisRouterStore.blockSource_of_ne s.redis codec untilTs
          (StoreKey.blocked_ne_until client).symm)
        rfl rfl rfl rfl
  | probe client now =>
      simp only [State.exec, hnext]
      split <;> exact h.frame ht rfl (by rw [hnext]; exact not_false) ⟨not_false, not_false⟩
        rfl rfl rfl rfl rfl rfl
  | forget client now =>
      simp only [State.exec, hnext]
      exact h.frame ht rfl (by rw [hnext]; exact not_false) ⟨not_false, not_false⟩
        (RedisRouterStore.forget_of_ne s.redis (StoreKey.blocked_ne_override client).symm)
        (RedisRouterStore.forget_of_ne s.redis (StoreKey.blocked_ne_until client).symm)
        rfl rfl rfl rfl
  | setProvider provider untilTs => exact overrideInv_setProvider ht hnext hord
  | setUntil provider untilTs => exact h.setUntil ht hnext
  | getProvider now => exact h.getProvider ht hnext hord
  | getUntil now provider => exact h.getUntil ht hnext
  | clear now => exact h.clear ht hnext
  | done =>
      simp only [State.exec, hnext]
      exact h

/-! ### Whole runs -/

/-- Both invariants. -/
structure Inv (codec : FloatCodec F) (s : State F) : Prop where
  blocks : BlockInv codec s
  override : OverrideInv codec s

theorem Inv.step [Ordered F] (h : Inv codec s) {e : Event F} (hord : Orderly s e) :
    Inv codec (step codec s e) := by
  refine ⟨h.blocks.step hord, ?_⟩
  cases e with
  | start id call => exact h.override.start id call
  | exec id time =>
      rw [Replicas.step]
      cases ht : s.tasks id with
      | none => exact h.override
      | some t => exact h.override.exec ht hord

theorem Inv.kept [Ordered F] (h : Inv codec s) {e : Event F} (hord : Orderly s e) :
    Kept codec s e := by
  cases e with
  | start id call => trivial
  | exec id time =>
      intro t ht
      split
      · rename_i client now hnext
        exact fun untilTs hdue hlive => h.blocks.reply ht hnext hord hdue hlive
      · rename_i now provider hnext
        obtain ⟨held, hq⟩ := h.override.reader ht (.inl ⟨now, provider, hnext⟩)
        have hreader := hq.readers id t ht
        rw [ReaderOk, hnext] at hreader
        obtain ⟨hcovered, hby, hprovider⟩ := hreader
        rw [hq.holds.reply hprovider time]
        refine ⟨fun pair hpair hlive => ?_, fun hsome => ?_⟩
        · have hclock := hord t ht
          rw [hnext] at hclock
          have hpair := hcovered pair hpair
          cases held with
          | none =>
              obtain ⟨n, hn, hended⟩ := hpair
              have hpast := Ordered.le_trans _ _ _ hended (hclock n hn)
              rw [Ordered.lt_eq, hpast] at hlive
              cases hlive
          | some q => rw [show pair = q from hpair]
        · cases held with
          | none => cases hsome
          | some q => exact hby.trans hq.holds.2.2.2
      · trivial

/-- **Blocks last and overrides are read as they were set**, in every run in which no command
spoils another call. -/
theorem shared_store [Ordered F] (codec : FloatCodec F) (events : List (Event F))
    (h : Along (step codec) Orderly .init events) :
    Along (step codec) (Kept codec) .init events :=
  Along.of_invariant (I := Inv codec)
    (fun _ _ hinv hord => ⟨hinv.kept hord, hinv.step hord⟩) ⟨.init, .init⟩ h

end Steps

/-! ### Runs on integers -/

/-- Integers in decimal. -/
def intCodec : FloatCodec ℤ where
  repr := Decimal.intText
  read := Decimal.readInt
  read_repr := Decimal.readInt_intText
  repr_ne_nil x := by
    cases x with
    | ofNat n => exact Nat.toDigits_ne_nil
    | negSucc n => exact List.cons_ne_nil _ _

/-- A client is blocked between the two writes of an override, and both are read at once. -/
def interleaved : List (Event ℤ) :=
  [.start 0 (.blockSource "c" 100), .start 1 (.setOverride "backup" 100), .exec 1 0, .exec 0 0,
    .start 2 (.isBlocked "c" 50), .exec 1 0, .start 3 (.getOverride 50), .exec 3 0, .exec 2 0,
    .exec 3 0]

theorem interleaved_read : Along (step intCodec) (Kept intCodec) .init interleaved := by
  refine shared_store intCodec interleaved
    ⟨trivial, trivial, ?_, ?_, trivial, ?_, trivial, ?_, ?_, ?_, trivial⟩
  · intro t ht
    cases ht
    refine ⟨by decide, rfl, fun id' t' ht' => ?_⟩
    match id' with
    | 0 | 1 => cases ht'; exact ⟨not_false, not_false⟩
    | n + 2 => cases ht'
  · intro t ht
    cases ht
    exact fun u hu => absurd hu List.not_mem_nil
  · intro t ht
    cases ht
    trivial
  · intro t ht
    cases ht
    intro id' t' ht'
    match id' with
    | 0 | 1 | 2 | 3 => cases ht'; exact not_false
    | n + 4 => cases ht'
  · intro t ht
    cases ht
    exact fun n hn => absurd hn List.not_mem_nil
  · intro t ht
    cases ht
    exact fun n hn => absurd hn List.not_mem_nil

/-- The entry of a block that has ended is read, the client is blocked again, and the new block
is deleted. -/
def blockLost : List (Event ℤ) :=
  [.start 0 (.blockSource "c" 50), .exec 0 0, .start 1 (.isBlocked "c" 60), .exec 1 0,
    .start 2 (.blockSource "c" 200), .exec 2 0, .exec 1 0, .start 3 (.isBlocked "c" 70), .exec 3 0]

/-- A reader gets the provider of one call and the expiry of another. -/
def overrideMixed : List (Event ℤ) :=
  [.start 0 (.setOverride "a" 100), .exec 0 0, .exec 0 0, .start 1 (.getOverride 50), .exec 1 0,
    .start 2 (.setOverride "b" 200), .exec 2 0, .exec 2 0, .exec 1 0]

theorem state_spoilt : ¬ Along (step intCodec) (Kept intCodec) .init blockLost ∧
    ¬ Along (step intCodec) (Kept intCodec) .init overrideMixed := by
  refine ⟨?_, ?_⟩
  · rintro ⟨-, -, -, -, -, -, -, -, hkept, -⟩
    have hreply := hkept _ rfl 200 (by decide) (by decide)
    cases hreply
  · rintro ⟨-, -, -, -, -, -, -, -, hkept, -⟩
    have hsame := (hkept _ rfl).2 rfl
    cases hsame

end FirewallLLM.Py.Replicas
