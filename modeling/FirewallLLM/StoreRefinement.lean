import FirewallLLM.CivilDays
import FirewallLLM.RouterReplicas
import FirewallLLM.RouterStores

/-! # The Redis store refines the one in memory

Two stores that simulate each other operation by operation (`Simulates`) give engines that return
and raise the same (`outcomes_eq`).  The relation between the two stores of the source
(`Refines`) leaves out what is never seen again: in memory an expired block stays, in Redis it is
deleted; and a bucket of an earlier day may have expired in Redis.

`redis_refines_memory`: over readings that do not decrease and are not before 1970 the two
engines return and raise the same at every call. -/

namespace FirewallLLM.Py

open Dlp (Text)
open RedisMap (Server)
open Routing (Builtins Ordered RoutingRule RoutingConfig Call severities)
open Routing.Builtins (lt le add sub zero round seconds)

/-- The clock reading of a call. -/
def callTime {F : Type} : Call F ℤ → F
  | .usage now _ _ | .attack now _ _ | .resolve now _ _ => now

/-! ### Simulation of stores -/

section Simulation

variable {S S' F : Type} [Builtins F]

/-- Related stores give the same replies, and stay related; also while time passes. -/
structure Simulates (ops : RouterStateStore S F) (ops' : RouterStateStore S' F)
    (R : F → S → S' → Prop) : Prop where
  getOverride : ∀ {now s s'}, R now s s' → ops.getOverride s now = ops'.getOverride s' now
  setOverride : ∀ {now s s'} (provider untilTs), R now s s' → provider ≠ "" →
    R now (ops.setOverride s provider untilTs) (ops'.setOverride s' provider untilTs)
  clearOverride : ∀ {now s s'}, R now s s' → R now (ops.clearOverride s) (ops'.clearOverride s')
  blockSource : ∀ {now s s'} (client untilTs), R now s s' →
    R now (ops.blockSource s client untilTs) (ops'.blockSource s' client untilTs)
  blocked : ∀ {now s s'} (client), R now s s' →
    (ops.isBlocked s now client).1 = (ops'.isBlocked s' now client).1
  isBlocked : ∀ {now s s'} (client), R now s s' →
    R now (ops.isBlocked s now client).2 (ops'.isBlocked s' now client).2
  incrTokens : ∀ {now s s'} (provider amount), R now s s' →
    R now (ops.incrTokens s now provider amount) (ops'.incrTokens s' now provider amount)
  getTokens : ∀ {now s s'} (provider), R now s s' →
    ops.getTokens s now provider = ops'.getTokens s' now provider
  later : ∀ {now now' s s'}, R now s s' → le now now' = true → R now' s s'

/-- Engines over related stores. -/
structure Related (R : F → S → S' → Prop) (now : F) (e : StoreEngine S F) (e' : StoreEngine S' F) :
    Prop where
  routing : e.routing = e'.routing
  attackTimes : e.attackTimes = e'.attackTimes
  store : R now e.store e'.store

variable {ops : RouterStateStore S F} {ops' : RouterStateStore S' F} {R : F → S → S' → Prop}
  {now : F} {e : StoreEngine S F} {e' : StoreEngine S' F}

theorem truthyName_ne {name : Option String} {target : String} (h : truthyName name = some target) :
    target ≠ "" := by
  have hfilter := (Option.filter_eq_some_iff.mp h).2
  simpa using hfilter

/-- Both give the same, and are related afterwards. -/
def Both {α : Type} (R : F → S → S' → Prop) (now : F) (p : StoreEngine S F × α)
    (p' : StoreEngine S' F × α) : Prop :=
  Related R now p.1 p'.1 ∧ p.2 = p'.2

theorem Related.blockSource (h : Related R now e e') (hsim : Simulates ops ops' R)
    (client : String) :
    Both R now (e.blockSource ops now client) (e'.blockSource ops' now client) := by
  obtain ⟨routing, s, times⟩ := e
  obtain ⟨rfl, rfl, hstore⟩ := h
  unfold StoreEngine.blockSource
  dsimp only
  split_ifs
  · cases (PolicyEngine.toFloat e'.routing.attackFailover.blockTtlSeconds : Except Exn F) with
    | error exc => exact ⟨⟨rfl, rfl, hstore⟩, rfl⟩
    | ok ttl => exact ⟨⟨rfl, rfl, hsim.blockSource _ _ hstore⟩, rfl⟩
  · exact ⟨⟨rfl, rfl, hstore⟩, rfl⟩

theorem Related.switchProvider (h : Related R now e e') (hsim : Simulates ops ops' R) :
    Both R now (e.switchProvider ops now) (e'.switchProvider ops' now) := by
  obtain ⟨routing, s, times⟩ := e
  obtain ⟨rfl, rfl, hstore⟩ := h
  unfold StoreEngine.switchProvider
  dsimp only
  cases hname : truthyName e'.routing.attackFailover.switchTo with
  | none => exact ⟨⟨rfl, rfl, hstore⟩, rfl⟩
  | some target =>
      dsimp only
      cases (PolicyEngine.toFloat e'.routing.attackFailover.cooldownSeconds : Except Exn F) with
      | error exc => exact ⟨⟨rfl, rfl, hstore⟩, rfl⟩
      | ok cooldown =>
          exact ⟨⟨rfl, rfl, hsim.setOverride _ _ hstore (truthyName_ne hname)⟩, rfl⟩

theorem Related.onAttackDetected (h : Related R now e e') (hsim : Simulates ops ops' R)
    (severity client : String) :
    Both R now (e.onAttackDetected ops now severity client)
      (e'.onAttackDetected ops' now severity client) := by
  obtain ⟨routing, s, times⟩ := e
  obtain ⟨routing, s', times⟩ := e'
  obtain ⟨rfl, rfl, hstore⟩ := h
  have hrecent : ∀ window, StoreEngine.recentAttacks ⟨routing, s, times⟩ now window client =
      StoreEngine.recentAttacks ⟨routing, s', times⟩ now window client := fun _ => rfl
  have hsame : Related R now (⟨routing, s, times⟩ : StoreEngine S F) ⟨routing, s', times⟩ :=
    ⟨rfl, rfl, hstore⟩
  unfold StoreEngine.onAttackDetected
  dsimp only
  split_ifs
  · exact ⟨hsame, rfl⟩
  · cases severities.lookup severity with
    | none => exact ⟨hsame, rfl⟩
    | some rank =>
        cases severities.lookup routing.attackFailover.minSeverity with
        | none => exact ⟨hsame, rfl⟩
        | some minRank =>
            dsimp only
            split_ifs
            · exact ⟨hsame, rfl⟩
            · cases (PolicyEngine.toFloat routing.attackFailover.windowSeconds : Except Exn F) with
              | error exc => exact ⟨hsame, rfl⟩
              | ok window =>
                  dsimp only
                  rw [hrecent]
                  split_ifs
                  · exact ⟨⟨rfl, rfl, hstore⟩, rfl⟩
                  · have hcleared : Related R now
                        (⟨routing, s, Function.update times client []⟩ : StoreEngine S F)
                        ⟨routing, s', Function.update times client []⟩ := ⟨rfl, rfl, hstore⟩
                    obtain ⟨hblock, hraised⟩ := hcleared.blockSource hsim client
                    revert hblock hraised
                    generalize StoreEngine.blockSource ops _ now client = p
                    generalize StoreEngine.blockSource ops' _ now client = p'
                    intro hblock hraised
                    obtain ⟨e₁, raised⟩ := p
                    obtain ⟨e₁', raised'⟩ := p'
                    obtain rfl : raised = raised' := hraised
                    cases raised with
                    | some exc => exact ⟨hblock, rfl⟩
                    | none => exact Related.switchProvider hblock hsim

theorem Related.chainCandidates (h : Related R now e e') (hsim : Simulates ops ops' R) :
    (e.chainCandidates ops now).1 = (e'.chainCandidates ops' now).1 ∧
      Related R now (e.chainCandidates ops now).2 (e'.chainCandidates ops' now).2 := by
  obtain ⟨routing, s, times⟩ := e
  obtain ⟨rfl, rfl, hstore⟩ := h
  unfold StoreEngine.chainCandidates
  dsimp only
  rw [hsim.getOverride hstore]
  cases ops'.getOverride e'.store now with
  | none => exact ⟨rfl, rfl, rfl, hstore⟩
  | some pair =>
      dsimp only
      split_ifs
      · exact ⟨rfl, rfl, rfl, hstore⟩
      · exact ⟨rfl, rfl, rfl, hsim.clearOverride hstore⟩

theorem Related.violating (h : Related R now e e') (hsim : Simulates ops ops' R)
    (provider : String) (rules : List (RoutingRule F)) :
    e.violating ops now provider rules = e'.violating ops' now provider rules := by
  induction rules with
  | nil => rfl
  | cons rule rules ih =>
      rw [StoreEngine.violating, StoreEngine.violating, ih]
      unfold StoreEngine.violatesRule
      rw [hsim.getTokens provider h.store]

theorem Related.loop (h : Related R now e e') (hsim : Simulates ops ops' R)
    (requestedModel : String) (candidates : List String) :
    e.loop ops now requestedModel candidates = e'.loop ops' now requestedModel candidates := by
  have hturn : e.turn ops now candidates = e'.turn ops' now candidates := by
    funext candidate
    unfold StoreEngine.turn
    rw [h.violating hsim, h.routing]
  unfold StoreEngine.loop
  rw [hturn, h.routing]

theorem Related.resolve (h : Related R now e e') (hsim : Simulates ops ops' R)
    (requestedModel clientId : String) :
    (e.resolve ops now requestedModel clientId).1 =
        (e'.resolve ops' now requestedModel clientId).1 ∧
      Related R now (e.resolve ops now requestedModel clientId).2
        (e'.resolve ops' now requestedModel clientId).2 := by
  have hreply := hsim.blocked clientId h.store
  have hchecked : Related R now { e with store := (ops.isBlocked e.store now clientId).2 }
      { e' with store := (ops'.isBlocked e'.store now clientId).2 } :=
    ⟨h.routing, h.attackTimes, hsim.isBlocked clientId h.store⟩
  unfold StoreEngine.resolve
  revert hreply hchecked
  generalize ops.isBlocked e.store now clientId = p
  generalize ops'.isBlocked e'.store now clientId = p'
  intro hreply hchecked
  obtain ⟨blocked, s₁⟩ := p
  obtain ⟨blocked', s₁'⟩ := p'
  obtain rfl : blocked = blocked' := hreply
  obtain ⟨hcandidates, hstate⟩ := hchecked.chainCandidates hsim
  dsimp only at hcandidates hstate ⊢
  split_ifs
  · exact ⟨rfl, hchecked⟩
  · refine ⟨?_, hstate⟩
    dsimp only
    rw [hcandidates]
    exact hstate.loop hsim requestedModel _

theorem Related.step {c : Call F ℤ} (h : Related R (callTime c) e e') (hsim : Simulates ops ops' R) :
    (e.step ops c).1 = (e'.step ops' c).1 ∧
      Related R (callTime c) (e.step ops c).2 (e'.step ops' c).2 := by
  cases c with
  | usage now provider totalTokens =>
      exact ⟨rfl, h.routing, h.attackTimes, hsim.incrTokens provider totalTokens h.store⟩
  | attack now severity client =>
      obtain ⟨hstate, hraised⟩ := h.onAttackDetected hsim severity client
      exact ⟨congrArg Outcome.event hraised, hstate⟩
  | resolve now requestedModel clientId =>
      obtain ⟨hresult, hstate⟩ := h.resolve hsim requestedModel clientId
      exact ⟨congrArg Outcome.resolved hresult, hstate⟩

/-- The readings do not decrease, from one on. -/
def Clocked : F → List (Call F ℤ) → Prop
  | _, [] => True
  | now, c :: calls => le now (callTime c) = true ∧ Clocked (callTime c) calls

/-- **Engines over stores that simulate each other return and raise the same.** -/
theorem outcomes_eq (hsim : Simulates ops ops' R) {calls : List (Call F ℤ)}
    (h : Related R now e e') (hclock : Clocked now calls) :
    e.outcomes ops calls = e'.outcomes ops' calls := by
  induction calls generalizing now e e' with
  | nil => rfl
  | cons c calls ih =>
      obtain ⟨hle, hrest⟩ := hclock
      have hnow : Related R (callTime c) e e' := ⟨h.routing, h.attackTimes, hsim.later h.store hle⟩
      obtain ⟨houtcome, hstate⟩ := hnow.step hsim
      rw [StoreEngine.outcomes, StoreEngine.outcomes, houtcome, ih hstate hrest]

end Simulation

/-! ### The two stores -/

section Refinement

variable {F : Type} [Builtins F]

/-- The entry of a client: its block, or nothing where that has expired. -/
def BlockRefines (codec : FloatCodec F) (now : F) (entry : Option RedisMap.Entry)
    (blocked : Option F) : Prop :=
  match entry with
  | some entry => ∃ untilTs, blocked = some untilTs ∧ entry = ⟨codec.repr untilTs, none⟩
  | none => ∀ untilTs ∈ blocked, le untilTs now = true

/-- The bucket of a day: its count, which lasts until the day is over. -/
def BucketRefines (day : ℤ) (entry : Option RedisMap.Entry) (tokens : ℤ) : Prop :=
  match entry with
  | some entry => ∃ expiry, entry = ⟨Decimal.intText tokens, some expiry⟩ ∧
      (day + 1) * 86400000 ≤ expiry
  | none => tokens = 0

/-- The two keys of the override. -/
def OverrideRefines (codec : FloatCodec F) (r : Server) : Option (String × F) → Prop
  | some (provider, untilTs) =>
      r StoreKey.override.text = some ⟨provider.toList, none⟩ ∧
      r StoreKey.overrideUntil.text = some ⟨codec.repr untilTs, none⟩ ∧ provider ≠ ""
  | none => r StoreKey.override.text = none ∧ r StoreKey.overrideUntil.text = none

/-- The server holds what the store in memory would still tell. -/
structure Refines (codec : FloatCodec F) (now : F) (m : InMemoryRouterStore F) (r : Server) :
    Prop where
  epoch : le zero now = true
  override : OverrideRefines codec r m.override
  blocked : ∀ client, BlockRefines codec now (r (StoreKey.blocked client).text) (m.blocked client)
  tokens : ∀ provider secs, BucketRefines (secs / 86400)
    (r (StoreKey.tokens provider (Quota.dayString secs)).text) (m.tokens (provider, secs / 86400))

theorem dated_tokens (provider : String) (secs : ℤ) :
    (StoreKey.tokens provider (Quota.dayString secs)).Dated := Quota.colon_not_mem_dayString secs

theorem tokens_ne_override (provider : String) (secs : ℤ) :
    (StoreKey.tokens provider (Quota.dayString secs)).text ≠ StoreKey.override.text := fun h =>
  StoreKey.noConfusion (@StoreKey.text_inj _ .override (dated_tokens provider secs) trivial h)

theorem tokens_ne_until (provider : String) (secs : ℤ) :
    (StoreKey.tokens provider (Quota.dayString secs)).text ≠ StoreKey.overrideUntil.text :=
  fun h => StoreKey.noConfusion
    (@StoreKey.text_inj _ .overrideUntil (dated_tokens provider secs) trivial h)

theorem tokens_ne_blocked (provider : String) (secs : ℤ) (client : String) :
    (StoreKey.tokens provider (Quota.dayString secs)).text ≠ (StoreKey.blocked client).text :=
  fun h => StoreKey.noConfusion
    (@StoreKey.text_inj _ (.blocked client) (dated_tokens provider secs) trivial h)

/-- The buckets of different providers or days have different keys. -/
theorem tokens_inj {p p' : String} {t t' : ℤ}
    (h : (StoreKey.tokens p (Quota.dayString t)).text =
      (StoreKey.tokens p' (Quota.dayString t')).text) : p = p' ∧ t / 86400 = t' / 86400 := by
  obtain ⟨hp, hday⟩ := StoreKey.tokens.inj
    (StoreKey.text_inj (dated_tokens p t) (dated_tokens p' t') h)
  exact ⟨hp, Quota.dayString_inj.mp hday⟩

variable {codec : FloatCodec F} {clock : RedisClock F} {now : F} {m : InMemoryRouterStore F}
  {r : Server}

/-- A bucket that is read on its day has not expired. -/
theorem Refines.get_tokens (h : Refines codec now m r) (provider : String) :
    (r.get (clock.millis now) (StoreKey.tokens provider (dayOf now)).text).elim 0 Decimal.readInt =
      m.tokens (provider, PolicyEngine.day now) := by
  have hbucket := h.tokens provider (seconds now)
  unfold BucketRefines at hbucket
  unfold dayOf PolicyEngine.day
  cases hentry : r (StoreKey.tokens provider (Quota.dayString (seconds now))).text with
  | none =>
      rw [hentry] at hbucket
      rw [RedisMap.Server.get_of_none hentry]
      exact hbucket.symm
  | some entry =>
      rw [hentry] at hbucket
      obtain ⟨expiry, rfl, hlasts⟩ := hbucket
      have hlive : clock.millis now < expiry := by
        rw [clock.seconds_eq] at hlasts
        omega
      have hget := RedisMap.Server.get_eq_some.mpr
        ⟨_, hentry, by simpa [RedisMap.Entry.live] using hlive, rfl⟩
      rw [hget]
      exact Decimal.readInt_intText _

theorem getTokens_eq (provider : String) :
    (redis codec clock).getTokens r now provider =
      (r.get (clock.millis now) (StoreKey.tokens provider (dayOf now)).text).elim 0
        Decimal.readInt := by
  show RedisRouterStore.getTokens r (clock.millis now) provider (dayOf now) = _
  unfold RedisRouterStore.getTokens
  cases r.get (clock.millis now) (StoreKey.tokens provider (dayOf now)).text with
  | none => rfl
  | some raw =>
      dsimp only [Option.elim]
      split_ifs with hraw
      · rfl
      · rw [not_not] at hraw
        rw [hraw]
        rfl

omit [Builtins F] in
theorem OverrideRefines.congr {r' : Server} {held : Option (String × F)}
    (h : OverrideRefines codec r held)
    (hoverride : r' StoreKey.override.text = r StoreKey.override.text)
    (huntil : r' StoreKey.overrideUntil.text = r StoreKey.overrideUntil.text) :
    OverrideRefines codec r' held := by
  unfold OverrideRefines at *
  rw [hoverride, huntil]
  exact h

omit [Builtins F] in
theorem OverrideRefines.reply (h : OverrideRefines codec r m.override) (time : ℤ) :
    RedisRouterStore.getOverride codec r time = m.override := by
  unfold RedisRouterStore.getOverride
  cases hheld : m.override with
  | none =>
      rw [hheld] at h
      rw [RedisMap.Server.get_of_none h.1]
      rfl
  | some pair =>
      rw [hheld] at h
      obtain ⟨hoverride, huntil, hnamed⟩ := h
      have hname : pair.1.toList ≠ [] := fun hnil => hnamed (String.toList_eq_nil_iff.mp hnil)
      rw [RedisMap.Server.get_of_lasting hoverride, RedisMap.Server.get_of_lasting huntil, overrideOf,
        if_pos ⟨hname, codec.repr_ne_nil _⟩, codec.read_repr, String.ofList_toList]

theorem Refines.setOverride (h : Refines codec now m r) (provider : String) (untilTs : F)
    (hnamed : provider ≠ "") : Refines codec now (memory.setOverride m provider untilTs)
      ((redis codec clock).setOverride r provider untilTs) := by
  have hother : ∀ {key}, key ≠ StoreKey.override.text → key ≠ StoreKey.overrideUntil.text →
      RedisRouterStore.setOverride codec r provider untilTs key = r key := fun h₁ h₂ =>
    (RedisRouterStore.setUntil_of_ne _ codec untilTs h₂).trans
      (RedisRouterStore.setProvider_of_ne r provider h₁)
  refine ⟨h.epoch, ⟨?_, RedisRouterStore.setUntil_self (RedisRouterStore.setProvider r provider),
    hnamed⟩, fun client => ?_, fun provider' secs => ?_⟩
  · exact (RedisRouterStore.setUntil_of_ne _ codec untilTs StoreKey.override_ne_until).trans
      (RedisRouterStore.setProvider_self r)
  · show BlockRefines codec now (RedisRouterStore.setOverride codec r provider untilTs
      (StoreKey.blocked client).text) (m.blocked client)
    rw [hother (StoreKey.blocked_ne_override client) (StoreKey.blocked_ne_until client)]
    exact h.blocked client
  · show BucketRefines (secs / 86400) (RedisRouterStore.setOverride codec r provider untilTs
      (StoreKey.tokens provider' (Quota.dayString secs)).text) (m.tokens (provider', secs / 86400))
    rw [hother (tokens_ne_override provider' secs) (tokens_ne_until provider' secs)]
    exact h.tokens provider' secs

theorem Refines.clearOverride (h : Refines codec now m r) :
    Refines codec now (memory.clearOverride m) ((redis codec clock).clearOverride r) := by
  refine ⟨h.epoch, ⟨RedisRouterStore.clearOverride_override r,
    RedisRouterStore.clearOverride_until r⟩, fun client => ?_, fun provider secs => ?_⟩
  · show BlockRefines codec now (RedisRouterStore.clearOverride r (StoreKey.blocked client).text)
      (m.blocked client)
    rw [RedisRouterStore.clearOverride_of_ne r (StoreKey.blocked_ne_override client)
      (StoreKey.blocked_ne_until client)]
    exact h.blocked client
  · show BucketRefines (secs / 86400) (RedisRouterStore.clearOverride r
      (StoreKey.tokens provider (Quota.dayString secs)).text) (m.tokens (provider, secs / 86400))
    rw [RedisRouterStore.clearOverride_of_ne r (tokens_ne_override provider secs)
      (tokens_ne_until provider secs)]
    exact h.tokens provider secs

theorem Refines.blockSource (h : Refines codec now m r) (client : String) (untilTs : F) :
    Refines codec now (memory.blockSource m client untilTs)
      ((redis codec clock).blockSource r client untilTs) := by
  refine ⟨h.epoch, h.override.congr
    (RedisRouterStore.blockSource_of_ne r codec untilTs (StoreKey.blocked_ne_override client).symm)
    (RedisRouterStore.blockSource_of_ne r codec untilTs (StoreKey.blocked_ne_until client).symm),
    fun client' => ?_, fun provider secs => ?_⟩
  · show BlockRefines codec now (RedisRouterStore.blockSource codec r client untilTs
      (StoreKey.blocked client').text) (Function.update m.blocked client (some untilTs) client')
    by_cases hclient : client' = client
    · subst hclient
      rw [RedisRouterStore.blockSource_self, Function.update_self]
      exact ⟨untilTs, rfl, rfl⟩
    · rw [RedisRouterStore.blockSource_of_ne r codec untilTs (StoreKey.blocked_ne hclient),
        Function.update_of_ne hclient]
      exact h.blocked client'
  · show BucketRefines (secs / 86400) (RedisRouterStore.blockSource codec r client untilTs
      (StoreKey.tokens provider (Quota.dayString secs)).text) (m.tokens (provider, secs / 86400))
    rw [RedisRouterStore.blockSource_of_ne r codec untilTs (tokens_ne_blocked provider secs client)]
    exact h.tokens provider secs

theorem Refines.forget (h : Refines codec now m r) {client : String}
    (hended : ∀ untilTs ∈ m.blocked client, le untilTs now = true) :
    Refines codec now m (RedisRouterStore.forget r client) := by
  refine ⟨h.epoch, h.override.congr
    (RedisRouterStore.forget_of_ne r (StoreKey.blocked_ne_override client).symm)
    (RedisRouterStore.forget_of_ne r (StoreKey.blocked_ne_until client).symm),
    fun client' => ?_, fun provider secs => ?_⟩
  · by_cases hclient : client' = client
    · subst hclient
      rw [RedisRouterStore.forget_self]
      exact hended
    · rw [RedisRouterStore.forget_of_ne r (StoreKey.blocked_ne hclient)]
      exact h.blocked client'
  · rw [RedisRouterStore.forget_of_ne r (tokens_ne_blocked provider secs client)]
    exact h.tokens provider secs

/-- `is_blocked`: an entry that has expired is deleted on one side only. -/
theorem Refines.isBlocked [Ordered F] (h : Refines codec now m r) (client : String) :
    (memory.isBlocked m now client).1 = ((redis codec clock).isBlocked r now client).1 ∧
      Refines codec now m ((redis codec clock).isBlocked r now client).2 := by
  show lt now ((m.blocked client).getD zero) =
      (RedisRouterStore.isBlocked codec r (clock.millis now) client now).1 ∧
    Refines codec now m (RedisRouterStore.isBlocked codec r (clock.millis now) client now).2
  have hblock := h.blocked client
  unfold BlockRefines at hblock
  unfold RedisRouterStore.isBlocked
  cases hentry : r (StoreKey.blocked client).text with
  | none =>
      rw [hentry] at hblock
      rw [RedisMap.Server.get_of_none hentry]
      refine ⟨?_, h⟩
      show lt now ((m.blocked client).getD zero) = false
      rw [Ordered.lt_eq]
      cases hm : m.blocked client with
      | none => rw [Option.getD_none, h.epoch, Bool.not_true]
      | some untilTs => rw [Option.getD_some, hblock untilTs hm, Bool.not_true]
  | some entry =>
      rw [hentry] at hblock
      obtain ⟨untilTs, hm, rfl⟩ := hblock
      rw [RedisMap.Server.get_of_lasting hentry, RedisRouterStore.verdict, codec.read_repr, hm,
        Option.getD_some, Ordered.lt_eq]
      by_cases hended : le untilTs now = true
      · rw [if_pos hended, hended]
        refine ⟨rfl, h.forget fun u hu => ?_⟩
        rw [hm] at hu
        cases hu
        exact hended
      · rw [if_neg hended]
        rw [Bool.not_eq_true] at hended
        rw [hended]
        exact ⟨rfl, h⟩

theorem Refines.incrTokens (h : Refines codec now m r) (provider : String) (amount : ℤ) :
    Refines codec now (memory.incrTokens m now provider amount)
      ((redis codec clock).incrTokens r now provider amount) := by
  have hcommand : (redis codec clock).incrTokens r now provider amount =
      Function.update r (StoreKey.tokens provider (dayOf now)).text
        (some ⟨Decimal.intText (m.tokens (provider, PolicyEngine.day now) + amount),
          some (clock.millis now + 60 * 60 * 48 * 1000)⟩) := by
    rw [← @Refines.get_tokens _ _ _ clock _ _ _ h provider]
    exact RedisMap.Server.expire_incrby ..
  rw [hcommand]
  unfold dayOf
  refine ⟨h.epoch, h.override.congr
    (Function.update_of_ne (tokens_ne_override provider (seconds now)).symm _ _)
    (Function.update_of_ne (tokens_ne_until provider (seconds now)).symm _ _),
    fun client => ?_, fun provider' secs => ?_⟩
  · rw [Function.update_of_ne (tokens_ne_blocked provider (seconds now) client).symm]
    exact h.blocked client
  · show BucketRefines (secs / 86400) _ (Function.update m.tokens
      (provider, PolicyEngine.day now) _ (provider', secs / 86400))
    by_cases hkey : (StoreKey.tokens provider' (Quota.dayString secs)).text =
        (StoreKey.tokens provider (Quota.dayString (seconds now))).text
    · obtain ⟨rfl, hday⟩ := @tokens_inj _ _ secs (seconds now) hkey
      rw [hkey, Function.update_self, hday]
      show BucketRefines _ _ (Function.update m.tokens (provider', seconds now / 86400) _ _)
      rw [Function.update_self]
      refine ⟨_, rfl, ?_⟩
      rw [clock.seconds_eq]
      omega
    · have hne : (provider', secs / 86400) ≠ (provider, PolicyEngine.day now) := by
        intro heq
        obtain ⟨rfl, hday⟩ := Prod.mk.inj heq
        exact hkey (by rw [Quota.dayString_inj.mpr hday])
      rw [Function.update_of_ne hkey, Function.update_of_ne hne]
      exact h.tokens provider' secs

/-- **The store in Redis simulates the one in memory.** -/
theorem redis_simulates [Ordered F] (codec : FloatCodec F) (clock : RedisClock F) :
    Simulates memory (redis codec clock) (Refines codec) where
  getOverride h := (h.override.reply _).symm
  setOverride provider untilTs h hnamed := h.setOverride provider untilTs hnamed
  clearOverride h := h.clearOverride
  blockSource client untilTs h := h.blockSource client untilTs
  blocked client h := (h.isBlocked client).1
  isBlocked client h := (h.isBlocked client).2
  incrTokens provider amount h := h.incrTokens provider amount
  getTokens provider h := by
    rw [getTokens_eq, h.get_tokens]
    rfl
  later h hle := by
    refine ⟨Ordered.le_trans _ _ _ h.epoch hle, h.override, fun client => ?_, h.tokens⟩
    have hblock := h.blocked client
    unfold BlockRefines at *
    split at hblock
    · exact hblock
    · exact fun untilTs hm => Ordered.le_trans _ _ _ (hblock untilTs hm) hle

theorem refines_new (codec : FloatCodec F) (h : le zero (zero : F) = true) :
    Refines codec (zero : F) ⟨none, fun _ => none, fun _ => 0⟩ (fun _ => none) :=
  ⟨h, ⟨rfl, rfl⟩, fun _ => nofun, fun _ _ => rfl⟩

/-- The readings do not decrease. -/
def NonDecreasing (calls : List (Call F ℤ)) : Prop :=
  calls.Pairwise (fun c c' => le (callTime c) (callTime c') = true)

theorem clocked_of_nonDecreasing {now : F} {calls : List (Call F ℤ)} (h : NonDecreasing calls)
    (hnow : ∀ c ∈ calls, le now (callTime c) = true) : Clocked now calls := by
  induction calls generalizing now with
  | nil => trivial
  | cons c calls ih =>
      obtain ⟨hc, hcalls⟩ := List.pairwise_cons.mp h
      exact ⟨hnow c List.mem_cons_self, ih hcalls hc⟩

/-- An engine over an empty store. -/
def StoreEngine.new {S : Type} (routing : RoutingConfig F) (store : S) : StoreEngine S F :=
  ⟨routing, store, fun _ => []⟩

def InMemoryRouterStore.empty : InMemoryRouterStore F := ⟨none, fun _ => none, fun _ => 0⟩

/-- **Over either store the engine returns and raises the same**, at readings that do not
decrease and are not before 1970. -/
theorem redis_refines_memory [Ordered F] (codec : FloatCodec F) (clock : RedisClock F)
    (routing : RoutingConfig F) (calls : List (Call F ℤ)) (hclock : NonDecreasing calls)
    (hepoch : ∀ c ∈ calls, le zero (callTime c) = true) :
    (StoreEngine.new routing InMemoryRouterStore.empty).outcomes memory calls =
      (StoreEngine.new routing (fun _ => none : Server)).outcomes (redis codec clock) calls :=
  outcomes_eq (redis_simulates codec clock)
    ⟨rfl, rfl, refines_new codec (Ordered.le_refl zero)⟩ (clocked_of_nonDecreasing hclock hepoch)

end Refinement

/-! ### Runs on integers -/

def integerClock : RedisClock ℤ where
  millis x := x * 1000
  seconds_eq x := by
    show x = x * 1000 / 1000
    omega

/-- An attack switches to the backup and blocks its source for a minute. -/
def failoverRouting : RoutingConfig ℤ where
  defaultChain := ["primary"]
  modelMapping := []
  rules := []
  attackFailover := ⟨true, 1, 60, "high", some "backup", true, 60, 300⟩
  stateStore := "redis"

theorem attack_refined :
    (StoreEngine.new failoverRouting InMemoryRouterStore.empty).outcomes memory
        [.attack 100 "high" "c", .resolve 110 "m" "c", .resolve 400 "m" "c"] =
      (StoreEngine.new failoverRouting (fun _ => none : Server)).outcomes
        (redis Replicas.intCodec integerClock)
        [.attack 100 "high" "c", .resolve 110 "m" "c", .resolve 400 "m" "c"] :=
  redis_refines_memory Replicas.intCodec integerClock failoverRouting _
    (by unfold NonDecreasing; decide) (by decide)

/-- Before 1970 the store in memory takes every client for blocked. -/
theorem refinement_fails_before_epoch : NonDecreasing ([.resolve (-1) "m" "c"] : List (Call ℤ ℤ)) ∧
    (StoreEngine.new failoverRouting InMemoryRouterStore.empty).outcomes memory
        [.resolve (-1) "m" "c"] ≠
      (StoreEngine.new failoverRouting (fun _ => none : Server)).outcomes
        (redis Replicas.intCodec integerClock) [.resolve (-1) "m" "c"] := by
  refine ⟨List.pairwise_singleton _ _, fun h => ?_⟩
  cases h

end FirewallLLM.Py
